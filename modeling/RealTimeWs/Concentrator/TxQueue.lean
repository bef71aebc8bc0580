import RealTimeWs.Concentrator.Scatter
import RealTimeWs.Memory.Queue

/-! # The transmit ring as a queue

The stack hands chains to the driver and the DMA works through the descriptors, each at
its own pace. Between them the ring is a queue of frames. The DMA is the hardware; it
appears here only by what it does to the descriptors.
-/

namespace RealTimeWs

open Memory

local instance neZero_ethTxBufNb : NeZero ethTxBufNb := ⟨Nat.succ_ne_zero 3⟩

/-- Set up the ring: no descriptor is the DMA's, and the first one is the current one. -/
def halEthDmaTxDescListInit (heth : EthHandle) (txBuff : Fin ethTxBufNb → List UInt8) :
    HalStatus × EthHandle :=
  if heth.locked then (.busy, heth)
  else (.ok, { heth with
    txDesc := 0
    txDescs := fun i => ⟨false, false, false, (heth.txDescs i).controlBufferSize, txBuff i⟩
    state := .ready })

/-- What the DMA reads from a descriptor: the bytes of the frame so far, and the frame if this is
its last segment. -/
def transmitDesc (begun : List UInt8) (desc : TxDesc) : List UInt8 × List (List UInt8) :=
  let bytes := (if desc.firstSegment then [] else begun) ++
    desc.buffer.take desc.controlBufferSize
  if desc.lastSegment then ([], [bytes]) else (bytes, [])

/-- The driver and the DMA. The DMA starts at the first descriptor of the list. What it has sent and
what the driver has accepted is kept for the proofs. -/
structure TxSystem where
  heth : EthHandle
  dmaDesc : Fin ethTxBufNb
  begun : List UInt8
  sent : List (List UInt8)
  accepted : List (List UInt8)

/-- The ring has been set up, and nothing has been sent. -/
def TxSystem.start (heth : EthHandle) (txBuff : Fin ethTxBufNb → List UInt8) : TxSystem where
  heth := (halEthDmaTxDescListInit heth txBuff).2
  dmaDesc := 0
  begun := []
  sent := []
  accepted := []

/-- The stack hands a chain to the driver. A chain without bytes is no frame. -/
def TxSystem.output (s : TxSystem) (p : List (List UInt8)) : TxSystem :=
  { s with
    heth := (lowLevelOutput p s.heth).2
    accepted :=
      if (lowLevelOutput p s.heth).1 = .ok ∧ p.flatten ≠ [] then s.accepted ++ [p.flatten]
      else s.accepted }

/-- The DMA sends what the next descriptor holds and gives it back. If that is not its own, it stops
until it is told to go on. -/
def TxSystem.transmit (s : TxSystem) : TxSystem :=
  let desc := s.heth.txDescs s.dmaDesc
  if s.heth.bufferUnavailable then s
  else if desc.own then
    { s with
      heth := { s.heth with
        txDescs := Function.update s.heth.txDescs s.dmaDesc { desc with own := false } }
      dmaDesc := s.dmaDesc + 1
      begun := (transmitDesc s.begun desc).1
      sent := s.sent ++ (transmitDesc s.begun desc).2 }
  else { s with heth := { s.heth with bufferUnavailable := true } }

/-- The driver is called, or the DMA transmits from its descriptor. -/
inductive TxAction where
  | output (p : List (List UInt8))
  | transmit

/-- What an action does. -/
def TxSystem.step (s : TxSystem) : TxAction → TxSystem
  | .output p => s.output p
  | .transmit => s.transmit

/-- One action after the other. -/
def TxSystem.run (s : TxSystem) (actions : List TxAction) : TxSystem :=
  actions.foldl TxSystem.step s

/-! ## What the driver leaves alone -/

/-- Descriptors of the DMA stay as they are, and the others keep the size of their buffers. -/
structure Kept (descs descs' : Fin ethTxBufNb → TxDesc) : Prop where
  owned : ∀ desc, (descs desc).own = true → descs' desc = descs desc
  owners : SameOwners descs descs'
  sizes : (∀ desc, (descs desc).buffer.length = ethTxBufSize) →
    ∀ desc, (descs' desc).buffer.length = ethTxBufSize

theorem Kept.refl (descs : Fin ethTxBufNb → TxDesc) : Kept descs descs where
  owned := fun _ _ => rfl
  owners := fun _ => rfl
  sizes := fun hsizes => hsizes

theorem Kept.trans {descs descs' descs'' : Fin ethTxBufNb → TxDesc} (hfirst : Kept descs descs')
    (hsecond : Kept descs' descs'') : Kept descs descs'' where
  owned := by
    intro desc hown
    rw [hsecond.owned desc (by rw [hfirst.owners, hown]), hfirst.owned desc hown]
  owners := fun desc => (hsecond.owners desc).trans (hfirst.owners desc)
  sizes := fun hsizes => hsecond.sizes (hfirst.sizes hsizes)

theorem FrameCopy.memcpy_kept {copy : FrameCopy} {bytes : List UInt8}
    (hfree : (copy.txDescs copy.dmaTxDesc).own = false)
    (hfits : copy.bufferoffset + bytes.length ≤ ethTxBufSize) :
    Kept copy.txDescs (copy.memcpy bytes).txDescs where
  owned := by
    intro desc hown
    apply copy.memcpy_of_ne
    rintro rfl
    rw [hfree] at hown
    cases hown
  owners := copy.memcpy_owners bytes
  sizes := by
    intro hsizes desc
    by_cases hdesc : desc = copy.dmaTxDesc
    · rw [hdesc, copy.memcpy_self, length_overwrite (by rw [hsizes]; exact hfits), hsizes]
    · rw [copy.memcpy_of_ne bytes hdesc, hsizes]

/-- A copy writes only to descriptors that it has found free. -/
inductive CopyKept (descs : Fin ethTxBufNb → TxDesc) : Except FrameCopy FrameCopy → Prop where
  | done {copy : FrameCopy} (hkept : Kept descs copy.txDescs)
      (hoffset : copy.bufferoffset ≤ ethTxBufSize) : CopyKept descs (.ok copy)
  | stopped {copy : FrameCopy} (hkept : Kept descs copy.txDescs) : CopyKept descs (.error copy)

theorem CopyKept.earlier {descs descs' : Fin ethTxBufNb → TxDesc}
    {result : Except FrameCopy FrameCopy} (hkept : Kept descs descs')
    (hcopy : CopyKept descs' result) : CopyKept descs result := by
  cases hcopy with
  | done hlater hoffset => exact .done (hkept.trans hlater) hoffset
  | stopped hlater => exact .stopped (hkept.trans hlater)

theorem copyPayload_kept {fuel : Nat} {bytes : List UInt8} {copy : FrameCopy}
    (hfree : (copy.txDescs copy.dmaTxDesc).own = false)
    (hoffset : copy.bufferoffset ≤ ethTxBufSize) :
    CopyKept copy.txDescs (copyPayload fuel bytes copy) := by
  induction fuel generalizing bytes copy with
  | zero => exact .stopped (Kept.refl _)
  | succ fuel ih =>
      rw [copyPayload]
      split
      next hmore =>
        have hroom : copy.bufferoffset + (bytes.take (ethTxBufSize - copy.bufferoffset)).length ≤
            ethTxBufSize := by
          rw [List.length_take]
          omega
        have hkept := FrameCopy.memcpy_kept hfree hroom
        dsimp only
        split
        next => exact .stopped hkept
        next hnext =>
          refine CopyKept.earlier hkept ?_
          exact @ih _ ⟨_, _, 0, _⟩ (Bool.eq_false_of_not_eq_true hnext) (Nat.zero_le _)
      next hlast =>
        have hfits : copy.bufferoffset + bytes.length ≤ ethTxBufSize := by omega
        exact .done (FrameCopy.memcpy_kept hfree hfits) hfits

theorem copyFrame_kept {p : List (List UInt8)} {copy : FrameCopy}
    (hoffset : copy.bufferoffset ≤ ethTxBufSize) :
    CopyKept copy.txDescs (copyFrame p copy) := by
  induction p generalizing copy with
  | nil => exact .done (Kept.refl _) hoffset
  | cons payload rest ih =>
      rw [copyFrame_cons]
      split
      next => exact .stopped (Kept.refl _)
      next hfree =>
        have hfirst := @copyPayload_kept (payload.length + 2) payload copy
          (Bool.eq_false_of_not_eq_true hfree) hoffset
        generalize copyPayload (payload.length + 2) payload copy = result at hfirst ⊢
        cases hfirst with
        | stopped hkept => exact .stopped hkept
        | done hkept hoffset' => exact CopyKept.earlier hkept (ih hoffset')

/-! ## What a call does -/

/-- The call has queued nothing. -/
structure Passed (heth heth' : EthHandle) : Prop where
  kept : Kept heth.txDescs heth'.txDescs
  current : heth'.txDesc = heth.txDesc
  unlocked : heth'.locked = false
  unavailable : heth'.bufferUnavailable = heth.bufferUnavailable

/-- The call has queued a frame, behind those that are there, and the DMA is told to go on. -/
structure Enqueued (heth heth' : EthHandle) (bytes : List UInt8) (count : Nat) : Prop where
  pos : 0 < count
  round : count ≤ ethTxBufNb
  free : ∀ steps < count, (heth.txDescs (ringAt heth.txDesc steps)).own = false
  own : ∀ steps < count, (heth'.txDescs (ringAt heth.txDesc steps)).own = true
  first : ∀ steps < count,
    (heth'.txDescs (ringAt heth.txDesc steps)).firstSegment = decide (steps = 0)
  last : ∀ steps < count,
    (heth'.txDescs (ringAt heth.txDesc steps)).lastSegment = decide (steps + 1 = count)
  bytes : transmitted heth'.txDescs heth.txDesc count = bytes
  owners : ∀ desc, (∀ steps < count, desc ≠ ringAt heth.txDesc steps) →
    (heth'.txDescs desc).own = (heth.txDescs desc).own
  others : ∀ desc, (heth.txDescs desc).own = true → heth'.txDescs desc = heth.txDescs desc
  sizes : ∀ desc, (heth'.txDescs desc).buffer.length = ethTxBufSize
  current : heth'.txDesc = ringAt heth.txDesc count
  unlocked : heth'.locked = false
  available : heth'.bufferUnavailable = false

theorem handOverFrom_locked (frameLength bufcount fuel i : Nat) (heth : EthHandle) :
    (handOverFrom frameLength bufcount fuel i heth).locked = heth.locked := by
  induction fuel generalizing i heth with
  | zero => rfl
  | succ fuel ih => exact ih (i + 1) _

theorem handOverFrom_buffer (frameLength bufcount fuel i : Nat) (heth : EthHandle)
    (desc : Fin ethTxBufNb) :
    ((handOverFrom frameLength bufcount fuel i heth).txDescs desc).buffer =
      (heth.txDescs desc).buffer := by
  induction fuel generalizing i heth with
  | zero => rfl
  | succ fuel ih =>
      rw [handOverFrom, ih]
      by_cases hdesc : desc = heth.txDesc
      · rw [hdesc, handOver_self]
      · rw [handOver_of_ne _ _ _ _ hdesc]

theorem halEthTransmitFrame_zero {heth : EthHandle} (hlocked : heth.locked = false) :
    halEthTransmitFrame heth 0 = (.error, { heth with state := .ready }) := by
  rw [halEthTransmitFrame, if_neg (by simp [hlocked]), if_pos rfl]

/-- What the hardware layer does with a frame that has been copied. -/
theorem halEthTransmitFrame_enqueued {heth : EthHandle} {descs : Fin ethTxBufNb → TxDesc}
    {bytes : List UInt8} (hlocked : heth.locked = false) (hpos : 0 < bytes.length)
    (hlong : bytes.length ≤ ethTxBufNb * ethTxBufSize)
    (hfree : ∀ steps < bufCount bytes.length, (heth.txDescs (ringAt heth.txDesc steps)).own = false)
    (hkept : Kept heth.txDescs descs)
    (hsizes : ∀ desc, (descs desc).buffer.length = ethTxBufSize)
    (hbytes : (joined (ringBlocks descs heth.txDesc) ethTxBufNb).take bytes.length = bytes) :
    Enqueued heth (halEthTransmitFrame { heth with txDescs := descs } bytes.length).2 bytes
      (bufCount bytes.length) := by
  have hscattered :=
    halEthTransmitFrame_scattered hlocked hpos hlong hfree hkept.owners hsizes hbytes
  have hround := bufCount_le hpos hlong
  have hcount : 0 < bufCount bytes.length := by
    rw [bufCount_eq]
    exact Nat.succ_pos _
  have hfirst : (descs heth.txDesc).own = false := by
    have hzero := hfree 0 hcount
    rwa [ringAt_zero, ← hkept.owners] at hzero
  have heq := halEthTransmitFrame_eq { heth with txDescs := descs } hlocked hpos.ne' hfirst
  have hat : ∀ steps < bufCount bytes.length,
      ((halEthTransmitFrame { heth with txDescs := descs } bytes.length).2.txDescs
        (ringAt heth.txDesc steps)).firstSegment = decide (0 + steps = 0) ∧
      ((halEthTransmitFrame { heth with txDescs := descs } bytes.length).2.txDescs
        (ringAt heth.txDesc steps)).lastSegment =
          decide (0 + steps = bufCount bytes.length - 1) := by
    intro steps hlt
    rw [heq]
    have hstep := handOverFrom_at bytes.length (bufCount bytes.length) hround 0
      { heth with txDescs := descs } hlt
    exact ⟨congrArg TxDesc.firstSegment hstep, congrArg TxDesc.lastSegment hstep⟩
  exact
    { pos := hcount
      round := hround
      free := hfree
      own := fun steps hlt => (hscattered.handed steps hlt).2
      first := by
        intro steps hlt
        rw [(hat steps hlt).1, Nat.zero_add]
      last := by
        intro steps hlt
        rw [(hat steps hlt).2, decide_eq_decide]
        omega
      bytes := hscattered.bytes
      owners := hscattered.others
      others := by
        intro desc hown
        -- none of the descriptors that are handed over was the DMA's before
        have hother : ∀ steps < bufCount bytes.length, desc ≠ ringAt heth.txDesc steps := by
          rintro steps hlt rfl
          rw [hfree steps hlt] at hown
          cases hown
        rw [heq]
        exact (handOverFrom_of_ne _ _ 0 { heth with txDescs := descs } hother).trans
          (hkept.owned desc hown)
      sizes := by
        intro desc
        rw [heq]
        exact (congrArg List.length (handOverFrom_buffer _ _ _ 0 _ desc)).trans (hsizes desc)
      current := hscattered.current
      unlocked := by
        rw [heq]
        exact (handOverFrom_locked _ _ _ 0 _).trans hlocked
      available := by rw [heq] }

/-- A chain that fits the ring is queued as a frame, or nothing is queued: then it has no bytes, or
a descriptor that it needs is the DMA's. -/
theorem lowLevelOutput_cases {p : List (List UInt8)} {heth : EthHandle}
    (hlocked : heth.locked = false)
    (hsizes : ∀ desc, (heth.txDescs desc).buffer.length = ethTxBufSize)
    (hlong : p.flatten.length ≤ ethTxBufNb * ethTxBufSize) :
    (Passed heth (lowLevelOutput p heth).2 ∧ (p.flatten = [] ∨
      ((lowLevelOutput p heth).1 = errUse ∧ ∃ steps < bufCount p.flatten.length,
        (heth.txDescs (ringAt heth.txDesc steps)).own = true))) ∨
    ((lowLevelOutput p heth).1 = .ok ∧ p.flatten ≠ [] ∧
      Enqueued heth (lowLevelOutput p heth).2 p.flatten (bufCount p.flatten.length)) := by
  have hwritten : Written heth.txDesc [] 0 ⟨heth.txDescs, heth.txDesc, 0, 0⟩ :=
    { desc := (ringAt_zero heth.txDesc).symm
      offset := Nat.zero_le _
      length := rfl
      within := by decide
      sizes := hsizes
      bytes := rfl }
  have hkept := @copyFrame_kept p ⟨heth.txDescs, heth.txDesc, 0, 0⟩ (Nat.zero_le _)
  by_cases hbytes : p.flatten = []
  · left
    refine ⟨?_, .inl hbytes⟩
    rw [lowLevelOutput]
    cases hcopy : copyFrame p ⟨heth.txDescs, heth.txDesc, 0, 0⟩ with
    | error copy =>
        rw [hcopy] at hkept
        cases hkept with
        | stopped hkept => exact ⟨hkept, rfl, hlocked, rfl⟩
    | ok copy =>
        rw [hcopy] at hkept
        cases hkept with
        | done hkept _ =>
            -- the hardware layer queues no frame without bytes
            obtain ⟨filled, hcopied⟩ := copyFrame_written hwritten
              (by rw [Nat.zero_add]; exact hlong) hcopy
            have hlength : copy.framelength = 0 := by
              rw [hcopied.framelength_eq, hbytes]
              rfl
            have hrefused := @halEthTransmitFrame_zero { heth with txDescs := copy.txDescs } hlocked
            dsimp only
            rw [hlength, hrefused]
            exact ⟨hkept, rfl, hlocked, rfl⟩
  · have hne : p ≠ [] := by
      rintro rfl
      exact hbytes rfl
    have hframed := copyFrame_start hne heth
    rw [lowLevelOutput]
    cases hcopy : copyFrame p ⟨heth.txDescs, heth.txDesc, 0, 0⟩ with
    | error copy =>
        left
        rw [hcopy] at hkept hframed
        cases hkept with
        | stopped hkept =>
            cases hframed with
            | stopped steps _ hhigh hown _ =>
                refine ⟨⟨hkept, rfl, hlocked, rfl⟩, .inr ⟨rfl, steps, ?_, hown⟩⟩
                rw [bufCount_eq]
                exact Nat.lt_succ_of_le hhigh
    | ok copy =>
        right
        rw [hcopy] at hkept hframed
        cases hkept with
        | done hkept _ =>
            cases hframed with
            | done hfree hlength _ =>
                obtain ⟨filled, hcopied⟩ := copyFrame_written hwritten
                  (by rw [Nat.zero_add]; exact hlong) hcopy
                have hjoined := hcopied.bytes
                rw [List.nil_append, hlength] at hjoined
                have henqueued := halEthTransmitFrame_enqueued hlocked
                  (List.length_pos_of_ne_nil hbytes) hlong
                  (fun steps hlt => hfree steps (Nat.zero_le _)
                    (by rw [bufCount_eq] at hlt; omega))
                  hkept hcopied.sizes hjoined
                refine ⟨rfl, hbytes, ?_⟩
                dsimp only
                rw [hlength]
                exact
                  ⟨henqueued.pos, henqueued.round, henqueued.free, henqueued.own, henqueued.first,
                    henqueued.last, henqueued.bytes, henqueued.owners, henqueued.others,
                    henqueued.sizes, henqueued.current, henqueued.unlocked, henqueued.available⟩

/-! ## The queue -/

/-- The descriptors of the DMA are those between the two parties. What they hold are whole frames
behind the one that is being sent, and a DMA that has stopped has nothing to send. -/
structure TxInvariant (s : TxSystem) (count : Nat) (queued : List (List UInt8)) : Prop where
  occupied : Occupied (fun desc => (s.heth.txDescs desc).own = true) s.dmaDesc count
  current : s.heth.txDesc = around s.dmaDesc count
  read : readAll (fun begun desc => some (transmitDesc begun desc)) s.begun
    (listed s.heth.txDescs s.dmaDesc count) = some ([], queued)
  accepted : s.accepted = s.sent ++ queued
  sizes : ∀ desc, (s.heth.txDescs desc).buffer.length = ethTxBufSize
  unlocked : s.heth.locked = false
  stopped : s.heth.bufferUnavailable = true → count = 0

theorem TxInvariant.start {heth : EthHandle} {txBuff : Fin ethTxBufNb → List UInt8}
    (hlocked : heth.locked = false) (hsizes : ∀ i, (txBuff i).length = ethTxBufSize) :
    TxInvariant (TxSystem.start heth txBuff) 0 [] := by
  have hinit : halEthDmaTxDescListInit heth txBuff = (.ok, { heth with
      txDesc := 0
      txDescs := fun i => ⟨false, false, false, (heth.txDescs i).controlBufferSize, txBuff i⟩
      state := .ready }) := by
    rw [halEthDmaTxDescListInit, if_neg (by simp [hlocked])]
  rw [TxSystem.start, hinit]
  exact
    { occupied := Occupied.empty (fun _ hown => Bool.false_ne_true hown) 0
      current := (around_zero 0).symm
      read := rfl
      accepted := rfl
      sizes := hsizes
      unlocked := hlocked
      stopped := fun _ => rfl }

/-- A segment more. Only the first one starts anew, when nothing has been read. -/
theorem Enqueued.segment {heth heth' : EthHandle} {bytes : List UInt8} {count segments : Nat}
    (henqueued : Enqueued heth heth' bytes count) (hlt : segments < count) :
    transmitDesc (transmitted heth'.txDescs heth.txDesc segments)
        (heth'.txDescs (ringAt heth.txDesc segments)) =
      if segments + 1 = count then ([], [transmitted heth'.txDescs heth.txDesc (segments + 1)])
      else (transmitted heth'.txDescs heth.txDesc (segments + 1), []) := by
  have hfirst : (if (heth'.txDescs (ringAt heth.txDesc segments)).firstSegment then []
      else transmitted heth'.txDescs heth.txDesc segments) =
        transmitted heth'.txDescs heth.txDesc segments := by
    rw [henqueued.first segments hlt]
    cases segments with
    | zero => rfl
    | succ segments => rfl
  have hsucc : transmitted heth'.txDescs heth.txDesc (segments + 1) =
      transmitted heth'.txDescs heth.txDesc segments ++
        (heth'.txDescs (ringAt heth.txDesc segments)).buffer.take
          (heth'.txDescs (ringAt heth.txDesc segments)).controlBufferSize := by
    simp [transmitted, List.range_succ]
  rw [transmitDesc, hfirst, ← hsucc, henqueued.last segments hlt]
  simp

/-- The DMA reads back the frame that was queued. The induction is over the segments before the
last one, from each of which it takes the bytes. -/
theorem Enqueued.read {heth heth' : EthHandle} {bytes : List UInt8} {count : Nat}
    (henqueued : Enqueued heth heth' bytes count) :
    readAll (fun begun desc => some (transmitDesc begun desc)) []
      (listed heth'.txDescs heth.txDesc count) = some ([], [bytes]) := by
  have hbefore : ∀ segments < count,
      readAll (fun begun desc => some (transmitDesc begun desc)) []
        (listed heth'.txDescs heth.txDesc segments) =
          some (transmitted heth'.txDescs heth.txDesc segments, []) := by
    intro segments hlt
    induction segments with
    | zero => rfl
    | succ segments ih =>
        have hwithin : segments < count := Nat.lt_of_succ_lt hlt
        have hsegment := henqueued.segment hwithin
        rw [if_neg (by omega)] at hsegment
        rw [listed_succ']
        exact readAll_concat (ih hwithin) (congrArg some hsegment)
  obtain ⟨before, rfl⟩ : ∃ before, count = before + 1 :=
    ⟨count - 1, (Nat.sub_add_cancel henqueued.pos).symm⟩
  have hsegment := henqueued.segment (Nat.lt_succ_self before)
  rw [if_pos rfl, henqueued.bytes] at hsegment
  rw [listed_succ']
  exact readAll_concat (hbefore before (Nat.lt_succ_self before)) (congrArg some hsegment)

section Steps

variable {s : TxSystem} {count : Nat} {queued : List (List UInt8)}

/-- A call of the driver. -/
theorem TxInvariant.output (hinv : TxInvariant s count queued) {p : List (List UInt8)}
    (hlong : p.flatten.length ≤ ethTxBufNb * ethTxBufSize) :
    ∃ count' queued', TxInvariant (s.output p) count' queued' := by
  rcases lowLevelOutput_cases hinv.unlocked hinv.sizes hlong with
    ⟨hpassed, hrefused⟩ | ⟨hok, hbytes, henqueued⟩
  · refine ⟨count, queued, ?_⟩
    have hsame : ¬ ((lowLevelOutput p s.heth).1 = .ok ∧ p.flatten ≠ []) := by
      rintro ⟨hok, hbytes⟩
      rcases hrefused with hempty | ⟨herr, _⟩
      · exact hbytes hempty
      · rw [herr] at hok
        cases hok
    rw [TxSystem.output, if_neg hsame]
    exact
      { occupied :=
          { le := hinv.occupied.le
            taken_iff := by
              intro steps hlt
              rw [hpassed.kept.owners]
              exact hinv.occupied.taken_iff steps hlt }
        current := hpassed.current.trans hinv.current
        read := by
          rw [← hinv.read]
          congr 1
          apply listed_congr
          intro steps hlt
          have hround := hlt.trans_le hinv.occupied.le
          exact hpassed.kept.owned _ ((hinv.occupied.taken_iff steps hround).mpr hlt)
        accepted := hinv.accepted
        sizes := hpassed.kept.sizes hinv.sizes
        unlocked := hpassed.unlocked
        stopped := fun hstopped => hinv.stopped (hpassed.unavailable ▸ hstopped) }
  · refine ⟨count + bufCount p.flatten.length, queued ++ [p.flatten], ?_⟩
    -- the frame stands where the next one is put
    have hat : ∀ steps, ringAt s.heth.txDesc steps = around (around s.dmaDesc count) steps := by
      intro steps
      rw [← hinv.current]
      rfl
    have hroom : count + bufCount p.flatten.length ≤ ethTxBufNb := by
      rw [← hinv.occupied.free_iff henqueued.round]
      intro steps hlt
      rw [← hat, henqueued.free steps hlt]
      exact Bool.false_ne_true
    rw [TxSystem.output, if_pos ⟨hok, hbytes⟩]
    exact
      { occupied := by
          refine hinv.occupied.push hroom ?_ ?_
          · intro steps hlt
            rw [← hat]
            exact henqueued.own steps hlt
          · intro desc hne
            rw [henqueued.owners desc (fun steps hlt => (hat steps) ▸ hne steps hlt)]
        current := by
          rw [← around_add, ← hat]
          exact henqueued.current
        read := by
          rw [listed_add, ← hinv.current]
          refine readAll_append ?_ henqueued.read
          rw [← hinv.read]
          congr 1
          apply listed_congr
          intro steps hlt
          have hround := hlt.trans_le hinv.occupied.le
          exact henqueued.others _ ((hinv.occupied.taken_iff steps hround).mpr hlt)
        accepted := by
          rw [hinv.accepted, List.append_assoc]
        sizes := henqueued.sizes
        unlocked := henqueued.unlocked
        stopped := fun hstopped => by
          rw [henqueued.available] at hstopped
          cases hstopped }

/-- A step of the DMA. One descriptor less is its own. -/
theorem TxInvariant.transmit (hinv : TxInvariant s count queued) :
    ∃ queued', TxInvariant s.transmit (count - 1) queued' := by
  rw [TxSystem.transmit]
  dsimp only
  split
  next hstopped =>
    obtain rfl := hinv.stopped hstopped
    exact ⟨queued, hinv⟩
  next hrunning =>
    split
    next hown =>
      have hpos := hinv.occupied.tail_iff.mp hown
      obtain ⟨later, rfl⟩ : ∃ later, count = later + 1 := ⟨count - 1, by omega⟩
      have hread := hinv.read
      rw [listed_succ] at hread
      obtain ⟨next, out, queued', hfirst, hrest, rfl⟩ := readAll_cons hread
      refine ⟨queued', ?_⟩
      have hnext : transmitDesc s.begun (s.heth.txDescs s.dmaDesc) = (next, out) :=
        Option.some.inj hfirst
      rw [hnext]
      have hself : (Function.update s.heth.txDescs s.dmaDesc
          { s.heth.txDescs s.dmaDesc with own := false }) s.dmaDesc =
            { s.heth.txDescs s.dmaDesc with own := false } := Function.update_self _ _ _
      have hothers : ∀ desc, desc ≠ s.dmaDesc → (Function.update s.heth.txDescs s.dmaDesc
          { s.heth.txDescs s.dmaDesc with own := false }) desc = s.heth.txDescs desc :=
        fun desc hne => Function.update_of_ne hne _ _
      generalize Function.update s.heth.txDescs s.dmaDesc
        { s.heth.txDescs s.dmaDesc with own := false } = descs at hself hothers ⊢
      exact
        { occupied := by
            have hpop := @Occupied.pop _ _ _ (fun desc => (descs desc).own = true) _ _
              hinv.occupied 1 (Nat.succ_pos later) ?_ ?_
            · rwa [around_succ, around_zero] at hpop
            · intro steps hlt
              obtain rfl : steps = 0 := by omega
              rw [around_zero, hself]
              exact Bool.false_ne_true
            · intro desc hne
              have hother : desc ≠ s.dmaDesc := by
                have hzero := hne 0 Nat.one_pos
                rwa [around_zero] at hzero
              rw [hothers desc hother]
          current := by
            rw [Nat.add_sub_cancel, around_succ']
            exact hinv.current
          read := by
            rw [Nat.add_sub_cancel, ← hrest]
            congr 1
            apply listed_congr
            intro steps hlt
            apply hothers
            -- what is still queued is not the descriptor that was given back
            intro heq
            have hle := hinv.occupied.le
            rw [around_succ'] at heq
            have hzero := around_inj (by omega) (by omega) (heq.trans (around_zero s.dmaDesc).symm)
            omega
          accepted := by
            rw [hinv.accepted, List.append_assoc]
          sizes := by
            intro desc
            by_cases hdesc : desc = s.dmaDesc
            · rw [hdesc]
              exact (congrArg (fun desc => desc.buffer.length) hself).trans (hinv.sizes s.dmaDesc)
            · exact (congrArg (fun desc => desc.buffer.length) (hothers desc hdesc)).trans
                (hinv.sizes desc)
          unlocked := hinv.unlocked
          stopped := fun hstopped => absurd hstopped hrunning }
    next hfree =>
      have hzero : count = 0 := by
        by_contra hpos
        exact hfree (hinv.occupied.tail_iff.mpr (Nat.pos_of_ne_zero hpos))
      subst hzero
      exact ⟨queued, hinv.occupied, hinv.current, hinv.read, hinv.accepted, hinv.sizes,
        hinv.unlocked, fun _ => rfl⟩

end Steps

/-- The invariant of a run, by induction on its steps. -/
theorem TxInvariant.run {s : TxSystem} {count : Nat} {queued : List (List UInt8)}
    (hinv : TxInvariant s count queued) {actions : List TxAction}
    (hlong : ∀ p, TxAction.output p ∈ actions → p.flatten.length ≤ ethTxBufNb * ethTxBufSize) :
    ∃ count' queued', TxInvariant (s.run actions) count' queued' := by
  induction actions generalizing s count queued with
  | nil => exact ⟨count, queued, hinv⟩
  | cons action rest ih =>
      have hrest : ∀ p, TxAction.output p ∈ rest →
          p.flatten.length ≤ ethTxBufNb * ethTxBufSize :=
        fun p hmem => hlong p (List.mem_cons_of_mem action hmem)
      cases action with
      | output p =>
          obtain ⟨count', queued', hnext⟩ := hinv.output (hlong p List.mem_cons_self)
          exact ih hnext hrest
      | transmit =>
          obtain ⟨queued', hnext⟩ := hinv.transmit
          exact ih hnext hrest

theorem TxSystem.transmit_accepted (s : TxSystem) : s.transmit.accepted = s.accepted := by
  rw [TxSystem.transmit]
  dsimp only
  split
  next => rfl
  next =>
    split
    next => rfl
    next => rfl

/-- A DMA that is left alone sends all that is queued. -/
theorem TxInvariant.drain {s : TxSystem} {count : Nat} {queued : List (List UInt8)}
    (hinv : TxInvariant s count queued) {steps : Nat} (henough : count ≤ steps) :
    (s.run (List.replicate steps .transmit)).sent = s.accepted := by
  induction steps generalizing s count queued with
  | zero =>
      obtain rfl := Nat.le_zero.mp henough
      have hread := hinv.read
      rw [listed_zero, readAll_nil] at hread
      have hempty : queued = [] := (congrArg Prod.snd (Option.some.inj hread)).symm
      have haccepted := hinv.accepted
      rw [hempty, List.append_nil] at haccepted
      exact haccepted.symm
  | succ steps ih =>
      obtain ⟨queued', hnext⟩ := hinv.transmit
      exact (ih hnext (by omega)).trans s.transmit_accepted

/-- However the calls of the driver, with chains that fit the ring, and the steps of the DMA follow
each other, what has been sent is the beginning of what has been accepted: no frame is lost,
duplicated, cut, joined with another one or overtaken. After a round of the DMA everything that
was accepted has been sent. -/
theorem sent_in_order {heth : EthHandle} {txBuff : Fin ethTxBufNb → List UInt8}
    (hlocked : heth.locked = false) (hsizes : ∀ i, (txBuff i).length = ethTxBufSize)
    {actions : List TxAction}
    (hlong : ∀ p, TxAction.output p ∈ actions → p.flatten.length ≤ ethTxBufNb * ethTxBufSize) :
    ((TxSystem.start heth txBuff).run actions).sent <+:
        ((TxSystem.start heth txBuff).run actions).accepted ∧
      ∀ steps, ethTxBufNb ≤ steps →
        (((TxSystem.start heth txBuff).run actions).run (List.replicate steps .transmit)).sent =
          ((TxSystem.start heth txBuff).run actions).accepted := by
  obtain ⟨count, queued, hinv⟩ := (TxInvariant.start hlocked hsizes).run hlong
  exact ⟨⟨queued, hinv.accepted.symm⟩, fun steps henough =>
    hinv.drain (hinv.occupied.le.trans henough)⟩

/-- A handle that nobody holds, and the buffers of its ring. -/
def idleHandle : EthHandle := { preempted with locked := false }

/-- The buffers of the ring before the first frame. -/
def zeroedBuffers (_ : Fin ethTxBufNb) : List UInt8 := List.replicate ethTxBufSize 0

/-- A chain of two buffers is sent before the next one comes. -/
def twoChains : List TxAction := [.output [[1, 2], [3]], .transmit, .output [[4]]]

theorem twoChains_fit (p : List (List UInt8)) (hmem : TxAction.output p ∈ twoChains) :
    p.flatten.length ≤ ethTxBufNb * ethTxBufSize := by
  simp only [twoChains, List.mem_cons, TxAction.output.injEq, reduceCtorEq, List.not_mem_nil,
    or_false, false_or] at hmem
  rcases hmem with rfl | rfl
  · decide
  · decide

theorem sent_in_order_twoChains :
    ((TxSystem.start idleHandle zeroedBuffers).run twoChains).sent <+: [[1, 2, 3], [4]] ∧
      ∀ steps, ethTxBufNb ≤ steps →
        (((TxSystem.start idleHandle zeroedBuffers).run twoChains).run
          (List.replicate steps .transmit)).sent = [[1, 2, 3], [4]] := by
  have haccepted : ((TxSystem.start idleHandle zeroedBuffers).run twoChains).accepted =
      [[1, 2, 3], [4]] := by decide +kernel
  rw [← haccepted]
  exact sent_in_order rfl (fun _ => List.length_replicate) twoChains_fit

/-- In every run, with chains that fit the ring, a chain with bytes is accepted if and only if there
are as many free descriptors as it needs. -/
theorem accepted_iff_room {heth : EthHandle} {txBuff : Fin ethTxBufNb → List UInt8}
    (hlocked : heth.locked = false) (hsizes : ∀ i, (txBuff i).length = ethTxBufSize)
    {actions : List TxAction}
    (hlong : ∀ p, TxAction.output p ∈ actions → p.flatten.length ≤ ethTxBufNb * ethTxBufSize)
    {p : List (List UInt8)} (hbytes : p.flatten ≠ [])
    (hfits : p.flatten.length ≤ ethTxBufNb * ethTxBufSize) :
    (lowLevelOutput p ((TxSystem.start heth txBuff).run actions).heth).1 = .ok ↔
      bufCount p.flatten.length ≤ (Finset.univ.filter fun desc =>
        (((TxSystem.start heth txBuff).run actions).heth.txDescs desc).own = false).card := by
  obtain ⟨count, queued, hinv⟩ := (TxInvariant.start hlocked hsizes).run hlong
  generalize (TxSystem.start heth txBuff).run actions = s at hinv ⊢
  have hround := bufCount_le (List.length_pos_of_ne_nil hbytes) hfits
  have hfree : (Finset.univ.filter fun desc => (s.heth.txDescs desc).own = false).card =
      ethTxBufNb - count := by
    have hcard := hinv.occupied.card_free
    simp only [Bool.not_eq_true] at hcard
    exact hcard
  rw [hfree, Nat.le_sub_iff_add_le' hinv.occupied.le, ← hinv.occupied.free_iff hround,
    ← hinv.current]
  rcases lowLevelOutput_cases hinv.unlocked hinv.sizes hfits with
    ⟨_, hrefused⟩ | ⟨hok, _, henqueued⟩
  · obtain ⟨herr, steps, hlt, hown⟩ := hrefused.resolve_left hbytes
    refine iff_of_false (fun hok => ?_) (fun hnone => hnone steps hlt hown)
    rw [herr] at hok
    cases hok
  · refine iff_of_true hok ?_
    intro steps hlt hown
    have hfirst := henqueued.free steps hlt
    rw [ringAt] at hfirst
    rw [around, hfirst] at hown
    cases hown

theorem accepted_iff_room_twoChains :
    (lowLevelOutput [[5]] ((TxSystem.start idleHandle zeroedBuffers).run twoChains).heth).1 = .ok ↔
      bufCount [[(5 : UInt8)]].flatten.length ≤ (Finset.univ.filter fun desc =>
        (((TxSystem.start idleHandle zeroedBuffers).run twoChains).heth.txDescs desc).own =
          false).card :=
  accepted_iff_room rfl (fun _ => List.length_replicate) twoChains_fit (List.cons_ne_nil 5 [])
    (by decide)

end RealTimeWs
