import Mathlib.Data.Fin.Basic
import Mathlib.Data.List.Basic
import Mathlib.Logic.Function.Basic
import Mathlib.Tactic.Ring
import RealTimeWs.Concentrator.PingClient
import RealTimeWs.Memory.Blocks

/-! # Sending frames

The driver copies the bytes of a chain of packet buffers into the buffers of a ring of
descriptors and asks the hardware layer to hand the descriptors to the DMA. A chain is
given by the payloads of its buffers.
-/

namespace RealTimeWs

/-- How many transmit descriptors the ring has. -/
abbrev ethTxBufNb : Nat := 4

/-- How many bytes the buffer of a transmit descriptor holds. -/
abbrev ethTxBufSize : Nat := 1524

/-- A transmit descriptor. The DMA owns it until its buffer has been sent. -/
structure TxDesc where
  own : Bool
  firstSegment : Bool
  lastSegment : Bool
  controlBufferSize : Nat
  buffer : List UInt8
deriving DecidableEq, Repr

/-- What the driver of the peripheral returns. -/
inductive HalStatus where
  | ok
  | error
  | busy
deriving DecidableEq, Repr

/-- The state that the handle of the driver records. -/
inductive HalEthState where
  | ready
  | busy
  | busyTx
deriving DecidableEq, Repr

/-- The handle of the hardware layer: the ring and its current descriptor, the lock, and the two
flags of the DMA that say why it has stopped. The descriptor behind the last one is the first. -/
structure EthHandle where
  txDescs : Fin ethTxBufNb → TxDesc
  txDesc : Fin ethTxBufNb
  locked : Bool
  state : HalEthState
  transmitUnderflow : Bool
  bufferUnavailable : Bool

/-! ## Handing descriptors to the DMA -/

/-- The number of buffers that a frame needs. -/
def bufCount (frameLength : Nat) : Nat :=
  if frameLength > ethTxBufSize then
    frameLength / ethTxBufSize + (if frameLength % ethTxBufSize = 0 then 0 else 1)
  else 1

/-- Program one descriptor and go on to the next one. -/
def handOver (heth : EthHandle) (first last : Bool) (size : Nat) : EthHandle :=
  { heth with
    txDescs := Function.update heth.txDescs heth.txDesc
      { heth.txDescs heth.txDesc with
        own := true
        firstSegment := first
        lastSegment := last
        controlBufferSize := size % 2 ^ 13 }
    txDesc := heth.txDesc + 1 }

/-- The loop over the segments of a frame, from the given one on. -/
def handOverFrom (frameLength bufcount : Nat) : Nat → Nat → EthHandle → EthHandle
  | 0, _, heth => heth
  | fuel + 1, i, heth =>
      let size := if i = bufcount - 1 then frameLength - (bufcount - 1) * ethTxBufSize
        else ethTxBufSize
      handOverFrom frameLength bufcount fuel (i + 1)
        (handOver heth (i = 0) (i = bufcount - 1) size)

/-- `HAL_ETH_TransmitFrame`: the descriptors of one frame go to the DMA. -/
def halEthTransmitFrame (heth : EthHandle) (frameLength : Nat) : HalStatus × EthHandle :=
  if heth.locked then (.busy, heth)
  else if frameLength = 0 then (.error, { heth with state := .ready })
  else if (heth.txDescs heth.txDesc).own then (.error, { heth with state := .busyTx })
  else
    let bufcount := bufCount frameLength
    let heth := if bufcount = 1 then handOver heth true true frameLength
      else handOverFrom frameLength bufcount bufcount 0 heth
    -- a DMA that has run out of buffers is told to go on
    (.ok, { heth with bufferUnavailable := false, state := .ready })

/-! ## Copying a frame -/

/-- Where the copy stands. -/
structure FrameCopy where
  txDescs : Fin ethTxBufNb → TxDesc
  dmaTxDesc : Fin ethTxBufNb
  bufferoffset : Nat
  framelength : Nat

/-- Bytes over a part of the current buffer. -/
def FrameCopy.memcpy (copy : FrameCopy) (bytes : List UInt8) : FrameCopy :=
  let desc := copy.txDescs copy.dmaTxDesc
  { copy with
    txDescs := Function.update copy.txDescs copy.dmaTxDesc
      { desc with buffer := desc.buffer.take copy.bufferoffset ++ bytes ++
          desc.buffer.drop (copy.bufferoffset + bytes.length) } }

/-- The bytes that are left of a payload. While they do not fit, the current buffer is filled and
the copy goes on with the next descriptor, if that is available. -/
def copyPayload : Nat → List UInt8 → FrameCopy → Except FrameCopy FrameCopy
  | 0, _, copy => .error copy
  | fuel + 1, bytes, copy =>
      if bytes.length + copy.bufferoffset > ethTxBufSize then
        let room := ethTxBufSize - copy.bufferoffset
        let copy := copy.memcpy (bytes.take room)
        let copy := { copy with dmaTxDesc := copy.dmaTxDesc + 1 }
        if (copy.txDescs copy.dmaTxDesc).own then .error copy
        else copyPayload fuel (bytes.drop room)
          { copy with bufferoffset := 0, framelength := copy.framelength + room }
      else
        let copy := copy.memcpy bytes
        .ok { copy with
          bufferoffset := copy.bufferoffset + bytes.length
          framelength := copy.framelength + bytes.length }

/-- All payloads of a chain. -/
def copyFrame : List (List UInt8) → FrameCopy → Except FrameCopy FrameCopy
  | [], copy => .ok copy
  | payload :: rest, copy => do
      if (copy.txDescs copy.dmaTxDesc).own then .error copy
      else
        let copy ← copyPayload (payload.length + 2) payload copy
        copyFrame rest copy

/-- The error for a frame whose buffers are in use. -/
abbrev errUse : Err := .other (-8)

/-- The result of the hardware layer is not looked at. -/
def lowLevelOutput (p : List (List UInt8)) (heth : EthHandle) : Err × EthHandle :=
  let outcome : Err × EthHandle :=
    match copyFrame p ⟨heth.txDescs, heth.txDesc, 0, 0⟩ with
    | .error copy => (errUse, { heth with txDescs := copy.txDescs })
    | .ok copy =>
        (.ok, (halEthTransmitFrame { heth with txDescs := copy.txDescs } copy.framelength).2)
  -- an underflow is cleared and the transmission resumed
  (outcome.1, { outcome.2 with transmitUnderflow := false })

/-! ## Positions in the ring -/

/-- The descriptor some steps behind another one. -/
def ringAt (start : Fin ethTxBufNb) (steps : Nat) : Fin ethTxBufNb :=
  start + Fin.ofNat ethTxBufNb steps

@[simp] theorem ringAt_zero (start : Fin ethTxBufNb) : ringAt start 0 = start :=
  Memory.around_zero start

theorem ringAt_succ (start : Fin ethTxBufNb) (steps : Nat) :
    ringAt start (steps + 1) = ringAt start steps + 1 :=
  Memory.around_succ start steps

theorem ringAt_succ' (start : Fin ethTxBufNb) (steps : Nat) :
    ringAt (start + 1) steps = ringAt start (steps + 1) :=
  Memory.around_succ' start steps

/-- Within one round no descriptor comes twice. -/
theorem ringAt_inj {start : Fin ethTxBufNb} {steps steps' : Nat} (hlt : steps < ethTxBufNb)
    (hlt' : steps' < ethTxBufNb) (heq : ringAt start steps = ringAt start steps') :
    steps = steps' :=
  Memory.around_inj hlt hlt' heq

/-- The first descriptor does not come again within the round. -/
theorem ringAt_succ_ne {start : Fin ethTxBufNb} {steps : Nat} (hlt : steps + 1 < ethTxBufNb) :
    ringAt start (steps + 1) ≠ start := by
  intro heq
  have hzero : ringAt start (steps + 1) = ringAt start 0 := by
    rw [ringAt_zero]
    exact heq
  exact Nat.succ_ne_zero steps (ringAt_inj hlt (by decide) hzero)

/-- The number of the buffer that the last of so many bytes goes to. -/
def place (length : Nat) : Nat := (length - 1) / ethTxBufSize

theorem bufCount_eq (length : Nat) : bufCount length = place length + 1 := by
  simp only [bufCount, place, ethTxBufSize]
  split
  · split <;> omega
  · omega

/-! ## The copy -/

/-- The copy has filled some buffers from the current one on, and a part of the next. -/
structure CopyAt (start : Fin ethTxBufNb) (filled : Nat) (copy : FrameCopy) : Prop where
  desc : copy.dmaTxDesc = ringAt start filled
  offset : copy.bufferoffset ≤ ethTxBufSize
  length : copy.framelength = filled * ethTxBufSize + copy.bufferoffset

/-- The descriptors belong to whom they belonged. -/
def SameOwners (descs descs' : Fin ethTxBufNb → TxDesc) : Prop :=
  ∀ desc, (descs' desc).own = (descs desc).own

theorem FrameCopy.memcpy_owners (copy : FrameCopy) (bytes : List UInt8) :
    SameOwners copy.txDescs (copy.memcpy bytes).txDescs := by
  intro desc
  by_cases hdesc : desc = copy.dmaTxDesc
  · subst hdesc
    simp [FrameCopy.memcpy]
  · simp [FrameCopy.memcpy, hdesc]

/-- What became of copying some bytes: the copy went on to the place of the last byte, or it
met a descriptor on the way that the DMA owns. -/
inductive Copied (descs : Fin ethTxBufNb → TxDesc) (start : Fin ethTxBufNb) (filled total : Nat) :
    Except FrameCopy FrameCopy → Prop where
  | done {copy : FrameCopy}
      (hfree : ∀ steps, filled < steps → steps ≤ place total →
        (descs (ringAt start steps)).own = false)
      (hat : CopyAt start (place total) copy) (hlength : copy.framelength = total)
      (howners : SameOwners descs copy.txDescs) : Copied descs start filled total (.ok copy)
  | stopped {copy : FrameCopy} (steps : Nat) (hlow : filled < steps) (hhigh : steps ≤ place total)
      (hown : (descs (ringAt start steps)).own = true)
      (howners : SameOwners descs copy.txDescs) : Copied descs start filled total (.error copy)

theorem Copied.earlier {descs : Fin ethTxBufNb → TxDesc} {start : Fin ethTxBufNb}
    {filled total : Nat} {result : Except FrameCopy FrameCopy}
    (hcopied : Copied descs start (filled + 1) total result)
    (hfree : (descs (ringAt start (filled + 1))).own = false) :
    Copied descs start filled total result := by
  cases hcopied with
  | done hlater hat hlength howners =>
      refine .done ?_ hat hlength howners
      intro steps hlow hhigh
      rcases Nat.lt_or_ge (filled + 1) steps with hlt | hge
      · exact hlater steps hlt hhigh
      · obtain rfl : steps = filled + 1 := by omega
        exact hfree
  | stopped steps hlow hhigh hown howners =>
      exact .stopped steps (Nat.lt_of_succ_lt hlow) hhigh hown howners

theorem copyPayload_copied {descs : Fin ethTxBufNb → TxDesc} {start : Fin ethTxBufNb} {fuel : Nat}
    {bytes : List UInt8} {copy : FrameCopy} {filled : Nat}
    (hfuel : bytes.length + (if copy.bufferoffset = 0 then 1 else 2) ≤ fuel)
    (hat : CopyAt start filled copy)
    (hstarted : filled = 0 ∨ 0 < copy.bufferoffset ∨ 0 < bytes.length)
    (howners : SameOwners descs copy.txDescs) {total : Nat}
    (htotal : copy.framelength + bytes.length = total) :
    Copied descs start filled total (copyPayload fuel bytes copy) := by
  induction fuel generalizing bytes copy filled with
  | zero =>
      split at hfuel <;> omega
  | succ fuel ih =>
      obtain ⟨hdesc, hoffset, hlength⟩ := hat
      simp only [ethTxBufSize] at hoffset hlength
      rw [copyPayload]
      by_cases hmore : bytes.length + copy.bufferoffset > ethTxBufSize
      · rw [if_pos hmore]
        simp only [ethTxBufSize] at hmore
        have howners' : SameOwners descs
            (copy.memcpy (bytes.take (ethTxBufSize - copy.bufferoffset))).txDescs := by
          intro desc
          rw [copy.memcpy_owners, howners]
        have hnext : (copy.memcpy (bytes.take (ethTxBufSize - copy.bufferoffset))).dmaTxDesc + 1 =
            ringAt start (filled + 1) := by
          rw [ringAt_succ, ← hdesc]
          rfl
        have hreach : filled + 1 ≤ place total := by
          simp only [place, ethTxBufSize]
          omega
        simp only [hnext]
        by_cases hown : (descs (ringAt start (filled + 1))).own = true
        · rw [if_pos (by rw [howners', hown])]
          exact .stopped (filled + 1) (Nat.lt_succ_self filled) hreach hown howners'
        · rw [if_neg (by rw [howners']; exact hown)]
          have hfree : (descs (ringAt start (filled + 1))).own = false :=
            Bool.eq_false_of_not_eq_true hown
          have hleft : (bytes.drop (ethTxBufSize - copy.bufferoffset)).length =
              bytes.length - (1524 - copy.bufferoffset) := List.length_drop
          refine Copied.earlier ?_ hfree
          apply ih
          · simp only [ethTxBufSize] at hleft ⊢
            rw [if_pos trivial]
            split at hfuel <;> omega
          · refine ⟨rfl, Nat.zero_le _, ?_⟩
            simp only [ethTxBufSize, FrameCopy.memcpy]
            omega
          · simp only [ethTxBufSize] at hleft ⊢
            omega
          · exact howners'
          · simp only [ethTxBufSize, FrameCopy.memcpy] at hleft ⊢
            omega
      · rw [if_neg hmore]
        simp only [ethTxBufSize] at hmore
        have hplace : place total = filled := by
          simp only [place, ethTxBufSize]
          omega
        refine .done ?_ ⟨?_, ?_, ?_⟩ htotal ?_
        · intro steps hlow hhigh
          omega
        · rw [hplace, ← hdesc]
          rfl
        · simp only [FrameCopy.memcpy, ethTxBufSize]
          omega
        · simp only [FrameCopy.memcpy, hplace, ethTxBufSize]
          omega
        · intro desc
          rw [copy.memcpy_owners, howners]

theorem place_mono {length length' : Nat} (hle : length ≤ length') :
    place length ≤ place length' :=
  Nat.div_le_div_right (Nat.sub_le_sub_right hle 1)

/-- What became of copying a whole chain, which also looks at the descriptor it starts with. -/
inductive Framed (descs : Fin ethTxBufNb → TxDesc) (start : Fin ethTxBufNb) (filled total : Nat) :
    Except FrameCopy FrameCopy → Prop where
  | done {copy : FrameCopy}
      (hfree : ∀ steps, filled ≤ steps → steps ≤ place total →
        (descs (ringAt start steps)).own = false)
      (hlength : copy.framelength = total)
      (howners : SameOwners descs copy.txDescs) : Framed descs start filled total (.ok copy)
  | stopped {copy : FrameCopy} (steps : Nat) (hlow : filled ≤ steps) (hhigh : steps ≤ place total)
      (hown : (descs (ringAt start steps)).own = true)
      (howners : SameOwners descs copy.txDescs) : Framed descs start filled total (.error copy)

theorem copyPayload_between {descs : Fin ethTxBufNb → TxDesc} {start : Fin ethTxBufNb}
    {copy : FrameCopy} (hat : CopyAt start (place copy.framelength) copy)
    (howners : SameOwners descs copy.txDescs) (payload : List UInt8) :
    Copied descs start (place copy.framelength) (copy.framelength + payload.length)
      (copyPayload (payload.length + 2) payload copy) := by
  refine copyPayload_copied ?_ hat ?_ howners rfl
  · split <;> omega
  · have hlength := hat.length
    simp only [place, ethTxBufSize] at hlength ⊢
    omega

theorem copyFrame_cons (payload : List UInt8) (rest : List (List UInt8)) (copy : FrameCopy) :
    copyFrame (payload :: rest) copy =
      if (copy.txDescs copy.dmaTxDesc).own then .error copy
      else copyPayload (payload.length + 2) payload copy >>= copyFrame rest := rfl

/-- The induction is over the chain. Between two payloads the copy stands at the place of the
last byte so far. -/
theorem copyFrame_framed {descs : Fin ethTxBufNb → TxDesc} {start : Fin ethTxBufNb}
    {p : List (List UInt8)} (hne : p ≠ []) (copy : FrameCopy)
    (hat : CopyAt start (place copy.framelength) copy) (howners : SameOwners descs copy.txDescs)
    {total : Nat} (htotal : copy.framelength + p.flatten.length = total) :
    Framed descs start (place copy.framelength) total (copyFrame p copy) := by
  induction p generalizing copy with
  | nil => exact absurd rfl hne
  | cons payload rest ih =>
      have hfirst : (copy.txDescs copy.dmaTxDesc).own =
          (descs (ringAt start (place copy.framelength))).own := by
        rw [howners, hat.desc]
      rw [List.flatten_cons, List.length_append] at htotal
      have hmiddle : place (copy.framelength + payload.length) ≤ place total :=
        place_mono (by omega)
      have hreach : place copy.framelength ≤ place (copy.framelength + payload.length) :=
        place_mono (by omega)
      rw [copyFrame_cons]
      by_cases hown : (copy.txDescs copy.dmaTxDesc).own = true
      · rw [if_pos hown]
        exact .stopped (place copy.framelength) le_rfl (hreach.trans hmiddle) (hfirst ▸ hown)
          howners
      · rw [if_neg hown]
        have hfree : (descs (ringAt start (place copy.framelength))).own = false := by
          rw [← hfirst]
          exact Bool.eq_false_of_not_eq_true hown
        have hcopied := copyPayload_between hat howners payload
        generalize copyPayload (payload.length + 2) payload copy = result at hcopied ⊢
        cases hcopied with
        | stopped steps hlow hhigh hsteps howners' =>
            exact .stopped steps hlow.le (hhigh.trans hmiddle) hsteps howners'
        | @done copy' hbetween hat' hlength' howners' =>
            have hup : ∀ steps, place copy.framelength ≤ steps →
                steps ≤ place (copy.framelength + payload.length) →
                (descs (ringAt start steps)).own = false := by
              intro steps hlow hhigh
              rcases Nat.eq_or_lt_of_le hlow with rfl | hlt
              · exact hfree
              · exact hbetween steps hlt hhigh
            change Framed descs start _ total (copyFrame rest copy')
            cases rest with
            | nil =>
                rw [List.flatten_nil, List.length_nil, Nat.add_zero] at htotal
                refine .done ?_ (hlength'.trans htotal) howners'
                rwa [← htotal]
            | cons next rest =>
                have hrest := ih (List.cons_ne_nil next rest) copy' (hlength' ▸ hat') howners'
                  (hlength' ▸ (Nat.add_assoc _ _ _).trans htotal)
                rw [hlength'] at hrest
                generalize copyFrame (next :: rest) copy' = result at hrest ⊢
                cases hrest with
                | stopped steps hlow hhigh hsteps howners'' =>
                    exact .stopped steps (hreach.trans hlow) hhigh hsteps howners''
                | done hlater hlength'' howners'' =>
                    refine .done ?_ hlength'' howners''
                    intro steps hlow hhigh
                    rcases Nat.le_total steps (place (copy.framelength + payload.length)) with
                      hle | hge
                    · exact hup steps hlow hle
                    · exact hlater steps hge hhigh

/-- The copy of a chain, from the current descriptor on. -/
theorem copyFrame_start {p : List (List UInt8)} (hne : p ≠ []) (heth : EthHandle) :
    Framed heth.txDescs heth.txDesc (place 0) p.flatten.length
      (copyFrame p ⟨heth.txDescs, heth.txDesc, 0, 0⟩) := by
  have hat : CopyAt heth.txDesc (place 0) ⟨heth.txDescs, heth.txDesc, 0, 0⟩ :=
    ⟨(ringAt_zero heth.txDesc).symm, Nat.zero_le _, rfl⟩
  exact copyFrame_framed hne ⟨heth.txDescs, heth.txDesc, 0, 0⟩ hat (fun _ => rfl) (Nat.zero_add _)

/-! ## The result -/

/-- The descriptors of a frame were handed to the DMA, from the current one on, and the current
one is now the one behind them. -/
structure Handed (heth heth' : EthHandle) (frameLength : Nat) : Prop where
  owned : ∀ steps, steps < bufCount frameLength →
    (heth'.txDescs (ringAt heth.txDesc steps)).own = true
  current : heth'.txDesc = ringAt heth.txDesc (bufCount frameLength)

theorem handOver_own (heth : EthHandle) (first last : Bool) (size : Nat)
    (desc : Fin ethTxBufNb) :
    ((handOver heth first last size).txDescs desc).own = true ↔
      desc = heth.txDesc ∨ (heth.txDescs desc).own = true := by
  by_cases hdesc : desc = heth.txDesc
  · subst hdesc
    simp [handOver]
  · simp [handOver, hdesc]

theorem handOverFrom_spec (frameLength bufcount fuel i : Nat) (heth : EthHandle) :
    (handOverFrom frameLength bufcount fuel i heth).txDesc = ringAt heth.txDesc fuel ∧
      ∀ desc, (heth.txDescs desc).own = true ∨ (∃ steps < fuel, desc = ringAt heth.txDesc steps) →
        ((handOverFrom frameLength bufcount fuel i heth).txDescs desc).own = true := by
  induction fuel generalizing i heth with
  | zero =>
      refine ⟨(ringAt_zero heth.txDesc).symm, ?_⟩
      rintro desc (hown | ⟨steps, hlt, _⟩)
      · exact hown
      · omega
  | succ fuel ih =>
      simp only [handOverFrom]
      obtain ⟨hcurrent, howned⟩ := ih (i + 1) (handOver heth (i = 0) (i = bufcount - 1)
        (if i = bufcount - 1 then frameLength - (bufcount - 1) * ethTxBufSize else ethTxBufSize))
      refine ⟨?_, ?_⟩
      · rw [hcurrent]
        exact ringAt_succ' heth.txDesc fuel
      · rintro desc (hown | ⟨steps, hlt, rfl⟩)
        · exact howned desc (.inl ((handOver_own _ _ _ _ desc).mpr (.inr hown)))
        · cases steps with
          | zero =>
              apply howned
              left
              rw [ringAt_zero]
              exact (handOver_own _ _ _ _ _).mpr (.inl rfl)
          | succ steps =>
              apply howned
              right
              exact ⟨steps, by omega, (ringAt_succ' heth.txDesc steps).symm⟩

/-- The frame with one segment is no exception. -/
theorem halEthTransmitFrame_eq (heth : EthHandle) {frameLength : Nat}
    (hlocked : heth.locked = false) (hlength : frameLength ≠ 0)
    (hfree : (heth.txDescs heth.txDesc).own = false) :
    (halEthTransmitFrame heth frameLength).2 =
      { handOverFrom frameLength (bufCount frameLength) (bufCount frameLength) 0 heth with
        bufferUnavailable := false
        state := .ready } := by
  rw [halEthTransmitFrame, if_neg (by simp [hlocked]), if_neg hlength, if_neg (by simp [hfree])]
  by_cases hsingle : bufCount frameLength = 1
  · simp [hsingle, handOverFrom]
  · simp [hsingle]

/-- The hardware layer queues a frame when nobody holds the handle, the frame has bytes and its
first descriptor is free. -/
theorem halEthTransmitFrame_handed (heth : EthHandle) {frameLength : Nat}
    (hlocked : heth.locked = false) (hlength : frameLength ≠ 0)
    (hfree : (heth.txDescs heth.txDesc).own = false) :
    Handed heth (halEthTransmitFrame heth frameLength).2 frameLength := by
  rw [halEthTransmitFrame_eq heth hlocked hlength hfree]
  obtain ⟨hcurrent, howned⟩ :=
    handOverFrom_spec frameLength (bufCount frameLength) (bufCount frameLength) 0 heth
  exact ⟨fun steps hsteps => howned _ (.inr ⟨steps, hsteps, rfl⟩), hcurrent⟩

/-- Otherwise it changes no descriptor. -/
theorem halEthTransmitFrame_refused (heth : EthHandle) {frameLength : Nat}
    (hrefused : heth.locked = true ∨ frameLength = 0) :
    (halEthTransmitFrame heth frameLength).2.txDescs = heth.txDescs ∧
      (halEthTransmitFrame heth frameLength).2.txDesc = heth.txDesc := by
  rw [halEthTransmitFrame]
  by_cases hlocked : heth.locked = true
  · rw [if_pos hlocked]
    exact ⟨rfl, rfl⟩
  · rw [if_neg hlocked, if_pos (hrefused.resolve_left hlocked)]
    exact ⟨rfl, rfl⟩

/-- The driver reports success only for frames that were handed to the DMA exactly when nobody
holds the handle and the frame has bytes, or a descriptor that the frame needs is in use. -/
theorem output_truthful_iff (p : List (List UInt8)) (heth : EthHandle) :
    ((lowLevelOutput p heth).1 = .ok →
        Handed heth (lowLevelOutput p heth).2 p.flatten.length) ↔
      (heth.locked = false ∧ p.flatten ≠ []) ∨
        (p ≠ [] ∧ ∃ steps < bufCount p.flatten.length,
          (heth.txDescs (ringAt heth.txDesc steps)).own = true) := by
  by_cases hne : p = []
  · subst hne
    refine iff_of_false (fun hhanded => ?_) (by simp)
    have hcurrent := (hhanded rfl).current
    have hrefused := halEthTransmitFrame_refused heth (.inr (rfl : (0 : Nat) = 0))
    have hkept : (lowLevelOutput [] heth).2.txDesc = heth.txDesc := hrefused.2
    have hone : bufCount ([] : List (List UInt8)).flatten.length = 1 := rfl
    rw [hkept, hone, ringAt_succ, ringAt_zero] at hcurrent
    have hval := congrArg Fin.val hcurrent
    simp only [Fin.val_add, ethTxBufNb] at hval
    have hunit : ((1 : Fin 4) : Nat) = 1 := rfl
    omega
  · have hframed := copyFrame_start hne heth
    rw [lowLevelOutput]
    generalize copyFrame p ⟨heth.txDescs, heth.txDesc, 0, 0⟩ = result at hframed ⊢
    cases hframed with
    | stopped steps hlow hhigh hown _ =>
        refine iff_of_true (fun hok => by cases hok) (.inr ⟨hne, steps, ?_, hown⟩)
        rw [bufCount_eq]
        exact Nat.lt_succ_of_le hhigh
    | @done copy hfree hlength howners' =>
        have hfirst : (copy.txDescs heth.txDesc).own = false := by
          have hzero := hfree 0 le_rfl (Nat.zero_le _)
          rw [ringAt_zero] at hzero
          rw [howners', hzero]
        have hnone : ¬ ∃ steps < bufCount p.flatten.length,
            (heth.txDescs (ringAt heth.txDesc steps)).own = true := by
          rintro ⟨steps, hlt, hown⟩
          rw [bufCount_eq] at hlt
          rw [hfree steps (Nat.zero_le _) (Nat.le_of_lt_succ hlt)] at hown
          cases hown
        constructor
        · intro hhanded
          left
          by_contra hrefused
          have hunsent : heth.locked = true ∨ copy.framelength = 0 := by
            rw [hlength]
            cases hlocked : heth.locked with
            | true => exact .inl rfl
            | false =>
                right
                by_contra hlong
                exact hrefused ⟨hlocked, fun hempty => hlong (by rw [hempty]; rfl)⟩
          have hkept := halEthTransmitFrame_refused
            { heth with txDescs := copy.txDescs } hunsent
          have hown := (hhanded rfl).owned 0 (by rw [bufCount_eq]; exact Nat.succ_pos _)
          rw [ringAt_zero] at hown
          simp only at hown
          rw [hkept.1, hfirst] at hown
          cases hown
        · rintro (⟨hlocked, hbytes⟩ | ⟨_, hused⟩) _
          · have hlong : copy.framelength ≠ 0 := by
              rw [hlength]
              exact fun hzero => hbytes (List.eq_nil_of_length_eq_zero hzero)
            have hhanded := halEthTransmitFrame_handed
              { heth with txDescs := copy.txDescs } hlocked hlong hfirst
            rw [← hlength]
            exact ⟨hhanded.owned, hhanded.current⟩
          · exact absurd hused hnone

/-- A ring of free descriptors whose handle is in use by the main loop. -/
def preempted : EthHandle where
  txDescs := fun _ => ⟨false, false, false, 0, List.replicate ethTxBufSize 0⟩
  txDesc := 0
  locked := true
  state := .busy
  transmitUnderflow := false
  bufferUnavailable := false

/-- A frame that is sent while the main loop holds the handle: success is reported, and no
descriptor has been handed to the DMA. -/
theorem preempted_frame_lost : (lowLevelOutput [[0x2a]] preempted).1 = .ok ∧
    (∀ desc, ((lowLevelOutput [[0x2a]] preempted).2.txDescs desc).own = false) ∧
    ¬ Handed preempted (lowLevelOutput [[0x2a]] preempted).2 [[(0x2a : UInt8)]].flatten.length := by
  have hfree : ∀ desc, ((lowLevelOutput [[0x2a]] preempted).2.txDescs desc).own = false := by
    decide
  refine ⟨rfl, hfree, fun hhanded => ?_⟩
  have hown := hhanded.owned 0 (by decide)
  rw [hfree] at hown
  cases hown

end RealTimeWs
