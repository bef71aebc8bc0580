import RealTimeWs.Concentrator.Ethernet

/-! # The bytes of a sent frame

The driver fills buffers at two cursors, one in the chain and one in the ring, and the
hardware layer computes from the length of the frame how many of them to hand over and
how much of each to send. Both agree: what is sent is the chain.
-/

namespace RealTimeWs

open Memory

/-- The buffers of the ring, in the order in which a frame fills them. -/
def ringBlocks (descs : Fin ethTxBufNb → TxDesc) (start : Fin ethTxBufNb) (steps : Nat) :
    List UInt8 :=
  (descs (ringAt start steps)).buffer

/-! ## Copying -/

/-- The copy has brought these bytes into the ring, and stands behind them. -/
structure Written (start : Fin ethTxBufNb) (bytes : List UInt8) (filled : Nat)
    (copy : FrameCopy) : Prop extends CopyAt start filled copy where
  within : filled < ethTxBufNb
  sizes : ∀ desc, (copy.txDescs desc).buffer.length = ethTxBufSize
  bytes : (joined (ringBlocks copy.txDescs start) ethTxBufNb).take copy.framelength = bytes

section Copying

variable {start : Fin ethTxBufNb} {before : List UInt8} {filled : Nat} {copy : FrameCopy}

theorem Written.blocks (hwritten : Written start before filled copy) :
    ∀ steps < ethTxBufNb, (ringBlocks copy.txDescs start steps).length = ethTxBufSize :=
  fun steps _ => hwritten.sizes (ringAt start steps)

theorem Written.framelength_eq (hwritten : Written start before filled copy) :
    copy.framelength = before.length := by
  have hlength := length_joined hwritten.blocks
  have hwithin := hwritten.within
  have hoffset := hwritten.offset
  rw [← hwritten.bytes, List.length_take, hlength, hwritten.length]
  simp only [ethTxBufNb, ethTxBufSize] at hwithin hoffset ⊢
  omega

theorem FrameCopy.memcpy_self (copy : FrameCopy) (bytes : List UInt8) :
    ((copy.memcpy bytes).txDescs copy.dmaTxDesc).buffer =
      overwrite (copy.txDescs copy.dmaTxDesc).buffer copy.bufferoffset bytes := by
  simp [FrameCopy.memcpy, overwrite]

theorem FrameCopy.memcpy_of_ne (copy : FrameCopy) (bytes : List UInt8) {desc : Fin ethTxBufNb}
    (hne : desc ≠ copy.dmaTxDesc) : (copy.memcpy bytes).txDescs desc = copy.txDescs desc := by
  simp [FrameCopy.memcpy, hne]

/-- Bytes that fit the current buffer. -/
theorem Written.memcpy (hwritten : Written start before filled copy) {bytes : List UInt8}
    (hfits : copy.bufferoffset + bytes.length ≤ ethTxBufSize) :
    Written start (before ++ bytes) filled
      { copy.memcpy bytes with
        bufferoffset := copy.bufferoffset + bytes.length
        framelength := copy.framelength + bytes.length } where
  desc := hwritten.desc
  offset := hfits
  length := by
    rw [hwritten.length, Nat.add_assoc]
  within := hwritten.within
  sizes := by
    intro desc
    by_cases hdesc : desc = copy.dmaTxDesc
    · rw [hdesc, copy.memcpy_self, length_overwrite (by rw [hwritten.sizes]; exact hfits),
        hwritten.sizes]
    · rw [copy.memcpy_of_ne bytes hdesc, hwritten.sizes]
  bytes := by
    have hblock : ringBlocks (copy.memcpy bytes).txDescs start filled =
        overwrite (ringBlocks copy.txDescs start filled) copy.bufferoffset bytes := by
      rw [ringBlocks, ringBlocks, ← hwritten.desc, copy.memcpy_self]
    have hothers : ∀ steps < ethTxBufNb, steps ≠ filled →
        ringBlocks (copy.memcpy bytes).txDescs start steps =
          ringBlocks copy.txDescs start steps := by
      intro steps hlt hne
      have hother : ringAt start steps ≠ copy.dmaTxDesc := by
        rw [hwritten.desc]
        exact fun heq => hne (ringAt_inj hlt hwritten.within heq)
      rw [ringBlocks, ringBlocks, copy.memcpy_of_ne bytes hother]
    have hnew := take_joined_overwrite hwritten.blocks hwritten.within hfits hblock hothers
    rw [← hwritten.length, hwritten.bytes] at hnew
    exact hnew

/-- The start of the next buffer is where a full one ends. -/
theorem Written.next (hwritten : Written start before filled copy)
    (hfull : copy.bufferoffset = ethTxBufSize) (hwithin : filled + 1 < ethTxBufNb) :
    Written start before (filled + 1)
      { copy with dmaTxDesc := copy.dmaTxDesc + 1, bufferoffset := 0 } where
  desc := by
    rw [ringAt_succ, ← hwritten.desc]
  offset := Nat.zero_le _
  length := by
    rw [Nat.add_zero, Nat.succ_mul, hwritten.length, hfull]
  within := hwithin
  sizes := hwritten.sizes
  bytes := hwritten.bytes

/-- The induction is over the buffers that the payload fills: each takes what it has room for. -/
theorem copyPayload_written {fuel : Nat} {bytes : List UInt8} {copy' : FrameCopy}
    (hwritten : Written start before filled copy)
    (hfits : copy.framelength + bytes.length ≤ ethTxBufNb * ethTxBufSize)
    (hcopy : copyPayload fuel bytes copy = .ok copy') :
    ∃ filled', Written start (before ++ bytes) filled' copy' := by
  induction fuel generalizing before bytes copy filled with
  | zero => cases hcopy
  | succ fuel ih =>
      rw [copyPayload] at hcopy
      split at hcopy
      next hmore =>
        have hoffset := hwritten.offset
        have hlength := hwritten.length
        have htake : (bytes.take (ethTxBufSize - copy.bufferoffset)).length =
            ethTxBufSize - copy.bufferoffset := by
          rw [List.length_take]
          omega
        have hroom : copy.bufferoffset + (bytes.take (ethTxBufSize - copy.bufferoffset)).length =
            ethTxBufSize := by
          rw [htake]
          omega
        -- there is a byte left for the next buffer, so the ring has one
        have hwithin : filled + 1 < ethTxBufNb := by
          simp only [ethTxBufNb, ethTxBufSize] at hmore hoffset hlength hfits ⊢
          omega
        have hnext := (hwritten.memcpy hroom.le).next hroom hwithin
        dsimp only at hcopy
        split at hcopy
        next => cases hcopy
        next =>
          rw [htake] at hnext
          obtain ⟨filled', hwritten'⟩ := ih hnext (by
            simp only [List.length_drop]
            omega) hcopy
          refine ⟨filled', ?_⟩
          rwa [List.append_assoc, List.take_append_drop] at hwritten'
      next hlast =>
        cases hcopy
        exact ⟨filled, hwritten.memcpy (by omega)⟩

theorem copyFrame_written {p : List (List UInt8)} {copy' : FrameCopy}
    (hwritten : Written start before filled copy)
    (hfits : copy.framelength + p.flatten.length ≤ ethTxBufNb * ethTxBufSize)
    (hcopy : copyFrame p copy = .ok copy') :
    ∃ filled', Written start (before ++ p.flatten) filled' copy' := by
  induction p generalizing before copy filled with
  | nil =>
      cases hcopy
      exact ⟨filled, by rwa [List.flatten_nil, List.append_nil]⟩
  | cons payload rest ih =>
      rw [List.flatten_cons, List.length_append] at hfits
      rw [copyFrame_cons] at hcopy
      split at hcopy
      next => cases hcopy
      next =>
        cases hfirst : copyPayload (payload.length + 2) payload copy with
        | error stopped =>
            rw [hfirst] at hcopy
            cases hcopy
        | ok middle =>
            rw [hfirst] at hcopy
            obtain ⟨filled', hmiddle⟩ := copyPayload_written hwritten (by omega) hfirst
            have hlength : middle.framelength = copy.framelength + payload.length := by
              rw [hmiddle.framelength_eq, List.length_append, hwritten.framelength_eq]
            obtain ⟨filled'', hwritten'⟩ := ih hmiddle (by omega) hcopy
            refine ⟨filled'', ?_⟩
            rwa [List.append_assoc] at hwritten'

end Copying

/-! ## Handing over -/

/-- The size that the hardware layer programs for a segment of a frame. -/
def segmentSize (frameLength steps : Nat) : Nat :=
  if steps = bufCount frameLength - 1 then frameLength - (bufCount frameLength - 1) * ethTxBufSize
  else ethTxBufSize

theorem handOver_self (heth : EthHandle) (first last : Bool) (size : Nat) :
    (handOver heth first last size).txDescs heth.txDesc =
      { heth.txDescs heth.txDesc with
        own := true
        firstSegment := first
        lastSegment := last
        controlBufferSize := size % 2 ^ 13 } := by
  simp [handOver]

theorem handOver_of_ne (heth : EthHandle) (first last : Bool) (size : Nat) {desc : Fin ethTxBufNb}
    (hne : desc ≠ heth.txDesc) :
    (handOver heth first last size).txDescs desc = heth.txDescs desc := by
  simp [handOver, hne]

/-- Descriptors that the loop does not reach stay as they are. -/
theorem handOverFrom_of_ne (frameLength bufcount : Nat) {fuel : Nat} (i : Nat) (heth : EthHandle)
    {desc : Fin ethTxBufNb} (hne : ∀ steps < fuel, desc ≠ ringAt heth.txDesc steps) :
    (handOverFrom frameLength bufcount fuel i heth).txDescs desc = heth.txDescs desc := by
  induction fuel generalizing i heth with
  | zero => rfl
  | succ fuel ih =>
      have hfirst : desc ≠ heth.txDesc := by
        have hzero := hne 0 (Nat.succ_pos fuel)
        rwa [ringAt_zero] at hzero
      rw [handOverFrom, ih, handOver_of_ne _ _ _ _ hfirst]
      intro steps hlt
      rw [show (handOver heth _ _ _).txDesc = heth.txDesc + 1 from rfl, ringAt_succ']
      exact hne (steps + 1) (Nat.succ_lt_succ hlt)

/-- Each descriptor that the loop reaches is the DMA's, with its size, over the buffer it had. -/
theorem handOverFrom_at (frameLength bufcount : Nat) {fuel : Nat} (hround : fuel ≤ ethTxBufNb)
    (i : Nat) (heth : EthHandle) {steps : Nat} (hlt : steps < fuel) :
    (handOverFrom frameLength bufcount fuel i heth).txDescs (ringAt heth.txDesc steps) =
      { heth.txDescs (ringAt heth.txDesc steps) with
        own := true
        firstSegment := i + steps = 0
        lastSegment := i + steps = bufcount - 1
        controlBufferSize :=
          (if i + steps = bufcount - 1 then frameLength - (bufcount - 1) * ethTxBufSize
            else ethTxBufSize) % 2 ^ 13 } := by
  induction fuel generalizing i heth steps with
  | zero => omega
  | succ fuel ih =>
      rw [handOverFrom]
      cases steps with
      | zero =>
          rw [ringAt_zero, handOverFrom_of_ne, handOver_self]
          · rfl
          · intro later hlater
            rw [show (handOver heth _ _ _).txDesc = heth.txDesc + 1 from rfl, ringAt_succ']
            exact (ringAt_succ_ne (by omega)).symm
      | succ steps =>
          -- a later one is still as it was when its turn comes
          have hother : ringAt heth.txDesc (steps + 1) ≠ heth.txDesc := ringAt_succ_ne (by omega)
          have hlater := ih (Nat.le_of_succ_le hround) (i + 1)
            (handOver heth (i = 0) (i = bufcount - 1)
              (if i = bufcount - 1 then frameLength - (bufcount - 1) * ethTxBufSize
                else ethTxBufSize)) (Nat.lt_of_succ_lt_succ hlt)
          rw [show (handOver heth _ _ _).txDesc = heth.txDesc + 1 from rfl, ringAt_succ',
            handOver_of_ne _ _ _ _ hother, Nat.add_right_comm, Nat.add_assoc] at hlater
          exact hlater

/-- The buffers that a frame needs are the quotient of its length, rounded up. -/
theorem bufCount_eq_ceil {frameLength : Nat} (hpos : 0 < frameLength) :
    bufCount frameLength = (frameLength + (ethTxBufSize - 1)) / ethTxBufSize := by
  rw [bufCount_eq]
  simp only [place, ethTxBufSize]
  omega

/-- So many buffers hold the frame. -/
theorem le_bufCount_mul {frameLength : Nat} (hpos : 0 < frameLength) :
    frameLength ≤ bufCount frameLength * ethTxBufSize := by
  rw [bufCount_eq_ceil hpos]
  simp only [ethTxBufSize]
  omega

/-- A frame that fits the ring needs no more buffers than the ring has. -/
theorem bufCount_le {frameLength : Nat} (hpos : 0 < frameLength)
    (hlong : frameLength ≤ ethTxBufNb * ethTxBufSize) : bufCount frameLength ≤ ethTxBufNb := by
  rw [bufCount_eq_ceil hpos]
  simp only [ethTxBufNb, ethTxBufSize] at hlong ⊢
  omega

/-- The programmed size takes from a buffer what the frame has left for it. -/
theorem take_segmentSize {buffer : List UInt8} (hsize : buffer.length = ethTxBufSize)
    {frameLength steps : Nat} (hpos : 0 < frameLength) (hlt : steps < bufCount frameLength) :
    buffer.take (segmentSize frameLength steps % 2 ^ 13) =
      buffer.take (frameLength - steps * ethTxBufSize) := by
  rw [bufCount_eq_ceil hpos] at hlt
  rw [segmentSize, bufCount_eq_ceil hpos]
  simp only [ethTxBufSize] at hsize hlt ⊢
  split
  next hlast =>
    -- the last segment has what is left, which is less than 13 bits can count
    have hsame : (frameLength - ((frameLength + (1524 - 1)) / 1524 - 1) * 1524) % 2 ^ 13 =
        frameLength - steps * 1524 := by
      rw [← hlast]
      omega
    rw [hsame]
  next hbefore =>
    rw [List.take_of_length_le (by omega), List.take_of_length_le (by omega)]

/-! ## The result -/

/-- What the DMA sends from some descriptors: of each buffer as much as is programmed. -/
def transmitted (descs : Fin ethTxBufNb → TxDesc) (start : Fin ethTxBufNb) (count : Nat) :
    List UInt8 :=
  (List.range count).flatMap fun steps =>
    (descs (ringAt start steps)).buffer.take (descs (ringAt start steps)).controlBufferSize

/-- The frame went to the DMA: in exactly as many descriptors as it needs from the current one
on, with its bytes in order. -/
structure Scattered (heth heth' : EthHandle) (bytes : List UInt8) (count : Nat) : Prop where
  handed : ∀ steps < count, (heth.txDescs (ringAt heth.txDesc steps)).own = false ∧
    (heth'.txDescs (ringAt heth.txDesc steps)).own = true
  others : ∀ desc, (∀ steps < count, desc ≠ ringAt heth.txDesc steps) →
    (heth'.txDescs desc).own = (heth.txDescs desc).own
  current : heth'.txDesc = ringAt heth.txDesc count
  within : ∀ steps < count, (heth'.txDescs (ringAt heth.txDesc steps)).controlBufferSize ≤
    (heth'.txDescs (ringAt heth.txDesc steps)).buffer.length
  bytes : transmitted heth'.txDescs heth.txDesc count = bytes

theorem halEthTransmitFrame_scattered {heth : EthHandle} {descs : Fin ethTxBufNb → TxDesc}
    {bytes : List UInt8} (hlocked : heth.locked = false) (hpos : 0 < bytes.length)
    (hlong : bytes.length ≤ ethTxBufNb * ethTxBufSize)
    (hfree : ∀ steps < bufCount bytes.length, (heth.txDescs (ringAt heth.txDesc steps)).own = false)
    (howners : SameOwners heth.txDescs descs)
    (hsizes : ∀ desc, (descs desc).buffer.length = ethTxBufSize)
    (hbytes : (joined (ringBlocks descs heth.txDesc) ethTxBufNb).take bytes.length = bytes) :
    Scattered heth (halEthTransmitFrame { heth with txDescs := descs } bytes.length).2 bytes
      (bufCount bytes.length) := by
  have hround := bufCount_le hpos hlong
  have hcount : 0 < bufCount bytes.length := by
    rw [bufCount_eq]
    exact Nat.succ_pos _
  have hfirst : (descs heth.txDesc).own = false := by
    have hzero := hfree 0 hcount
    rwa [ringAt_zero, ← howners] at hzero
  rw [halEthTransmitFrame_eq { heth with txDescs := descs } hlocked hpos.ne' hfirst]
  have hat : ∀ steps < bufCount bytes.length,
      (handOverFrom bytes.length (bufCount bytes.length) (bufCount bytes.length) 0
        { heth with txDescs := descs }).txDescs (ringAt heth.txDesc steps) =
      { descs (ringAt heth.txDesc steps) with
        own := true
        firstSegment := steps = 0
        lastSegment := steps = bufCount bytes.length - 1
        controlBufferSize := segmentSize bytes.length steps % 2 ^ 13 } := by
    intro steps hlt
    have hstep := handOverFrom_at bytes.length (bufCount bytes.length) hround 0
      { heth with txDescs := descs } hlt
    rwa [Nat.zero_add] at hstep
  have hlimit : ∀ steps, segmentSize bytes.length steps % 2 ^ 13 ≤ ethTxBufSize := by
    intro steps
    rw [segmentSize, bufCount_eq_ceil hpos]
    simp only [ethTxBufSize]
    split <;> omega
  refine ⟨?_, ?_, ?_, ?_, ?_⟩
  · intro steps hlt
    exact ⟨hfree steps hlt, congrArg TxDesc.own (hat steps hlt)⟩
  · intro desc hne
    exact (congrArg TxDesc.own (handOverFrom_of_ne _ _ 0 { heth with txDescs := descs } hne)).trans
      (howners desc)
  · exact (handOverFrom_spec _ _ _ 0 { heth with txDescs := descs }).1
  · intro steps hlt
    dsimp only
    rw [hat steps hlt, hsizes]
    exact hlimit steps
  · have hblocks : ∀ steps < bufCount bytes.length,
        (ringBlocks descs heth.txDesc steps).length = ethTxBufSize :=
      fun steps _ => hsizes (ringAt heth.txDesc steps)
    -- buffers behind those of the frame hold none of its bytes
    obtain ⟨more, hmore⟩ := Nat.exists_eq_add_of_le hround
    have hsegments : transmitted
        (handOverFrom bytes.length (bufCount bytes.length) (bufCount bytes.length) 0
          { heth with txDescs := descs }).txDescs heth.txDesc (bufCount bytes.length) =
        (List.range (bufCount bytes.length)).flatMap fun steps =>
          (ringBlocks descs heth.txDesc steps).take (bytes.length - steps * ethTxBufSize) := by
      apply List.flatMap_congr
      intro steps hmem
      have hlt := List.mem_range.mp hmem
      have htake := take_segmentSize (hsizes (ringAt heth.txDesc steps)) hpos hlt
      rw [hat steps hlt, ringBlocks, ← htake]
    rw [hsegments, flatMap_take hblocks, ← take_joined_of_le hblocks (le_bufCount_mul hpos),
      ← hmore, hbytes]

/-- A chain with bytes, which fit the ring: either a descriptor that it needs is in use, and no
descriptor changes hands, or all its bytes go to the DMA in order. The first one is not returned
when all that it needs are free. -/
theorem output_scatters {p : List (List UInt8)} {heth : EthHandle} (hlocked : heth.locked = false)
    (hsizes : ∀ desc, (heth.txDescs desc).buffer.length = ethTxBufSize)
    (hpos : 0 < p.flatten.length) (hlong : p.flatten.length ≤ ethTxBufNb * ethTxBufSize) :
    ((lowLevelOutput p heth).1 = errUse ∧
        SameOwners heth.txDescs (lowLevelOutput p heth).2.txDescs ∧
        (lowLevelOutput p heth).2.txDesc = heth.txDesc ∧
        ∃ steps < (p.flatten.length + (ethTxBufSize - 1)) / ethTxBufSize,
          (heth.txDescs (ringAt heth.txDesc steps)).own = true) ∨
      ((lowLevelOutput p heth).1 = .ok ∧
        Scattered heth (lowLevelOutput p heth).2 p.flatten
          ((p.flatten.length + (ethTxBufSize - 1)) / ethTxBufSize)) := by
  have hwritten : Written heth.txDesc [] 0 ⟨heth.txDescs, heth.txDesc, 0, 0⟩ :=
    { desc := (ringAt_zero heth.txDesc).symm
      offset := Nat.zero_le _
      length := rfl
      within := by decide
      sizes := hsizes
      bytes := rfl }
  have hne : p ≠ [] := by
    rintro rfl
    exact absurd hpos (Nat.lt_irrefl 0)
  have hframed := copyFrame_start hne heth
  rw [lowLevelOutput]
  cases hcopy : copyFrame p ⟨heth.txDescs, heth.txDesc, 0, 0⟩ with
  | error copy =>
      -- the copy only writes into buffers
      left
      rw [hcopy] at hframed
      cases hframed with
      | stopped steps _ hhigh hown howners =>
          refine ⟨rfl, howners, rfl, steps, ?_, hown⟩
          rw [← bufCount_eq_ceil hpos, bufCount_eq]
          omega
  | ok copy =>
      right
      rw [hcopy] at hframed
      cases hframed with
      | done hfree hlength howners =>
          obtain ⟨filled, hcopied⟩ := copyFrame_written hwritten
            (by rw [Nat.zero_add]; exact hlong) hcopy
          have hbytes := hcopied.bytes
          rw [List.nil_append, hlength] at hbytes
          have hscattered := halEthTransmitFrame_scattered hlocked hpos hlong
            (fun steps hlt => hfree steps (Nat.zero_le _) (by rw [bufCount_eq] at hlt; omega))
            howners hcopied.sizes hbytes
          rw [bufCount_eq_ceil hpos] at hscattered
          refine ⟨rfl, ?_⟩
          dsimp only
          rw [hlength]
          exact ⟨hscattered.handed, hscattered.others, hscattered.current, hscattered.within,
            hscattered.bytes⟩

/-- A chain of 2000 bytes and a ring of free descriptors, of which it takes two. -/
theorem output_scatters_free :
    (lowLevelOutput [List.replicate 1000 1, [], List.replicate 1000 2]
        { preempted with locked := false }).1 = .ok ∧
      Scattered { preempted with locked := false }
        (lowLevelOutput [List.replicate 1000 1, [], List.replicate 1000 2]
          { preempted with locked := false }).2
        (List.replicate 1000 1 ++ List.replicate 1000 2) 2 := by
  have hbytes : [List.replicate 1000 (1 : UInt8), [], List.replicate 1000 2].flatten =
      List.replicate 1000 1 ++ List.replicate 1000 2 := by
    simp only [List.flatten_cons, List.flatten_nil, List.nil_append, List.append_nil]
  have hlength : [List.replicate 1000 (1 : UInt8), [], List.replicate 1000 2].flatten.length =
      2000 := by
    rw [hbytes, List.length_append, List.length_replicate, List.length_replicate]
  rcases @output_scatters [List.replicate 1000 1, [], List.replicate 1000 2]
    { preempted with locked := false } rfl (fun _ => List.length_replicate)
    (by rw [hlength]; decide) (by rw [hlength]; decide) with
    ⟨_, _, _, _, _, hown⟩ | ⟨hok, hscattered⟩
  · cases hown
  · rw [hlength, hbytes] at hscattered
    exact ⟨hok, hscattered⟩

end RealTimeWs
