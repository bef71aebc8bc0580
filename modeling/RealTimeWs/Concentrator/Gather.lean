import RealTimeWs.Concentrator.Ethernet

/-! # Receiving frames

The DMA spreads a long frame over consecutive descriptors of a ring. Each call of the
driver looks at one descriptor; the call that finds the last one copies the frame into a
chain of packet buffers, which is cut at other places than the ring, and gives all
descriptors of the frame back. A chain is given by the payloads of its buffers.
-/

namespace RealTimeWs

open Memory

/-- How many receive descriptors the ring of the concentrator has. -/
abbrev ethRxBufNb : Nat := 4

/-- How many bytes the buffer of a receive descriptor holds. -/
abbrev ethRxBufSize : Nat := 1524

/-- A receive descriptor. The DMA owns it until it has filled its buffer. The length of a frame,
with its checksum, stands in the last of its descriptors. -/
structure RxDesc where
  own : Bool
  firstSegment : Bool
  lastSegment : Bool
  frameLength : Nat
  buffer : List UInt8
deriving DecidableEq, Repr

/-- What is known of the frame that comes in. -/
structure RxFrameInfos (rxBufNb : Nat) where
  fsRxDesc : Fin rxBufNb
  segCount : Nat
  length : Nat

/-- The part of the handle that reception uses, for a ring of any size. The descriptor behind the
last one is the first. -/
structure RxHandle (rxBufNb : Nat) where
  rxDescs : Fin rxBufNb → RxDesc
  rxDesc : Fin rxBufNb
  rxFrameInfos : RxFrameInfos rxBufNb
  locked : Bool
  state : HalEthState
  receiveBufferUnavailable : Bool

variable {rxBufNb : Nat} [NeZero rxBufNb]

/-- Look at the current descriptor, and go on to the next one if it was filled. -/
def halEthGetReceivedFrame (heth : RxHandle rxBufNb) : HalStatus × RxHandle rxBufNb :=
  let desc := heth.rxDescs heth.rxDesc
  let infos := heth.rxFrameInfos
  if heth.locked then (.busy, heth)
  else if desc.own then (.error, { heth with state := .ready })
  else if desc.lastSegment then
    let segCount := infos.segCount + 1
    (.ok, { heth with
      rxFrameInfos :=
        { fsRxDesc := if segCount = 1 then heth.rxDesc else infos.fsRxDesc
          segCount := segCount
          -- without the four bytes of the checksum
          length := (desc.frameLength + (2 ^ 32 - 4)) % 2 ^ 32 }
      rxDesc := heth.rxDesc + 1
      state := .ready })
  else if desc.firstSegment then
    (.error, { heth with
      rxFrameInfos := { infos with fsRxDesc := heth.rxDesc, segCount := 1 }
      rxDesc := heth.rxDesc + 1
      state := .ready })
  else
    (.error, { heth with
      rxFrameInfos := { infos with segCount := infos.segCount + 1 }
      rxDesc := heth.rxDesc + 1
      state := .ready })

/-! ## Copying into a chain -/

/-- Where the copy into one packet buffer stands. -/
structure RxCopy (rxBufNb : Nat) where
  payload : List UInt8
  payloadoffset : Nat
  dmarxdesc : Fin rxBufNb
  bufferoffset : Nat

/-- Bytes of the current receive buffer over a part of the payload. -/
def RxCopy.memcpy (descs : Fin rxBufNb → RxDesc) (copy : RxCopy rxBufNb) (length : Nat) :
    RxCopy rxBufNb :=
  { copy with
    payload := overwrite copy.payload copy.payloadoffset
      (((descs copy.dmarxdesc).buffer.drop copy.bufferoffset).take length) }

/-- Copy into one packet buffer. While it reaches beyond the current receive buffer, what that has
left is taken and the copy goes on with the next descriptor. -/
def fillPayload (descs : Fin rxBufNb → RxDesc) (byteslefttocopy : Nat) (copy : RxCopy rxBufNb) :
    RxCopy rxBufNb :=
  if byteslefttocopy + copy.bufferoffset > ethRxBufSize then
    fillPayload descs (byteslefttocopy - (ethRxBufSize - copy.bufferoffset))
      { copy.memcpy descs (ethRxBufSize - copy.bufferoffset) with
        payloadoffset := copy.payloadoffset + (ethRxBufSize - copy.bufferoffset)
        dmarxdesc := copy.dmarxdesc + 1
        bufferoffset := 0 }
  else
    { copy.memcpy descs byteslefttocopy with bufferoffset := copy.bufferoffset + byteslefttocopy }
termination_by byteslefttocopy + copy.bufferoffset
decreasing_by
  simp only [ethRxBufSize] at *
  omega

/-- Copy into all packet buffers of a chain, from a place in the ring on. -/
def fillChain (descs : Fin rxBufNb → RxDesc) :
    List (List UInt8) → Fin rxBufNb → Nat → List (List UInt8)
  | [], _, _ => []
  | payload :: rest, dmarxdesc, bufferoffset =>
      let copy := fillPayload descs payload.length ⟨payload, 0, dmarxdesc, bufferoffset⟩
      copy.payload :: fillChain descs rest copy.dmarxdesc copy.bufferoffset

/-- Give descriptors back to the DMA, with nothing else left in their status. -/
def giveBack : Nat → Fin rxBufNb → (Fin rxBufNb → RxDesc) → Fin rxBufNb → RxDesc
  | 0, _, descs => descs
  | count + 1, dmarxdesc, descs =>
      giveBack count (dmarxdesc + 1) (Function.update descs dmarxdesc
        ⟨true, false, false, 0, (descs dmarxdesc).buffer⟩)

/-- What `pbuf_alloc` answers to a length is a parameter: a chain with whatever its buffers held
before, or nothing. -/
def lowLevelInput (pbufAlloc : Nat → Option (List (List UInt8))) (heth : RxHandle rxBufNb) :
    Option (List (List UInt8)) × RxHandle rxBufNb :=
  match halEthGetReceivedFrame heth with
  | (.ok, heth) =>
      let infos := heth.rxFrameInfos
      let len := infos.length % 2 ^ 16
      let p := (pbufAlloc len).map fun p => fillChain heth.rxDescs p infos.fsRxDesc 0
      -- a DMA that has run out of buffers is told to go on
      (p, { heth with
        rxDescs := giveBack infos.segCount infos.fsRxDesc heth.rxDescs
        rxFrameInfos := { infos with segCount := 0 }
        receiveBufferUnavailable := false })
  | (_, heth) => (none, heth)

/-- Calls of the driver one after the other, and what they return. -/
def inputs (pbufAlloc : Nat → Option (List (List UInt8))) :
    Nat → RxHandle rxBufNb → List (Option (List (List UInt8))) × RxHandle rxBufNb
  | 0, heth => ([], heth)
  | calls + 1, heth =>
      let input := lowLevelInput pbufAlloc heth
      let later := inputs pbufAlloc calls input.2
      (input.1 :: later.1, later.2)

/-! ## The bytes of the chain -/

/-- The receive buffers from a descriptor on. -/
def rxBlocks (descs : Fin rxBufNb → RxDesc) (start : Fin rxBufNb) (steps : Nat) : List UInt8 :=
  (descs (around start steps)).buffer

section Filling

variable {descs : Fin rxBufNb → RxDesc} {start : Fin rxBufNb} {count : Nat}

/-- One part of the copy: the payload keeps its length, and goes on with the bytes of the frame. -/
theorem RxCopy.memcpy_spec
    (hsizes : ∀ steps < count, (rxBlocks descs start steps).length = ethRxBufSize)
    {copy : RxCopy rxBufNb} {k : Nat} (length : Nat) (hk : k < count)
    (hdesc : copy.dmarxdesc = around start k) (hfits : copy.bufferoffset + length ≤ ethRxBufSize)
    (hroom : copy.payloadoffset + length ≤ copy.payload.length) :
    (copy.memcpy descs length).payload.length = copy.payload.length ∧
      (copy.memcpy descs length).payload.take (copy.payloadoffset + length) =
        copy.payload.take copy.payloadoffset ++ ((joined (rxBlocks descs start) count).drop
          (k * ethRxBufSize + copy.bufferoffset)).take length := by
  have hbytes : ((descs copy.dmarxdesc).buffer.drop copy.bufferoffset).take length =
      ((joined (rxBlocks descs start) count).drop
        (k * ethRxBufSize + copy.bufferoffset)).take length := by
    rw [take_drop_joined hsizes hk hfits, rxBlocks, hdesc]
  -- what is read lies within the receive buffer
  have hlength : (((descs copy.dmarxdesc).buffer.drop copy.bufferoffset).take length).length =
      length := by
    have hsize := hsizes k hk
    rw [rxBlocks, ← hdesc] at hsize
    rw [List.length_take, List.length_drop, hsize]
    omega
  have hover : copy.payloadoffset +
      (((descs copy.dmarxdesc).buffer.drop copy.bufferoffset).take length).length ≤
        copy.payload.length := by
    rw [hlength]
    exact hroom
  refine ⟨length_overwrite hover, ?_⟩
  have htake := take_overwrite hover
  rw [hlength] at htake
  rw [← hbytes]
  exact htake

/-- The copy takes from the ring what comes next there. The induction follows the loop: as long as
it goes on, there is another byte of the frame, and so another descriptor. -/
theorem fillPayload_spec
    (hsizes : ∀ steps < count, (rxBlocks descs start steps).length = ethRxBufSize)
    {byteslefttocopy k : Nat} {copy : RxCopy rxBufNb} (hk : k < count)
    (hdesc : copy.dmarxdesc = around start k) (hoffset : copy.bufferoffset ≤ ethRxBufSize)
    (hfits : k * ethRxBufSize + copy.bufferoffset + byteslefttocopy ≤ count * ethRxBufSize)
    (hroom : copy.payload.length = copy.payloadoffset + byteslefttocopy) :
    ∃ k' < count, (fillPayload descs byteslefttocopy copy).dmarxdesc = around start k' ∧
      (fillPayload descs byteslefttocopy copy).bufferoffset ≤ ethRxBufSize ∧
      k' * ethRxBufSize + (fillPayload descs byteslefttocopy copy).bufferoffset =
        k * ethRxBufSize + copy.bufferoffset + byteslefttocopy ∧
      (fillPayload descs byteslefttocopy copy).payload = copy.payload.take copy.payloadoffset ++
        ((joined (rxBlocks descs start) count).drop
          (k * ethRxBufSize + copy.bufferoffset)).take byteslefttocopy := by
  fun_induction fillPayload descs byteslefttocopy copy generalizing k with
  | case1 byteslefttocopy copy hmore ih =>
      have hleft : ethRxBufSize - copy.bufferoffset ≤ byteslefttocopy := by omega
      obtain ⟨hlength, htake⟩ := RxCopy.memcpy_spec hsizes
        (ethRxBufSize - copy.bufferoffset) hk hdesc (Nat.add_sub_of_le hoffset).le
        (by rw [hroom]; exact Nat.add_le_add_left hleft _)
      -- a byte is left beyond this buffer
      have hnext : k + 1 < count := by
        simp only [ethRxBufSize] at hmore hoffset hfits
        omega
      have hposition : (k + 1) * ethRxBufSize + 0 =
          k * ethRxBufSize + copy.bufferoffset + (ethRxBufSize - copy.bufferoffset) := by
        rw [Nat.succ_mul]
        omega
      obtain ⟨k', hk', hdesc', hoffset', hposition', hpayload⟩ := ih hnext
        (by rw [around_succ, ← hdesc]) (Nat.zero_le _)
        (by rw [hposition, Nat.add_assoc, Nat.add_sub_of_le hleft]; exact hfits)
        (by rw [hlength, hroom, Nat.add_assoc, Nat.add_sub_of_le hleft])
      refine ⟨k', hk', hdesc', hoffset', ?_, ?_⟩
      · rw [hposition', hposition, Nat.add_assoc, Nat.add_sub_of_le hleft]
      · rw [hpayload, htake, hposition, List.append_assoc, ← take_drop_add,
          Nat.add_sub_of_le hleft]
  | case2 byteslefttocopy copy hlast =>
      have hfits' : copy.bufferoffset + byteslefttocopy ≤ ethRxBufSize := by omega
      obtain ⟨hlength, htake⟩ := RxCopy.memcpy_spec hsizes byteslefttocopy hk hdesc hfits' hroom.ge
      refine ⟨k, hk, hdesc, hfits', (Nat.add_assoc _ _ _).symm, ?_⟩
      rw [← htake, ← hroom, ← hlength, List.take_length]

/-- The packet buffers of a chain, one after the other, take the bytes of the frame. -/
theorem fillChain_spec
    (hsizes : ∀ steps < count, (rxBlocks descs start steps).length = ethRxBufSize)
    {p : List (List UInt8)} {k bufferoffset : Nat} (hk : k < count)
    (hoffset : bufferoffset ≤ ethRxBufSize)
    (hfits : k * ethRxBufSize + bufferoffset + p.flatten.length ≤ count * ethRxBufSize) :
    (fillChain descs p (around start k) bufferoffset).map List.length = p.map List.length ∧
      (fillChain descs p (around start k) bufferoffset).flatten =
        ((joined (rxBlocks descs start) count).drop (k * ethRxBufSize + bufferoffset)).take
          p.flatten.length := by
  induction p generalizing k bufferoffset with
  | nil => exact ⟨rfl, rfl⟩
  | cons payload rest ih =>
      rw [List.flatten_cons, List.length_append, ← Nat.add_assoc] at hfits
      have hfirst : k * ethRxBufSize + bufferoffset + payload.length ≤ count * ethRxBufSize :=
        (Nat.le_add_right _ _).trans hfits
      let copy : RxCopy rxBufNb := ⟨payload, 0, around start k, bufferoffset⟩
      have hroom : copy.payload.length = copy.payloadoffset + payload.length :=
        (Nat.zero_add _).symm
      obtain ⟨k', hk', hdesc', hoffset', hposition, hpayload⟩ :=
        fillPayload_spec hsizes hk rfl hoffset hfirst hroom
      obtain ⟨hlengths, hbytes⟩ := ih hk' hoffset' (by rw [hposition]; exact hfits)
      have hpayload' : (fillPayload descs payload.length copy).payload =
          ((joined (rxBlocks descs start) count).drop
            (k * ethRxBufSize + bufferoffset)).take payload.length := hpayload
      have hlength : (fillPayload descs payload.length copy).payload.length = payload.length := by
        rw [hpayload', List.length_take, List.length_drop, length_joined hsizes]
        omega
      have hcons : fillChain descs (payload :: rest) (around start k) bufferoffset =
          (fillPayload descs payload.length copy).payload ::
            fillChain descs rest (around start k')
              (fillPayload descs payload.length copy).bufferoffset := by
        rw [← hdesc']
        rfl
      rw [hcons]
      refine ⟨?_, ?_⟩
      · rw [List.map_cons, List.map_cons, hlengths, hlength]
      · rw [List.flatten_cons, List.flatten_cons, List.length_append, take_drop_add, hbytes,
          hposition, hpayload']

end Filling

/-! ## Giving back -/

theorem giveBack_of_ne {descs : Fin rxBufNb → RxDesc} {start desc : Fin rxBufNb} {count : Nat}
    (hne : ∀ steps < count, desc ≠ around start steps) :
    giveBack count start descs desc = descs desc := by
  induction count generalizing start descs with
  | zero => rfl
  | succ count ih =>
      have hfirst : desc ≠ start := by
        have hzero := hne 0 (Nat.succ_pos count)
        rwa [around_zero] at hzero
      rw [giveBack, ih, Function.update_of_ne hfirst]
      intro steps hlt
      rw [around_succ']
      exact hne (steps + 1) (Nat.succ_lt_succ hlt)

/-- What was given back stays with the DMA. -/
theorem giveBack_own {descs : Fin rxBufNb → RxDesc} {start desc : Fin rxBufNb} {count : Nat}
    (hown : (descs desc).own = true ∨ ∃ steps < count, desc = around start steps) :
    (giveBack count start descs desc).own = true := by
  induction count generalizing start descs with
  | zero =>
      rcases hown with hown | ⟨steps, hlt, _⟩
      · exact hown
      · cases hlt
  | succ count ih =>
      rw [giveBack]
      apply ih
      by_cases hfirst : desc = start
      · left
        rw [hfirst, Function.update_self]
      · rw [Function.update_of_ne hfirst]
        refine hown.imp_right ?_
        intro hlater
        obtain ⟨steps, hlt, hdesc⟩ := hlater
        cases steps with
        | zero =>
            rw [around_zero] at hdesc
            exact absurd hdesc hfirst
        | succ steps =>
            refine ⟨steps, Nat.lt_of_succ_lt_succ hlt, ?_⟩
            rw [around_succ']
            exact hdesc

/-! ## A whole frame -/

/-- A frame lies in the ring, from the current descriptor on: the DMA has filled its descriptors,
of which one is the first and one the last, and nobody has looked at them yet. -/
structure FrameReceived (heth : RxHandle rxBufNb) (count len : Nat) : Prop where
  pos : 0 < count
  round : count ≤ rxBufNb
  unlocked : heth.locked = false
  fresh : heth.rxFrameInfos.segCount = 0
  free : ∀ steps < count, (heth.rxDescs (around heth.rxDesc steps)).own = false
  first : ∀ steps < count,
    ((heth.rxDescs (around heth.rxDesc steps)).firstSegment = true ↔ steps = 0)
  last : ∀ steps < count,
    ((heth.rxDescs (around heth.rxDesc steps)).lastSegment = true ↔ steps + 1 = count)
  sizes : ∀ steps < count, (rxBlocks heth.rxDescs heth.rxDesc steps).length = ethRxBufSize
  length : (heth.rxDescs (around heth.rxDesc (count - 1))).frameLength = len + 4
  small : len < 2 ^ 16
  fits : len ≤ count * ethRxBufSize

/-- What became of a frame: its bytes are in the chain, if there was one, and its descriptors, and
no others, are the DMA's again. -/
structure Gathered (heth heth' : RxHandle rxBufNb) (count len : Nat)
    (chain result : Option (List (List UInt8))) : Prop where
  refused : chain = none → result = none
  bytes : ∀ p, chain = some p → ∃ filled, result = some filled ∧
    filled.map List.length = p.map List.length ∧
    filled.flatten = (joined (rxBlocks heth.rxDescs heth.rxDesc) count).take len
  given : ∀ steps < count, (heth'.rxDescs (around heth.rxDesc steps)).own = true
  others : ∀ desc, (∀ steps < count, desc ≠ around heth.rxDesc steps) →
    heth'.rxDescs desc = heth.rxDescs desc
  segCount : heth'.rxFrameInfos.segCount = 0
  current : heth'.rxDesc = around heth.rxDesc count

/-- Some descriptors of the frame have been looked at. -/
structure Arriving (heth heth' : RxHandle rxBufNb) (seen : Nat) : Prop where
  rxDescs : heth'.rxDescs = heth.rxDescs
  rxDesc : heth'.rxDesc = around heth.rxDesc seen
  segCount : heth'.rxFrameInfos.segCount = seen
  first : 0 < seen → heth'.rxFrameInfos.fsRxDesc = heth.rxDesc
  unlocked : heth'.locked = false

section Frames

variable {heth heth' : RxHandle rxBufNb} {count len seen : Nat}
  {pbufAlloc : Nat → Option (List (List UInt8))}

theorem FrameReceived.arriving (hframe : FrameReceived heth count len) : Arriving heth heth 0 where
  rxDescs := rfl
  rxDesc := (around_zero heth.rxDesc).symm
  segCount := hframe.fresh
  first := fun hpos => absurd hpos (Nat.lt_irrefl 0)
  unlocked := hframe.unlocked

/-- What a call does with a filled descriptor that is not the last one of its frame. -/
theorem lowLevelInput_of_more (hunlocked : heth.locked = false)
    (hfree : (heth.rxDescs heth.rxDesc).own = false)
    (hlast : (heth.rxDescs heth.rxDesc).lastSegment = false) :
    lowLevelInput pbufAlloc heth = (none, { heth with
      rxFrameInfos := { heth.rxFrameInfos with
        fsRxDesc := if (heth.rxDescs heth.rxDesc).firstSegment then heth.rxDesc
          else heth.rxFrameInfos.fsRxDesc
        segCount := if (heth.rxDescs heth.rxDesc).firstSegment then 1
          else heth.rxFrameInfos.segCount + 1 }
      rxDesc := heth.rxDesc + 1
      state := .ready }) := by
  cases hfirst : (heth.rxDescs heth.rxDesc).firstSegment with
  | true => simp [lowLevelInput, halEthGetReceivedFrame, hunlocked, hfree, hlast, hfirst]
  | false => simp [lowLevelInput, halEthGetReceivedFrame, hunlocked, hfree, hlast, hfirst]

/-- What a call does with the last descriptor of a frame. -/
theorem lowLevelInput_of_last {start : Fin rxBufNb} (hunlocked : heth.locked = false)
    (hfree : (heth.rxDescs heth.rxDesc).own = false)
    (hlast : (heth.rxDescs heth.rxDesc).lastSegment = true)
    (hstart : (if heth.rxFrameInfos.segCount + 1 = 1 then heth.rxDesc
      else heth.rxFrameInfos.fsRxDesc) = start)
    (hlength : (heth.rxDescs heth.rxDesc).frameLength = len + 4) (hsmall : len < 2 ^ 16) :
    lowLevelInput pbufAlloc heth =
      ((pbufAlloc len).map fun p => fillChain heth.rxDescs p start 0, { heth with
        rxDescs := giveBack (heth.rxFrameInfos.segCount + 1) start heth.rxDescs
        rxFrameInfos := { fsRxDesc := start, segCount := 0, length := len }
        rxDesc := heth.rxDesc + 1
        state := .ready
        receiveBufferUnavailable := false }) := by
  -- the length passes through a field of 32 bits and a variable of 16
  have hwhole : (len + 4 + (2 ^ 32 - 4)) % 2 ^ 32 = len := by omega
  have hshort : len % 2 ^ 16 = len := Nat.mod_eq_of_lt hsmall
  have hget : halEthGetReceivedFrame heth = (.ok, { heth with
      rxFrameInfos := ⟨start, heth.rxFrameInfos.segCount + 1, len⟩
      rxDesc := heth.rxDesc + 1
      state := .ready }) := by
    rw [halEthGetReceivedFrame]
    dsimp only
    rw [hunlocked, hfree, hlast, hlength, hwhole, hstart]
    rfl
  rw [lowLevelInput, hget]
  dsimp only
  rw [hshort]

/-- A call that does not find the last descriptor returns nothing and gives nothing back. -/
theorem Arriving.step (harriving : Arriving heth heth' seen) (hframe : FrameReceived heth count len)
    (hmore : seen + 1 < count) :
    (lowLevelInput pbufAlloc heth').1 = none ∧
      Arriving heth (lowLevelInput pbufAlloc heth').2 (seen + 1) := by
  have hlt : seen < count := Nat.lt_of_succ_lt hmore
  have hdesc : heth'.rxDescs heth'.rxDesc = heth.rxDescs (around heth.rxDesc seen) := by
    rw [harriving.rxDescs, harriving.rxDesc]
  have hlast : (heth'.rxDescs heth'.rxDesc).lastSegment = false := by
    rw [hdesc, Bool.eq_false_iff]
    exact fun hlast => hmore.ne ((hframe.last seen hlt).mp hlast)
  have hfree : (heth'.rxDescs heth'.rxDesc).own = false := hdesc ▸ hframe.free seen hlt
  rw [lowLevelInput_of_more harriving.unlocked hfree hlast, hdesc]
  refine ⟨rfl, harriving.rxDescs, ?_, ?_, ?_, harriving.unlocked⟩
  · rw [around_succ, ← harriving.rxDesc]
  · -- the first descriptor starts the count
    cases seen with
    | zero => exact if_pos ((hframe.first 0 hlt).mpr rfl)
    | succ seen =>
        refine (if_neg ?_).trans (congrArg (· + 1) harriving.segCount)
        exact fun hfirst => Nat.succ_ne_zero seen ((hframe.first (seen + 1) hlt).mp hfirst)
  · intro _
    cases seen with
    | zero =>
        refine (if_pos ((hframe.first 0 hlt).mpr rfl)).trans ?_
        rw [harriving.rxDesc, around_zero]
    | succ seen =>
        refine (if_neg ?_).trans (harriving.first (Nat.succ_pos seen))
        exact fun hfirst => Nat.succ_ne_zero seen ((hframe.first (seen + 1) hlt).mp hfirst)

/-- The call that finds the last descriptor. -/
theorem Arriving.last (harriving : Arriving heth heth' seen) (hframe : FrameReceived heth count len)
    (hlast : seen + 1 = count) (halloc : ∀ p, pbufAlloc len = some p → p.flatten.length = len) :
    Gathered heth (lowLevelInput pbufAlloc heth').2 count len (pbufAlloc len)
      (lowLevelInput pbufAlloc heth').1 := by
  have hlt : seen < count := hlast ▸ Nat.lt_succ_self seen
  have hdesc : heth'.rxDescs heth'.rxDesc = heth.rxDescs (around heth.rxDesc seen) := by
    rw [harriving.rxDescs, harriving.rxDesc]
  -- a frame of one descriptor starts here, any other where an earlier call has noted it
  have hstart : (if heth'.rxFrameInfos.segCount + 1 = 1 then heth'.rxDesc
      else heth'.rxFrameInfos.fsRxDesc) = heth.rxDesc := by
    rw [harriving.segCount]
    cases seen with
    | zero => rw [if_pos rfl, harriving.rxDesc, around_zero]
    | succ seen => rw [if_neg (by omega), harriving.first (Nat.succ_pos seen)]
  have hlength : (heth'.rxDescs heth'.rxDesc).frameLength = len + 4 := by
    rw [hdesc, ← hframe.length, ← hlast, Nat.add_sub_cancel]
  rw [lowLevelInput_of_last harriving.unlocked (hdesc ▸ hframe.free seen hlt)
    (hdesc ▸ (hframe.last seen hlt).mpr hlast) hstart hlength hframe.small, harriving.rxDescs,
    harriving.segCount, hlast]
  refine ⟨?_, ?_, ?_, ?_, rfl, ?_⟩
  · intro hnone
    rw [hnone, Option.map_none]
  · intro p hp
    have hfits : 0 * ethRxBufSize + 0 + p.flatten.length ≤ count * ethRxBufSize := by
      rw [Nat.zero_mul, Nat.zero_add, halloc p hp]
      exact hframe.fits
    obtain ⟨hlengths, hbytes⟩ := fillChain_spec hframe.sizes hframe.pos (Nat.zero_le _) hfits
    rw [around_zero] at hlengths hbytes
    refine ⟨fillChain heth.rxDescs p heth.rxDesc 0, by rw [hp, Option.map_some], hlengths, ?_⟩
    rw [hbytes, Nat.zero_mul, Nat.zero_add, List.drop_zero, halloc p hp]
  · intro steps hsteps
    exact giveBack_own (Or.inr ⟨steps, hsteps, rfl⟩)
  · intro desc hne
    exact giveBack_of_ne hne
  · rw [← hlast, around_succ, ← harriving.rxDesc]

/-- The run over a frame, by induction on the calls that are still to come. -/
theorem Arriving.run {left : Nat} (harriving : Arriving heth heth' seen)
    (hframe : FrameReceived heth count len) (hleft : seen + (left + 1) = count)
    (halloc : ∀ p, pbufAlloc len = some p → p.flatten.length = len) :
    ∃ result, (inputs pbufAlloc (left + 1) heth').1 = List.replicate left none ++ [result] ∧
      Gathered heth (inputs pbufAlloc (left + 1) heth').2 count len (pbufAlloc len) result := by
  induction left generalizing heth' seen with
  | zero => exact ⟨_, rfl, harriving.last hframe hleft halloc⟩
  | succ left ih =>
      have hmore : seen + 1 < count := by omega
      obtain ⟨hnone, hnext⟩ : (lowLevelInput pbufAlloc heth').1 = none ∧ _ :=
        harriving.step hframe hmore
      obtain ⟨result, hresults, hgathered⟩ := ih hnext (by omega)
      refine ⟨result, ?_, hgathered⟩
      rw [inputs, hresults, hnone, List.replicate_succ]
      rfl

/-- The calls before the last one return nothing. The last one returns the bytes of the frame, if
the pool had a chain for them, and in any case the descriptors of the frame are given back. -/
theorem input_gathers (hframe : FrameReceived heth count len)
    (halloc : ∀ p, pbufAlloc len = some p → p.flatten.length = len) :
    ∃ result, (inputs pbufAlloc count heth).1 = List.replicate (count - 1) none ++ [result] ∧
      Gathered heth (inputs pbufAlloc count heth).2 count len (pbufAlloc len) result := by
  have hcalls : count - 1 + 1 = count := Nat.sub_add_cancel hframe.pos
  have hrun := hframe.arriving.run hframe ((Nat.zero_add _).trans hcalls) halloc
  rwa [hcalls] at hrun

end Frames

/-- A ring with a frame of two thousand bytes in its last and its first descriptor. -/
def twoSegments : RxHandle ethRxBufNb where
  rxDescs := fun desc =>
    { own := desc.val ≠ 3 ∧ desc.val ≠ 0
      firstSegment := desc.val = 3
      lastSegment := desc.val = 0
      frameLength := 2004
      buffer := List.replicate ethRxBufSize (if desc.val = 3 then 1 else 2) }
  rxDesc := Fin.last 3
  rxFrameInfos := ⟨Fin.last 3, 0, 0⟩
  locked := false
  state := .ready
  receiveBufferUnavailable := false

theorem twoSegments_received : FrameReceived twoSegments 2 2000 where
  pos := by decide
  round := by decide
  unlocked := rfl
  fresh := rfl
  free := by decide
  first := by decide
  last := by decide
  sizes := fun _ _ => List.length_replicate
  length := rfl
  small := by decide
  fits := by decide

/-- Buffers of half a thousand bytes, the last of which is not full. -/
def pool (length : Nat) : Option (List (List UInt8)) :=
  some (List.replicate (length / 512) (List.replicate 512 0) ++ [List.replicate (length % 512) 0])

theorem length_of_pool {length : Nat} {p : List (List UInt8)} (hp : pool length = some p) :
    p.flatten.length = length := by
  obtain rfl := Option.some.inj hp
  rw [List.flatten_append, List.length_append, List.flatten_singleton, List.length_replicate,
    List.flatten_replicate_replicate, List.length_replicate]
  exact Nat.div_add_mod' length 512

theorem input_gathers_two :
    ∃ result, (inputs pool 2 twoSegments).1 = List.replicate (2 - 1) none ++ [result] ∧
      Gathered twoSegments (inputs pool 2 twoSegments).2 2 2000 (pool 2000) result :=
  input_gathers twoSegments_received (fun _ => length_of_pool)

end RealTimeWs
