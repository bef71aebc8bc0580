import RealTimeWs.Concentrator.Gather
import RealTimeWs.Memory.Queue

/-! # The receive ring as a queue

The DMA stores frames segment by segment, and the main loop calls the driver whenever it
comes round. A call may find a frame that is only partly there, and several frames may
wait. The DMA is the hardware; it appears here only by what it does to the descriptors.
-/

namespace RealTimeWs

open Memory

variable {rxBufNb : Nat} [NeZero rxBufNb]

/-- Set up the ring: every descriptor is the DMA's, and the first one is the current one. -/
def halEthDmaRxDescListInit (heth : RxHandle rxBufNb) (rxBuff : Fin rxBufNb → List UInt8) :
    HalStatus × RxHandle rxBufNb :=
  if heth.locked then (.busy, heth)
  else (.ok, { heth with
    rxDesc := 0
    rxDescs := fun i => ⟨true, false, false, 0, rxBuff i⟩
    state := .ready })

/-- The driver and the DMA. The DMA has stored a part of a frame, and the rest is to come.
Frames end with a checksum of four bytes. The frames that have been stored as a whole, and
what the calls that found one were given by the pool and returned, are kept for the
proofs. -/
structure RxSystem (rxBufNb : Nat) where
  heth : RxHandle rxBufNb
  dmaDesc : Fin rxBufNb
  stored : List UInt8
  coming : List UInt8
  received : List (List UInt8)
  taken : List (Option (List (List UInt8)) × Option (List (List UInt8)))

/-- The ring has been set up, and nothing has been received. -/
def RxSystem.start (heth : RxHandle rxBufNb) (rxBuff : Fin rxBufNb → List UInt8) :
    RxSystem rxBufNb where
  heth := (halEthDmaRxDescListInit heth rxBuff).2
  dmaDesc := 0
  stored := []
  coming := []
  received := []
  taken := []

/-- How many descriptors some bytes take. -/
def segments (length : Nat) : Nat := (length + (ethRxBufSize - 1)) / ethRxBufSize

/-- A frame comes when no other one is being stored. It is assumed of the hardware that it
stores a frame as a whole or not at all: the frame is missed if the DMA does not own all
the descriptors for it. -/
def RxSystem.arrive (s : RxSystem rxBufNb) (frame : List UInt8) : RxSystem rxBufNb :=
  if s.coming ≠ [] then s
  else if segments frame.length ≤ rxBufNb ∧
      ∀ steps < segments frame.length, (s.heth.rxDescs (around s.dmaDesc steps)).own = true then
    { s with coming := frame }
  else { s with heth := { s.heth with receiveBufferUnavailable := true } }

/-- The DMA stores another segment. The status of the last one has the length of the frame. -/
def RxSystem.store (s : RxSystem rxBufNb) : RxSystem rxBufNb :=
  let segment := s.coming.take ethRxBufSize
  let last : Bool := s.coming.length ≤ ethRxBufSize
  if s.coming = [] then s
  else
    { s with
      heth := { s.heth with
        rxDescs := Function.update s.heth.rxDescs s.dmaDesc
          { own := false
            firstSegment := s.stored = []
            lastSegment := last
            frameLength := s.stored.length + segment.length
            buffer := overwrite (s.heth.rxDescs s.dmaDesc).buffer 0 segment } }
      dmaDesc := s.dmaDesc + 1
      stored := if last then [] else s.stored ++ segment
      coming := s.coming.drop ethRxBufSize
      received := if last then s.received ++ [s.stored ++ segment] else s.received }

/-- The main loop calls the driver, with the pool as it is then. -/
def RxSystem.input (s : RxSystem rxBufNb) (pbufAlloc : Nat → Option (List (List UInt8))) :
    RxSystem rxBufNb :=
  { s with
    heth := (lowLevelInput pbufAlloc s.heth).2
    taken :=
      if (halEthGetReceivedFrame s.heth).1 = .ok then
        s.taken ++
          [(pbufAlloc ((halEthGetReceivedFrame s.heth).2.rxFrameInfos.length % 2 ^ 16),
            (lowLevelInput pbufAlloc s.heth).1)]
      else s.taken }

/-- A frame comes, the DMA stores a segment, or the driver looks for a frame. -/
inductive RxAction where
  | arrive (frame : List UInt8)
  | store
  | input (pbufAlloc : Nat → Option (List (List UInt8)))

/-- What an action does. -/
def RxSystem.step (s : RxSystem rxBufNb) : RxAction → RxSystem rxBufNb
  | .arrive frame => s.arrive frame
  | .store => s.store
  | .input pbufAlloc => s.input pbufAlloc

/-- One action after the other. -/
def RxSystem.run (s : RxSystem rxBufNb) (actions : List RxAction) : RxSystem rxBufNb :=
  actions.foldl RxSystem.step s

/-- A pool answers with chains of the length that was asked for. -/
def Honest (pbufAlloc : Nat → Option (List (List UInt8))) : Prop :=
  ∀ length p, pbufAlloc length = some p → p.flatten.length = length

/-- The length of a frame has a field of 14 bits, and the checksum is a part of it. -/
def WellSized (frame : List UInt8) : Prop := 4 ≤ frame.length ∧ frame.length < 2 ^ 14

/-- Frames have the size of frames, and the pool is honest. -/
def RxAction.Sound : RxAction → Prop
  | .arrive frame => WellSized frame
  | .store => True
  | .input pbufAlloc => Honest pbufAlloc

/-! ## Reading segments -/

/-- A frame without its checksum. -/
def unchecked (frame : List UInt8) : List UInt8 := frame.take (frame.length - 4)

/-- What a sequence of filled descriptors means: the first segment of a frame comes after the last
one of another, and the last segment has the length. -/
def readSegment (held : List RxDesc) (desc : RxDesc) :
    Option (List RxDesc × List (List UInt8)) :=
  if desc.firstSegment = held.isEmpty ∧ desc.buffer.length = ethRxBufSize then
    if desc.lastSegment then
      if 4 ≤ desc.frameLength ∧ desc.frameLength < 2 ^ 14 ∧
          desc.frameLength - 4 ≤ (held.length + 1) * ethRxBufSize then
        some ([], [((held ++ [desc]).flatMap RxDesc.buffer).take (desc.frameLength - 4)])
      else none
    else some (held ++ [desc], [])
  else none

/-- The segments of a frame that is not complete are full. -/
structure Part (part : List RxDesc) (stored : List UInt8) : Prop where
  bytes : part.flatMap RxDesc.buffer = stored
  full : stored.length = part.length * ethRxBufSize

theorem Part.nil_iff {part : List RxDesc} {stored : List UInt8} (hpart : Part part stored) :
    part = [] ↔ stored = [] := by
  have hfull := hpart.full
  rw [← List.length_eq_zero_iff, ← @List.length_eq_zero_iff _ stored, hfull]
  simp only [ethRxBufSize]
  omega

/-- What the DMA writes is a segment that the reader expects. -/
theorem readSegment_stored {part : List RxDesc} {stored coming old : List UInt8}
    (hpart : Part part stored) (hsized : WellSized (stored ++ coming))
    (hold : old.length = ethRxBufSize) {desc : RxDesc} (hdesc : desc =
      { own := false
        firstSegment := stored = []
        lastSegment := coming.length ≤ ethRxBufSize
        frameLength := stored.length + (coming.take ethRxBufSize).length
        buffer := overwrite old 0 (coming.take ethRxBufSize) }) :
    (coming.length ≤ ethRxBufSize →
      readSegment part desc = some ([], [unchecked (stored ++ coming)])) ∧
    (ethRxBufSize < coming.length →
      readSegment part desc = some (part ++ [desc], []) ∧
        Part (part ++ [desc]) (stored ++ coming.take ethRxBufSize)) := by
  have htake : (coming.take ethRxBufSize).length ≤ ethRxBufSize := List.length_take_le _ _
  have hexpected : desc.firstSegment = part.isEmpty ∧ desc.buffer.length = ethRxBufSize := by
    subst hdesc
    refine ⟨?_, ?_⟩
    · rw [Bool.eq_iff_iff, decide_eq_true_eq, List.isEmpty_iff, hpart.nil_iff]
    · dsimp only
      rw [length_overwrite (by rw [hold]; omega), hold]
  refine ⟨fun hlast => ?_, fun hmore => ?_⟩
  · have hall : coming.take ethRxBufSize = coming := List.take_of_length_le hlast
    rw [hall] at hdesc
    have hlength : desc.frameLength = (stored ++ coming).length := by
      rw [hdesc, List.length_append]
    have hfits : desc.frameLength - 4 ≤ (part.length + 1) * ethRxBufSize := by
      rw [hlength, List.length_append, hpart.full, Nat.succ_mul]
      omega
    have hmark : desc.lastSegment = true := by
      rw [hdesc]
      exact decide_eq_true hlast
    have hbytes : ((part ++ [desc]).flatMap RxDesc.buffer).take (desc.frameLength - 4) =
        unchecked (stored ++ coming) := by
      have hbuffer : desc.buffer = coming ++ old.drop coming.length := by
        rw [hdesc]
        simp [overwrite]
      rw [List.flatMap_append, hpart.bytes, List.flatMap_singleton, hbuffer, ← List.append_assoc,
        List.take_append_of_le_length (by rw [hlength]; exact Nat.sub_le _ _), hlength, unchecked]
    have hvalid : 4 ≤ desc.frameLength ∧ desc.frameLength < 2 ^ 14 := by
      rw [hlength]
      exact hsized
    rw [readSegment, if_pos hexpected, if_pos hmark, if_pos ⟨hvalid.1, hvalid.2, hfits⟩, hbytes]
  · have hfull : (coming.take ethRxBufSize).length = ethRxBufSize :=
      List.length_take_of_le hmore.le
    have hmark : ¬ desc.lastSegment = true := by
      rw [hdesc, decide_eq_true_eq]
      omega
    -- a full segment leaves nothing of what the buffer held
    have hbuffer : desc.buffer = coming.take ethRxBufSize := by
      rw [hdesc]
      simp only [overwrite, List.take_zero, List.nil_append, Nat.zero_add]
      rw [hfull, List.drop_of_length_le hold.le, List.append_nil]
    refine ⟨by rw [readSegment, if_pos hexpected, if_neg hmark], ?_, ?_⟩
    · rw [List.flatMap_append, hpart.bytes, List.flatMap_singleton, hbuffer]
    · rw [List.length_append, List.length_append, hfull, hpart.full, List.length_singleton,
        Nat.succ_mul]

/-- The reader of a descriptor that is not the last one of its frame. -/
theorem readSegment_of_more {held next : List RxDesc} {desc : RxDesc} {out : List (List UInt8)}
    (hread : readSegment held desc = some (next, out)) (hlast : desc.lastSegment = false) :
    desc.firstSegment = held.isEmpty ∧ next = held ++ [desc] ∧ out = [] := by
  rw [readSegment] at hread
  split at hread
  next hexpected =>
    rw [if_neg (by simp [hlast]), Option.some.injEq, Prod.mk.injEq] at hread
    exact ⟨hexpected.1, hread.1.symm, hread.2.symm⟩
  next => cases hread

/-- The reader of the last descriptor of a frame. -/
theorem readSegment_of_last {held next : List RxDesc} {desc : RxDesc} {out : List (List UInt8)}
    (hread : readSegment held desc = some (next, out)) (hlast : desc.lastSegment = true) :
    ∃ len, desc.frameLength = len + 4 ∧ len < 2 ^ 16 ∧ len ≤ (held.length + 1) * ethRxBufSize ∧
      next = [] ∧ out = [((held ++ [desc]).flatMap RxDesc.buffer).take len] := by
  rw [readSegment, if_pos hlast] at hread
  split at hread
  next =>
    split at hread
    next hlength =>
      obtain ⟨hchecksum, hfield, hfits⟩ := hlength
      rw [Option.some.injEq, Prod.mk.injEq] at hread
      exact ⟨desc.frameLength - 4, by omega, by omega, hfits, hread.1.symm, hread.2.symm⟩
    next => cases hread
  next => cases hread

/-- What a call made of a frame: its bytes are in the chain, if the pool had one. -/
structure Delivers (taken : Option (List (List UInt8)) × Option (List (List UInt8)))
    (frame : List UInt8) : Prop where
  refused : taken.1 = none → taken.2 = none
  bytes : ∀ p, taken.1 = some p → ∃ filled, taken.2 = some filled ∧
    filled.map List.length = p.map List.length ∧ filled.flatten = unchecked frame

theorem giveBack_buffer (count : Nat) (start : Fin rxBufNb) (descs : Fin rxBufNb → RxDesc)
    (desc : Fin rxBufNb) : (giveBack count start descs desc).buffer = (descs desc).buffer := by
  induction count generalizing start descs with
  | zero => rfl
  | succ count ih =>
      rw [giveBack, ih]
      by_cases hdesc : desc = start
      · rw [hdesc, Function.update_self]
      · rw [Function.update_of_ne hdesc]

theorem flatMap_listed (descs : Fin rxBufNb → RxDesc) (start : Fin rxBufNb) (count : Nat) :
    (listed descs start count).flatMap RxDesc.buffer = joined (rxBlocks descs start) count := by
  rw [listed, List.flatMap_map]
  rfl

/-- A chain that was filled from some descriptors on has their bytes. -/
theorem fillChain_delivers {descs : Fin rxBufNb → RxDesc} {start : Fin rxBufNb} {count len : Nat}
    (hsizes : ∀ desc, (descs desc).buffer.length = ethRxBufSize) (hpos : 0 < count)
    (hfits : len ≤ count * ethRxBufSize) {pbufAlloc : Nat → Option (List (List UInt8))}
    (halloc : Honest pbufAlloc) {frame : List UInt8}
    (hbytes : ((listed descs start count).flatMap RxDesc.buffer).take len = unchecked frame) :
    Delivers (pbufAlloc len, (pbufAlloc len).map fun p => fillChain descs p start 0) frame where
  refused := by
    intro hnone
    rw [show pbufAlloc len = none from hnone, Option.map_none]
  bytes := by
    intro p hp
    have hlength := halloc len p hp
    obtain ⟨hlengths, hfilled⟩ := @fillChain_spec _ _ descs start count (fun steps _ => hsizes _)
      p 0 0 hpos (Nat.zero_le _) (by rw [hlength, Nat.zero_mul, Nat.zero_add]; exact hfits)
    rw [around_zero] at hlengths hfilled
    refine ⟨fillChain descs p start 0, by rw [show pbufAlloc len = some p from hp, Option.map_some],
      hlengths, ?_⟩
    rw [hfilled, Nat.zero_mul, Nat.zero_add, List.drop_zero, hlength, ← flatMap_listed, hbytes]

/-! ## The queue -/

/-- The filled descriptors lie between the two parties. The driver has looked at some of them, and
reads from the others the frames that wait, and the part that the DMA has stored of one more. For
what is to come of it there is room. -/
structure RxInvariant (s : RxSystem rxBufNb) (tail : Fin rxBufNb) (filled : Nat)
    (before waiting : List (List UInt8)) (part : List RxDesc) : Prop where
  occupied : Occupied (fun desc => (s.heth.rxDescs desc).own = false) tail filled
  seen : s.heth.rxFrameInfos.segCount ≤ filled
  current : s.heth.rxDesc = around tail s.heth.rxFrameInfos.segCount
  first : 0 < s.heth.rxFrameInfos.segCount → s.heth.rxFrameInfos.fsRxDesc = tail
  dma : s.dmaDesc = around tail filled
  read : readAll readSegment (listed s.heth.rxDescs tail s.heth.rxFrameInfos.segCount)
    (listed s.heth.rxDescs (around tail s.heth.rxFrameInfos.segCount)
      (filled - s.heth.rxFrameInfos.segCount)) = some (part, waiting.map unchecked)
  part : Part part s.stored
  begun : s.coming = [] → s.stored = []
  room : filled + segments s.coming.length ≤ rxBufNb
  sized : s.coming ≠ [] → WellSized (s.stored ++ s.coming)
  received : s.received = before ++ waiting
  taken : List.Forall₂ Delivers s.taken before
  sizes : ∀ desc, (s.heth.rxDescs desc).buffer.length = ethRxBufSize
  unlocked : s.heth.locked = false

theorem RxInvariant.start {heth : RxHandle rxBufNb} {rxBuff : Fin rxBufNb → List UInt8}
    (hlocked : heth.locked = false) (hfresh : heth.rxFrameInfos.segCount = 0)
    (hsizes : ∀ i, (rxBuff i).length = ethRxBufSize) :
    RxInvariant (RxSystem.start heth rxBuff) 0 0 [] [] [] := by
  have hinit : halEthDmaRxDescListInit heth rxBuff = (.ok, { heth with
      rxDesc := 0
      rxDescs := fun i => ⟨true, false, false, 0, rxBuff i⟩
      state := .ready }) := by
    rw [halEthDmaRxDescListInit, if_neg (by simp [hlocked])]
  rw [RxSystem.start, hinit]
  exact
    { occupied := Occupied.empty (fun _ hown => Bool.false_ne_true hown.symm) 0
      seen := hfresh.le
      current := by
        dsimp only
        rw [hfresh, around_zero]
      first := fun hpos => absurd hpos (by dsimp only; omega)
      dma := (around_zero 0).symm
      read := by
        dsimp only
        rw [hfresh]
        rfl
      part := ⟨rfl, rfl⟩
      begun := fun _ => rfl
      room := by simp [segments, ethRxBufSize]
      sized := fun hcoming => absurd rfl hcoming
      received := rfl
      taken := .nil
      sizes := hsizes
      unlocked := hlocked }

section Steps

variable {s : RxSystem rxBufNb} {tail : Fin rxBufNb} {filled : Nat}
  {before waiting : List (List UInt8)} {part : List RxDesc}

/-- A frame comes. -/
theorem RxInvariant.arrive (hinv : RxInvariant s tail filled before waiting part)
    {frame : List UInt8} (hsized : WellSized frame) :
    RxInvariant (s.arrive frame) tail filled before waiting part := by
  rw [RxSystem.arrive]
  split
  next => exact hinv
  next hidle =>
    have hnone : s.coming = [] := not_not.mp hidle
    split
    next hroom =>
      obtain ⟨hround, hown⟩ := hroom
      exact
        { hinv with
          begun := fun _ => hinv.begun hnone
          room := by
            rw [← hinv.occupied.free_iff hround]
            intro steps hlt hfilled
            have hfree := hown steps hlt
            rw [hinv.dma, hfilled] at hfree
            cases hfree
          sized := by
            intro _
            rw [hinv.begun hnone]
            exact hsized }
    next => exact { hinv with }

/-- The DMA stores a segment. -/
theorem RxInvariant.store (hinv : RxInvariant s tail filled before waiting part) :
    ∃ filled' waiting' part', RxInvariant s.store tail filled' before waiting' part' := by
  rw [RxSystem.store]
  dsimp only
  split
  next => exact ⟨filled, waiting, part, hinv⟩
  next hcoming =>
    have hpos : 0 < s.coming.length := List.length_pos_of_ne_nil hcoming
    have hneeds : segments (s.coming.drop ethRxBufSize).length + 1 = segments s.coming.length := by
      rw [List.length_drop]
      simp only [segments, ethRxBufSize]
      omega
    have hroom := hinv.room
    have hlt : filled < rxBufNb := by omega
    have hseen := hinv.seen
    have hwritten := readSegment_stored hinv.part (hinv.sized hcoming)
      (hinv.sizes s.dmaDesc) rfl
    rw [hinv.dma] at hwritten ⊢
    generalize hdesc : (RxDesc.mk false (decide (s.stored = []))
      (decide (s.coming.length ≤ ethRxBufSize))
      (s.stored.length + (s.coming.take ethRxBufSize).length)
      (overwrite (s.heth.rxDescs (around tail filled)).buffer 0 (s.coming.take ethRxBufSize))) =
        desc at hwritten ⊢
    have hself : Function.update s.heth.rxDescs (around tail filled) desc (around tail filled) =
        desc := Function.update_self _ _ _
    have hlooked : listed (Function.update s.heth.rxDescs (around tail filled) desc) tail
        s.heth.rxFrameInfos.segCount = listed s.heth.rxDescs tail s.heth.rxFrameInfos.segCount := by
      have hsame := @listed_update _ _ _ s.heth.rxDescs tail 0 s.heth.rxFrameInfos.segCount filled
        desc (by omega) hlt
      rwa [around_zero] at hsame
    have hunseen : listed (Function.update s.heth.rxDescs (around tail filled) desc)
        (around tail s.heth.rxFrameInfos.segCount) (filled + 1 - s.heth.rxFrameInfos.segCount) =
        listed s.heth.rxDescs (around tail s.heth.rxFrameInfos.segCount)
          (filled - s.heth.rxFrameInfos.segCount) ++ [desc] := by
      rw [Nat.succ_sub hseen, listed_succ', listed_update desc (Nat.add_sub_cancel' hseen).le hlt,
        around_add, Nat.add_sub_cancel' hseen, hself]
    have hoccupied : Occupied (fun place =>
        (Function.update s.heth.rxDescs (around tail filled) desc place).own = false) tail
          (filled + 1) := by
      refine hinv.occupied.push hlt ?_ ?_
      · intro steps hsteps
        obtain rfl : steps = 0 := by omega
        rw [around_zero, hself, ← hdesc]
      · intro place hne
        have hother : place ≠ around tail filled := by
          have hzero := hne 0 Nat.one_pos
          rwa [around_zero] at hzero
        rw [Function.update_of_ne hother]
    have hsizes : ∀ place, (Function.update s.heth.rxDescs (around tail filled) desc
        place).buffer.length = ethRxBufSize := by
      intro place
      by_cases hplace : place = around tail filled
      · rw [hplace, hself, ← hdesc]
        have htake : (s.coming.take ethRxBufSize).length ≤ ethRxBufSize := List.length_take_le _ _
        dsimp only
        rw [length_overwrite (by rw [hinv.sizes]; omega), hinv.sizes]
      · rw [Function.update_of_ne hplace]
        exact hinv.sizes place
    have hroom' : filled + 1 + segments (s.coming.drop ethRxBufSize).length ≤ rxBufNb := by omega
    by_cases hlast : s.coming.length ≤ ethRxBufSize
    · -- the frame is complete
      refine ⟨filled + 1, waiting ++ [s.stored ++ s.coming], [], ?_⟩
      have hall : s.coming.take ethRxBufSize = s.coming := List.take_of_length_le hlast
      have hnone : s.coming.drop ethRxBufSize = [] := List.drop_of_length_le hlast
      simp only [hlast, decide_true, if_true, hall, hnone] at hroom' ⊢
      exact
        { occupied := hoccupied
          seen := hseen.trans (Nat.le_succ filled)
          current := hinv.current
          first := hinv.first
          dma := (around_succ tail filled).symm
          read := by
            rw [List.map_append]
            dsimp only
            rw [hlooked, hunseen]
            exact readAll_concat hinv.read (hwritten.1 hlast)
          part := ⟨rfl, rfl⟩
          begun := fun _ => rfl
          room := hroom'
          sized := fun hmore => absurd rfl hmore
          received := by
            rw [hinv.received, List.append_assoc]
          taken := hinv.taken
          sizes := hsizes
          unlocked := hinv.unlocked }
    · refine ⟨filled + 1, waiting, part ++ [desc], ?_⟩
      obtain ⟨hread, hpart⟩ := hwritten.2 (Nat.lt_of_not_le hlast)
      simp only [hlast, decide_false, Bool.false_eq_true, if_false]
      exact
        { occupied := hoccupied
          seen := hseen.trans (Nat.le_succ filled)
          current := hinv.current
          first := hinv.first
          dma := (around_succ tail filled).symm
          read := by
            rw [← List.append_nil (waiting.map unchecked)]
            dsimp only
            rw [hlooked, hunseen]
            exact readAll_concat hinv.read hread
          part := hpart
          begun := by
            intro hnone
            have hlength := congrArg List.length hnone
            rw [List.length_drop] at hlength
            simp only [List.length_nil] at hlength
            omega
          room := hroom'
          sized := by
            intro _
            rw [List.append_assoc, List.take_append_drop]
            exact hinv.sized hcoming
          received := hinv.received
          taken := hinv.taken
          sizes := hsizes
          unlocked := hinv.unlocked }

/-- A call finds nothing new. -/
theorem RxInvariant.input_of_none (hinv : RxInvariant s tail filled before waiting part)
    (hown : (s.heth.rxDescs s.heth.rxDesc).own = true)
    (pbufAlloc : Nat → Option (List (List UInt8))) :
    RxInvariant (s.input pbufAlloc) tail filled before waiting part := by
  have hget : halEthGetReceivedFrame s.heth = (.error, { s.heth with state := .ready }) := by
    rw [halEthGetReceivedFrame]
    dsimp only
    rw [hinv.unlocked, hown]
    rfl
  have hinput : lowLevelInput pbufAlloc s.heth = (none, { s.heth with state := .ready }) := by
    rw [lowLevelInput, hget]
  rw [RxSystem.input, hinput, hget]
  exact { hinv with }

/-- The call finds a descriptor that is not the last one of its frame. -/
theorem RxInvariant.input_of_more (hinv : RxInvariant s tail filled before waiting part)
    (hnew : s.heth.rxFrameInfos.segCount < filled)
    (hlast : (s.heth.rxDescs s.heth.rxDesc).lastSegment = false)
    (pbufAlloc : Nat → Option (List (List UInt8))) :
    RxInvariant (s.input pbufAlloc) tail filled before waiting part ∧
      (s.input pbufAlloc).heth.rxFrameInfos.segCount = s.heth.rxFrameInfos.segCount + 1 := by
  have hfree : (s.heth.rxDescs s.heth.rxDesc).own = false := by
    rw [hinv.current]
    exact (hinv.occupied.taken_iff _ (hnew.trans_le hinv.occupied.le)).mpr hnew
  have hread := hinv.read
  obtain ⟨left, hleft⟩ : ∃ left, filled - s.heth.rxFrameInfos.segCount = left + 1 :=
    ⟨filled - s.heth.rxFrameInfos.segCount - 1, by omega⟩
  rw [hleft, listed_succ, ← hinv.current] at hread
  obtain ⟨next, out, later, hdesc, hrest, hout⟩ := readAll_cons hread
  obtain ⟨hfirst, rfl, rfl⟩ := readSegment_of_more hdesc hlast
  rw [List.nil_append] at hout
  have hheld : (listed s.heth.rxDescs tail s.heth.rxFrameInfos.segCount).isEmpty =
      decide (s.heth.rxFrameInfos.segCount = 0) := by
    rw [Bool.eq_iff_iff, List.isEmpty_iff, decide_eq_true_eq, ← List.length_eq_zero_iff,
      length_listed]
  rw [hheld] at hfirst
  -- the first segment is the one that is found when none has been seen
  have hcount : (if (s.heth.rxDescs s.heth.rxDesc).firstSegment then 1
      else s.heth.rxFrameInfos.segCount + 1) = s.heth.rxFrameInfos.segCount + 1 := by
    rw [hfirst]
    split
    next hzero => rw [of_decide_eq_true hzero]
    next => rfl
  have hget : (halEthGetReceivedFrame s.heth).1 = .error := by
    rw [halEthGetReceivedFrame]
    dsimp only
    rw [hinv.unlocked, hfree, hlast]
    cases (s.heth.rxDescs s.heth.rxDesc).firstSegment with
    | true => rfl
    | false => rfl
  have hnotOk : ¬ (halEthGetReceivedFrame s.heth).1 = .ok := by
    rw [hget]
    exact HalStatus.noConfusion
  rw [RxSystem.input, if_neg hnotOk, lowLevelInput_of_more hinv.unlocked hfree hlast, hcount]
  refine ⟨?_, rfl⟩
  exact
    { occupied := hinv.occupied
      seen := hnew
      current := by rw [around_succ, ← hinv.current]
      first := by
        intro _
        dsimp only
        split
        next hmark =>
          rw [hfirst] at hmark
          rw [hinv.current, of_decide_eq_true hmark, around_zero]
        next hmark =>
          rw [hfirst, decide_eq_true_eq] at hmark
          exact hinv.first (Nat.pos_of_ne_zero hmark)
      dma := hinv.dma
      read := by
        dsimp only
        rw [listed_succ', ← hinv.current, around_succ, ← hinv.current, hout,
          show filled - (s.heth.rxFrameInfos.segCount + 1) = left by omega]
        exact hrest
      part := hinv.part
      begun := hinv.begun
      room := hinv.room
      sized := hinv.sized
      received := hinv.received
      taken := hinv.taken
      sizes := hinv.sizes
      unlocked := hinv.unlocked }

/-- The call finds the last descriptor of a frame. -/
theorem RxInvariant.input_of_last (hinv : RxInvariant s tail filled before waiting part)
    (hnew : s.heth.rxFrameInfos.segCount < filled)
    (hlast : (s.heth.rxDescs s.heth.rxDesc).lastSegment = true)
    {pbufAlloc : Nat → Option (List (List UInt8))} (halloc : Honest pbufAlloc) :
    ∃ frame waiting', RxInvariant (s.input pbufAlloc)
      (around tail (s.heth.rxFrameInfos.segCount + 1))
      (filled - (s.heth.rxFrameInfos.segCount + 1)) (before ++ [frame]) waiting' part ∧
      (s.input pbufAlloc).heth.rxFrameInfos.segCount = 0 := by
  have hle := hinv.occupied.le
  have hfree : (s.heth.rxDescs s.heth.rxDesc).own = false := by
    rw [hinv.current]
    exact (hinv.occupied.taken_iff _ (hnew.trans_le hle)).mpr hnew
  have hread := hinv.read
  obtain ⟨left, hleft⟩ : ∃ left, filled - s.heth.rxFrameInfos.segCount = left + 1 :=
    ⟨filled - s.heth.rxFrameInfos.segCount - 1, by omega⟩
  have hless : filled - (s.heth.rxFrameInfos.segCount + 1) = left := by omega
  rw [hleft, listed_succ, ← hinv.current] at hread
  obtain ⟨next, out, later, hdesc, hrest, hout⟩ := readAll_cons hread
  obtain ⟨len, hlength, hsmall, hfits, rfl, rfl⟩ := readSegment_of_last hdesc hlast
  rw [length_listed] at hfits
  obtain ⟨frame, waiting', rfl, hframe, hwaiting⟩ := List.map_eq_cons_iff.mp hout
  have hstart : (if s.heth.rxFrameInfos.segCount + 1 = 1 then s.heth.rxDesc
      else s.heth.rxFrameInfos.fsRxDesc) = tail := by
    split
    next hone =>
      rw [hinv.current, Nat.succ_injective hone, around_zero]
    next hmore => exact hinv.first (by omega)
  have hinput := @lowLevelInput_of_last _ _ s.heth len pbufAlloc tail hinv.unlocked hfree hlast
    hstart hlength hsmall
  have hok : (halEthGetReceivedFrame s.heth).1 = .ok := by
    rw [halEthGetReceivedFrame]
    dsimp only
    rw [hinv.unlocked, hfree, hlast]
    rfl
  have hlen : (halEthGetReceivedFrame s.heth).2.rxFrameInfos.length % 2 ^ 16 = len := by
    rw [halEthGetReceivedFrame]
    dsimp only
    rw [hinv.unlocked, hfree, hlast, hlength]
    simp only [Bool.false_eq_true, if_false, if_true]
    omega
  -- what has been looked at and the last descriptor are the frame
  have hbytes : ((listed s.heth.rxDescs tail (s.heth.rxFrameInfos.segCount + 1)).flatMap
      RxDesc.buffer).take len = unchecked frame := by
    rw [hframe, listed_succ', ← hinv.current]
  have hothers : ∀ desc, (∀ steps < s.heth.rxFrameInfos.segCount + 1, desc ≠ around tail steps) →
      giveBack (s.heth.rxFrameInfos.segCount + 1) tail s.heth.rxDescs desc =
        s.heth.rxDescs desc := fun desc hne => giveBack_of_ne hne
  refine ⟨frame, waiting', ?_, by rw [RxSystem.input, hinput]⟩
  rw [RxSystem.input, if_pos hok, hinput, hlen]
  exact
    { occupied := by
        refine hinv.occupied.pop hnew ?_ ?_
        · intro steps hlt hfilled
          have hown := @giveBack_own _ _ s.heth.rxDescs tail (around tail steps) _
            (.inr ⟨steps, hlt, rfl⟩)
          rw [hown] at hfilled
          cases hfilled
        · intro desc hne
          dsimp only
          rw [hothers desc hne]
      seen := Nat.zero_le _
      current := by rw [around_zero, around_succ, ← hinv.current]
      first := fun hpos => absurd hpos (Nat.lt_irrefl 0)
      dma := by rw [around_add, Nat.add_sub_cancel' hnew, ← hinv.dma]
      read := by
        have hsame : listed (giveBack (s.heth.rxFrameInfos.segCount + 1) tail s.heth.rxDescs)
            (around tail (s.heth.rxFrameInfos.segCount + 1)) left =
            listed s.heth.rxDescs (around tail (s.heth.rxFrameInfos.segCount + 1)) left := by
          apply listed_congr
          intro steps hlt
          apply hothers
          intro earlier hearlier heq
          rw [around_add] at heq
          have hsteps := around_inj (by omega) (by omega) heq
          omega
        rw [listed_zero, around_zero, Nat.sub_zero, hless, hsame, around_succ, ← hinv.current,
          hwaiting]
        exact hrest
      part := hinv.part
      begun := hinv.begun
      room := (Nat.add_le_add_right (Nat.sub_le _ _) _).trans hinv.room
      sized := hinv.sized
      received := by rw [hinv.received, List.append_assoc, List.singleton_append]
      taken := by
        refine List.rel_append hinv.taken (.cons ?_ .nil)
        exact fillChain_delivers hinv.sizes (Nat.succ_pos _) hfits halloc hbytes
      sizes := by
        intro desc
        rw [giveBack_buffer]
        exact hinv.sizes desc
      unlocked := hinv.unlocked }

/-- When the driver has looked at all filled descriptors, they are a part of a frame whose rest has
not come. -/
theorem RxInvariant.part_of_seen (hinv : RxInvariant s tail filled before waiting part)
    (hall : s.heth.rxFrameInfos.segCount = filled) : part.length = filled ∧ waiting = [] := by
  have hread := hinv.read
  rw [hall, Nat.sub_self, listed_zero, readAll_nil, Option.some.injEq, Prod.mk.injEq] at hread
  refine ⟨?_, List.map_eq_nil_iff.mp hread.2.symm⟩
  rw [← hread.1, length_listed]

/-- A call of the driver. It looks at one more descriptor, if there is one. -/
theorem RxInvariant.input (hinv : RxInvariant s tail filled before waiting part)
    {pbufAlloc : Nat → Option (List (List UInt8))} (halloc : Honest pbufAlloc) :
    ∃ tail' filled' before' waiting',
      RxInvariant (s.input pbufAlloc) tail' filled' before' waiting' part ∧
      filled' - (s.input pbufAlloc).heth.rxFrameInfos.segCount =
        filled - s.heth.rxFrameInfos.segCount - 1 := by
  rcases Nat.eq_or_lt_of_le hinv.seen with hall | hnew
  · -- the next descriptor is not one of those that were seen first
    have hlt : filled < rxBufNb := by
      by_contra hfull
      have hpos := Nat.pos_of_neZero rxBufNb
      have hlength := (hinv.part_of_seen hall).1
      have hcoming : s.coming ≠ [] := by
        intro hnone
        have hempty := hinv.part.nil_iff.mpr (hinv.begun hnone)
        rw [hempty, List.length_nil] at hlength
        omega
      have hmore := List.length_pos_of_ne_nil hcoming
      have hroom := hinv.room
      simp only [segments, ethRxBufSize] at hroom
      omega
    have hown : (s.heth.rxDescs s.heth.rxDesc).own = true := by
      rw [hinv.current, hall, ← Bool.not_eq_false]
      exact fun hfree => Nat.lt_irrefl filled ((hinv.occupied.taken_iff filled hlt).mp hfree)
    have hnext := hinv.input_of_none hown pbufAlloc
    refine ⟨tail, filled, before, waiting, hnext, ?_⟩
    have hstill := hnext.seen
    have hkept : (s.input pbufAlloc).heth.rxFrameInfos.segCount =
        s.heth.rxFrameInfos.segCount := by
      have hlocked := hinv.unlocked
      rw [RxSystem.input, lowLevelInput, halEthGetReceivedFrame]
      dsimp only
      rw [hlocked, hown]
      rfl
    omega
  · cases hlast : (s.heth.rxDescs s.heth.rxDesc).lastSegment with
    | false =>
        obtain ⟨hnext, hcount⟩ := hinv.input_of_more hnew hlast pbufAlloc
        exact ⟨tail, filled, before, waiting, hnext, by omega⟩
    | true =>
        obtain ⟨frame, waiting', hnext, hcount⟩ := hinv.input_of_last hnew hlast halloc
        exact ⟨_, _, before ++ [frame], waiting', hnext, by omega⟩

end Steps

/-- The invariant of a run, by induction on its steps. -/
theorem RxInvariant.run {s : RxSystem rxBufNb} {tail : Fin rxBufNb} {filled : Nat}
    {before waiting : List (List UInt8)} {part : List RxDesc}
    (hinv : RxInvariant s tail filled before waiting part) {actions : List RxAction}
    (hsound : ∀ action ∈ actions, action.Sound) :
    ∃ tail' filled' before' waiting' part',
      RxInvariant (s.run actions) tail' filled' before' waiting' part' := by
  induction actions generalizing s tail filled before waiting part with
  | nil => exact ⟨tail, filled, before, waiting, part, hinv⟩
  | cons action rest ih =>
      have hrest : ∀ later ∈ rest, later.Sound :=
        fun later hmem => hsound later (List.mem_cons_of_mem action hmem)
      have haction := hsound action List.mem_cons_self
      cases action with
      | arrive frame => exact ih (hinv.arrive haction) hrest
      | store =>
          obtain ⟨filled', waiting', part', hnext⟩ := hinv.store
          exact ih hnext hrest
      | input pbufAlloc =>
          obtain ⟨tail', filled', before', waiting', hnext, _⟩ := hinv.input haction
          exact ih hnext hrest

/-- A driver that is called often enough has taken all that was received, and given all back. -/
theorem RxInvariant.drain {s : RxSystem rxBufNb} {tail : Fin rxBufNb} {filled : Nat}
    {before waiting : List (List UInt8)} {part : List RxDesc}
    (hinv : RxInvariant s tail filled before waiting part) (hidle : s.coming = [])
    {pbufAlloc : Nat → Option (List (List UInt8))} (halloc : Honest pbufAlloc) {calls : Nat}
    (henough : filled - s.heth.rxFrameInfos.segCount ≤ calls) :
    List.Forall₂ Delivers (s.run (List.replicate calls (.input pbufAlloc))).taken s.received ∧
      ∀ desc, ((s.run (List.replicate calls (.input pbufAlloc))).heth.rxDescs desc).own = true := by
  induction calls generalizing s tail filled before waiting with
  | zero =>
      have hall : s.heth.rxFrameInfos.segCount = filled :=
        Nat.le_antisymm hinv.seen (Nat.sub_eq_zero_iff_le.mp (Nat.le_zero.mp henough))
      obtain ⟨hlength, hnone⟩ := hinv.part_of_seen hall
      have hempty : filled = 0 := by
        rw [← hlength, hinv.part.nil_iff.mpr (hinv.begun hidle), List.length_nil]
      refine ⟨?_, ?_⟩
      · rw [hinv.received, hnone, List.append_nil]
        exact hinv.taken
      · intro desc
        obtain ⟨steps, hlt, rfl⟩ := exists_around tail desc
        rw [← Bool.not_eq_false]
        intro hfree
        have hfilled := (hinv.occupied.taken_iff steps hlt).mp hfree
        omega
  | succ calls ih =>
      obtain ⟨tail', filled', before', waiting', hnext, hless⟩ := hinv.input halloc
      refine ih hnext hidle ?_
      have hstep : filled' - (s.input pbufAlloc).heth.rxFrameInfos.segCount ≤ calls := by omega
      exact hstep

/-- However frames come, are stored segment by segment and are looked for, the calls that find one
make of the frames, in the order of their arrival and of each exactly once, a chain with its bytes,
unless the pool is empty. When no frame is on its way, a round of calls takes all that were received
and leaves every descriptor to the DMA. -/
theorem received_in_order {heth : RxHandle rxBufNb} {rxBuff : Fin rxBufNb → List UInt8}
    (hlocked : heth.locked = false) (hfresh : heth.rxFrameInfos.segCount = 0)
    (hsizes : ∀ i, (rxBuff i).length = ethRxBufSize) {actions : List RxAction}
    (hsound : ∀ action ∈ actions, action.Sound) :
    (∃ before, before <+: ((RxSystem.start heth rxBuff).run actions).received ∧
      List.Forall₂ Delivers ((RxSystem.start heth rxBuff).run actions).taken before) ∧
    ∀ pbufAlloc, Honest pbufAlloc → ((RxSystem.start heth rxBuff).run actions).coming = [] →
      ∀ calls, rxBufNb ≤ calls →
        List.Forall₂ Delivers
          (((RxSystem.start heth rxBuff).run actions).run
            (List.replicate calls (.input pbufAlloc))).taken
          ((RxSystem.start heth rxBuff).run actions).received ∧
        ∀ desc, ((((RxSystem.start heth rxBuff).run actions).run
          (List.replicate calls (.input pbufAlloc))).heth.rxDescs desc).own = true := by
  obtain ⟨tail, filled, before, waiting, part, hinv⟩ :=
    (RxInvariant.start hlocked hfresh hsizes).run hsound
  refine ⟨⟨before, ⟨waiting, hinv.received.symm⟩, hinv.taken⟩, ?_⟩
  intro pbufAlloc halloc hidle calls henough
  exact hinv.drain hidle halloc
    ((Nat.sub_le _ _).trans (hinv.occupied.le.trans henough))

/-- The driver is called when the first segment of a frame is there, and again when both are. -/
def interrupted : List RxAction :=
  [.arrive (List.replicate 2004 7), .store, .input pool, .store, .input pool]

theorem interrupted_sound : ∀ action ∈ interrupted, action.Sound := by
  have hpool : Honest pool := fun _ _ => length_of_pool
  have hframe : WellSized (List.replicate 2004 7) := by
    rw [WellSized, List.length_replicate]
    omega
  intro action hmem
  simp only [interrupted, List.mem_cons, List.not_mem_nil, or_false] at hmem
  rcases hmem with rfl | rfl | rfl | rfl | rfl
  · exact hframe
  · trivial
  · exact hpool
  · trivial
  · exact hpool

theorem received_in_order_interrupted :
    (∃ before, before <+:
        ((RxSystem.start twoSegments fun _ => List.replicate ethRxBufSize 0).run
          interrupted).received ∧
      List.Forall₂ Delivers ((RxSystem.start twoSegments fun _ =>
        List.replicate ethRxBufSize 0).run interrupted).taken before) ∧
    ∀ pbufAlloc, Honest pbufAlloc →
      ((RxSystem.start twoSegments fun _ => List.replicate ethRxBufSize 0).run
        interrupted).coming = [] →
      ∀ calls, ethRxBufNb ≤ calls →
        List.Forall₂ Delivers
          (((RxSystem.start twoSegments fun _ => List.replicate ethRxBufSize 0).run
            interrupted).run (List.replicate calls (.input pbufAlloc))).taken
          ((RxSystem.start twoSegments fun _ => List.replicate ethRxBufSize 0).run
            interrupted).received ∧
        ∀ desc, ((((RxSystem.start twoSegments fun _ => List.replicate ethRxBufSize 0).run
          interrupted).run
            (List.replicate calls (.input pbufAlloc))).heth.rxDescs desc).own = true :=
  received_in_order rfl rfl (fun _ => List.length_replicate) interrupted_sound

end RealTimeWs
