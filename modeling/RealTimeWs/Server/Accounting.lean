import RealTimeWs.Server.Delivery

/-! # Counting messages

A global counter is meant to cover the counters in the records. It counts chunks
of a TCP connection where the records count the PINGs in them, so the two fit as
long as no chunk has more than one PING. A PING is counted for its device one
round trip after its chunk; until then it is on the account of its membership
test.
-/

namespace RealTimeWs

open Redis FunctionsService

/-- The counter in a record, zero where it is missing. -/
def messageCount (fields : Hash) : Nat :=
  (((fields "msg_count").bind Decimal.intValue).getD 0).toNat

/-- The messages counted for a device. -/
def messages (store : Store) (device : String) : Nat :=
  messageCount (fieldAt store (recordKey device))

/-- The messages counted for the whole server. -/
def totalMessages (store : Store) : Int :=
  match store msgCountKey with
  | some (.counter n) => n
  | _ => 0

namespace TCP

/-- The number of PINGs that are handled before a value stops the server. -/
def pings (toLowerCase : String → String) (values : List (Resp.Value String)) : Nat :=
  (values.takeWhile fun value => (isPing toLowerCase value).isSome).countP fun value =>
    isPing toLowerCase value == some true

end TCP

/-- A chunk brings at most one PING. -/
def Event.SinglePing (toLowerCase : String → String) : Event → Prop
  | .tcpData _ _ values => TCP.pings toLowerCase values ≤ 1
  | _ => True

/-! ## Counters in records -/

theorem messageCount_increment (fields : Hash) :
    messageCount (fields.increment "msg_count" 1) ≤ messageCount fields + 1 := by
  unfold messageCount
  cases hheld : fields "msg_count" with
  | none => simp [Hash.increment_none fields hheld, Decimal.intValue_repr]
  | some text =>
      cases hvalue : Decimal.intValue text with
      | none => simp [Hash.increment, hheld, hvalue]
      | some n =>
          simp only [Hash.increment, hheld, hvalue, Hash.setAll_cons, Hash.setAll_nil,
            Function.update_self, Option.bind_some, Decimal.intValue_int_repr, Option.getD_some]
          omega

theorem messageCount_changed (fields : Hash) {pairs : List (String × String)} (counts : Bool)
    (hnot : "msg_count" ∉ pairs.map Prod.fst) :
    messageCount (changed fields pairs counts) ≤ messageCount fields + counts.toNat := by
  have hset : messageCount (fields.setAll pairs) = messageCount fields := by
    rw [messageCount, Hash.setAll_of_not_mem _ _ _ hnot, messageCount]
  cases counts with
  | false => exact hset.le
  | true =>
      rw [← hset]
      exact messageCount_increment _

theorem messageCount_recordOps (value : Option Value) {pairs : List (String × String)}
    (counts : Bool) (hnot : "msg_count" ∉ pairs.map Prod.fst) :
    messageCount (fieldsOf (applyAll (recordOps pairs counts) value)) ≤
      messageCount (fieldsOf value) + counts.toNat := by
  by_cases hadmits : Kind.hash.Admits value
  · rw [fieldsOf_recordOps pairs counts hadmits]
    exact messageCount_changed _ counts hnot
  · rw [applyAll_recordOps_of_not_admits pairs counts hadmits]
    exact Nat.le_add_right _ _

/-- Tables have no counter. -/
theorem messageCount_table (curves : Curves) (function : Allowed) :
    messageCount (table curves function) = 0 := by
  have hnone : table curves function "msg_count" = none := by
    apply Option.not_isSome_iff_eq_none.mp
    intro hsome
    obtain ⟨i, _, heq⟩ := (table_isSome curves function "msg_count").mp hsome
    have hdigit : 'm' ∈ Nat.toDigits 10 i := by
      rw [← Nat.toList_repr, ← heq]
      decide
    exact absurd (Decimal.isDigit_of_mem_toDigits hdigit) (by decide)
  rw [messageCount, hnone]
  rfl

/-! ## What a turn counts -/

/-- The reply to this callback is counted for a device. -/
def Callback.isTest : Callback → Bool
  | .pingSismember _ _ _ _ => true
  | _ => false

/-- The device for which a reply counts a message. -/
def credited : Callback → Reply → Option String
  | .pingSismember device _ _ _, _ => some device
  | .forwardHget device _ _ _ record _, .bulk (some _) =>
      (UDP.sendPort (record "udp_port")).map fun _ => device
  | _, _ => none

/-- A reply is counted for a device if it answers a test or counts a datagram. -/
theorem credited_isSome (callback : Callback) (reply : Reply) :
    (credited callback reply).isSome.toNat =
      callback.isTest.toNat + (counted callback reply).toNat := by
  cases callback with
  | forwardHget device connected reading readAt record recordAt =>
      cases reply with
      | bulk text =>
          cases text with
          | none => rfl
          | some newValue =>
              cases hport : UDP.sendPort (record "udp_port") <;>
                simp [credited, counted, Callback.isTest, hport]
      | _ => rfl
  | _ => rfl

theorem credited_of_records {callback : Callback} {reply : Reply} {now : Nat} {device : String}
    {pairs : List (String × String)}
    (hrecorded : recorded callback reply now = some (device, recordOps pairs true)) :
    credited callback reply = some device := by
  have hcounts : Operation.hincrby "msg_count" 1 ∈ recordOps pairs true := by
    simp [recordOps]
  cases callback with
  | pingSismember other ip port epoch =>
      simp only [recorded, Option.some.injEq, Prod.mk.injEq] at hrecorded
      rw [credited, hrecorded.1]
  | pingSadd other ip port epoch =>
      simp only [recorded, Option.some.injEq, Prod.mk.injEq] at hrecorded
      rw [← hrecorded.2] at hcounts
      simp at hcounts
  | functionChange other newFunction =>
      obtain ⟨written, _, heq⟩ := Option.map_eq_some_iff.mp hrecorded
      rw [← (Prod.mk.inj heq).2] at hcounts
      simp at hcounts
  | routineHmget other =>
      cases reply with
      | array texts =>
          cases texts with
          | nil => cases hrecorded
          | cons lastPing rest =>
              simp only [recorded, Option.some.injEq, Prod.mk.injEq] at hrecorded
              rw [← hrecorded.2] at hcounts
              simp at hcounts
      | _ => cases hrecorded
  | forwardHget other connected reading readAt record recordAt =>
      cases reply with
      | bulk text =>
          cases text with
          | none => cases hrecorded
          | some newValue =>
              obtain ⟨port, hport, heq⟩ := Option.map_eq_some_iff.mp hrecorded
              rw [credited, hport, ← (Prod.mk.inj heq).1]
              rfl
      | _ => cases hrecorded
  | _ => cases hrecorded

variable (platform : Platform)

section Delivered

variable {s : State} (a : Pipeline.Answer Reply Callback)
variable (rest : List (Pipeline.Answer Reply Callback)) (now : Nat) (hempty : s.outbox = [])

include hempty

/-- Only the credited device gets a message more. -/
theorem messages_delivered (device : String) :
    messages (delivered platform s a rest now).store device ≤
      messages s.store device + if credited a.callback a.reply = some device then 1 else 0 := by
  rw [messages, fieldAt, delivered_store platform hempty]
  by_cases htable : ∃ written, rewritten a.callback a.reply = some written ∧
      tableKey written.1 = recordKey device
  · obtain ⟨written, hwritten, hkey⟩ := htable
    rw [replyStore_record_of_table platform _ _ _ _ _ _ _ hwritten hkey, fieldsOf,
      messageCount_table]
    exact Nat.zero_le _
  · have hother : ∀ written, rewritten a.callback a.reply = some written →
        tableKey written.1 ≠ recordKey device :=
      fun written hwritten hkey => htable ⟨written, hwritten, hkey⟩
    rw [replyStore_record platform _ _ _ _ _ _ _ hother]
    cases hrecorded : recorded a.callback a.reply now with
    | none => exact Nat.le_add_right _ _
    | some change =>
        obtain ⟨name, ops⟩ := change
        simp only [opsFor]
        split
        next heq =>
            subst heq
            obtain ⟨pairs, counts, hrecords, rfl⟩ := records_of_recorded hrecorded
            refine (messageCount_recordOps _ counts hrecords.msg_count_not_mem).trans ?_
            cases counts with
            | false => exact Nat.add_le_add_left (Nat.zero_le _) _
            | true =>
                rw [if_pos (credited_of_records hrecorded)]
                rfl
        next => exact Nat.le_add_right _ _

theorem totalMessages_delivered (htyped : Kind.counter.Admits (s.store msgCountKey)) :
    totalMessages (delivered platform s a rest now).store =
      totalMessages s.store + (counted a.callback a.reply).toNat := by
  rw [totalMessages, delivered_store platform hempty, replyStore_msgCount, totalMessages]
  cases counted a.callback a.reply with
  | false => simp
  | true =>
      cases hvalue : s.store msgCountKey with
      | none => rfl
      | some value =>
          rw [hvalue] at htyped
          cases value with
          | counter n => rfl
          | _ => exact htyped.elim

end Delivered

section Occurred

variable {s : State} (event : Event) (now : Nat) (hempty : s.outbox = [])

include hempty

theorem messages_occurred (device : String) :
    messages (occurred platform s event now).store device ≤
      messages s.store device +
        if event.accepted.map Prod.fst = some device then 1 else 0 := by
  rw [messages, fieldAt]
  rcases occurred_record platform event now hempty device with ⟨reading, _, _, hvalue⟩ |
    ⟨_, hvalue⟩ | ⟨msg, address, port, reading, rfl, haccept, hname, hvalue⟩
  · -- The readings of another device: a list has no counter.
    rw [hvalue, messages, fieldAt]
    refine le_trans ?_ (Nat.le_add_right _ _)
    cases hheld : s.store (recordKey device) with
    | none => simp [Operation.update, slice, fieldsOf]
    | some value =>
        cases value with
        | list elements => simp [Operation.update, slice, fieldsOf]
        | _ => exact le_rfl
  · rw [hvalue]
    exact Nat.le_add_right _ _
  · rw [hvalue, Event.accepted, haccept, Option.map_some, hname, if_pos rfl]
    exact messageCount_recordOps _ true (by simp)

theorem totalMessages_occurred (htyped : Kind.counter.Admits (s.store msgCountKey)) :
    totalMessages (occurred platform s event now).store = totalMessages s.store +
      (match event with
        | .tcpData _ _ _ | .udpMessage _ _ _ => 1
        | _ => 0) := by
  rw [totalMessages, occurred_store platform hempty, eventStore_msgCount, totalMessages]
  have hcounts : (match applyAll [.incr] (s.store msgCountKey) with
      | some (.counter n) => n
      | _ => 0) = totalMessages s.store + 1 := by
    rw [totalMessages]
    cases hvalue : s.store msgCountKey with
    | none => rfl
    | some value =>
        rw [hvalue] at htyped
        cases value with
        | counter n => rfl
        | _ => exact htyped.elim
  cases event with
  | tcpData ip port values => exact hcounts
  | udpMessage msg address port => exact hcounts
  | _ => simp

end Occurred

/-! ## The account -/

/-- The PINGs that are not yet counted for their devices. -/
def uncounted (s : State) : Nat :=
  (s.inbox.map Pipeline.Answer.callback).countP Callback.isTest

/-- The global counter covers the counters of any devices and the PINGs that are
still to be counted. -/
structure Balanced (s : State) : Prop where
  typed : Kind.counter.Admits (s.store msgCountKey)
  covered : ∀ names : Finset String,
    (∑ name ∈ names, messages s.store name : Nat) + (uncounted s : Int) ≤ totalMessages s.store

/-- One more message for one device is one more for any number of them. -/
theorem sum_le_of_credit {before after : String → Nat} {credit : Option String}
    (hcredit : ∀ name, after name ≤ before name + if credit = some name then 1 else 0)
    (names : Finset String) :
    ∑ name ∈ names, after name ≤ ∑ name ∈ names, before name + credit.isSome.toNat := by
  refine (Finset.sum_le_sum fun name _ => hcredit name).trans ?_
  rw [Finset.sum_add_distrib]
  apply Nat.add_le_add_left
  cases credit with
  | none => simp
  | some device =>
      simp only [Option.some.injEq, Finset.sum_ite_eq, Option.isSome_some, Bool.toNat_true]
      split
      · exact le_rfl
      · exact Nat.zero_le _

/-- No reply asks for another membership test of a PING. -/
theorem countP_onReply (callback : Callback) (ordinal : Nat) (reply : Reply) (now : Nat)
    (memory : Memory) :
    ((onReply platform callback ordinal reply now memory).sends.map Prod.snd).countP
      Callback.isTest = 0 := by
  apply List.countP_eq_zero.mpr
  intro asked hmem
  obtain ⟨⟨command, _⟩, hsent, rfl⟩ := List.mem_map.mp hmem
  rcases follows_of_mem platform hsent with hignored | hfollows
  · simp [hignored, Callback.isTest]
  · cases hfollows <;> simp [Callback.isTest]

/-- A chunk asks for one membership test for each PING. -/
theorem countP_responses (ip : String) (port now : Nat) (values : List (Resp.Value String)) :
    ((TCP.responses platform ip port now values).1.map Prod.snd).countP Callback.isTest =
      TCP.pings platform.toLowerCase values := by
  induction values with
  | nil => rfl
  | cons value rest ih =>
      cases hping : TCP.isPing platform.toLowerCase value with
      | none => simp [TCP.responses, TCP.response, TCP.pings, hping]
      | some ping =>
          simp only [TCP.pings] at ih
          cases ping with
          | false => simp [TCP.responses, TCP.response, TCP.pings, hping, ih]
          | true =>
              simp only [TCP.responses, TCP.response, TCP.pings, hping, Option.map_some, if_true,
                List.singleton_append, List.map_cons]
              rw [List.countP_cons_of_pos rfl, ih]
              simp [hping]

theorem countP_onEvent (event : Event) (now : Nat) (memory : Memory) :
    ((onEvent platform event now memory).sends.map Prod.snd).countP Callback.isTest =
      match event with
      | .tcpData _ _ values => TCP.pings platform.toLowerCase values
      | _ => 0 := by
  cases event with
  | tcpData ip port values =>
      simp only [onEvent, TCP.data, List.map_cons]
      rw [List.countP_cons_of_neg (by simp [Callback.isTest]), countP_responses]
  | udpMessage msg address port =>
      apply List.countP_eq_zero.mpr
      intro callback hmem
      obtain ⟨⟨command, _⟩, hsent, rfl⟩ := List.mem_map.mp hmem
      simp [ignored_of_mem_silent hsent, Callback.isTest]
  | _ => rfl

/-- Chunks have at most one PING. -/
def singleGuard : State → Action → Prop :=
  fun _ action => ∀ event now, action = .event event now → event.SinglePing platform.toLowerCase

theorem preserved_balanced : (server platform).Preserved (singleGuard platform) Balanced where
  event := by
    intro s event now hempty _ hguard hbalanced
    change Balanced (occurred platform s event now)
    constructor
    · rw [occurred_store platform hempty, eventStore_msgCount]
      apply admits_applyAll _ _ _ hbalanced.typed
      intro op hmem kind hcreates
      cases event <;> simp_all [Operation.creates]
    · intro names
      have hsum := sum_le_of_credit (messages_occurred platform event now hempty) names
      have htotal := totalMessages_occurred platform event now hempty hbalanced.typed
      have hcovered := hbalanced.covered names
      have hsingle := hguard event now rfl
      rw [uncounted, callbacks_occurred platform hempty, List.countP_append, countP_onEvent,
        htotal]
      rw [uncounted] at hcovered
      cases event with
      | tcpData ip port values =>
          have hpings : TCP.pings platform.toLowerCase values ≤ 1 := hsingle
          simp only [Event.accepted, Option.map_none, Option.isSome_none, Bool.toNat_false]
            at hsum ⊢
          omega
      | udpMessage msg address port =>
          have hone := Bool.toNat_le (Option.map Prod.fst (Event.accepted
            (.udpMessage msg address port))).isSome
          simp only at hsum ⊢
          omega
      | _ =>
          simp only [Event.accepted, Option.map_none, Option.isSome_none, Bool.toNat_false]
            at hsum ⊢
          omega
  deliver := by
    intro s a rest now hempty _ hinbox _ hbalanced
    change Balanced (delivered platform s a rest now)
    constructor
    · rw [delivered_store platform hempty, replyStore_msgCount]
      apply admits_applyAll _ _ _ hbalanced.typed
      intro op hmem kind hcreates
      split at hmem
      · rw [List.mem_singleton.mp hmem] at hcreates
        exact (Option.some.inj hcreates).symm
      · cases hmem
    · intro names
      have hsum := sum_le_of_credit (messages_delivered platform a rest now hempty) names
      have htotal := totalMessages_delivered platform a rest now hempty hbalanced.typed
      have hcovered := hbalanced.covered names
      -- The answered test moves from the open account to its device.
      rw [credited_isSome] at hsum
      rw [uncounted, hinbox, List.map_cons, List.countP_cons] at hcovered
      rw [uncounted, callbacks_delivered platform hempty, List.countP_append, countP_onReply,
        htotal]
      cases htest : a.callback.isTest <;> simp only [htest, Bool.toNat_true, Bool.toNat_false,
        if_true, Bool.false_eq_true, if_false] at hsum hcovered ⊢ <;> omega

theorem balanced_boot_empty : Balanced ((server platform).flush (boot empty)) := by
  refine ⟨trivial, ?_⟩
  intro names
  have hnone : ∀ name, messages empty name = 0 := fun _ => rfl
  change (∑ name ∈ names, messages empty name : Nat) + ((0 : Nat) : Int) ≤ 0
  simp [hnone]

/-- In every state at rest of a run whose chunks bring at most one PING each, the
global counter is at least the sum of the counters of any devices, in particular
of all registered ones. -/
theorem total_covers_messages {schedule : List Action}
    (hsingle : ∀ event now, .event event now ∈ schedule →
      event.SinglePing platform.toLowerCase)
    (hquiet : ((server platform).run (boot empty) schedule).Quiescent) (names : Finset String) :
    (∑ name ∈ names, messages ((server platform).run (boot empty) schedule).store name : Nat) ≤
      totalMessages ((server platform).run (boot empty) schedule).store := by
  have hbalanced := (preserved_balanced platform).run (server platform) (boot empty) schedule
    ((server platform).guarded_of_events _ (boot empty) schedule hsingle)
    (balanced_boot_empty platform)
  rw [(server platform).flush_of_quiescent hquiet] at hbalanced
  have hcovered := hbalanced.covered names
  omega

/-- A device that has sent one PING. -/
theorem total_covers_messages_single : ∃ schedule,
    (∀ event now, .event event now ∈ schedule →
      event.SinglePing referencePlatform.toLowerCase) ∧
    ((server referencePlatform).run (boot empty) schedule).Quiescent ∧
    (∑ name ∈ {"adc00000001"},
      messages ((server referencePlatform).run (boot empty) schedule).store name : Nat) ≤
        totalMessages ((server referencePlatform).run (boot empty) schedule).store := by
  have hquiet := quiescent_registration referencePlatform isPingOf_samplePing
    (show "adc00000001" ∉ devices empty from Finset.notMem_empty _) "10.0.0.2" 4000 0
  have hsingle : ∀ event now, .event event now ∈
      (.event (.tcpData "10.0.0.2" 4000 [samplePing]) 0 :: rounds 1030 : List Action) →
      event.SinglePing referencePlatform.toLowerCase := by
    intro event now hmem
    rcases List.mem_cons.mp hmem with heq | hlater
    · cases heq
      exact (by decide : TCP.pings referencePlatform.toLowerCase [samplePing] ≤ 1)
    · exact absurd hlater (eventFree_rounds 1030 event now)
  exact ⟨_, hsingle, hquiet, total_covers_messages referencePlatform hsingle hquiet _⟩

/-! ## Two PINGs in a chunk -/

/-- A device registers and then sends two PINGs in one chunk. -/
@[irreducible]
def crowdedSchedule : List Action :=
  (.event (.tcpData "10.0.0.2" 4000 [samplePing]) 0 :: rounds 1030) ++
    eventRound (.tcpData "10.0.0.2" 4000 [samplePing, samplePing]) 0 3 ++ replyRound 0 0 ++
    replyRound 0 2 ++ replyRound 0 2 ++ List.replicate 4 (.deliver 0)

/-- The writes of a PING of a known device, one round trip after its chunk. -/
def refreshWrites : List Command :=
  [⟨recordKey "adc00000001", .hmset [("last_ping", Nat.repr 0)]⟩,
    ⟨recordKey "adc00000001", .hincrby "msg_count" 1⟩]

/-- The membership tests find the device. -/
def knownReplies : Callback → Reply → Prop
  | .pingSismember _ _ _ _, reply => truthy reply = true
  | _, _ => True

theorem trace_crowded : ∃ s, Trace referencePlatform empty knownReplies crowdedSchedule s []
    (registrationWrites referencePlatform "adc00000001" "10.0.0.2" 4000 0 ++
      [⟨msgCountKey, .incr⟩] ++ refreshWrites ++ refreshWrites) := by
  have hignored : ∀ reply, knownReplies .ignored reply := fun _ => trivial
  have hfound : ∀ n written, opsAt devicesKey written = opsAt devicesKey
      (registrationWrites referencePlatform "adc00000001" "10.0.0.2" 4000 0) →
      truthy ((Operation.sismember "adc00000001").reply referencePlatform.order n
        (applyAll (opsAt devicesKey written) (empty devicesKey))) = true := by
    intro n written hwritten
    rw [devices_loop referencePlatform "10.0.0.2" 4000 hwritten]
    simp [Operation.reply, truthy]
  obtain ⟨_, h₀⟩ := trace_registration referencePlatform "adc00000001" "10.0.0.2" 4000 0
    isPingOf_samplePing knownReplies
  have h₁ := h₀.event (.tcpData "10.0.0.2" 4000 [samplePing, samplePing]) 0 3
    [.ignored, .pingSismember "adc00000001" "10.0.0.2" 4000 0,
      .pingSismember "adc00000001" "10.0.0.2" 4000 0] [⟨msgCountKey, .incr⟩] rfl
    (fun _ => by simp [onEvent, TCP.data, TCP.responses, TCP.response, isPingOf_samplePing.1,
      isPingOf_samplePing.2]) rfl hignored (by
      intro command callback ordinal hstarts
      cases hstarts with
      | ping hmem hping =>
          simp only [List.mem_cons, List.not_mem_nil, or_false, or_self] at hmem
          subst hmem
          rw [isPingOf_samplePing.2]
          exact hfound ordinal _ rfl)
  have hturn : ∀ ordinal reply memory, knownReplies
      (.pingSismember "adc00000001" "10.0.0.2" 4000 0) reply →
      (onReply referencePlatform (.pingSismember "adc00000001" "10.0.0.2" 4000 0) ordinal reply 0
        memory).sends.map Prod.snd = [.ignored, .ignored] ∧
      (onReply referencePlatform (.pingSismember "adc00000001" "10.0.0.2" 4000 0) ordinal reply 0
        memory).thrown = false ∧
      replyWrites referencePlatform.curves (.pingSismember "adc00000001" "10.0.0.2" 4000 0)
        reply 0 = refreshWrites := by
    intro ordinal reply memory hreply
    have htruthy : truthy reply = true := hreply
    simp [onReply, finish, TCP.pingSismember, silent, htruthy, replyWrites, registered, rewritten,
      linked, recorded, counted, refreshWrites]
  have hnothing : ∀ askedAt reply command asked ordinal,
      knownReplies (.pingSismember "adc00000001" "10.0.0.2" 4000 0) reply →
      Follows (.pingSismember "adc00000001" "10.0.0.2" 4000 0) askedAt reply command asked →
      ∀ written, knownReplies asked (command.op.reply referencePlatform.order ordinal
        (applyAll (opsAt command.key written) (empty command.key))) := by
    intro askedAt reply command asked ordinal _ hfollows written
    cases hfollows with
    | pingSadd hnew => trivial
  obtain ⟨_, _, _, _, h₂⟩ := h₁.deliver 0 0 [] [] rfl (fun _ _ _ _ => ⟨rfl, rfl, rfl⟩) hignored
    (fun _ _ _ _ _ _ hfollows => by cases hfollows)
  obtain ⟨_, _, _, _, h₃⟩ := h₂.deliver 0 2 _ _ rfl hturn hignored
    (fun _ _ _ _ _ hreply hfollows => hnothing _ _ _ _ _ hreply hfollows _)
  obtain ⟨_, _, _, _, h₄⟩ := h₃.deliver 0 2 _ _ rfl hturn hignored
    (fun _ _ _ _ _ hreply hfollows => hnothing _ _ _ _ _ hreply hfollows _)
  have h₅ := h₄.finish (n := 4) rfl (by simp) 0
  unfold crowdedSchedule
  simp only [List.append_nil] at h₅
  exact ⟨_, h₅⟩

theorem msgCount_registrationWrites (device ip : String) (port now : Nat) :
    applyAll (opsAt msgCountKey (registrationWrites platform device ip port now)) none =
      some (.counter 1) := by
  rw [applyAll_registrationWrites, prefixStore_apply,
    opsAt_linear_of_ne platform _ (tableKey_ne_msgCountKey device),
    List.take_of_length_le (by simp [enrolment])]
  simp [enrolment, writes_cons, opsAt_cons, Operation.isRead, Operation.update, empty,
    msgCountKey_ne_devicesKey.symm]

/-- The global counter has two chunks, the record three PINGs. -/
theorem counters_crowded {s : State} (hstore : ∀ key, s.store key = applyAll (opsAt key
      (registrationWrites referencePlatform "adc00000001" "10.0.0.2" 4000 0 ++
        [⟨msgCountKey, .incr⟩] ++ refreshWrites ++ refreshWrites)) (empty key)) :
    devices s.store = {"adc00000001"} ∧ totalMessages s.store = 2 ∧
      messages s.store "adc00000001" = 3 := by
  refine ⟨?_, ?_, ?_⟩
  · rw [devices, setAt, hstore, devices_loop referencePlatform "10.0.0.2" 4000]
    simp [opsAt_append, opsAt_cons, refreshWrites]
  · rw [totalMessages, hstore, opsAt_append, opsAt_append, opsAt_append, applyAll_append,
      applyAll_append, applyAll_append, show empty msgCountKey = none from rfl,
      msgCount_registrationWrites]
    simp [opsAt_cons, refreshWrites, Operation.update]
  · have hops : opsAt (recordKey "adc00000001") refreshWrites =
        recordOps [("last_ping", Nat.repr 0)] true := by
      simp [opsAt_cons, refreshWrites, recordOps]
    have hcount : opsAt (recordKey "adc00000001") [⟨msgCountKey, .incr⟩] = [] := by
      simp [opsAt_cons, (recordKey_ne_msgCountKey _).symm]
    rw [messages, fieldAt, hstore, opsAt_append, opsAt_append, opsAt_append, applyAll_append,
      applyAll_append, applyAll_append, show empty (recordKey "adc00000001") = none from rfl,
      record_registrationWrites, applyAll_append, hops, hcount]
    decide

/-- After a chunk with two PINGs the counters of the devices exceed the global one. -/
theorem crowded_chunk_undercounted : ∃ schedule,
    (∀ event now, .event event now ∈ schedule →
      ∃ values, event = .tcpData "10.0.0.2" 4000 values) ∧
    ((server referencePlatform).run (boot empty) schedule).Quiescent ∧
    ¬ (∑ name ∈ devices ((server referencePlatform).run (boot empty) schedule).store,
        messages ((server referencePlatform).run (boot empty) schedule).store name : Nat) ≤
      totalMessages ((server referencePlatform).run (boot empty) schedule).store := by
  obtain ⟨s, htrace⟩ := trace_crowded
  refine ⟨crowdedSchedule, ?_, ?_, ?_⟩
  · intro event now hmem
    unfold crowdedSchedule eventRound replyRound at hmem
    simp only [List.mem_append, List.mem_cons, List.mem_replicate, reduceCtorEq, and_false,
      or_false, Pipeline.Action.event.injEq, eventFree_rounds 1030 event now] at hmem
    rcases hmem with ⟨rfl, _⟩ | ⟨rfl, _⟩
    · exact ⟨_, rfl⟩
    · exact ⟨_, rfl⟩
  · rw [htrace.run]
    exact ⟨htrace.outbox, List.map_eq_nil_iff.mp htrace.callbacks⟩
  · obtain ⟨hdevices, htotal, hmessages⟩ := counters_crowded htrace.store
    rw [htrace.run, hdevices, Finset.sum_singleton, hmessages, htotal]
    decide

end RealTimeWs
