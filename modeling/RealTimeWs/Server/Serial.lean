import RealTimeWs.Server.Answers
import RealTimeWs.Server.Registry

/-! # Requests one after the other

The registry does every PING and every request at once. The server takes several
commands for each, but as long as none of them begins before the one before is
done, it does the same: it keeps the registry in its database and gives the answers
of the registry. Readings and ticks may come at any time.
-/

namespace RealTimeWs

open Redis FunctionsService Pipeline.Client

variable (platform : Platform)

/-! ## Topics -/

/-- What a chain of callbacks may change in the registry. -/
inductive Topic where
  | registration
  | linking
  | unlinking
  | assignment

/-- What the request of a callback is about. -/
def Callback.topic : Callback → Option Topic
  | .pingSismember _ _ _ _ | .pingSadd _ _ _ _ | .pingHmset _ => some .registration
  | .connectFrom _ _ _ | .connectTo _ _ _ | .connectSadd _ _ _ => some .linking
  | .disconnectExists _ _ _ | .disconnectSrem _ _ _ | .disconnectDel _ | .releaseSmembers _
  | .releaseSismember _ _ => some .unlinking
  | .functionChange _ _ => some .assignment
  | _ => none

/-- What a request is about, none for readings and ticks. -/
def Event.topic : Event → Option Topic
  | .tcpData _ _ _ => some .registration
  | .connect _ _ _ => some .linking
  | .disconnect _ _ _ | .disconnectAll _ _ | .release _ _ => some .unlinking
  | .functionChange _ _ => some .assignment
  | _ => none

theorem topic_of_follows {asked callback : Callback} {n : Nat} {reply : Reply} {command : Command}
    (hfollows : Follows asked n reply command callback) : callback.topic = asked.topic := by
  cases hfollows <;> rfl

theorem topic_of_starts {toLowerCase : String → String} {event : Event} {now : Nat}
    {command : Command} {callback : Callback}
    (hstarts : Starts toLowerCase event now command callback) : callback.topic = event.topic := by
  cases hstarts <;> rfl

/-- No PING and no request is being handled. -/
def Unoccupied (s : State) : Prop :=
  (∀ entry ∈ s.outbox, entry.2.topic = none) ∧ ∀ a ∈ s.inbox, a.callback.topic = none

/-- PINGs and requests arrive when the one before is done. -/
def Serial (schedule : List Action) : Prop :=
  ∀ before event now after, schedule = before ++ .event event now :: after → event.topic ≠ none →
    Unoccupied ((server platform).run (boot empty) before)

/-- PINGs and requests arrive when no other one is being handled. -/
def serialGuard : State → Action → Prop :=
  fun s action => ∀ event now, action = .event event now → event.topic ≠ none →
    ∀ a ∈ s.inbox, a.callback.topic = none

theorem Unoccupied.flush {s : State} (hfree : Unoccupied s) :
    ∀ a ∈ ((server platform).flush s).inbox, a.callback.topic = none := by
  intro a hmem
  rcases List.mem_append.mp hmem with hold | hnew
  · exact hfree.2 a hold
  · have hcallback : a.callback ∈ s.outbox.map Prod.snd := by
      rw [← (server platform).answersTo_callbacks s.executed s.store]
      exact List.mem_map_of_mem hnew
    obtain ⟨entry, hentry, heq⟩ := List.mem_map.mp hcallback
    rw [← heq]
    exact hfree.1 entry hentry

theorem guarded_serial {schedule : List Action} (hserial : Serial platform schedule) :
    (server platform).Guarded serialGuard (boot empty) schedule := by
  apply guarded_of_places
  rintro before action after hsplit _ event now rfl htopic
  exact (hserial before event now after hsplit htopic).flush platform

/-- All outstanding callbacks of requests and PINGs belong together. -/
def OneTopic (s : State) : Prop :=
  ∃ topic, ∀ a ∈ s.inbox, a.callback.topic = none ∨ a.callback.topic = some topic

theorem preserved_oneTopic : (server platform).Preserved serialGuard OneTopic where
  event := by
    rintro s event now hempty _ hguard ⟨topic, hone⟩
    change OneTopic (occurred platform s event now)
    cases htopic : event.topic with
    | none =>
        refine ⟨topic, fun b hmem => ?_⟩
        rcases mem_inbox_occurred platform hempty hmem with hold | ⟨_, hignored | ⟨_, hstarts, _⟩⟩
        · exact hone b hold
        · exact Or.inl (by rw [hignored]; rfl)
        · exact Or.inl ((topic_of_starts hstarts).trans htopic)
    | some new =>
        refine ⟨new, fun b hmem => ?_⟩
        rcases mem_inbox_occurred platform hempty hmem with hold | ⟨_, hignored | ⟨_, hstarts, _⟩⟩
        · exact Or.inl (hguard event now rfl (by rw [htopic]; exact Option.some_ne_none _) b hold)
        · exact Or.inl (by rw [hignored]; rfl)
        · exact Or.inr ((topic_of_starts hstarts).trans htopic)
  deliver := by
    rintro s a rest now hempty _ hinbox _ ⟨topic, hone⟩
    change OneTopic (delivered platform s a rest now)
    refine ⟨topic, fun b hmem => ?_⟩
    rcases mem_inbox_delivered platform hempty hmem with hold | ⟨_, hignored | ⟨_, hfollows, _⟩⟩
    · exact hone b (hinbox ▸ List.mem_cons_of_mem _ hold)
    · exact Or.inl (by rw [hignored]; rfl)
    · rw [topic_of_follows hfollows]
      exact hone a (hinbox ▸ List.mem_cons_self)

/-- While one topic is outstanding, no other is. -/
theorem OneTopic.eq {s : State} (hone : OneTopic s) {a b : Pipeline.Answer Reply Callback}
    {first second : Topic} (ha : a ∈ s.inbox) (hb : b ∈ s.inbox)
    (hfirst : a.callback.topic = some first) (hsecond : b.callback.topic = some second) :
    first = second := by
  obtain ⟨topic, hall⟩ := hone
  have hleft := hall a ha
  have hright := hall b hb
  rw [hfirst] at hleft
  rw [hsecond] at hright
  simp only [reduceCtorEq, Option.some.injEq, false_or] at hleft hright
  rw [hleft, hright]

/-! ## SetsKept sets -/

/-- Where connections are kept, there is nothing or a set with members. -/
def KeptSet : Option Value → Prop
  | none => True
  | some (.set members) => members.Nonempty
  | _ => False

/-- Every connection is a set or missing. -/
def SetsKept (s : State) : Prop := ∀ name, KeptSet (s.store (connectionKey name))

theorem keptSet_sadd {value : Option Value} (hkept : KeptSet value) (member : String) :
    KeptSet ((Operation.sadd member).update value) := by
  cases value with
  | none => exact Finset.singleton_nonempty _
  | some held =>
      cases held with
      | set members => exact Finset.insert_nonempty _ _
      | _ => exact hkept.elim

theorem keptSet_srem {value : Option Value} (hkept : KeptSet value) (member : String) :
    KeptSet ((Operation.srem member).update value) := by
  cases value with
  | none => trivial
  | some held =>
      cases held with
      | set members =>
          simp only [Operation.update]
          split
          · trivial
          · next hsome => exact Finset.nonempty_iff_ne_empty.mpr hsome
      | _ => exact hkept.elim

/-- Requests add a member or take one out. -/
theorem linked_cases {callback : Callback} {reply : Reply} {change : String × Operation}
    (hlinked : linked callback reply = some change) :
    ∃ member, change.2 = .sadd member ∨ change.2 = .srem member := by
  cases callback with
  | connectTo fromDevice toDevice referer =>
      simp only [linked, Option.ite_none_right_eq_some, Option.some.injEq] at hlinked
      exact ⟨toDevice, Or.inl (by rw [← hlinked.2])⟩
  | disconnectExists fromDevice toDevice referer =>
      simp only [linked, Option.ite_none_right_eq_some, Option.some.injEq] at hlinked
      exact ⟨toDevice, Or.inr (by rw [← hlinked.2])⟩
  | releaseSismember device fromDevice =>
      simp only [linked, Option.ite_none_right_eq_some, Option.some.injEq] at hlinked
      exact ⟨fromDevice, Or.inr (by rw [← hlinked.2])⟩
  | _ => cases hlinked

/-- Of the events only dropping all connections changes a set of them. -/
theorem occurred_connection {s : State} {event : Event} (now : Nat) (hempty : s.outbox = [])
    (hplain : event.PlainIds platform) (name : String) :
    (occurred platform s event now).store (connectionKey name) =
        s.store (connectionKey name) ∧ (∀ referer, event ≠ .disconnectAll name referer) ∨
      (occurred platform s event now).store (connectionKey name) = none ∧
        ∃ referer, event = .disconnectAll name referer := by
  rw [occurred_store platform hempty, eventStore_apply]
  cases event with
  | udpMessage msg address port =>
      left
      refine ⟨?_, fun referer heq => by cases heq⟩
      cases haccept : UDP.accept msg with
      | none =>
          simp [eventWrites, haccept, opsAt_cons, (connectionKey_ne_msgCountKey name).symm]
      | some reading =>
          have hreading : Plain reading.1 := hplain reading haccept
          simp [eventWrites, haccept, opsAt_cons, (connectionKey_ne_msgCountKey name).symm,
            (connectionKey_ne_dataKey name hreading).symm]
  | disconnectAll fromDevice referer =>
      by_cases heq : fromDevice = name
      · right
        simp [eventWrites, opsAt_cons, heq, Operation.update]
      · left
        simp [eventWrites, opsAt_cons, heq]
  | _ =>
      left
      simp [eventWrites, opsAt_cons, (connectionKey_ne_msgCountKey name).symm]

section Delivered

variable {s : State} {a : Pipeline.Answer Reply Callback}
variable {rest : List (Pipeline.Answer Reply Callback)} (now : Nat) (hempty : s.outbox = [])
variable (hinbox : s.inbox = a :: rest) (hregular : Regular s)

include hempty hinbox hregular

theorem delivered_connection (name : String) :
    (delivered platform s a rest now).store (connectionKey name) =
      applyAll (opsFor name (linked a.callback a.reply) (fun change => change.1)
        fun change => [change.2]) (s.store (connectionKey name)) := by
  rw [delivered_store platform hempty]
  apply replyStore_connection platform
  exact fun written hwritten =>
    plain_of_rewritten hregular (hinbox ▸ List.mem_cons_self) hwritten

end Delivered

theorem preserved_setsKept : (server platform).Preserved (regularGuard platform) SetsKept where
  event := by
    intro s event now hempty _ hguard hkept name
    change KeptSet ((occurred platform s event now).store (connectionKey name))
    rcases occurred_connection platform now hempty (hguard.1.1 event now rfl) name with
      ⟨hsame, _⟩ | ⟨hnone, _⟩
    · rw [hsame]
      exact hkept name
    · rw [hnone]
      trivial
  deliver := by
    intro s a rest now hempty _ hinbox hguard hkept name
    change KeptSet ((delivered platform s a rest now).store (connectionKey name))
    rw [delivered_connection platform now hempty hinbox hguard.2]
    cases hlinked : linked a.callback a.reply with
    | none => exact hkept name
    | some change =>
        by_cases heq : change.1 = name
        · obtain ⟨member, hadd | hremove⟩ := linked_cases hlinked
          · simpa [opsFor, heq, hadd] using keptSet_sadd (hkept name) member
          · simpa [opsFor, heq, hremove] using keptSet_srem (hkept name) member
        · simpa [opsFor, heq] using hkept name

/-! ## Connections -/

theorem setAt_sadd_eq {store store' : Store} {key member : String} (hkept : KeptSet (store key))
    (heq : store' key = (Operation.sadd member).update (store key)) :
    setAt store' key = insert member (setAt store key) := by
  rw [setAt, heq, setAt]
  cases hvalue : store key with
  | none => rfl
  | some value =>
      rw [hvalue] at hkept
      cases value with
      | set members => rfl
      | _ => exact hkept.elim

theorem setAt_srem_eq {store store' : Store} {key member : String} (hkept : KeptSet (store key))
    (heq : store' key = (Operation.srem member).update (store key)) :
    setAt store' key = (setAt store key).erase member := by
  rw [setAt, heq, setAt]
  cases hvalue : store key with
  | none => rfl
  | some value =>
      rw [hvalue] at hkept
      cases value with
      | set members =>
          simp only [Operation.update]
          split <;> simp_all
      | _ => exact hkept.elim

/-- Whether a set has a member. -/
theorem truthy_sismember_key {order : SetOrder} {n : Nat} {store : Store} {key member : String} :
    truthy ((Operation.sismember member).reply order n (store key)) = true ↔
      member ∈ setAt store key := by
  unfold setAt
  cases hvalue : store key with
  | none => simp [Operation.reply, truthy]
  | some held =>
      cases held with
      | set members =>
          by_cases hmem : member ∈ members <;> simp [Operation.reply, truthy, hmem]
      | _ => simp [Operation.reply, truthy]

theorem reply_smembers {n : Nat} {store : Store} (htyped : Kind.set.Admits (store devicesKey)) :
    ∃ members, Operation.smembers.reply platform.order n (store devicesKey) = .members members ∧
      ∀ name, name ∈ members ↔ name ∈ devices store := by
  unfold devices setAt
  cases hvalue : store devicesKey with
  | none => exact ⟨[], rfl, fun name => by simp⟩
  | some value =>
      rw [hvalue] at htyped
      cases value with
      | set held => exact ⟨_, rfl, platform.order.mem_enumerate n held⟩
      | _ => exact htyped.elim

/-- Connections are kept as sets with members, so a key that exists has some. -/
theorem truthy_existsKey_iff {order : SetOrder} {n : Nat} {store : Store} {key : String}
    (hkept : KeptSet (store key)) :
    truthy (Operation.existsKey.reply order n (store key)) = true ↔ setAt store key ≠ ∅ := by
  unfold setAt
  cases hvalue : store key with
  | none => simp [Operation.reply, truthy]
  | some held =>
      rw [hvalue] at hkept
      cases held with
      | set members => simpa [Operation.reply, truthy] using Finset.nonempty_iff_ne_empty.mp hkept
      | _ => exact hkept.elim

/-- The reply belongs to a request that is going to add the pair. -/
inductive Adding (store : Store) : Callback → Reply → String → String → Prop
  | connectFrom {fromDevice toDevice : String} {referer : Option String} {reply : Reply}
      (hfound : truthy reply = true) (hto : toDevice ∈ devices store) :
      Adding store (.connectFrom fromDevice toDevice referer) reply fromDevice toDevice
  | connectTo {fromDevice toDevice : String} {referer : Option String} {reply : Reply}
      (hfound : truthy reply = true) :
      Adding store (.connectTo fromDevice toDevice referer) reply fromDevice toDevice

/-- The reply belongs to a request that is going to remove the pair. -/
inductive Removing : Callback → Reply → String → String → Prop
  | disconnectExists {fromDevice toDevice : String} {referer : Option String} {reply : Reply}
      (hfound : truthy reply = true) :
      Removing (.disconnectExists fromDevice toDevice referer) reply fromDevice toDevice
  | releaseSmembers {fromDevice device : String} {members : List String}
      (hmem : device ∈ members) :
      Removing (.releaseSmembers fromDevice) (.members members) device fromDevice
  | releaseSismember {fromDevice device : String} {reply : Reply} (hfound : truthy reply = true) :
      Removing (.releaseSismember device fromDevice) reply device fromDevice

theorem Adding.topic {store : Store} {callback : Callback} {reply : Reply} {name member : String}
    (hadding : Adding store callback reply name member) : callback.topic = some .linking := by
  cases hadding <;> rfl

theorem Adding.congr {store store' : Store} {callback : Callback} {reply : Reply}
    {name member : String} (hadding : Adding store callback reply name member)
    (heq : devices store = devices store') : Adding store' callback reply name member := by
  cases hadding with
  | connectFrom hfound hto => exact .connectFrom hfound (heq ▸ hto)
  | connectTo hfound => exact .connectTo hfound

theorem Removing.topic {callback : Callback} {reply : Reply} {name member : String}
    (hremoving : Removing callback reply name member) : callback.topic = some .unlinking := by
  cases hremoving <;> rfl

/-- Some reply is going to add the pair. -/
def WillAdd (s : State) (name member : String) : Prop :=
  ∃ a ∈ s.inbox, Adding s.store a.callback a.reply name member

/-- Some reply is going to remove the pair. -/
def WillRemove (s : State) (name member : String) : Prop :=
  ∃ a ∈ s.inbox, Removing a.callback a.reply name member

/-- The connections of the registry are those of the database, once the outstanding
replies have had their effect. -/
def Wired (s : State) : Prop :=
  ∀ name member, member ∈ (Registry.after platform (handled s)).connected name ↔
    (member ∈ setAt s.store (connectionKey name) ∨ WillAdd s name member) ∧
      ¬ WillRemove s name member

/-- A request that removes excludes one that adds. -/
theorem not_willAdd {s : State} (hone : OneTopic s) {a : Pipeline.Answer Reply Callback}
    (hmem : a ∈ s.inbox) {topic : Topic} (htopic : a.callback.topic = some topic)
    (hne : topic ≠ .linking) (name member : String) : ¬ WillAdd s name member := by
  rintro ⟨b, hb, hadding⟩
  exact hne (hone.eq hmem hb htopic hadding.topic)

/-- A reply that removes a pair at once. -/
theorem linked_eq_srem {callback : Callback} {reply : Reply} {name member : String} :
    linked callback reply = some (name, .srem member) ↔
      Removing callback reply name member ∧ ∀ released, callback ≠ .releaseSmembers released := by
  constructor
  · intro hlinked
    cases callback with
    | connectTo fromDevice toDevice referer =>
        simp only [linked, Option.ite_none_right_eq_some, Option.some.injEq, Prod.mk.injEq,
          reduceCtorEq, and_false] at hlinked
    | disconnectExists fromDevice toDevice referer =>
        simp only [linked, Option.ite_none_right_eq_some, Option.some.injEq, Prod.mk.injEq,
          Operation.srem.injEq] at hlinked
        obtain ⟨hfound, rfl, rfl⟩ := hlinked
        exact ⟨.disconnectExists hfound, fun released heq => by cases heq⟩
    | releaseSismember device fromDevice =>
        simp only [linked, Option.ite_none_right_eq_some, Option.some.injEq, Prod.mk.injEq,
          Operation.srem.injEq] at hlinked
        obtain ⟨hfound, rfl, rfl⟩ := hlinked
        exact ⟨.releaseSismember hfound, fun released heq => by cases heq⟩
    | _ => cases hlinked
  · rintro ⟨hremoving, hother⟩
    cases hremoving with
    | disconnectExists hfound => simp [linked, hfound]
    | releaseSmembers hmem => exact absurd rfl (hother _)
    | releaseSismember hfound => simp [linked, hfound]

theorem linked_ne_sadd {callback : Callback} {reply : Reply} {name member : String}
    (htopic : callback.topic = some .unlinking) :
    linked callback reply ≠ some (name, .sadd member) := by
  intro hlinked
  cases callback with
  | disconnectExists fromDevice toDevice referer => simp [linked] at hlinked
  | releaseSismember device fromDevice => simp [linked] at hlinked
  | _ => first | cases hlinked | cases htopic

/-- Other replies leave the connections alone. -/
theorem linked_eq_none {callback : Callback} {reply : Reply}
    (hlink : callback.topic ≠ some .linking) (hunlink : callback.topic ≠ some .unlinking) :
    linked callback reply = none := by
  cases callback <;> first | rfl | exact absurd rfl hlink | exact absurd rfl hunlink

section Connections

variable {s : State} {a : Pipeline.Answer Reply Callback}
variable {rest : List (Pipeline.Answer Reply Callback)} (now : Nat) (hempty : s.outbox = [])
variable (hinbox : s.inbox = a :: rest) (hregular : Regular s)

include hempty hinbox hregular

theorem mem_setAt_delivered (hkept : SetsKept s) (name member : String) :
    member ∈ setAt (delivered platform s a rest now).store (connectionKey name) ↔
      (member ∈ setAt s.store (connectionKey name) ∨
          linked a.callback a.reply = some (name, .sadd member)) ∧
        linked a.callback a.reply ≠ some (name, .srem member) := by
  have hvalue := delivered_connection platform now hempty hinbox hregular name
  cases hlinked : linked a.callback a.reply with
  | none =>
      rw [hlinked] at hvalue
      rw [setAt, hvalue]
      simp [opsFor, setAt]
  | some change =>
      obtain ⟨other, op⟩ := change
      rw [hlinked] at hvalue
      by_cases hother : other = name
      · subst hother
        simp only [opsFor, if_true, applyAll_cons, applyAll_nil] at hvalue
        obtain ⟨which, hadd | hremove⟩ := linked_cases hlinked
        · simp only at hadd
          subst hadd
          rw [setAt_sadd_eq (hkept other) hvalue]
          simp [or_comm, eq_comm]
        · simp only at hremove
          subst hremove
          rw [setAt_srem_eq (hkept other) hvalue]
          simp [and_comm, eq_comm]
      · simp only [opsFor, hother, if_false, applyAll_nil] at hvalue
        rw [setAt, hvalue]
        simp [setAt, hother]

omit hinbox hregular in
/-- An outstanding reply of another topic was outstanding before. -/
theorem old_of_topic {b : Pipeline.Answer Reply Callback} {topic : Topic}
    (hmem : b ∈ (delivered platform s a rest now).inbox) (htopic : b.callback.topic = some topic)
    (hne : a.callback.topic ≠ some topic) : b ∈ rest := by
  rcases mem_inbox_delivered platform hempty hmem with hold | ⟨_, hignored | ⟨_, hfollows, _⟩⟩
  · exact hold
  · rw [hignored] at htopic
    cases htopic
  · exact absurd ((topic_of_follows hfollows).symm.trans htopic) hne

omit hinbox in
theorem devices_delivered_of_topic (hne : a.callback.topic ≠ some .registration) :
    devices (delivered platform s a rest now).store = devices s.store := by
  rw [delivered_store platform hempty, devices_replyStore platform hregular.typed]
  cases hregistered : registered a.callback a.reply with
  | none => rfl
  | some device =>
      obtain ⟨_, ip, port, epoch, hcallback⟩ := registered_eq_some.mp hregistered
      rw [hcallback] at hne
      exact absurd rfl hne

omit hregular in
theorem willRemove_delivered (hne : a.callback.topic ≠ some .unlinking) (name member : String) :
    WillRemove (delivered platform s a rest now) name member ↔ WillRemove s name member := by
  constructor
  · rintro ⟨b, hmem, hremoving⟩
    have hold := old_of_topic platform now hempty hmem hremoving.topic hne
    exact ⟨b, hinbox ▸ List.mem_cons_of_mem _ hold, hremoving⟩
  · rintro ⟨b, hmem, hremoving⟩
    rw [hinbox] at hmem
    rcases List.mem_cons.mp hmem with rfl | hrest
    · exact absurd hremoving.topic hne
    · exact ⟨b, mem_inbox_delivered_of_rest platform hempty hrest, hremoving⟩

theorem willAdd_delivered (hone : OneTopic s) (hne : a.callback.topic ≠ some .linking)
    (name member : String) :
    WillAdd (delivered platform s a rest now) name member ↔ WillAdd s name member := by
  have hhead : a ∈ s.inbox := hinbox ▸ List.mem_cons_self
  -- While a request waits to add a pair, no device registers.
  have hdevices : ∀ b ∈ rest, b.callback.topic = some .linking →
      devices (delivered platform s a rest now).store = devices s.store := by
    intro b hrest htopic
    apply devices_delivered_of_topic platform now hempty hregular
    intro hregistration
    have heq := hone.eq hhead (hinbox ▸ List.mem_cons_of_mem _ hrest) hregistration htopic
    cases heq
  constructor
  · rintro ⟨b, hmem, hadding⟩
    have hold := old_of_topic platform now hempty hmem hadding.topic hne
    exact ⟨b, hinbox ▸ List.mem_cons_of_mem _ hold,
      hadding.congr (hdevices b hold hadding.topic)⟩
  · rintro ⟨b, hmem, hadding⟩
    rw [hinbox] at hmem
    rcases List.mem_cons.mp hmem with rfl | hrest
    · exact absurd hadding.topic hne
    · exact ⟨b, mem_inbox_delivered_of_rest platform hempty hrest,
        hadding.congr (hdevices b hrest hadding.topic).symm⟩

omit hempty hregular in
/-- What the reply and the others are going to add. -/
theorem willAdd_cons (name member : String) :
    WillAdd s name member ↔ Adding s.store a.callback a.reply name member ∨
      ∃ b ∈ rest, Adding s.store b.callback b.reply name member := by
  simp [WillAdd, hinbox]

omit hempty hregular in
theorem willRemove_cons (name member : String) :
    WillRemove s name member ↔ Removing a.callback a.reply name member ∨
      ∃ b ∈ rest, Removing b.callback b.reply name member := by
  simp [WillRemove, hinbox]

omit hinbox hregular in
/-- A reply that asks nothing which adds the pair leaves that to the others. -/
theorem willAdd_rest
    (hdevices : devices (delivered platform s a rest now).store = devices s.store)
    (name member : String)
    (hnot : ∀ command callback reply, Follows a.callback a.ordinal a.reply command callback →
      ¬ Adding (delivered platform s a rest now).store callback reply name member) :
    WillAdd (delivered platform s a rest now) name member ↔
      ∃ b ∈ rest, Adding s.store b.callback b.reply name member := by
  constructor
  · rintro ⟨b, hmem, hadding⟩
    rcases mem_inbox_delivered platform hempty hmem with hold | ⟨_, hignored | ⟨_, hfollows, _⟩⟩
    · exact ⟨b, hold, hadding.congr hdevices⟩
    · rw [hignored] at hadding
      cases hadding
    · exact absurd hadding (hnot _ _ _ hfollows)
  · rintro ⟨b, hrest, hadding⟩
    exact ⟨b, mem_inbox_delivered_of_rest platform hempty hrest, hadding.congr hdevices.symm⟩

omit hinbox hregular in
theorem willRemove_rest (name member : String)
    (hnot : ∀ command callback reply, Follows a.callback a.ordinal a.reply command callback →
      ¬ Removing callback reply name member) :
    WillRemove (delivered platform s a rest now) name member ↔
      ∃ b ∈ rest, Removing b.callback b.reply name member := by
  constructor
  · rintro ⟨b, hmem, hremoving⟩
    rcases mem_inbox_delivered platform hempty hmem with hold | ⟨_, hignored | ⟨_, hfollows, _⟩⟩
    · exact ⟨b, hold, hremoving⟩
    · rw [hignored] at hremoving
      cases hremoving
    · exact absurd hremoving (hnot _ _ _ hfollows)
  · rintro ⟨b, hrest, hremoving⟩
    exact ⟨b, mem_inbox_delivered_of_rest platform hempty hrest, hremoving⟩

/-- The steps of adding a pair. -/
theorem linking_delivered (hkept : SetsKept s) (htopic : a.callback.topic = some .linking)
    (name member : String) :
    (member ∈ setAt (delivered platform s a rest now).store (connectionKey name) ∨
        WillAdd (delivered platform s a rest now) name member) ↔
      member ∈ setAt s.store (connectionKey name) ∨ WillAdd s name member := by
  have hdevices : devices (delivered platform s a rest now).store = devices s.store := by
    apply devices_delivered_of_topic platform now hempty hregular
    rw [htopic]
    exact fun heq => by cases heq
  have hstored := mem_setAt_delivered platform now hempty hinbox hregular hkept name member
  have hlater := willAdd_rest platform now hempty hdevices name member
  rw [hstored, willAdd_cons hinbox]
  obtain ⟨ordinal, reply, callback⟩ := a
  cases callback with
  | connectFrom fromDevice toDevice referer =>
      simp only [linked, reduceCtorEq, or_false, ne_eq, not_false_eq_true, and_true]
      apply or_congr_right
      constructor
      · rintro ⟨b, hmem, hadding⟩
        rcases mem_inbox_delivered platform hempty hmem with hold | ⟨_, hignored | hasked⟩
        · exact Or.inr ⟨b, hold, hadding.congr hdevices⟩
        · rw [hignored] at hadding
          cases hadding
        · obtain ⟨command, hfollows, hreply⟩ := hasked
          obtain ⟨n, given, asked⟩ := b
          cases hfollows with
          | connectTo hfound =>
              cases hadding with
              | connectTo htruthy =>
                  simp only at hreply
                  rw [hreply] at htruthy
                  exact Or.inl (.connectFrom hfound (truthy_sismember.mp htruthy))
      · rintro (hadding | ⟨b, hrest, hadding⟩)
        · cases hadding with
          | connectFrom hfound hto =>
              obtain ⟨b, hmem, hcallback, hreply⟩ :=
                @replied_delivered platform s now hempty _ _ ⟨ordinal, reply, _⟩ rest
                  (.connectTo hfound) (fun heq => by cases heq)
              refine ⟨b, hmem, ?_⟩
              rw [hcallback, hreply]
              exact .connectTo (truthy_sismember.mpr hto)
        · exact ⟨b, mem_inbox_delivered_of_rest platform hempty hrest, hadding.congr hdevices.symm⟩
  | connectTo fromDevice toDevice referer =>
      rw [hlater (fun _ _ _ hfollows hadding => by cases hfollows; cases hadding), ← or_assoc]
      apply or_congr_left
      simp only [linked]
      split
      next hfound =>
          simp only [Option.some.injEq, Prod.mk.injEq, Operation.sadd.injEq, reduceCtorEq,
            and_false, ne_eq, not_false_eq_true, and_true]
          apply or_congr_right
          constructor
          · rintro ⟨rfl, rfl⟩
            exact .connectTo hfound
          · rintro ⟨_⟩
            exact ⟨rfl, rfl⟩
      next hnot =>
          simp only [reduceCtorEq, or_false, ne_eq, not_false_eq_true, and_true]
          refine ⟨Or.inl, ?_⟩
          rintro (hold | hadding)
          · exact hold
          · cases hadding with
            | connectTo hfound => exact absurd hfound hnot
  | connectSadd fromDevice toDevice referer =>
      rw [hlater (fun _ _ _ hfollows => by cases hfollows)]
      simp only [linked, reduceCtorEq, or_false, ne_eq, not_false_eq_true, and_true]
      apply or_congr_right
      refine ⟨Or.inr, ?_⟩
      rintro (hadding | hrest)
      · cases hadding
      · exact hrest
  | _ => cases htopic

/-- The steps of removing pairs. -/
theorem unlinking_delivered (hkept : SetsKept s) (htopic : a.callback.topic = some .unlinking)
    (name member : String) :
    (member ∈ setAt (delivered platform s a rest now).store (connectionKey name) ∧
        ¬ WillRemove (delivered platform s a rest now) name member) ↔
      member ∈ setAt s.store (connectionKey name) ∧ ¬ WillRemove s name member := by
  rw [mem_setAt_delivered platform now hempty hinbox hregular hkept name member,
    willRemove_cons hinbox, or_iff_left (linked_ne_sadd htopic)]
  by_cases hrelease : ∃ released, a.callback = .releaseSmembers released
  · -- The devices are asked one by one what they are connected to.
    obtain ⟨released, hcallback⟩ := hrelease
    obtain ⟨ordinal, reply, callback⟩ := a
    simp only at hcallback
    subst hcallback
    simp only [linked, reduceCtorEq, ne_eq, not_false_eq_true, and_true]
    apply and_congr_right
    intro hstored
    rw [not_iff_not]
    constructor
    · rintro ⟨b, hmem, hremoving⟩
      rcases mem_inbox_delivered platform hempty hmem with hold | ⟨_, hignored | hasked⟩
      · exact Or.inr ⟨b, hold, hremoving⟩
      · rw [hignored] at hremoving
        cases hremoving
      · obtain ⟨command, hfollows, hreply⟩ := hasked
        obtain ⟨n, given, asked⟩ := b
        cases hfollows with
        | releaseSismember hdevice =>
            cases hremoving with
            | releaseSismember htruthy => exact Or.inl (.releaseSmembers hdevice)
    · rintro (hremoving | ⟨b, hrest, hremoving⟩)
      · cases hremoving with
        | releaseSmembers hdevice =>
            obtain ⟨b, hmem, hcallback, hreply⟩ :=
              @replied_delivered platform s now hempty _ _ ⟨ordinal, .members _, _⟩ rest
                (.releaseSismember hdevice) (fun heq => by cases heq)
            refine ⟨b, hmem, ?_⟩
            rw [hcallback, hreply]
            exact .releaseSismember (truthy_sismember_key.mpr hstored)
      · exact ⟨b, mem_inbox_delivered_of_rest platform hempty hrest, hremoving⟩
  · rw [willRemove_rest platform now hempty]
    · have hother : ∀ released, a.callback ≠ .releaseSmembers released :=
        fun released heq => hrelease ⟨released, heq⟩
      rw [ne_eq, linked_eq_srem, and_iff_left hother, not_or, and_assoc]
    · intro command callback reply hfollows hremoving
      generalize a.callback = asked, a.reply = given at hfollows hrelease
      cases hfollows with
      | releaseSismember hmem => exact hrelease ⟨_, rfl⟩
      | _ => cases hremoving

theorem wired_delivered (hkept : SetsKept s) (hone : OneTopic s) (hwired : Wired platform s) :
    Wired platform (delivered platform s a rest now) := by
  have hhead : a ∈ s.inbox := hinbox ▸ List.mem_cons_self
  intro name member
  rw [handled, delivered_history platform hempty]
  refine (hwired name member).trans ?_
  by_cases hlink : a.callback.topic = some .linking
  · rw [linking_delivered platform now hempty hinbox hregular hkept hlink,
      willRemove_delivered platform now hempty hinbox]
    rw [hlink]
    exact fun heq => by cases heq
  · rw [willAdd_delivered platform now hempty hinbox hregular hone hlink]
    by_cases hunlink : a.callback.topic = some .unlinking
    · have hnone := not_willAdd hone hhead hunlink (fun heq => by cases heq) name member
      rw [or_iff_left hnone, or_iff_left hnone,
        unlinking_delivered platform now hempty hinbox hregular hkept hunlink]
    · rw [mem_setAt_delivered platform now hempty hinbox hregular hkept,
        willRemove_delivered platform now hempty hinbox hunlink,
        linked_eq_none hlink hunlink]
      simp

end Connections

section Requests

variable {s : State} {event : Event} (now : Nat) (hempty : s.outbox = [])

include hempty

theorem handled_occurred : handled (occurred platform s event now) = handled s ++ [event] := by
  rw [handled, occurred_history platform hempty, List.map_append]
  rfl

/-- A tick or a reading starts nothing that concerns the registry. -/
theorem mem_inbox_of_topic {b : Pipeline.Answer Reply Callback} {topic : Topic}
    (hmem : b ∈ (occurred platform s event now).inbox) (htopic : b.callback.topic = some topic)
    (hevent : event.topic = none) : b ∈ s.inbox := by
  rcases mem_inbox_occurred platform hempty hmem with hold | ⟨_, hignored | ⟨_, hstarts, _⟩⟩
  · exact hold
  · rw [hignored] at htopic
    cases htopic
  · rw [topic_of_starts hstarts, hevent] at htopic
    cases htopic

/-- When nothing else is being handled, what is outstanding belongs to the event. -/
theorem asks_of_topic {b : Pipeline.Answer Reply Callback} {topic : Topic}
    (hidle : ∀ a ∈ s.inbox, a.callback.topic = none)
    (hmem : b ∈ (occurred platform s event now).inbox) (htopic : b.callback.topic = some topic) :
    ∃ command, Starts platform.toLowerCase event now command b.callback ∧
      b.reply = command.op.reply platform.order b.ordinal (s.store command.key) := by
  rcases mem_inbox_occurred platform hempty hmem with hold | ⟨_, hignored | hasked⟩
  · rw [hidle b hold] at htopic
    cases htopic
  · rw [hignored] at htopic
    cases htopic
  · exact hasked

end Requests

namespace Registry

variable (registry : Registry)

theorem connected_register (name other : String) :
    (registry.register name).connected other = registry.connected other := by
  unfold register
  split
  next => rfl
  next hnew =>
      unfold connected
      by_cases heq : other = name
      · rw [heq, Function.update_self, Option.not_isSome_iff_eq_none.mp hnew]
        rfl
      · rw [Function.update_of_ne heq]

theorem connected_foldl_register (names : List String) (other : String) :
    connected (names.foldl register registry) other = registry.connected other := by
  induction names generalizing registry with
  | nil => rfl
  | cons name rest ih => rw [List.foldl_cons, ih, connected_register]

theorem isSome_of_mem_connected {name member : String}
    (hmem : member ∈ registry.connected name) : (registry name).isSome := by
  unfold connected at hmem
  cases hname : registry name with
  | none => simp [hname] at hmem
  | some device => rfl

theorem connected_change (name other : String) (what : Device → Device) :
    (registry.change name what).connected other =
      if other = name then (registry name).elim ∅ fun device => (what device).connected
      else registry.connected other := by
  unfold change connected
  by_cases heq : other = name
  · rw [heq, Function.update_self, if_pos rfl]
    cases registry name <;> rfl
  · rw [Function.update_of_ne heq, if_neg heq]

/-- Connecting adds one pair, if both devices are registered. -/
theorem mem_connected_connect {fromDevice toDevice name member : String}
    {referer : Option String} :
    member ∈ (registry.handle platform (.connect fromDevice toDevice referer)).connected name ↔
      member ∈ registry.connected name ∨ (registry fromDevice).isSome ∧
        (registry toDevice).isSome ∧ name = fromDevice ∧ member = toDevice := by
  simp only [handle]
  split
  next hto =>
      rw [connected_change]
      by_cases heq : name = fromDevice
      · subst heq
        cases hfrom : registry name with
        | none => simp [connected, hfrom]
        | some device => simp [connected, hfrom, hto, or_comm]
      · simp [heq]
  next hto => simp [hto]

theorem mem_connected_disconnect {fromDevice toDevice name member : String}
    {referer : Option String} :
    member ∈ (registry.handle platform (.disconnect fromDevice toDevice referer)).connected name ↔
      member ∈ registry.connected name ∧ ¬ (name = fromDevice ∧ member = toDevice) := by
  simp only [handle]
  rw [connected_change]
  by_cases heq : name = fromDevice
  · subst heq
    cases hfrom : registry name with
    | none => simp [connected, hfrom]
    | some device => simp [connected, hfrom, and_comm]
  · simp [heq]

theorem mem_connected_disconnectAll {fromDevice name member : String}
    {referer : Option String} :
    member ∈ (registry.handle platform (.disconnectAll fromDevice referer)).connected name ↔
      member ∈ registry.connected name ∧ name ≠ fromDevice := by
  simp only [handle]
  rw [connected_change]
  by_cases heq : name = fromDevice
  · subst heq
    cases hfrom : registry name <;> simp
  · simp [heq]

theorem mem_connected_release {fromDevice name member : String} {referer : Option String} :
    member ∈ (registry.handle platform (.release fromDevice referer)).connected name ↔
      member ∈ registry.connected name ∧ member ≠ fromDevice := by
  simp only [handle, connected]
  cases registry name <;> simp [and_comm]

/-- Other events leave the connections alone. -/
theorem connected_handle_of_topic {event : Event} (hlink : event.topic ≠ some .linking)
    (hunlink : event.topic ≠ some .unlinking) (name : String) :
    (registry.handle platform event).connected name = registry.connected name := by
  cases event with
  | tcpData ip port values => exact connected_foldl_register registry _ name
  | functionChange device newFunction =>
      simp only [handle]
      cases newFunction.bind find with
      | none => rfl
      | some function =>
          rw [connected_change]
          split
          next heq =>
              subst heq
              unfold connected
              cases registry name <;> rfl
          next => rfl
  | udpMessage msg address port => rfl
  | routineTick => rfl
  | forwardTick => rfl
  | connect fromDevice toDevice referer => exact absurd rfl hlink
  | _ => exact absurd rfl hunlink

end Registry

/-- With nothing else being handled, the registry has the connections of the database. -/
theorem wired_of_idle {s : State} (hidle : ∀ a ∈ s.inbox, a.callback.topic = none)
    (hwired : Wired platform s) (name member : String) :
    member ∈ (Registry.after platform (handled s)).connected name ↔
      member ∈ setAt s.store (connectionKey name) := by
  rw [hwired name member]
  have hadd : ¬ WillAdd s name member := by
    rintro ⟨a, hmem, hadding⟩
    exact absurd ((hidle a hmem).symm.trans hadding.topic) (fun heq => by cases heq)
  have hremove : ¬ WillRemove s name member := by
    rintro ⟨a, hmem, hremoving⟩
    exact absurd ((hidle a hmem).symm.trans hremoving.topic) (fun heq => by cases heq)
  rw [or_iff_left hadd, and_iff_left hremove]

/-- With nothing else being handled, the registry has the devices of the database. -/
theorem isSome_of_idle {s : State} (henrolled : Enrolled platform s)
    (hidle : ∀ a ∈ s.inbox, a.callback.topic = none) (name : String) :
    (Registry.after platform (handled s) name).isSome ↔ name ∈ devices s.store := by
  refine (henrolled name).trans (or_iff_left ?_)
  rintro ⟨a, hmem, hregistered⟩
  obtain ⟨_, ip, port, epoch, hcallback⟩ := registered_eq_some.mp hregistered
  have htopic := hidle a hmem
  rw [hcallback] at htopic
  cases htopic

section Requests

variable {s : State} {event : Event} (now : Nat) (hempty : s.outbox = [])

include hempty

/-- A reading or a tick changes neither connections nor what is outstanding. -/
theorem wired_occurred_of_topic (hplain : event.PlainIds platform) (hevent : event.topic = none)
    (hwired : Wired platform s) : Wired platform (occurred platform s event now) := by
  intro name member
  rw [handled_occurred platform now hempty, Registry.after_concat,
    Registry.connected_handle_of_topic platform _ (by rw [hevent]; exact fun heq => by cases heq)
      (by rw [hevent]; exact fun heq => by cases heq)]
  have hstored : setAt (occurred platform s event now).store (connectionKey name) =
      setAt s.store (connectionKey name) := by
    rcases occurred_connection platform now hempty hplain name with ⟨hsame, _⟩ | ⟨_, _, hall⟩
    · rw [setAt, hsame]
      rfl
    · rw [hall] at hevent
      cases hevent
  have hdevices := @devices_occurred platform s now hempty event
  have hadd : WillAdd (occurred platform s event now) name member ↔ WillAdd s name member := by
    constructor
    · rintro ⟨b, hmem, hadding⟩
      exact ⟨b, mem_inbox_of_topic platform now hempty hmem hadding.topic hevent,
        hadding.congr hdevices⟩
    · rintro ⟨b, hmem, hadding⟩
      exact ⟨b, mem_inbox_occurred_of_mem platform hempty hmem, hadding.congr hdevices.symm⟩
  have hremove : WillRemove (occurred platform s event now) name member ↔
      WillRemove s name member := by
    constructor
    · rintro ⟨b, hmem, hremoving⟩
      exact ⟨b, mem_inbox_of_topic platform now hempty hmem hremoving.topic hevent, hremoving⟩
    · rintro ⟨b, hmem, hremoving⟩
      exact ⟨b, mem_inbox_occurred_of_mem platform hempty hmem, hremoving⟩
  rw [hstored, hadd, hremove]
  exact hwired name member

/-- With nothing else being handled, what will be added or removed belongs to the event. -/
theorem adding_asked (hidle : ∀ a ∈ s.inbox, a.callback.topic = none) {name member : String}
    (hadd : WillAdd (occurred platform s event now) name member) :
    ∃ referer n, event = .connect name member referer ∧ member ∈ devices s.store ∧
      truthy ((Operation.sismember name).reply platform.order n (s.store devicesKey)) = true := by
  obtain ⟨b, hmem, hadding⟩ := hadd
  obtain ⟨command, hstarts, hreply⟩ := asks_of_topic platform now hempty hidle hmem hadding.topic
  obtain ⟨n, reply, callback⟩ := b
  have hdevices := @devices_occurred platform s now hempty event
  simp only at hreply
  subst hreply
  cases hstarts with
  | connect =>
      cases hadding with
      | connectFrom hfound hto => exact ⟨_, n, rfl, hdevices ▸ hto, hfound⟩
  | _ => cases hadding

theorem removing_asked (hidle : ∀ a ∈ s.inbox, a.callback.topic = none) {name member : String}
    (hremove : WillRemove (occurred platform s event now) name member) :
    (∃ referer, event = .disconnect name member referer) ∨
      (∃ referer, event = .release member referer) ∧ name ∈ devices s.store := by
  obtain ⟨b, hmem, hremoving⟩ := hremove
  obtain ⟨command, hstarts, hreply⟩ :=
    asks_of_topic platform now hempty hidle hmem hremoving.topic
  obtain ⟨n, reply, callback⟩ := b
  simp only at hreply
  cases hstarts with
  | disconnect =>
      cases hremoving with
      | disconnectExists hfound => exact Or.inl ⟨_, rfl⟩
  | release =>
      cases hremoving with
      | releaseSmembers hname =>
          exact Or.inr ⟨⟨_, rfl⟩, mem_devices_of_smembers platform hreply.symm hname⟩
  | _ => cases hremoving

/-- A PING or a request, with nothing else being handled. -/
theorem wired_occurred_of_idle (hplain : event.PlainIds platform)
    (hidle : ∀ a ∈ s.inbox, a.callback.topic = none) (htyped : Kind.set.Admits (s.store devicesKey))
    (hkept : SetsKept s) (henrolled : Enrolled platform s) (hwired : Wired platform s) :
    Wired platform (occurred platform s event now) := by
  intro name member
  have hbefore := wired_of_idle platform hidle hwired name member
  have hstored : (∀ referer, event ≠ .disconnectAll name referer) →
      setAt (occurred platform s event now).store (connectionKey name) =
        setAt s.store (connectionKey name) := by
    intro hother
    rcases occurred_connection platform now hempty hplain name with ⟨hsame, _⟩ | ⟨_, referer, hall⟩
    · rw [setAt, hsame]
      rfl
    · exact absurd hall (hother referer)
  have hadd : (∀ referer, event ≠ .connect name member referer) →
      ¬ WillAdd (occurred platform s event now) name member := by
    intro hother hadd
    obtain ⟨referer, _, heq, _⟩ := adding_asked platform now hempty hidle hadd
    exact hother referer heq
  have hremove : (∀ referer, event ≠ .disconnect name member referer) →
      (∀ referer, event ≠ .release member referer) →
      ¬ WillRemove (occurred platform s event now) name member := by
    intro hdisconnect hrelease hremove
    rcases removing_asked platform now hempty hidle hremove with
      ⟨referer, heq⟩ | ⟨⟨referer, heq⟩, _⟩
    · exact hdisconnect referer heq
    · exact hrelease referer heq
  have hregistered := isSome_of_idle platform henrolled hidle
  rw [handled_occurred platform now hempty, Registry.after_concat]
  cases event with
  | connect fromDevice toDevice referer =>
      rw [Registry.mem_connected_connect, hbefore, hstored (fun _ heq => by cases heq),
        hregistered, hregistered,
        and_iff_left (hremove (fun _ heq => by cases heq) fun _ heq => by cases heq)]
      apply or_congr_right
      constructor
      · rintro ⟨hfrom, hto, rfl, rfl⟩
        have hsent : (⟨devicesKey, .sismember name⟩, .connectFrom name member referer) ∈
            (onEvent platform (.connect name member referer) now s.memory).sends :=
          List.mem_singleton_self _
        obtain ⟨b, hmem, hcallback, hreply⟩ :=
          replied_occurred platform hempty hsent fun heq => by cases heq
        refine ⟨b, hmem, ?_⟩
        rw [hcallback, hreply]
        apply Adding.connectFrom (truthy_sismember.mpr hfrom)
        rw [devices_occurred platform now hempty]
        exact hto
      · intro hadd
        obtain ⟨_, n, heq, hto, hfound⟩ := adding_asked platform now hempty hidle hadd
        cases heq
        exact ⟨truthy_sismember.mp hfound, hto, rfl, rfl⟩
  | disconnect fromDevice toDevice referer =>
      rw [Registry.mem_connected_disconnect, hbefore, hstored (fun _ heq => by cases heq),
        or_iff_left (hadd fun _ heq => by cases heq)]
      apply and_congr_right
      intro hmem
      rw [not_iff_not]
      constructor
      · rintro ⟨rfl, rfl⟩
        have hsent : (⟨connectionKey name, .existsKey⟩, .disconnectExists name member referer) ∈
            (onEvent platform (.disconnect name member referer) now s.memory).sends :=
          List.mem_singleton_self _
        obtain ⟨b, hb, hcallback, hreply⟩ :=
          replied_occurred platform hempty hsent fun heq => by cases heq
        refine ⟨b, hb, ?_⟩
        rw [hcallback, hreply]
        apply Removing.disconnectExists
        rw [truthy_existsKey_iff (hkept name)]
        exact Finset.ne_empty_of_mem hmem
      · intro hremove
        rcases removing_asked platform now hempty hidle hremove with ⟨_, heq⟩ | ⟨⟨_, heq⟩, _⟩
        · cases heq
          exact ⟨rfl, rfl⟩
        · cases heq
  | disconnectAll fromDevice referer =>
      rw [Registry.mem_connected_disconnectAll, hbefore,
        or_iff_left (hadd fun _ heq => by cases heq),
        and_iff_left (hremove (fun _ heq => by cases heq) fun _ heq => by cases heq)]
      rcases occurred_connection platform now hempty hplain name with
        ⟨_, hother⟩ | ⟨hnone, _, heq⟩
      · rw [hstored hother]
        apply and_iff_left
        rintro rfl
        exact hother referer rfl
      · cases heq
        have hdropped : setAt (occurred platform s (.disconnectAll name referer) now).store
            (connectionKey name) = ∅ := by
          rw [setAt, hnone]
        simp [hdropped]
  | release fromDevice referer =>
      rw [Registry.mem_connected_release, hbefore, hstored (fun _ heq => by cases heq),
        or_iff_left (hadd fun _ heq => by cases heq)]
      apply and_congr_right
      intro hmem
      rw [ne_eq, not_iff_not]
      constructor
      · rintro rfl
        have hname : name ∈ devices s.store := by
          rw [← hregistered]
          exact Registry.isSome_of_mem_connected _ (hbefore.mpr hmem)
        have hsent : (⟨devicesKey, .smembers⟩, .releaseSmembers member) ∈
            (onEvent platform (.release member referer) now s.memory).sends :=
          List.mem_singleton_self _
        obtain ⟨b, hb, hcallback, hreply⟩ :=
          replied_occurred platform hempty hsent fun heq => by cases heq
        refine ⟨b, hb, ?_⟩
        obtain ⟨members, hmembers, hall⟩ := @reply_smembers platform b.ordinal s.store htyped
        rw [hcallback, hreply, hmembers]
        exact .releaseSmembers ((hall name).mpr hname)
      · intro hremove
        rcases removing_asked platform now hempty hidle hremove with ⟨_, heq⟩ | ⟨⟨_, heq⟩, _⟩
        · cases heq
        · cases heq
          rfl
  | _ =>
      rw [Registry.connected_handle_of_topic platform _ (fun heq => by cases heq)
        (fun heq => by cases heq), hbefore, hstored (fun _ heq => by cases heq),
        or_iff_left (hadd fun _ heq => by cases heq),
        and_iff_left (hremove (fun _ heq => by cases heq) fun _ heq => by cases heq)]

end Requests

end RealTimeWs
