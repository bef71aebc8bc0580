import RealTimeWs.Server.Turns

/-! # Regular runs

In a run whose messages carry plain identifiers, every registered device has a
plain identifier, and every outstanding reply concerns a device that its request
has found registered.
-/

namespace RealTimeWs

open Redis FunctionsService

variable (platform : Platform)

/-! ## Identifiers -/

/-- The messages of an event name plain devices. -/
def Event.PlainIds : Event → Prop
  | .tcpData _ _ values => ∀ value ∈ values, TCP.isPing platform.toLowerCase value = some true →
      Plain (platform.toLowerCase (TCP.secondText value))
  | .udpMessage msg _ _ => ∀ reading, UDP.accept msg = some reading → Plain reading.1
  | _ => True

/-- Every message of a schedule names a plain device. -/
def PlainSchedule (schedule : List Action) : Prop :=
  ∀ event now, .event event now ∈ schedule → event.PlainIds platform

/-- The guard of runs with plain identifiers. -/
def plainGuard : State → Action → Prop :=
  fun _ action => ∀ event now, action = .event event now → event.PlainIds platform

theorem guarded_of_plainSchedule (s : State) {schedule : List Action}
    (hplain : PlainSchedule platform schedule) :
    (server platform).Guarded (plainGuard platform) s schedule :=
  (server platform).guarded_of_events (Event.PlainIds platform) s schedule hplain

theorem plain_of_accepted {event : Event} (hplain : event.PlainIds platform)
    (reading : String × String) (haccepted : event.accepted = some reading) :
    Plain reading.1 := by
  cases event with
  | udpMessage msg address port => exact hplain reading haccepted
  | _ => cases haccepted

/-! ## Outstanding replies -/

/-- The registered devices. -/
def devices (store : Store) : Finset String := setAt store devicesKey

/-- What an outstanding reply implies about the device it concerns. -/
def Okay (store : Store) (a : Pipeline.Answer Reply Callback) : Prop :=
  match a.callback with
  | .pingSismember device _ _ _ | .pingSadd device _ _ _ | .pingHmset device => Plain device
  | .functionChange device _ | .connectFrom device _ _ =>
      truthy a.reply = true → device ∈ devices store
  | .connectTo device _ _ => device ∈ devices store
  | .releaseSmembers _ | .routineSmembers | .forwardSmembers =>
      ∀ members, a.reply = .members members → ∀ device ∈ members, device ∈ devices store
  | .releaseSismember device _ | .routineHmget device => device ∈ devices store
  | .forwardConnected device | .forwardLindex device _ => device ∈ devices store
  | .forwardHgetall device _ _ _ | .forwardHget device _ _ _ _ _ => device ∈ devices store
  | _ => True

theorem Okay.mono {store store' : Store} {a : Pipeline.Answer Reply Callback}
    (hokay : Okay store a) (hsubset : devices store ⊆ devices store') : Okay store' a := by
  obtain ⟨ordinal, reply, callback⟩ := a
  cases callback with
  | functionChange device newFunction => exact fun htruthy => hsubset (hokay htruthy)
  | connectFrom fromDevice toDevice referer => exact fun htruthy => hsubset (hokay htruthy)
  | releaseSmembers fromDevice =>
      exact fun members heq device hmem => hsubset (hokay members heq device hmem)
  | routineSmembers => exact fun members heq device hmem => hsubset (hokay members heq device hmem)
  | forwardSmembers => exact fun members heq device hmem => hsubset (hokay members heq device hmem)
  | connectTo fromDevice toDevice referer => exact hsubset hokay
  | releaseSismember device fromDevice => exact hsubset hokay
  | routineHmget device => exact hsubset hokay
  | forwardConnected device => exact hsubset hokay
  | forwardLindex device connected => exact hsubset hokay
  | forwardHgetall device connected reading readAt => exact hsubset hokay
  | forwardHget device connected reading readAt record recordAt => exact hsubset hokay
  | _ => exact hokay

theorem mem_devices_of_sismember {n : Nat} {store : Store} {device : String}
    (htruthy : truthy ((Operation.sismember device).reply platform.order n (store devicesKey)) =
      true) : device ∈ devices store := by
  unfold devices setAt
  cases hvalue : store devicesKey with
  | none => simp [hvalue, Operation.reply, truthy] at htruthy
  | some value =>
      cases value with
      | set members => simpa [hvalue, Operation.reply, truthy] using htruthy
      | _ => simp [hvalue, Operation.reply, truthy] at htruthy

theorem mem_devices_of_smembers {n : Nat} {store : Store} {members : List String}
    {device : String}
    (hreply : Operation.smembers.reply platform.order n (store devicesKey) = .members members)
    (hmem : device ∈ members) : device ∈ devices store := by
  unfold devices setAt
  cases hvalue : store devicesKey with
  | none =>
      simp only [hvalue, Operation.reply, Reply.members.injEq] at hreply
      subst hreply
      simp at hmem
  | some value =>
      cases value with
      | set held =>
          simp only [hvalue, Operation.reply, Reply.members.injEq] at hreply
          subst hreply
          exact (platform.order.mem_enumerate n held device).mp hmem
      | _ => simp [hvalue, Operation.reply] at hreply

/-- The replies to what a reply asks are again in order. -/
theorem okay_of_follows {s : State} {a b : Pipeline.Answer Reply Callback} {command : Command}
    (hokay : Okay s.store a)
    (hfollows : Follows a.callback a.ordinal a.reply command b.callback)
    (hreply : b.reply = command.op.reply platform.order b.ordinal (s.store command.key)) :
    Okay s.store b := by
  obtain ⟨askedAt, reply, asked⟩ := a
  obtain ⟨ordinal, given, callback⟩ := b
  cases hfollows with
  | pingSadd hnew => exact hokay
  | pingHmset => exact hokay
  | connectTo hfound => exact hokay hfound
  | connectSadd hfound => trivial
  | disconnectSrem hfound => trivial
  | releaseSismember hmem => exact hokay _ rfl _ hmem
  | routineHmget hmem => exact hokay _ rfl _ hmem
  | forwardConnected hmem => exact hokay _ rfl _ hmem
  | forwardLindex hsome => exact hokay
  | forwardHgetall => exact hokay
  | forwardHget hactive => exact hokay

/-- The replies to what an event asks are in order. -/
theorem okay_of_starts {s : State} {event : Event} {now : Nat}
    {b : Pipeline.Answer Reply Callback} {command : Command} (hplain : event.PlainIds platform)
    (hstarts : Starts platform.toLowerCase event now command b.callback)
    (hreply : b.reply = command.op.reply platform.order b.ordinal (s.store command.key)) :
    Okay s.store b := by
  obtain ⟨ordinal, given, callback⟩ := b
  simp only at hreply
  subst hreply
  cases hstarts with
  | ping hmem hping => exact hplain _ hmem hping
  | connect => exact mem_devices_of_sismember platform
  | disconnect => trivial
  | disconnectAll => trivial
  | release => exact fun members heq device hmem => mem_devices_of_smembers platform heq hmem
  | functionChange => exact mem_devices_of_sismember platform
  | routineTick => exact fun members heq device hmem => mem_devices_of_smembers platform heq hmem
  | forwardTick => exact fun members heq device hmem => mem_devices_of_smembers platform heq hmem

/-! ## The invariant -/

/-- Registered devices have plain identifiers and replies are in order. -/
structure Regular (s : State) : Prop where
  typed : Kind.set.Admits (s.store devicesKey)
  plain : ∀ device ∈ devices s.store, Plain device
  okay : ∀ a ∈ s.inbox, Okay s.store a

theorem devices_eq {store store' : Store} (heq : store' devicesKey = store devicesKey) :
    devices store' = devices store := by
  rw [devices, setAt, heq, devices, setAt]

/-- Registering adds one device. -/
theorem devices_sadd {store store' : Store} {device : String}
    (htyped : Kind.set.Admits (store devicesKey))
    (heq : store' devicesKey = (Operation.sadd device).update (store devicesKey)) :
    devices store' = insert device (devices store) := by
  rw [devices, setAt, heq, devices, setAt]
  cases hvalue : store devicesKey with
  | none => rfl
  | some value =>
      rw [hvalue] at htyped
      cases value with
      | set members => rfl
      | _ => exact htyped.elim

/-- What a reply does to the registered devices. -/
theorem devices_replyStore {callback : Callback} {ordinal : Nat} {reply : Reply} {now : Nat}
    {memory : Memory} {n : Nat} {store : Store} (htyped : Kind.set.Admits (store devicesKey)) :
    devices (replyStore platform callback ordinal reply now memory n store) =
      (registered callback reply).elim (devices store) fun device =>
        insert device (devices store) := by
  have hvalue := replyStore_devices platform callback ordinal reply now memory n store
  cases hregistered : registered callback reply with
  | none =>
      rw [hregistered] at hvalue
      exact devices_eq hvalue
  | some device =>
      rw [hregistered] at hvalue
      exact devices_sadd htyped hvalue

/-- The registered devices stay a set. -/
theorem admits_devices_delivered {s : State} {a : Pipeline.Answer Reply Callback}
    {rest : List (Pipeline.Answer Reply Callback)} {now : Nat} (hempty : s.outbox = [])
    (htyped : Kind.set.Admits (s.store devicesKey)) :
    Kind.set.Admits ((delivered platform s a rest now).store devicesKey) := by
  rw [delivered_store platform hempty, replyStore_devices]
  apply admits_applyAll _ _ _ htyped
  intro op hop kind hcreates
  cases hregistered : registered a.callback a.reply with
  | none => simp [hregistered, opsFor] at hop
  | some device =>
      simp only [hregistered, opsFor, if_true, List.mem_singleton] at hop
      subst hop
      simpa [Operation.creates] using hcreates.symm

theorem admits_devices_occurred {s : State} {event : Event} {now : Nat} (hempty : s.outbox = [])
    (htyped : Kind.set.Admits (s.store devicesKey)) :
    Kind.set.Admits ((occurred platform s event now).store devicesKey) := by
  rw [occurred_store platform hempty, eventStore_devices]
  exact htyped

theorem devices_subset_replyStore {callback : Callback} {ordinal : Nat} {reply : Reply}
    {now : Nat} {memory : Memory} {n : Nat} {store : Store}
    (htyped : Kind.set.Admits (store devicesKey)) :
    devices store ⊆ devices (replyStore platform callback ordinal reply now memory n store) := by
  rw [devices_replyStore platform htyped]
  cases registered callback reply with
  | none => exact Finset.Subset.refl _
  | some device => exact Finset.subset_insert _ _

/-- Only PINGs register, and only plain devices. -/
theorem plain_of_registered {store : Store} {a : Pipeline.Answer Reply Callback}
    (hokay : Okay store a) {device : String}
    (hregistered : registered a.callback a.reply = some device) : Plain device := by
  obtain ⟨ordinal, reply, callback⟩ := a
  cases callback with
  | pingSismember other ip port epoch =>
      simp only [registered] at hregistered
      split at hregistered
      · cases hregistered
      · cases hregistered
        exact hokay
  | _ => cases hregistered

/-- Tables are rewritten for plain devices only. -/
theorem plain_of_rewritten {s : State} (hregular : Regular s)
    {a : Pipeline.Answer Reply Callback} (hmem : a ∈ s.inbox)
    {written : String × Allowed} (hwritten : rewritten a.callback a.reply = some written) :
    Plain written.1 := by
  have hokay := hregular.okay a hmem
  obtain ⟨ordinal, reply, callback⟩ := a
  cases callback with
  | pingHmset device =>
      cases hwritten
      exact hokay
  | functionChange device newFunction =>
      simp only [rewritten] at hwritten
      split at hwritten
      next hfound =>
          obtain ⟨function, _, rfl⟩ := Option.map_eq_some_iff.mp hwritten
          exact hregular.plain device (hokay hfound)
      next => cases hwritten
  | _ => cases hwritten

theorem preserved_regular : (server platform).Preserved (plainGuard platform) Regular where
  event := by
    intro s event now hempty _ hguard hregular
    change Regular (occurred platform s event now)
    have hstore := eventStore_devices platform event now s.memory s.executed s.store
    have hdevices : devices (occurred platform s event now).store = devices s.store := by
      rw [occurred_store platform hempty]
      exact devices_eq hstore
    refine ⟨?_, ?_, ?_⟩
    · exact admits_devices_occurred platform hempty hregular.typed
    · rw [hdevices]
      exact hregular.plain
    · intro b hmem
      apply Okay.mono _ hdevices.ge
      rcases mem_inbox_occurred platform hempty hmem with hold | ⟨_, hignored | hasked⟩
      · exact hregular.okay b hold
      · simp [Okay, hignored]
      · obtain ⟨command, hstarts, hreply⟩ := hasked
        exact okay_of_starts platform (hguard event now rfl) hstarts hreply
  deliver := by
    intro s a rest now hempty _ hinbox _ hregular
    change Regular (delivered platform s a rest now)
    have hokay : Okay s.store a := hregular.okay a (hinbox ▸ List.mem_cons_self)
    have hsubset : devices s.store ⊆ devices (delivered platform s a rest now).store := by
      rw [delivered_store platform hempty]
      exact devices_subset_replyStore platform hregular.typed
    refine ⟨?_, ?_, ?_⟩
    · exact admits_devices_delivered platform hempty hregular.typed
    · intro device hmem
      rw [delivered_store platform hempty, devices_replyStore platform hregular.typed] at hmem
      cases hregistered : registered a.callback a.reply with
      | none =>
          rw [hregistered] at hmem
          exact hregular.plain device hmem
      | some new =>
          rw [hregistered, Option.elim_some, Finset.mem_insert] at hmem
          rcases hmem with rfl | hold
          · exact plain_of_registered hokay hregistered
          · exact hregular.plain device hold
    · intro b hmem
      apply Okay.mono _ hsubset
      rcases mem_inbox_delivered platform hempty hmem with hold | ⟨_, hignored | hasked⟩
      · exact hregular.okay b (hinbox ▸ List.mem_cons_of_mem _ hold)
      · simp [Okay, hignored]
      · obtain ⟨command, hfollows, hreply⟩ := hasked
        exact okay_of_follows platform hokay hfollows hreply

theorem regular_boot_empty : Regular ((server platform).flush (boot empty)) := by
  refine ⟨trivial, ?_, ?_⟩
  · intro device hmem
    simp [devices, setAt, boot, Pipeline.State.start, Pipeline.Client.flush, empty] at hmem
  · intro a hmem
    cases hmem

/-- The guard under which further invariants of plain runs are proved. -/
def regularGuard : State → Action → Prop :=
  fun s action => (plainGuard platform s action ∧ Pipeline.Client.Ordered s) ∧ Regular s

theorem ordered_boot (store : Store) :
    Pipeline.Client.Ordered ((server platform).flush (boot store)) := by
  refine ⟨List.Pairwise.nil, ?_, ?_, List.Pairwise.nil⟩
  · intro a hmem
    cases hmem
  · intro entry hmem
    cases hmem

theorem guarded_regular {schedule : List Action} (hplain : PlainSchedule platform schedule) :
    (server platform).Guarded (regularGuard platform) (boot empty) schedule := by
  have hordered := ((server platform).preserved_ordered (plainGuard platform)).guarded
    (server platform) (boot empty) schedule (guarded_of_plainSchedule platform _ hplain)
    (ordered_boot platform empty)
  exact ((preserved_regular platform).of_imp (server platform) fun _ _ hguard => hguard.1).guarded
    (server platform) (boot empty) schedule hordered (regular_boot_empty platform)

end RealTimeWs
