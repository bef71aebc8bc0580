import RealTimeWs.Server.Delivery
import RealTimeWs.Server.Regular

/-! # Connections join registered devices

A request to connect tests both of its devices before it adds the connection, one
round trip after the other. The tests cannot become stale because no command ever
takes a device out of the registered ones. Identifiers are arbitrary here: where
keys meet, a set of connections may be deleted or replaced, but only a request to
connect ever adds a member to it.
-/

namespace RealTimeWs

open Redis FunctionsService

variable (platform : Platform)

/-- What the tests of an outstanding request to connect have shown so far. -/
def Vouched (store : Store) (a : Pipeline.Answer Reply Callback) : Prop :=
  match a.callback with
  | .connectFrom fromDevice _ _ => truthy a.reply = true → fromDevice ∈ devices store
  | .connectTo fromDevice toDevice _ =>
      fromDevice ∈ devices store ∧ (truthy a.reply = true → toDevice ∈ devices store)
  | _ => True

theorem Vouched.mono {store store' : Store} {a : Pipeline.Answer Reply Callback}
    (hvouched : Vouched store a) (hsubset : devices store ⊆ devices store') :
    Vouched store' a := by
  obtain ⟨ordinal, reply, callback⟩ := a
  cases callback with
  | connectFrom fromDevice toDevice referer => exact fun htruthy => hsubset (hvouched htruthy)
  | connectTo fromDevice toDevice referer =>
      exact ⟨hsubset hvouched.1, fun htruthy => hsubset (hvouched.2 htruthy)⟩
  | _ => trivial

theorem vouched_of_starts {s : State} {event : Event} {now : Nat}
    {b : Pipeline.Answer Reply Callback} {command : Command}
    (hstarts : Starts platform.toLowerCase event now command b.callback)
    (hreply : b.reply = command.op.reply platform.order b.ordinal (s.store command.key)) :
    Vouched s.store b := by
  obtain ⟨ordinal, given, callback⟩ := b
  simp only at hreply
  subst hreply
  cases hstarts with
  | connect => exact mem_devices_of_sismember platform
  | _ => trivial

theorem vouched_of_follows {s : State} {a b : Pipeline.Answer Reply Callback} {command : Command}
    (hvouched : Vouched s.store a)
    (hfollows : Follows a.callback a.ordinal a.reply command b.callback)
    (hreply : b.reply = command.op.reply platform.order b.ordinal (s.store command.key)) :
    Vouched s.store b := by
  obtain ⟨askedAt, reply, asked⟩ := a
  obtain ⟨ordinal, given, callback⟩ := b
  simp only at hreply
  subst hreply
  cases hfollows with
  | connectTo hfound => exact ⟨hvouched hfound, mem_devices_of_sismember platform⟩
  | _ => trivial

/-- The registered devices are a set and every test that has succeeded still holds. -/
structure Checked (s : State) : Prop where
  typed : Kind.set.Admits (s.store devicesKey)
  vouched : ∀ a ∈ s.inbox, Vouched s.store a

theorem preserved_checked : (server platform).Preserved (fun _ _ => True) Checked where
  event := by
    intro s event now hempty _ _ hchecked
    change Checked (occurred platform s event now)
    have hdevices : devices (occurred platform s event now).store = devices s.store := by
      rw [occurred_store platform hempty]
      exact devices_eq (eventStore_devices platform event now s.memory s.executed s.store)
    refine ⟨admits_devices_occurred platform hempty hchecked.typed, ?_⟩
    intro b hmem
    apply Vouched.mono _ hdevices.ge
    rcases mem_inbox_occurred platform hempty hmem with hold | ⟨_, hignored | hasked⟩
    · exact hchecked.vouched b hold
    · simp [Vouched, hignored]
    · obtain ⟨command, hstarts, hreply⟩ := hasked
      exact vouched_of_starts platform hstarts hreply
  deliver := by
    intro s a rest now hempty _ hinbox _ hchecked
    change Checked (delivered platform s a rest now)
    have hsubset : devices s.store ⊆ devices (delivered platform s a rest now).store := by
      rw [delivered_store platform hempty]
      exact devices_subset_replyStore platform hchecked.typed
    refine ⟨admits_devices_delivered platform hempty hchecked.typed, ?_⟩
    intro b hmem
    apply Vouched.mono _ hsubset
    rcases mem_inbox_delivered platform hempty hmem with hold | ⟨_, hignored | hasked⟩
    · exact hchecked.vouched b (hinbox ▸ List.mem_cons_of_mem _ hold)
    · simp [Vouched, hignored]
    · obtain ⟨command, hfollows, hreply⟩ := hasked
      exact vouched_of_follows platform (hchecked.vouched a (hinbox ▸ List.mem_cons_self))
        hfollows hreply

theorem checked_boot_empty : Checked ((server platform).flush (boot empty)) := by
  refine ⟨trivial, ?_⟩
  intro a hmem
  cases hmem

/-! ## What the commands add -/

/-- A member is only added between registered devices, and the set of these only
sees reads and additions. -/
def KeepsTopology (store : Store) (command : Command) (_ : Callback) : Prop :=
  (∀ name member, command = ⟨connectionKey name, .sadd member⟩ →
    name ∈ devices store ∧ member ∈ devices store) ∧
  (command.key = devicesKey → command.op.isRead = true ∨ ∃ member, command.op = .sadd member)

/-- Every write of a reply except the addition of a connection. -/
theorem keepsTopology_of_replyWrites {curves : Curves} {callback : Callback} {reply : Reply}
    {now : Nat} {command : Command} (hmem : command ∈ replyWrites curves callback reply now)
    (hother : ∀ fromDevice toDevice referer, callback ≠ .connectTo fromDevice toDevice referer) :
    (∀ name member, command ≠ ⟨connectionKey name, .sadd member⟩) ∧
      (command.key = devicesKey → ∃ member, command.op = .sadd member) := by
  simp only [replyWrites, List.mem_append, List.mem_map, List.mem_flatMap,
    Option.mem_toList] at hmem
  rcases hmem with (((hregistered | hrewritten) | hlinked) | hrecorded) | hcounted
  · obtain ⟨device, _, rfl⟩ := hregistered
    refine ⟨?_, fun _ => ⟨device, rfl⟩⟩
    rintro name member heq
    exact connectionKey_ne_devicesKey name (congrArg Command.key heq).symm
  · obtain ⟨written, _, hwritten⟩ := hrewritten
    rcases List.mem_cons.mp hwritten with rfl | hentry
    · exact ⟨by simp, fun heq => absurd heq (tableKey_ne_devicesKey _)⟩
    · obtain ⟨pair, _, rfl⟩ := List.mem_map.mp hentry
      exact ⟨by simp, fun heq => absurd heq (tableKey_ne_devicesKey _)⟩
  · obtain ⟨change, hlinked, rfl⟩ := hlinked
    refine ⟨?_, fun heq => absurd heq (connectionKey_ne_devicesKey _)⟩
    rintro name member heq
    have hop : change.2 = .sadd member := congrArg Command.op heq
    cases callback with
    | connectTo fromDevice toDevice referer => exact hother _ _ _ rfl
    | disconnectExists fromDevice toDevice referer =>
        simp only [linked, Option.ite_none_right_eq_some, Option.some.injEq] at hlinked
        rw [← hlinked.2] at hop
        cases hop
    | releaseSismember device fromDevice =>
        simp only [linked, Option.ite_none_right_eq_some, Option.some.injEq] at hlinked
        rw [← hlinked.2] at hop
        cases hop
    | _ => cases hlinked
  · obtain ⟨change, hchange, op, hop, rfl⟩ := hrecorded
    refine ⟨?_, fun heq => absurd heq (recordKey_ne_devicesKey _)⟩
    rintro name member heq
    exact recordKey_ne_connectionKey change.1 name (congrArg Command.key heq)
  · split at hcounted
    · rw [List.mem_singleton.mp hcounted]
      exact ⟨by simp, fun heq => absurd heq msgCountKey_ne_devicesKey⟩
    · cases hcounted

/-- Events add nothing to either set. -/
theorem keepsTopology_of_eventWrites {event : Event} {now : Nat} {command : Command}
    (hmem : command ∈ eventWrites event now) :
    (∀ name member, command ≠ ⟨connectionKey name, .sadd member⟩) ∧
      command.key ≠ devicesKey := by
  cases event with
  | tcpData ip port values =>
      rw [List.mem_singleton.mp hmem]
      simp
  | udpMessage msg address port =>
      rcases List.mem_cons.mp hmem with rfl | hstored
      · simp
      · obtain ⟨reading, _, hstored⟩ := List.mem_flatMap.mp hstored
        simp only [List.mem_cons, List.not_mem_nil, or_false] at hstored
        rcases hstored with rfl | rfl | rfl | rfl <;> simp
  | disconnectAll fromDevice referer =>
      rw [List.mem_singleton.mp hmem]
      simp
  | _ => cases hmem

/-- Reads keep the topology, so only writes have to be looked at. -/
theorem keepsTopology_of_writes {sends : Sends}
    (hwrites : ∀ command ∈ writes sends,
      (∀ name member, command ≠ ⟨connectionKey name, .sadd member⟩) ∧
        (command.key = devicesKey → ∃ member, command.op = .sadd member))
    (n : Nat) (store : Store) : (server platform).Meets KeepsTopology n store sends := by
  apply Pipeline.Client.meets_of_forall
  intro command callback hmem store
  cases hread : command.op.isRead with
  | true =>
      refine ⟨?_, fun _ => Or.inl hread⟩
      rintro name member rfl
      cases hread
  | false =>
      obtain ⟨hadds, hdevices⟩ := hwrites command (mem_writes hmem hread)
      exact ⟨fun name member heq => absurd heq (hadds name member),
        fun hkey => Or.inr (hdevices hkey)⟩

theorem sends_keepsTopology :
    (server platform).Sends (fun _ _ => True) Checked KeepsTopology where
  event := by
    intro s event now _ _ _
    apply keepsTopology_of_writes
    intro command hmem
    rw [show (server platform).onEvent = onEvent platform from rfl, writes_onEvent] at hmem
    obtain ⟨hadds, hdevices⟩ := keepsTopology_of_eventWrites hmem
    exact ⟨hadds, fun hkey => absurd hkey hdevices⟩
  deliver := by
    intro s a rest now _ hinbox _ hchecked
    by_cases hlast : ∃ fromDevice toDevice referer,
        a.callback = .connectTo fromDevice toDevice referer
    · -- Both tests have succeeded and the connection is sent alone.
      obtain ⟨fromDevice, toDevice, referer, hcallback⟩ := hlast
      have hvouched := hchecked.vouched a (hinbox ▸ List.mem_cons_self)
      simp only [Vouched, hcallback] at hvouched
      rw [hcallback]
      simp only [server, onReply, ConnectController.sismemberTo]
      split
      next hfound =>
          refine ⟨⟨?_, fun heq => absurd heq (connectionKey_ne_devicesKey _)⟩, trivial⟩
          intro name member heq
          obtain ⟨hname, hop⟩ := Command.mk.inj heq
          rw [← connectionKey_injective hname, ← Operation.sadd.inj hop]
          exact ⟨hvouched.1, hvouched.2 hfound⟩
      next => trivial
    · apply keepsTopology_of_writes
      intro command hmem
      rw [show (server platform).onReply = onReply platform from rfl, writes_onReply] at hmem
      refine keepsTopology_of_replyWrites hmem ?_
      intro fromDevice toDevice referer hcallback
      exact hlast ⟨fromDevice, toDevice, referer, hcallback⟩

/-! ## Integrity -/

/-- Both ends of every connection are registered. -/
structure Joined (store : Store) : Prop where
  typed : Kind.set.Admits (store devicesKey)
  ends : ∀ name member, member ∈ setAt store (connectionKey name) →
    name ∈ devices store ∧ member ∈ devices store

/-- A command that only reads or adds keeps the registered devices. -/
theorem devices_execute {n : Nat} {store : Store} {command : Command}
    (htyped : Kind.set.Admits (store devicesKey))
    (hdevices : command.key = devicesKey →
      command.op.isRead = true ∨ ∃ member, command.op = .sadd member) :
    Kind.set.Admits ((execute platform.order n store command).1 devicesKey) ∧
      devices store ⊆ devices (execute platform.order n store command).1 := by
  by_cases hkey : devicesKey = command.key
  · have hvalue : (execute platform.order n store command).1 devicesKey =
        command.op.update (store devicesKey) := by
      rw [hkey, execute_key]
    rcases hdevices hkey.symm with hread | ⟨member, hop⟩
    · rw [Operation.update_of_isRead hread] at hvalue
      rw [hvalue, devices_eq hvalue]
      exact ⟨htyped, Finset.Subset.refl _⟩
    · rw [hop] at hvalue
      rw [devices_sadd htyped hvalue, hvalue]
      refine ⟨admits_update ?_ htyped, Finset.subset_insert _ _⟩
      intro kind hcreates
      exact (Option.some.inj hcreates).symm
  · have hvalue := execute_of_ne platform.order n store command devicesKey hkey
    rw [hvalue, devices_eq hvalue]
    exact ⟨htyped, Finset.Subset.refl _⟩

theorem joined_execute {n : Nat} {store : Store} {command : Command} {callback : Callback}
    (hkeeps : KeepsTopology store command callback) (hjoined : Joined store) :
    Joined (execute platform.order n store command).1 := by
  obtain ⟨htyped, hsubset⟩ := devices_execute platform (n := n) hjoined.typed hkeeps.2
  refine ⟨htyped, ?_⟩
  intro name member hmem
  rcases mem_setAt_execute platform.order hmem with hold | hadded
  · obtain ⟨hname, hmember⟩ := hjoined.ends name member hold
    exact ⟨hsubset hname, hsubset hmember⟩
  · obtain ⟨hname, hmember⟩ := hkeeps.1 name member hadded
    exact ⟨hsubset hname, hsubset hmember⟩

theorem joined_empty : Joined empty := by
  refine ⟨trivial, ?_⟩
  intro name member hmem
  simp [setAt, empty] at hmem

theorem joined_run (schedule : List Action) :
    Joined ((server platform).run (boot empty) schedule).store :=
  (sends_keepsTopology platform).store_run (server platform)
    (preserved_checked platform) (fun _ _ _ _ hkeeps => joined_execute platform hkeeps)
    (boot empty) schedule ((server platform).guarded_trivial _ _) (checked_boot_empty platform)
    trivial joined_empty

/-- In every reachable state, with commands and replies outstanding or not, both
ends of every connection are registered devices. -/
theorem connections_join_devices (schedule : List Action) {a b : String}
    (hmem : b ∈ setAt ((server platform).run (boot empty) schedule).store (connectionKey a)) :
    a ∈ setAt ((server platform).run (boot empty) schedule).store devicesKey ∧
      b ∈ setAt ((server platform).run (boot empty) schedule).store devicesKey :=
  (joined_run platform schedule).ends a b hmem

/-- A device that is connected to itself. -/
theorem connections_join_devices_loop : ∃ schedule,
    "adc00000001" ∈ setAt ((server referencePlatform).run (boot empty) schedule).store
      (connectionKey "adc00000001") ∧
    "adc00000001" ∈ setAt ((server referencePlatform).run (boot empty) schedule).store
      devicesKey := by
  obtain ⟨s, htrace⟩ := trace_loop referencePlatform (by decide) "10.0.0.2" 4000
    isPingOf_samplePing accept_sampleReading "10.0.0.2" 4001
  have hmem : "adc00000001" ∈ setAt s.store (connectionKey "adc00000001") := by
    rw [setAt, htrace.store, show empty (connectionKey "adc00000001") = none from rfl,
      connection_loop referencePlatform _ (by decide)]
    exact Finset.mem_singleton_self _
  rw [← htrace.run] at hmem
  exact ⟨_, hmem, (connections_join_devices referencePlatform _ hmem).1⟩

end RealTimeWs
