import RealTimeWs.Pipeline.Lineage
import RealTimeWs.Server.Topology

/-! # Releasing a device

A release reads the registered devices and, for each of them, tests whether the
released one is among its connections and removes it. Tests and removals of one
release run between the commands of all other requests. They miss no connection
because only registered devices have any, and because a set that does not contain
the device when it is tested does not get it later.
-/

namespace RealTimeWs

open Redis
open Pipeline.Client (Queued Held Lineage)

variable (platform : Platform)

/-- The first command of a release. -/
def releaseQuery (released : String) : Command × Callback :=
  (⟨devicesKey, .smembers⟩, .releaseSmembers released)

/-- The release asks whether a device is connected to the released one. -/
def releaseTest (released device : String) : Command × Callback :=
  (⟨connectionKey device, .sismember released⟩, .releaseSismember device released)

/-- The release removes a connection. -/
def releaseRemoval (released device : String) : Command × Callback :=
  (⟨connectionKey device, .srem released⟩, .ignored)

/-- The commands that a release issues. -/
def ReleaseCommand (released : String) (entry : Command × Callback) : Prop :=
  entry = releaseQuery released ∨ ∃ device,
    entry = releaseTest released device ∨ entry = releaseRemoval released device

/-- The callbacks that a release leaves behind. -/
def ReleaseCallback (released : String) (callback : Callback) : Prop :=
  callback = .releaseSmembers released ∨ callback = .ignored ∨
    ∃ device, callback = .releaseSismember device released

theorem closed_release (released : String) :
    (server platform).Closed (ReleaseCommand released) (ReleaseCallback released) where
  replied := by
    intro entry hcommand
    rcases hcommand with rfl | ⟨device, rfl | rfl⟩
    · exact .inl rfl
    · exact .inr (.inr ⟨device, rfl⟩)
    · exact .inr (.inl rfl)
  sends := by
    intro callback hcallback n reply now memory entry hmem
    rcases hcallback with rfl | rfl | ⟨device, rfl⟩
    · cases reply with
      | members devices =>
          obtain ⟨device, -, rfl⟩ := List.mem_map.mp hmem
          exact .inr ⟨device, .inl rfl⟩
      | _ => cases hmem
    · cases hmem
    · simp only [server, onReply, finish, DisconnectController.releaseSismember] at hmem
      split at hmem
      · rw [List.mem_singleton.mp hmem]
        exact .inr ⟨device, .inr rfl⟩
      · cases hmem

/-! ## What the commands of a release change -/

/-- A removal takes one member out of one set. -/
theorem mem_setAt_srem {n : Nat} {store : Store} {key released other : String} :
    other ∈ setAt (execute platform.order n store ⟨key, .srem released⟩).1 key ↔
      other ∈ setAt store key ∧ other ≠ released := by
  rw [mem_setAt_iff, mem_setAt_iff,
    show (execute platform.order n store ⟨key, .srem released⟩).1 key =
      (Operation.srem released).update (store key) from execute_key _ _ _ _]
  cases hvalue : store key with
  | none => simp [Operation.update]
  | some value =>
      cases value with
      | set members =>
          simp only [Operation.update, Option.some.injEq, Value.set.injEq, exists_eq_left',
            ← Finset.mem_erase.trans and_comm]
          split
          · next hempty => simp [hempty]
          · simp
      | counter _ => simp [Operation.update]
      | hash _ => simp [Operation.update]
      | list _ => simp [Operation.update]

theorem mem_of_mem_setAt_srem {n : Nat} {store : Store} {key released other member : String}
    (hmem : member ∈ setAt (execute platform.order n store ⟨key, .srem released⟩).1 other) :
    member ∈ setAt store other := by
  rcases mem_setAt_execute platform.order hmem with hold | hadded
  · exact hold
  · cases congrArg Command.op hadded

/-- Commands of a release leave all other pairs of devices alone. -/
theorem ReleaseCommand.frame {released : String} {entry : Command × Callback}
    (hcommand : ReleaseCommand released entry) {n : Nat} {store : Store} (device : String)
    {other : String} (hne : other ≠ released) :
    other ∈ setAt (execute platform.order n store entry.1).1 (connectionKey device) ↔
      other ∈ setAt store (connectionKey device) := by
  rcases hcommand with rfl | ⟨name, rfl | rfl⟩
  · rw [execute_of_isRead _ _ _ rfl]
  · rw [execute_of_isRead _ _ _ rfl]
  · by_cases hkey : connectionKey device = connectionKey name
    · rw [hkey]
      exact (mem_setAt_srem platform).trans (and_iff_left hne)
    · rw [setAt, execute_of_ne _ _ _ _ _ hkey, ← setAt]

/-! ## The connections that are still to be removed -/

/-- Something outstanding that will remove the connection of a device. -/
def Awaited (released : String) (s : State) (own : Finset Nat) (device : String) : Prop :=
  Held s own (fun a => a.callback = .releaseSmembers released ∧
    ∃ devices, a.reply = .members devices ∧ device ∈ devices) ∨
  Queued s own (releaseTest released device) ∨
  Held s own (fun a => a.callback = .releaseSismember device released ∧ truthy a.reply = true) ∨
  Queued s own (releaseRemoval released device)

/-- A release whose first command has a given ordinal: the devices have not been
read yet, or every connection to the released device is awaited. -/
def Releasing (released : String) (first : Nat) (s : State) (own : Finset Nat) : Prop :=
  own = {first} ∧ Queued s own (releaseQuery released) ∨
  first < s.executed ∧ ∀ device, released ∈ setAt s.store (connectionKey device) →
    Awaited released s own device

/-- No device is connected to the released one after the devices have been read. -/
def NoneInserted (released : String) (first : Nat) (s : State) (schedule : List Action) : Prop :=
  ∀ k, first < ((server platform).run s (schedule.take k)).executed → ∀ device,
    released ∈ setAt ((server platform).run s (schedule.take (k + 1))).store
      (connectionKey device) →
    released ∈ setAt ((server platform).run s (schedule.take k)).store (connectionKey device)

theorem Awaited.event {released : String} {s : State} {own : Finset Nat} {device : String}
    (hawaited : Awaited released s own device) (event : Event) (now : Nat) :
    Awaited released ((server platform).occur s event now) own device := by
  rcases hawaited with hquery | htest | hfound | hremoval
  · exact .inl hquery
  · exact .inr (.inl (Queued.perform (s := s.record event) htest _))
  · exact .inr (.inr (.inl hfound))
  · exact .inr (.inr (.inr (Queued.perform (s := s.record event) hremoval _)))

/-- A test finds the device as long as it is there, and a removal removes it. -/
theorem Awaited.execute {released : String} {s : State} {own : Finset Nat} {device : String}
    (hawaited : Awaited released s own device)
    (hbefore : released ∈ setAt s.store (connectionKey device))
    (hafter : released ∈ setAt ((server platform).step s .execute).store (connectionKey device)) :
    Awaited released ((server platform).step s .execute) own device := by
  rcases hawaited with hquery | htest | hfound | hremoval
  · exact .inl (hquery.execute (server platform))
  · rcases htest.execute (server platform) with hlater | ⟨⟨rest, hsent⟩, hown⟩
    · exact .inr (.inl hlater)
    · right; right; left
      apply Pipeline.Client.held_of_execute (server platform) hsent hown
      obtain ⟨members, hvalue, hmember⟩ := mem_setAt_iff.mp hbefore
      exact ⟨rfl, by simp [server, Redis.execute, hvalue, Operation.reply, hmember, truthy]⟩
  · exact .inr (.inr (.inl (hfound.execute (server platform))))
  · rcases hremoval.execute (server platform) with hlater | ⟨⟨rest, hsent⟩, -⟩
    · exact .inr (.inr (.inr hlater))
    · simp only [Pipeline.Client.step, hsent, releaseRemoval, server] at hafter
      exact absurd rfl ((mem_setAt_srem platform).mp hafter).2

/-- The callbacks of a release turn what was read into tests and removals. -/
theorem Awaited.deliver {released : String} {s : State} {own : Finset Nat} {device : String}
    (hlineage : Lineage (ReleaseCommand released) (ReleaseCallback released) s own)
    (hawaited : Awaited released s own device) {a : Pipeline.Answer Reply Callback}
    {rest : List (Pipeline.Answer Reply Callback)} (hthrown : s.thrown = false)
    (hinbox : s.inbox = a :: rest) (now : Nat) :
    Awaited released ((server platform).answer { s with inbox := rest } a now)
      ((server platform).outstanding s own (.deliver now)) device := by
  rcases hawaited with hquery | htest | hfound | hremoval
  · rcases hquery.deliver (server platform) hlineage hthrown hinbox now with
      hlater | ⟨⟨hcallback, devices, hreply, hdevice⟩, hown⟩
    · exact .inl hlater
    · right; left
      apply Pipeline.Client.queued_of_deliver (server platform) hthrown hinbox hown now
      rw [hcallback, hreply]
      exact List.mem_map_of_mem hdevice
  · exact .inr (.inl (htest.deliver (server platform) hlineage hthrown hinbox now))
  · rcases hfound.deliver (server platform) hlineage hthrown hinbox now with
      hlater | ⟨⟨hcallback, htruthy⟩, hown⟩
    · exact .inr (.inr (.inl hlater))
    · right; right; right
      apply Pipeline.Client.queued_of_deliver (server platform) hthrown hinbox hown now
      rw [hcallback]
      simp [server, onReply, finish, DisconnectController.releaseSismember, htruthy, silent,
        releaseRemoval]
  · exact .inr (.inr (.inr (hremoval.deliver (server platform) hlineage hthrown hinbox now)))

/-- All devices with connections are read. -/
theorem awaited_of_query {released : String} {s : State} {own : Finset Nat} {device : String}
    {rest : List (Command × Callback)} (hjoined : Joined s.store)
    (hsent : s.outbox = releaseQuery released :: rest) (hown : s.executed ∈ own)
    (hmem : released ∈ setAt s.store (connectionKey device)) :
    Awaited released ((server platform).step s .execute) own device := by
  left
  apply Pipeline.Client.held_of_execute (server platform) hsent hown
  refine ⟨rfl, ?_⟩
  obtain ⟨members, hvalue, hmember⟩ := mem_setAt_iff.mp (hjoined.ends device released hmem).1
  refine ⟨platform.order.enumerate s.executed members, ?_, ?_⟩
  · simp [server, execute, hvalue, Operation.reply]
  · exact (platform.order.mem_enumerate _ _ _).mpr hmember

/-- One action, during which the released device is not connected again. -/
theorem Releasing.step {released : String} {first : Nat} {s : State} {own : Finset Nat}
    (hlineage : Lineage (ReleaseCommand released) (ReleaseCallback released) s own)
    (hreleasing : Releasing released first s own) (hjoined : Joined s.store) (action : Action)
    (hkept : first < s.executed → ∀ device,
      released ∈ setAt ((server platform).step s action).store (connectionKey device) →
        released ∈ setAt s.store (connectionKey device)) :
    Releasing released first ((server platform).step s action)
      ((server platform).outstanding s own action) := by
  cases action with
  | event event now =>
      simp only [Pipeline.Client.step, Pipeline.Client.outstanding]
      split
      · exact hreleasing
      · rcases hreleasing with ⟨hown, hquery⟩ | ⟨hread, hall⟩
        · exact .inl ⟨hown, Queued.perform (s := s.record event) hquery _⟩
        · exact .inr ⟨hread, fun device hmem => (hall device hmem).event platform event now⟩
  | execute =>
      rcases hreleasing with ⟨hown, hquery⟩ | ⟨hread, hall⟩
      · rcases hquery.execute (server platform) with hlater | ⟨⟨rest, hsent⟩, hfirst⟩
        · exact .inl ⟨hown, hlater⟩
        · right
          have hexecuted : s.executed = first := by
            rw [hown] at hfirst
            exact Finset.mem_singleton.mp hfirst
          constructor
          · simp only [Pipeline.Client.step, hsent]
            omega
          · intro device hmem
            apply awaited_of_query platform hjoined hsent hfirst
            simp only [Pipeline.Client.step, hsent, releaseQuery, server] at hmem
            rw [execute_of_isRead _ _ _ rfl] at hmem
            exact hmem
      · right
        constructor
        · simp only [Pipeline.Client.step]
          split
          · exact hread
          · exact hread.trans (Nat.lt_succ_self _)
        · intro device hmem
          have hbefore := hkept hread device hmem
          exact (hall device hbefore).execute platform hbefore hmem
  | deliver now =>
      cases hthrown : s.thrown with
      | true => simpa [Pipeline.Client.step, Pipeline.Client.outstanding, hthrown] using hreleasing
      | false =>
          cases hinbox : s.inbox with
          | nil =>
              simpa [Pipeline.Client.step, Pipeline.Client.outstanding, hthrown, hinbox]
                using hreleasing
          | cons a rest =>
              simp only [Pipeline.Client.step, hthrown, hinbox, Bool.false_eq_true, ↓reduceIte]
              rcases hreleasing with ⟨hown, hquery⟩ | ⟨hread, hall⟩
              · -- the first command is still waiting, so this reply is not its own
                have hother : a.ordinal ∉ own := by
                  obtain ⟨i, -, hfirst⟩ := hquery
                  have hpast := hlineage.past a (hinbox ▸ List.mem_cons_self)
                  rw [hown, Finset.mem_singleton] at hfirst ⊢
                  omega
                left
                have hlater := hquery.deliver (server platform) hlineage hthrown hinbox now
                have hsame : (server platform).outstanding s own (.deliver now) = own := by
                  rw [(server platform).outstanding_deliver hthrown hinbox, if_neg hother]
                rw [hsame] at hlater ⊢
                exact ⟨hown, hlater⟩
              · exact .inr ⟨hread, fun device hmem =>
                  (hall device hmem).deliver platform hlineage hthrown hinbox now⟩

/-- A run, during which the released device is not connected again. -/
theorem Releasing.run (released : String) (first : Nat) (before after : List Action)
    {own : Finset Nat}
    (hlineage : Lineage (ReleaseCommand released) (ReleaseCallback released)
      ((server platform).run (boot empty) before) own)
    (hreleasing : Releasing released first ((server platform).run (boot empty) before) own)
    (hkept : NoneInserted platform released first ((server platform).run (boot empty) before)
      after) :
    Releasing released first
      ((server platform).run ((server platform).run (boot empty) before) after)
      ((server platform).follow ((server platform).run (boot empty) before) own after) := by
  induction after generalizing before own with
  | nil => exact hreleasing
  | cons action rest ih =>
      have hrun : (server platform).step ((server platform).run (boot empty) before) action =
          (server platform).run (boot empty) (before ++ [action]) := by
        rw [Pipeline.Client.run_append]
        rfl
      have hstep := hreleasing.step platform hlineage (joined_run platform before) action (hkept 0)
      have hnext := hlineage.step (server platform) (closed_release platform released) action
      simp only [Pipeline.Client.run_cons, Pipeline.Client.follow]
      rw [hrun] at hstep hnext ⊢
      apply ih (before ++ [action]) hnext hstep
      intro k
      rw [← hrun]
      exact hkept (k + 1)

/-- A finished release awaits nothing, so there is nothing left to remove. -/
theorem not_mem_of_finished {released : String} {first : Nat} {s : State} {own : Finset Nat}
    (hreleasing : Releasing released first s own) (hdone : own = ∅) (device : String) :
    released ∉ setAt s.store (connectionKey device) := by
  subst hdone
  have hnotQueued : ∀ entry, ¬ Queued s ∅ entry := by
    rintro entry ⟨i, -, hown⟩
    exact Finset.notMem_empty _ hown
  have hnotHeld : ∀ holds, ¬ Held s ∅ holds := by
    rintro holds ⟨a, -, hown, -⟩
    exact Finset.notMem_empty _ hown
  rcases hreleasing with ⟨-, hquery⟩ | ⟨-, hall⟩
  · exact absurd hquery (hnotQueued _)
  · intro hmem
    rcases hall device hmem with hquery | htest | hfound | hremoval
    · exact hnotHeld _ hquery
    · exact hnotQueued _ htest
    · exact hnotHeld _ hfound
    · exact hnotQueued _ hremoval

/-- The command that is executed next, if it is one of the release. -/
theorem frame_execute {released : String} {s : State} {own : Finset Nat}
    (hlineage : Lineage (ReleaseCommand released) (ReleaseCallback released) s own)
    (hown : s.executed ∈ own) (device : String) {other : String} (hne : other ≠ released) :
    other ∈ setAt ((server platform).run s [.execute]).store (connectionKey device) ↔
      other ∈ setAt s.store (connectionKey device) := by
  rw [Pipeline.Client.run_cons, Pipeline.Client.run_nil]
  cases hsent : s.outbox with
  | nil => simp [Pipeline.Client.step, hsent]
  | cons entry rest =>
      have hcommand : ReleaseCommand released entry := by
        apply hlineage.queued entry
        exact ⟨0, by rw [hsent]; rfl, hown⟩
      simp only [Pipeline.Client.step, hsent]
      exact hcommand.frame platform device hne

/-! ## Release -/

/-- The ordinal of the command that a release sends after a schedule. -/
def releaseOrdinal (before : List Action) : Nat :=
  ((server platform).run (boot empty) before).executed +
    ((server platform).run (boot empty) before).outbox.length

/-- The server when it has handled the request. -/
def releaseState (before : List Action) (released : String) (referer : Option String)
    (now : Nat) : State :=
  (server platform).run (boot empty) (before ++ [.event (.release released referer) now])

theorem releaseState_eq {before : List Action} (released : String) (referer : Option String)
    (now : Nat) (halive : ((server platform).run (boot empty) before).thrown = false) :
    releaseState platform before released referer now =
      (server platform).occur ((server platform).run (boot empty) before)
        (.release released referer) now := by
  rw [releaseState, Pipeline.Client.run_append, Pipeline.Client.run_cons, Pipeline.Client.run_nil,
    Pipeline.Client.step, halive]
  rfl

/-- The query of the release is the last command that has been sent. -/
theorem getElem?_releaseState {before : List Action} (released : String)
    (referer : Option String) (now : Nat)
    (halive : ((server platform).run (boot empty) before).thrown = false) :
    (releaseState platform before released referer now).outbox[
      ((server platform).run (boot empty) before).outbox.length]? =
        some (releaseQuery released) := by
  rw [releaseState_eq platform released referer now halive]
  exact List.getElem?_concat_length

theorem executed_releaseState {before : List Action} (released : String)
    (referer : Option String) (now : Nat)
    (halive : ((server platform).run (boot empty) before).thrown = false) :
    (releaseState platform before released referer now).executed =
      ((server platform).run (boot empty) before).executed := by
  rw [releaseState_eq platform released referer now halive]
  rfl

theorem lineage_releaseState {before : List Action} (released : String)
    (referer : Option String) (now : Nat)
    (halive : ((server platform).run (boot empty) before).thrown = false) :
    Lineage (ReleaseCommand released) (ReleaseCallback released)
      (releaseState platform before released referer now) {releaseOrdinal platform before} := by
  -- the numbering of replies does not depend on any request
  have hidle : Lineage (ReleaseCommand released) (ReleaseCallback released) (boot empty) ∅ := by
    refine ⟨fun n hown => absurd hown (Finset.notMem_empty n), ?_, List.Pairwise.nil, ?_, ?_⟩
    · intro a hmem
      cases hmem
    · rintro entry ⟨i, -, hown⟩
      exact absurd hown (Finset.notMem_empty _)
    · intro a hmem
      cases hmem
  have hbefore := hidle.run (server platform) (closed_release platform released) before
  have hlast := getElem?_releaseState platform released referer now halive
  have hcount := executed_releaseState platform released referer now halive
  constructor
  · intro n hown
    rw [Finset.mem_singleton.mp hown, hcount, releaseOrdinal]
    exact Nat.add_lt_add_left (List.getElem?_eq_some_iff.mp hlast).1 _
  · rw [releaseState_eq platform released referer now halive]
    exact hbefore.past
  · rw [releaseState_eq platform released referer now halive]
    exact hbefore.sorted
  · rintro entry ⟨i, hentry, hown⟩
    rw [hcount, releaseOrdinal, Finset.mem_singleton] at hown
    rw [Nat.add_left_cancel hown, hlast, Option.some.injEq] at hentry
    exact .inl hentry.symm
  · intro a hmem hown
    rw [releaseState_eq platform released referer now halive] at hmem
    have hpast := hbefore.past a hmem
    rw [Finset.mem_singleton, releaseOrdinal] at hown
    omega

/-- With whatever else is going on: when all callbacks of a release have run and the
device was not connected again meanwhile, no device is connected to it any more. No
command of the release ever changes another connection. -/
theorem release_complete (before after : List Action) (released : String)
    (referer : Option String) (now : Nat)
    (halive : ((server platform).run (boot empty) before).thrown = false) :
    (NoneInserted platform released (releaseOrdinal platform before)
        (releaseState platform before released referer now) after →
      (server platform).follow (releaseState platform before released referer now)
        {releaseOrdinal platform before} after = ∅ →
      ∀ device, released ∉
        setAt ((server platform).run (releaseState platform before released referer now)
          after).store (connectionKey device)) ∧
    ∀ k, after[k]? = some .execute →
      ((server platform).run (releaseState platform before released referer now)
        (after.take k)).executed ∈
          (server platform).follow (releaseState platform before released referer now)
            {releaseOrdinal platform before} (after.take k) →
      ∀ device other, other ≠ released →
        (other ∈ setAt ((server platform).run
            (releaseState platform before released referer now) (after.take (k + 1))).store
            (connectionKey device) ↔
          other ∈ setAt ((server platform).run
            (releaseState platform before released referer now) (after.take k)).store
            (connectionKey device)) := by
  have hlineage := lineage_releaseState platform released referer now halive
  constructor
  · intro hkept hdone device hmem
    have hquery : Queued (releaseState platform before released referer now)
        {releaseOrdinal platform before} (releaseQuery released) := by
      refine ⟨_, getElem?_releaseState platform released referer now halive, ?_⟩
      rw [executed_releaseState platform released referer now halive]
      exact Finset.mem_singleton_self _
    have hreleasing := Releasing.run platform released (releaseOrdinal platform before)
      (before ++ [(.event (.release released referer) now : Action)]) after hlineage
      (.inl ⟨rfl, hquery⟩) hkept
    exact not_mem_of_finished hreleasing hdone device hmem
  · intro k hexecute hown device other hne
    have hstep : after.take (k + 1) = after.take k ++ [.execute] := by
      rw [List.take_add_one, hexecute]
      rfl
    rw [hstep, Pipeline.Client.run_append]
    exact frame_execute platform
      (hlineage.run (server platform) (closed_release platform released) (after.take k)) hown
      device hne

/-- The turns of a release with one device to test. -/
def releaseTurns : List Action :=
  [.execute, .deliver 0, .execute, .deliver 0, .execute, .deliver 0]

theorem release_single {s : State} {device : String} (hquiet : s.Quiescent)
    (hthrown : s.thrown = false) (hdevices : s.store devicesKey = some (.set {device}))
    (hconnection : s.store (connectionKey device) = some (.set {device})) :
    NoneInserted platform device s.executed
        ((server platform).occur s (.release device none) 0) releaseTurns ∧
      (server platform).follow ((server platform).occur s (.release device none) 0)
        {s.executed} releaseTurns = ∅ := by
  obtain ⟨store, outbox, inbox, executed, memory, outputs, history, thrown⟩ := s
  obtain ⟨houtbox, hinbox⟩ := hquiet
  simp only at hthrown houtbox hinbox hdevices hconnection
  subst hthrown houtbox hinbox
  have hlist : Operation.smembers.reply platform.order executed (some (.set {device})) =
      .members [device] := by
    simp [Operation.reply, enumerate_singleton]
  have hfound : truthy ((Operation.sismember device).reply platform.order (executed + 1)
      (some (.set {device}))) = true := by
    simp [Operation.reply, truthy]
  have hquery : Function.update store devicesKey
      (Operation.smembers.update (some (.set {device}))) = store := by
    rw [Operation.update_of_isRead rfl, ← hdevices, Function.update_eq_self]
  have htest : Function.update store (connectionKey device)
      ((Operation.sismember device).update (some (.set {device}))) = store := by
    rw [Operation.update_of_isRead rfl, ← hconnection, Function.update_eq_self]
  have hremoval : Function.update store (connectionKey device)
      ((Operation.srem device).update (some (.set {device}))) =
        (execute platform.order 0 store ⟨connectionKey device, .srem device⟩).1 := by
    rw [execute, hconnection]
  constructor
  · intro k
    rcases k with _ | _ | _ | _ | _ | _ | k
    case succ.succ.succ.succ.zero =>
      -- the removal is the only command that changes anything
      intro _ other hmem
      simp [releaseTurns, Pipeline.Client.step, Pipeline.Client.occur, Pipeline.Client.answer,
        Pipeline.State.perform, Pipeline.State.record, server, onEvent, onReply,
        DisconnectController.release, DisconnectController.releaseSmembers,
        DisconnectController.releaseSismember, finish, silent, execute, hdevices, hconnection,
        hlist, hfound, hquery, htest] at hmem ⊢
      exact mem_of_mem_setAt_srem platform (hremoval ▸ hmem)
    all_goals simp [releaseTurns, Pipeline.Client.step, Pipeline.Client.occur,
      Pipeline.Client.answer, Pipeline.State.perform, Pipeline.State.record, server, onEvent,
      onReply, DisconnectController.release, DisconnectController.releaseSmembers, finish, execute,
      hdevices, hlist, DisconnectController.releaseSismember, silent, hconnection, hfound, hquery,
      htest]
  · simp [releaseTurns, Pipeline.Client.follow, Pipeline.Client.outstanding, Pipeline.Client.step,
      Pipeline.Client.occur, Pipeline.Client.answer, Pipeline.State.perform, Pipeline.State.record,
      Pipeline.Client.fresh, server, onEvent, onReply, DisconnectController.release,
      DisconnectController.releaseSmembers, DisconnectController.releaseSismember, finish, silent,
      execute, hdevices, hconnection, hlist, hfound, hquery]

/-- A device that was connected to itself is released. -/
theorem release_complete_loop : ∃ before,
    "adc00000001" ∈ setAt ((server referencePlatform).run (boot empty) before).store
      (connectionKey "adc00000001") ∧
    ∀ device, "adc00000001" ∉ setAt ((server referencePlatform).run
      (releaseState referencePlatform before "adc00000001" none 0) releaseTurns).store
        (connectionKey device) := by
  obtain ⟨before, s, htrace⟩ : ∃ before s, Trace referencePlatform empty
      (loopReplies "adc00000001" "0512") before s []
      (loopWrites referencePlatform "adc00000001" "0512" "10.0.0.2" 4000 4001) :=
    ⟨_, trace_linked referencePlatform "10.0.0.2" 4000 isPingOf_samplePing
      accept_sampleReading "10.0.0.2" 4001⟩
  have hquiet : s.Quiescent := ⟨htrace.outbox, List.map_eq_nil_iff.mp htrace.callbacks⟩
  have hdevices : s.store devicesKey = some (.set {"adc00000001"}) := by
    rw [htrace.store]
    apply devices_loop referencePlatform "10.0.0.2" 4000
    simp [loopWrites, opsAt_append, readingWrites, opsAt_cons]
  have hconnection : s.store (connectionKey "adc00000001") = some (.set {"adc00000001"}) := by
    rw [htrace.store, show empty (connectionKey "adc00000001") = none from rfl,
      connection_loop referencePlatform _ (by decide)]
  obtain ⟨hkept, hdone⟩ := release_single referencePlatform hquiet htrace.thrown hdevices
    hconnection
  have hordinal : releaseOrdinal referencePlatform before = s.executed := by
    rw [releaseOrdinal, htrace.run, htrace.outbox]
    rfl
  have halive := htrace.thrown
  rw [← htrace.run] at halive
  have hstate := releaseState_eq referencePlatform "adc00000001" none 0 halive
  rw [htrace.run] at hstate
  refine ⟨before, ?_, (release_complete referencePlatform before releaseTurns "adc00000001" none 0
    halive).1 ?_ ?_⟩
  · rw [htrace.run]
    exact mem_setAt_iff.mpr ⟨_, hconnection, Finset.mem_singleton_self _⟩
  · rw [hstate, hordinal]
    exact hkept
  · rw [hstate, hordinal]
    exact hdone

end RealTimeWs
