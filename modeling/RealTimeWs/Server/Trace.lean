import RealTimeWs.Server.Regular
import RealTimeWs.Pipeline.Script

/-! # Runs turn by turn

A run in which everything a turn sends is executed before the next turn. Such a
run is described by the callbacks whose replies are outstanding, by what is known
about these replies, and by the writes so far, which determine the database.
-/

namespace RealTimeWs

open Redis

/-- An event, and the execution of what it sends. -/
def eventRound (event : Event) (now n : Nat) : List Action :=
  .event event now :: List.replicate n .execute

/-- The delivery of a reply, and the execution of what it makes the server send. -/
def replyRound (now n : Nat) : List Action := .deliver now :: List.replicate n .execute

variable (platform : Platform) (base : Store) (expected : Callback → Reply → Prop)

/-- Where a schedule that starts over a given database has arrived. -/
structure Trace (schedule : List Action) (s : State) (callbacks : List Callback)
    (written : List Command) : Prop where
  run : (server platform).run (boot base) schedule = s
  outbox : s.outbox = []
  thrown : s.thrown = false
  callbacks : s.inbox.map Pipeline.Answer.callback = callbacks
  store : ∀ key, s.store key = applyAll (opsAt key written) (base key)
  expected : ∀ a ∈ s.inbox, expected a.callback a.reply

theorem trace_boot : Trace platform base expected [] (boot base) [] [] where
  run := rfl
  outbox := rfl
  thrown := rfl
  callbacks := rfl
  store := fun _ => rfl
  expected := fun a hmem => by cases hmem

variable {platform base expected}
variable {schedule : List Action} {s : State} {callbacks : List Callback} {written : List Command}

/-- An event and everything it sends. -/
theorem Trace.event (htrace : Trace platform base expected schedule s callbacks written)
    (event : Event) (now n : Nat) (new : List Callback) (w : List Command)
    (hlength : new.length = n)
    (hturn : ∀ memory, (onEvent platform event now memory).sends.map Prod.snd = new ∧
      (onEvent platform event now memory).thrown = false)
    (hwrites : eventWrites event now = w) (hignored : ∀ reply, expected .ignored reply)
    (hexpected : ∀ command callback ordinal,
      Starts platform.toLowerCase event now command callback →
      expected callback (command.op.reply platform.order ordinal
        (applyAll (opsAt command.key written) (base command.key)))) :
    Trace platform base expected (schedule ++ eventRound event now n)
      (occurred platform s event now) (callbacks ++ new) (written ++ w) where
  run := by
    have hsent : (onEvent platform event now s.memory).sends.length = n := by
      rw [← hlength, ← (hturn s.memory).1, List.length_map]
    rw [Pipeline.Client.run_append, htrace.run, ← hsent]
    exact (server platform).run_event_executes htrace.outbox htrace.thrown event now
  outbox := rfl
  thrown := (hturn s.memory).2
  callbacks := by
    rw [callbacks_occurred platform htrace.outbox, htrace.callbacks, (hturn s.memory).1]
  store := by
    intro key
    rw [occurred_store platform htrace.outbox, eventStore_apply, hwrites, htrace.store key,
      opsAt_append, applyAll_append]
  expected := by
    intro b hmem
    rcases mem_inbox_occurred platform htrace.outbox hmem with hold | ⟨_, hcallback | hasked⟩
    · exact htrace.expected b hold
    · rw [hcallback]
      exact hignored _
    · obtain ⟨command, hstarts, hreply⟩ := hasked
      rw [hreply, htrace.store]
      exact hexpected command b.callback b.ordinal hstarts

/-- The oldest reply and everything it makes the server send. -/
theorem Trace.deliver {callback : Callback} {later : List Callback}
    (htrace : Trace platform base expected schedule s (callback :: later) written)
    (now n : Nat) (new : List Callback) (w : List Command) (hlength : new.length = n)
    (hturn : ∀ ordinal reply memory, expected callback reply →
      (onReply platform callback ordinal reply now memory).sends.map Prod.snd = new ∧
        (onReply platform callback ordinal reply now memory).thrown = false ∧
        replyWrites platform.curves callback reply now = w)
    (hignored : ∀ reply, expected .ignored reply)
    (hexpected : ∀ askedAt reply command asked ordinal, expected callback reply →
      Follows callback askedAt reply command asked →
        expected asked (command.op.reply platform.order ordinal
          (applyAll (opsAt command.key written) (base command.key)))) :
    ∃ a rest, s.inbox = a :: rest ∧ a.callback = callback ∧
      Trace platform base expected (schedule ++ replyRound now n)
        (delivered platform s a rest now) (later ++ new) (written ++ w) := by
  obtain ⟨a, rest, hinbox, hcallback, hlater⟩ := List.map_eq_cons_iff.mp htrace.callbacks
  have hreply : expected callback a.reply := by
    rw [← hcallback]
    exact htrace.expected a (hinbox ▸ List.mem_cons_self)
  obtain ⟨hsends, hthrown, hwrites⟩ := hturn a.ordinal a.reply s.memory hreply
  refine ⟨a, rest, hinbox, hcallback, ?_⟩
  subst hcallback
  constructor
  · have hsent : (onReply platform a.callback a.ordinal a.reply now s.memory).sends.length =
        n := by
      rw [← hlength, ← hsends, List.length_map]
    rw [Pipeline.Client.run_append, htrace.run, ← hsent]
    exact (server platform).run_deliver_executes htrace.outbox htrace.thrown hinbox now
  · rfl
  · exact hthrown
  · rw [callbacks_delivered platform htrace.outbox, hlater, hsends]
  · intro key
    rw [delivered_store platform htrace.outbox, replyStore_apply, hwrites, htrace.store key,
      opsAt_append, applyAll_append]
  · intro b hmem
    rcases mem_inbox_delivered platform htrace.outbox hmem with hold | ⟨_, hcallback | hasked⟩
    · exact htrace.expected b (hinbox ▸ List.mem_cons_of_mem _ hold)
    · rw [hcallback]
      exact hignored _
    · obtain ⟨command, hfollows, hanswer⟩ := hasked
      rw [hanswer, htrace.store]
      exact hexpected a.ordinal a.reply command b.callback b.ordinal hreply hfollows

/-- Replies that nobody waits for are taken from the inbox at the end. -/
theorem Trace.finish (htrace : Trace platform base expected schedule s callbacks written)
    {n : Nat} (hlength : callbacks.length = n)
    (hignored : ∀ callback ∈ callbacks, callback = .ignored) (now : Nat) :
    Trace platform base expected
      (schedule ++ List.replicate n (.deliver now)) { s with inbox := [] } []
      written where
  run := by
    have hinbox : n = s.inbox.length := by
      rw [← hlength, ← htrace.callbacks, List.length_map]
    rw [Pipeline.Client.run_append, htrace.run, hinbox]
    apply run_ignored platform s now htrace.outbox htrace.thrown
    intro a hmem
    apply hignored
    rw [← htrace.callbacks]
    exact List.mem_map_of_mem hmem
  outbox := htrace.outbox
  thrown := htrace.thrown
  callbacks := rfl
  store := htrace.store
  expected := fun a hmem => by cases hmem

end RealTimeWs
