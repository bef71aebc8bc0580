import RealTimeWs.Pipeline.Invariant

/-! # What commands observe

A command meets the store that the commands sent before it have left, however late
it is executed. What it observes is therefore fixed when it is sent, in terms of its
ordinal and of the events handled until then. Two clients of one process share the
connection, so that their commands execute in one order.
-/

namespace Pipeline

variable {Store Command Reply Callback Event Clock Output Memory : Type}

namespace Client

variable (client : Client Store Command Reply Callback Event Clock Output Memory)

/-! ## Turns from a flushed state -/

section Turns

variable {s : State Store Command Reply Callback Event Output Memory} (hempty : s.outbox = [])

include hempty

theorem flush_occur_store (e : Event) (now : Clock) :
    (client.flush (client.occur s e now)).store =
      client.storeAfter s.executed s.store (client.onEvent e now s.memory).sends := by
  simp [flush, occur, State.perform, State.record, hempty]

theorem flush_occur_history (e : Event) (now : Clock) :
    (client.flush (client.occur s e now)).history = s.history ++ [(s.executed, e)] := by
  simp [flush, occur, State.perform, State.record, hempty]

theorem flush_answer_store (a : Answer Reply Callback) (rest : List (Answer Reply Callback))
    (now : Clock) :
    (client.flush (client.answer { s with inbox := rest } a now)).store =
      client.storeAfter s.executed s.store
        (client.onReply a.callback a.ordinal a.reply now s.memory).sends := by
  simp [flush, answer, State.perform, hempty]

end Turns

/-! ## Batches -/

/-- Every command of a batch, the first of which has ordinal `n`, observes a store
that is right for its ordinal. -/
def Observes (right : Nat → Store → Command × Callback → Prop) :
    Nat → Store → List (Command × Callback) → Prop
  | _, _, [] => True
  | n, store, entry :: rest =>
      right n store entry ∧ Observes right (n + 1) (client.execute n store entry.1).1 rest

section Batch

variable {right other : Nat → Store → Command × Callback → Prop}

theorem observes_append (n : Nat) (store : Store) (first second : List (Command × Callback)) :
    client.Observes right n store (first ++ second) ↔
      client.Observes right n store first ∧
        client.Observes right (n + first.length) (client.storeAfter n store first) second := by
  induction first generalizing n store with
  | nil => simp [Observes]
  | cons entry rest ih =>
      have hlength : n + (rest.length + 1) = n + 1 + rest.length := by omega
      simp only [List.cons_append, Observes, ih, List.length_cons, hlength, and_assoc]
      rfl

/-- Only the ordinals of the batch matter. -/
theorem Observes.imp {n : Nat} {store : Store} {batch : List (Command × Callback)}
    (hobserves : client.Observes right n store batch)
    (himp : ∀ m store entry, m < n + batch.length → right m store entry → other m store entry) :
    client.Observes other n store batch := by
  induction batch generalizing n store with
  | nil => trivial
  | cons entry rest ih =>
      rw [List.length_cons] at himp
      refine ⟨himp _ _ _ (by omega) hobserves.1, ih hobserves.2 ?_⟩
      intro m store entry hlt
      exact himp m store entry (by omega)

/-- Commands that are right on every store. -/
theorem observes_of_forall (n : Nat) (store : Store) (batch : List (Command × Callback))
    (hall : ∀ entry ∈ batch, ∀ n store, right n store entry) :
    client.Observes right n store batch := by
  induction batch generalizing n store with
  | nil => trivial
  | cons entry rest ih =>
      refine ⟨hall entry List.mem_cons_self n store, ih _ _ ?_⟩
      intro other hmem
      exact hall other (List.mem_cons_of_mem _ hmem)

end Batch

/-! ## Runs -/

/-- What the commands of each turn observe, at the store the turn sees and under the
history it leaves. Later events do not change what is right for earlier ordinals. -/
structure Observing (invariant : State Store Command Reply Callback Event Output Memory → Prop)
    (right : List (Nat × Event) → Nat → Store → Command × Callback → Prop) : Prop where
  stable : ∀ history event n store entry, n < event.1 → right history n store entry →
    right (history ++ [event]) n store entry
  event : ∀ s e now, s.outbox = [] → invariant s →
    client.Observes (right (s.history ++ [(s.executed, e)])) s.executed s.store
      (client.onEvent e now s.memory).sends
  deliver : ∀ s a rest now, s.outbox = [] → s.inbox = a :: rest → invariant s →
    client.Observes (right s.history) s.executed s.store
      (client.onReply a.callback a.ordinal a.reply now s.memory).sends

section Runs

variable {invariant : State Store Command Reply Callback Event Output Memory → Prop}
variable {right : List (Nat × Event) → Nat → Store → Command × Callback → Prop}

theorem Observing.step (hobserving : client.Observing invariant right)
    (s : State Store Command Reply Callback Event Output Memory) (action : Action Event Clock)
    (hinvariant : invariant (client.flush s))
    (hobserves : client.Observes (right s.history) s.executed s.store s.outbox) :
    client.Observes (right (client.step s action).history) (client.step s action).executed
      (client.step s action).store (client.step s action).outbox := by
  cases action with
  | event e now =>
      cases hthrown : s.thrown with
      | true => simpa [Client.step, hthrown] using hobserves
      | false =>
          simp only [Client.step, hthrown, Bool.false_eq_true, ↓reduceIte, occur, State.perform,
            State.record, observes_append]
          constructor
          · apply hobserves.imp client
            intro m store entry hlt
            exact hobserving.stable _ _ _ _ _ hlt
          · exact hobserving.event (client.flush s) e now rfl hinvariant
  | execute =>
      cases hsent : s.outbox with
      | nil => simpa [Client.step, hsent] using hobserves
      | cons entry rest =>
          rw [hsent] at hobserves
          simpa [Client.step, hsent] using hobserves.2
  | deliver now =>
      cases hthrown : s.thrown with
      | true => simpa [Client.step, hthrown] using hobserves
      | false =>
          cases hinbox : s.inbox with
          | nil => simpa [Client.step, hthrown, hinbox] using hobserves
          | cons a rest =>
              simp only [Client.step, hthrown, hinbox, Bool.false_eq_true, ↓reduceIte, answer,
                State.perform, observes_append]
              refine ⟨hobserves, hobserving.deliver (client.flush s) a
                (rest ++ client.answersTo s.executed s.store s.outbox) now rfl ?_ hinvariant⟩
              simp [flush, hinbox]

/-- In every state of a run, what is outstanding will observe what is right. -/
theorem Observing.run (hobserving : client.Observing invariant right)
    (hpreserved : client.Preserved (fun _ _ => True) invariant)
    (s : State Store Command Reply Callback Event Output Memory)
    (schedule : List (Action Event Clock)) (hinvariant : invariant (client.flush s))
    (hobserves : client.Observes (right s.history) s.executed s.store s.outbox) :
    client.Observes (right (client.run s schedule).history) (client.run s schedule).executed
      (client.run s schedule).store (client.run s schedule).outbox := by
  induction schedule generalizing s with
  | nil => exact hobserves
  | cons action rest ih =>
      apply ih
      · exact hpreserved.step client s action (fun _ => trivial) hinvariant
      · exact hobserving.step client s action hinvariant hobserves

end Runs

end Client

/-! ## Two clients of one process -/

section Parallel

variable {Callback' Event' Output' Memory' : Type}

/-- The turn of one of two clients, as a turn of both. -/
def Turn.lift {Callbacks Outputs Memories : Type} (callback : Callback → Callbacks)
    (output : Output → Outputs) (memory : Memory → Memories)
    (turn : Turn Command Callback Output Memory) : Turn Command Callbacks Outputs Memories :=
  ⟨turn.sends.map fun entry => (entry.1, callback entry.2), turn.outputs.map output,
    memory turn.memory, turn.thrown⟩

namespace Client

/-- Two clients over one connection, the second of which reads no clock. -/
def par (left : Client Store Command Reply Callback Event Clock Output Memory)
    (right : Client Store Command Reply Callback' Event' Unit Output' Memory') :
    Client Store Command Reply (Callback ⊕ Callback') (Event ⊕ Event') Clock (Output ⊕ Output')
      (Memory × Memory') where
  execute := left.execute
  onEvent := fun event now memory =>
    match event with
    | .inl event => (left.onEvent event now memory.1).lift .inl .inl fun m => (m, memory.2)
    | .inr event => (right.onEvent event () memory.2).lift .inr .inr fun m => (memory.1, m)
  onReply := fun callback n reply now memory =>
    match callback with
    | .inl callback =>
        (left.onReply callback n reply now memory.1).lift .inl .inl fun m => (m, memory.2)
    | .inr callback =>
        (right.onReply callback n reply () memory.2).lift .inr .inr fun m => (memory.1, m)

end Client

end Parallel

end Pipeline
