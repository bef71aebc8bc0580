import Mathlib

/-! # Event-driven clients over one pipelined connection

A single-threaded client talks to a store over one connection. A turn of the
client handles an event or a reply and may send commands, each with the callback
that takes its reply. Commands are executed in sending order and replies are
delivered in that order, but execution and delivery may lag behind arbitrarily.
An uncaught exception ends the client; what it has already sent still executes.
-/

namespace Pipeline

/-- What one turn of the client does before control returns to the event loop. -/
structure Turn (Command Callback Output Memory : Type) where
  sends : List (Command × Callback)
  outputs : List Output
  memory : Memory
  thrown : Bool

/-- An executed command whose callback has not run yet. The ordinal counts the
commands executed before it on the connection. -/
structure Answer (Reply Callback : Type) where
  ordinal : Nat
  reply : Reply
  callback : Callback

/-- A client program together with the store it talks to. The ordinal is given
to `execute`, so that the store may resolve what its documentation leaves open
differently at every command, and to `onReply` for proof-facing bookkeeping. -/
structure Client (Store Command Reply Callback Event Clock Output Memory : Type) where
  execute : Nat → Store → Command → Store × Reply
  onEvent : Event → Clock → Memory → Turn Command Callback Output Memory
  onReply : Callback → Nat → Reply → Clock → Memory → Turn Command Callback Output Memory

/-- The outbox holds commands that are sent but not executed, the inbox replies
that are not delivered. The history records each handled event together with the
number of commands sent before it. -/
structure State (Store Command Reply Callback Event Output Memory : Type) where
  store : Store
  outbox : List (Command × Callback)
  inbox : List (Answer Reply Callback)
  executed : Nat
  memory : Memory
  outputs : List Output
  history : List (Nat × Event)
  thrown : Bool

/-- The steps of the system: an event is handled, the oldest command is executed, the oldest reply
is handled. -/
inductive Action (Event Clock : Type) where
  | event (e : Event) (now : Clock)
  | execute
  | deliver (now : Clock)

variable {Store Command Reply Callback Event Clock Output Memory : Type}

namespace State

/-- An idle client over a given store. -/
def start (store : Store) (memory : Memory) :
    State Store Command Reply Callback Event Output Memory where
  store := store
  outbox := []
  inbox := []
  executed := 0
  memory := memory
  outputs := []
  history := []
  thrown := false

/-- No command and no reply is outstanding. -/
def Quiescent (s : State Store Command Reply Callback Event Output Memory) : Prop :=
  s.outbox = [] ∧ s.inbox = []

/-- Append the commands and outputs of one turn. -/
def perform (s : State Store Command Reply Callback Event Output Memory)
    (turn : Turn Command Callback Output Memory) :
    State Store Command Reply Callback Event Output Memory :=
  { s with
    outbox := s.outbox ++ turn.sends
    outputs := s.outputs ++ turn.outputs
    memory := turn.memory
    thrown := turn.thrown }

/-- Record an event at the current position of the command sequence. -/
def record (s : State Store Command Reply Callback Event Output Memory) (e : Event) :
    State Store Command Reply Callback Event Output Memory :=
  { s with history := s.history ++ [(s.executed + s.outbox.length, e)] }

end State

namespace Client

variable (client : Client Store Command Reply Callback Event Clock Output Memory)

/-- The turn that handles an event. -/
def occur (s : State Store Command Reply Callback Event Output Memory) (e : Event)
    (now : Clock) : State Store Command Reply Callback Event Output Memory :=
  (s.record e).perform (client.onEvent e now s.memory)

/-- The turn that hands a reply, already taken from the inbox, to its callback. -/
def answer (s : State Store Command Reply Callback Event Output Memory)
    (a : Answer Reply Callback) (now : Clock) :
    State Store Command Reply Callback Event Output Memory :=
  s.perform (client.onReply a.callback a.ordinal a.reply now s.memory)

/-- One step of the system. An action that is not enabled changes nothing. -/
def step (s : State Store Command Reply Callback Event Output Memory) :
    Action Event Clock → State Store Command Reply Callback Event Output Memory
  | .event e now => if s.thrown then s else client.occur s e now
  | .execute =>
      match s.outbox with
      | [] => s
      | (command, callback) :: rest =>
          let result := client.execute s.executed s.store command
          { s with
            store := result.1
            outbox := rest
            inbox := s.inbox ++ [⟨s.executed, result.2, callback⟩]
            executed := s.executed + 1 }
  | .deliver now =>
      if s.thrown then s
      else match s.inbox with
        | [] => s
        | a :: rest => client.answer { s with inbox := rest } a now

/-- Run a whole schedule. -/
def run (s : State Store Command Reply Callback Event Output Memory) :
    List (Action Event Clock) → State Store Command Reply Callback Event Output Memory
  | [] => s
  | action :: rest => run (client.step s action) rest

@[simp] theorem run_nil (s : State Store Command Reply Callback Event Output Memory) :
    client.run s [] = s := rfl

@[simp] theorem run_cons (s : State Store Command Reply Callback Event Output Memory)
    (action : Action Event Clock) (rest : List (Action Event Clock)) :
    client.run s (action :: rest) = client.run (client.step s action) rest := rfl

theorem run_append (s : State Store Command Reply Callback Event Output Memory)
    (first second : List (Action Event Clock)) :
    client.run s (first ++ second) = client.run (client.run s first) second := by
  induction first generalizing s with
  | nil => rfl
  | cons action rest ih => exact ih (client.step s action)

/-! ## Executing a batch of commands -/

/-- The store after a batch of commands, the first of which has ordinal `n`. -/
def storeAfter : Nat → Store → List (Command × Callback) → Store
  | _, store, [] => store
  | n, store, (command, _) :: rest =>
      storeAfter (n + 1) (client.execute n store command).1 rest

/-- The replies to a batch of commands, paired with their callbacks. -/
def answersTo : Nat → Store → List (Command × Callback) → List (Answer Reply Callback)
  | _, _, [] => []
  | n, store, (command, callback) :: rest =>
      let result := client.execute n store command
      ⟨n, result.2, callback⟩ :: answersTo (n + 1) result.1 rest

@[simp] theorem storeAfter_nil (n : Nat) (store : Store) :
    client.storeAfter n store ([] : List (Command × Callback)) = store := rfl

@[simp] theorem storeAfter_cons (n : Nat) (store : Store) (command : Command)
    (callback : Callback) (rest : List (Command × Callback)) :
    client.storeAfter n store ((command, callback) :: rest) =
      client.storeAfter (n + 1) (client.execute n store command).1 rest := rfl

@[simp] theorem answersTo_nil (n : Nat) (store : Store) :
    client.answersTo n store ([] : List (Command × Callback)) = [] := rfl

@[simp] theorem answersTo_cons (n : Nat) (store : Store) (command : Command)
    (callback : Callback) (rest : List (Command × Callback)) :
    client.answersTo n store ((command, callback) :: rest) =
      ⟨n, (client.execute n store command).2, callback⟩ ::
        client.answersTo (n + 1) (client.execute n store command).1 rest := rfl

theorem storeAfter_append (n : Nat) (store : Store) (first second : List (Command × Callback)) :
    client.storeAfter n store (first ++ second) =
      client.storeAfter (n + first.length) (client.storeAfter n store first) second := by
  induction first generalizing n store with
  | nil => rfl
  | cons entry rest ih =>
      obtain ⟨command, callback⟩ := entry
      simp only [List.cons_append, storeAfter_cons, ih, List.length_cons]
      congr 1
      omega

theorem answersTo_append (n : Nat) (store : Store) (first second : List (Command × Callback)) :
    client.answersTo n store (first ++ second) =
      client.answersTo n store first ++
        client.answersTo (n + first.length) (client.storeAfter n store first) second := by
  induction first generalizing n store with
  | nil => rfl
  | cons entry rest ih =>
      obtain ⟨command, callback⟩ := entry
      simp only [List.cons_append, answersTo_cons, ih, storeAfter_cons, List.length_cons]
      congr 3
      omega

/-- Replies keep the callbacks of their commands, in order. -/
theorem answersTo_callbacks (n : Nat) (store : Store) (batch : List (Command × Callback)) :
    (client.answersTo n store batch).map Answer.callback = batch.map Prod.snd := by
  induction batch generalizing n store with
  | nil => rfl
  | cons entry rest ih =>
      obtain ⟨command, callback⟩ := entry
      simp [ih]

end Client

end Pipeline
