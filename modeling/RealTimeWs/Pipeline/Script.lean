import RealTimeWs.Pipeline.Invariant

/-! # Runs without further events

Between events the client only executes commands and handles replies. Where its
turns are known in advance, such a run follows a script: which commands have been
executed and which replies delivered determines the whole state, however the two
are interleaved.
-/

namespace Pipeline.Client

variable {Store Command Reply Callback Event Clock Output Memory : Type}
variable (client : Client Store Command Reply Callback Event Clock Output Memory)

/-- No event occurs in the schedule. -/
def EventFree (schedule : List (Action Event Clock)) : Prop :=
  ∀ e now, Action.event e now ∉ schedule

theorem eventFree_cons {action : Action Event Clock} {rest : List (Action Event Clock)}
    (hfree : EventFree (action :: rest)) : EventFree rest :=
  fun e now hmem => hfree e now (List.mem_cons_of_mem _ hmem)

/-- Executing everything that is outstanding is flushing. -/
theorem run_executes (s : State Store Command Reply Callback Event Output Memory) :
    client.run s (List.replicate s.outbox.length .execute) = client.flush s := by
  cases hsent : s.outbox with
  | nil =>
      rw [client.flush_of_outbox_nil s hsent]
      rfl
  | cons entry rest =>
      obtain ⟨command, callback⟩ := entry
      rw [List.length_cons, List.replicate_succ, run_cons, ← client.flush_step_execute s]
      have hlength : rest.length = (client.step s .execute).outbox.length := by
        simp [step, hsent]
      rw [hlength]
      exact run_executes (client.step s .execute)
  termination_by s.outbox.length
  decreasing_by simp [step, hsent]

/-- An event at rest, with everything it sends executed. -/
theorem run_event_executes {s : State Store Command Reply Callback Event Output Memory}
    (hempty : s.outbox = []) (hthrown : s.thrown = false) (e : Event) (now : Clock) :
    client.run s (.event e now ::
        List.replicate (client.onEvent e now s.memory).sends.length .execute) =
      client.flush (client.occur s e now) := by
  have hlength : (client.onEvent e now s.memory).sends.length =
      (client.occur s e now).outbox.length := by
    simp [occur, State.perform, State.record, hempty]
  rw [run_cons, step, hthrown, if_neg (by decide), hlength, run_executes]

/-- A reply at rest, with everything it makes the client send executed. -/
theorem run_deliver_executes {s : State Store Command Reply Callback Event Output Memory}
    {a : Answer Reply Callback} {rest : List (Answer Reply Callback)} (hempty : s.outbox = [])
    (hthrown : s.thrown = false) (hinbox : s.inbox = a :: rest) (now : Clock) :
    client.run s (.deliver now :: List.replicate
        (client.onReply a.callback a.ordinal a.reply now s.memory).sends.length .execute) =
      client.flush (client.answer { s with inbox := rest } a now) := by
  have hlength : (client.onReply a.callback a.ordinal a.reply now s.memory).sends.length =
      (client.answer { s with inbox := rest } a now).outbox.length := by
    simp [answer, State.perform, hempty]
  have hstep : client.step s (.deliver now) = client.answer { s with inbox := rest } a now := by
    simp [step, hthrown, hinbox]
  rw [run_cons, hstep, hlength, run_executes]

/-! ## Scripts -/

/-- All commands of a run, of which `sent j` have been sent when `j` replies have
been delivered. No turn prints anything. -/
structure Script (store : Store) (memory : Memory) (commands : List (Command × Callback))
    (sent : Nat → Nat) : Prop where
  sent_le : ∀ j, sent j ≤ commands.length
  sent_mono : ∀ j, sent j ≤ sent (j + 1)
  ahead : ∀ j < commands.length, j < sent j
  turn : ∀ j a now, (client.answersTo 0 store commands)[j]? = some a →
    client.onReply a.callback a.ordinal a.reply now memory =
      ⟨(commands.take (sent (j + 1))).drop (sent j), [], memory, false⟩

/-- The state of a scripted run after `k` executed commands and `j` delivered replies. -/
def scriptState (store : Store) (memory : Memory) (commands : List (Command × Callback))
    (sent : Nat → Nat) (history : List (Nat × Event)) (k j : Nat) :
    State Store Command Reply Callback Event Output Memory where
  store := client.storeAfter 0 store (commands.take k)
  outbox := (commands.take (sent j)).drop k
  inbox := (client.answersTo 0 store (commands.take k)).drop j
  executed := k
  memory := memory
  outputs := []
  history := history
  thrown := false

section Scripted

variable {store : Store} {memory : Memory} {commands : List (Command × Callback)}
variable {sent : Nat → Nat} {history : List (Nat × Event)}

theorem answersTo_length (n : Nat) (store : Store) (batch : List (Command × Callback)) :
    (client.answersTo n store batch).length = batch.length := by
  have hlength := congrArg List.length (client.answersTo_callbacks n store batch)
  simpa using hlength

theorem answersTo_take (n k : Nat) (store : Store) (batch : List (Command × Callback)) :
    client.answersTo n store (batch.take k) = (client.answersTo n store batch).take k := by
  induction batch generalizing n k store with
  | nil => simp
  | cons entry rest ih =>
      obtain ⟨command, callback⟩ := entry
      cases k with
      | zero => rfl
      | succ k => simp [ih]

theorem storeAfter_take_succ (n k : Nat) (store : Store) (batch : List (Command × Callback))
    {command : Command} {callback : Callback} (hget : batch[k]? = some (command, callback)) :
    client.storeAfter n store (batch.take (k + 1)) =
        (client.execute (n + k) (client.storeAfter n store (batch.take k)) command).1 ∧
      client.answersTo n store (batch.take (k + 1)) =
        client.answersTo n store (batch.take k) ++
          [⟨n + k, (client.execute (n + k) (client.storeAfter n store (batch.take k)) command).2,
            callback⟩] := by
  have hlt : k < batch.length := by
    by_contra hle
    rw [List.getElem?_eq_none (by omega)] at hget
    cases hget
  have htake : batch.take (k + 1) = batch.take k ++ [(command, callback)] := by
    rw [List.take_add_one, hget]
    rfl
  have hlength : (batch.take k).length = k := List.length_take_of_le hlt.le
  rw [htake, storeAfter_append, answersTo_append, hlength]
  exact ⟨rfl, rfl⟩

variable (hscript : client.Script store memory commands sent)

include hscript

theorem Script.step_execute {k j : Nat} (hj : j ≤ k) (hk : k < sent j) :
    client.step (client.scriptState store memory commands sent history k j)
        (.execute : Action Event Clock) =
      client.scriptState store memory commands sent history (k + 1) j := by
  have hsent := hscript.sent_le j
  have hget : commands[k]? = some (commands[k]) := List.getElem?_eq_getElem (by omega)
  have houtbox : (commands.take (sent j)).drop k =
      commands[k] :: (commands.take (sent j)).drop (k + 1) := by
    rw [List.drop_eq_getElem_cons (by simp; omega), List.getElem_take]
  obtain ⟨hstore, hanswers⟩ := client.storeAfter_take_succ 0 k store commands
    (show commands[k]? = some (commands[k].1, commands[k].2) from hget)
  have hdrop : j ≤ (client.answersTo 0 store (commands.take k)).length := by
    rw [answersTo_length, List.length_take]
    omega
  simp only [Client.step, scriptState, houtbox, hstore, hanswers, Nat.zero_add,
    List.drop_append_of_le_length hdrop]

theorem Script.step_deliver (now : Clock) {k j : Nat} (hj : j < k) (hk : k ≤ sent j) :
    client.step (client.scriptState store memory commands sent history k j)
        (.deliver now : Action Event Clock) =
      client.scriptState store memory commands sent history k (j + 1) := by
  have hsent := hscript.sent_le j
  have hmono := hscript.sent_mono j
  have hlength : (client.answersTo 0 store commands).length = commands.length :=
    client.answersTo_length 0 store commands
  have hget : (client.answersTo 0 store commands)[j]? =
      some ((client.answersTo 0 store commands)[j]) := List.getElem?_eq_getElem (by omega)
  have hinbox : (client.answersTo 0 store (commands.take k)).drop j =
      (client.answersTo 0 store commands)[j] ::
        (client.answersTo 0 store (commands.take k)).drop (j + 1) := by
    rw [answersTo_take, List.drop_eq_getElem_cons (by simp; omega), List.getElem_take]
  have hturn := hscript.turn j _ now hget
  have houtbox : (commands.take (sent j)).drop k ++ (commands.take (sent (j + 1))).drop (sent j) =
      (commands.take (sent (j + 1))).drop k := by
    have hfirst : commands.take (sent j) = (commands.take (sent (j + 1))).take (sent j) := by
      rw [List.take_take, Nat.min_eq_left hmono]
    have hmiddle : k ≤ ((commands.take (sent (j + 1))).take (sent j)).length := by
      rw [← hfirst, List.length_take]
      omega
    rw [hfirst, ← List.drop_append_of_le_length hmiddle, List.take_append_drop]
  simp only [Client.step, scriptState, hinbox, answer, hturn, State.perform, houtbox,
    Bool.false_eq_true, ↓reduceIte, List.append_nil]

variable (history) in
/-- One action keeps a run on its script. -/
theorem Script.step {k j : Nat} (hj : j ≤ k) (hk : k ≤ sent j) (action : Action Event Clock)
    (hevent : ∀ e now, action ≠ .event e now) :
    ∃ k' j', j' ≤ k' ∧ k' ≤ sent j' ∧
      client.step (client.scriptState store memory commands sent history k j) action =
        client.scriptState store memory commands sent history k' j' := by
  cases action with
  | event e now => exact absurd rfl (hevent e now)
  | execute =>
      rcases Nat.lt_or_ge k (sent j) with hlt | hge
      · exact ⟨k + 1, j, by omega, hlt, hscript.step_execute client hj hlt⟩
      · refine ⟨k, j, hj, hk, ?_⟩
        have houtbox : (commands.take (sent j)).drop k = [] := by
          simp
          omega
        simp [Client.step, scriptState, houtbox]
  | deliver now =>
      rcases Nat.lt_or_ge j k with hlt | hge
      · exact ⟨k, j + 1, hlt, hk.trans (hscript.sent_mono j),
          hscript.step_deliver client now hlt hk⟩
      · refine ⟨k, j, hj, hk, ?_⟩
        have hinbox : (client.answersTo 0 store (commands.take k)).drop j = [] := by
          apply List.drop_eq_nil_of_le
          rw [answersTo_length, List.length_take]
          omega
        simp [Client.step, scriptState, hinbox]

/-- A run without events follows its script. -/
theorem Script.run {k j : Nat} (hj : j ≤ k) (hk : k ≤ sent j)
    {schedule : List (Action Event Clock)} (hfree : EventFree schedule) :
    ∃ k' j', j' ≤ k' ∧ k' ≤ sent j' ∧
      client.run (client.scriptState store memory commands sent history k j) schedule =
        client.scriptState store memory commands sent history k' j' := by
  induction schedule generalizing k j with
  | nil => exact ⟨k, j, hj, hk, rfl⟩
  | cons action rest ih =>
      obtain ⟨k', j', hj', hk', hstep⟩ := hscript.step client history hj hk action
        fun e now heq => hfree e now (heq ▸ List.mem_cons_self)
      rw [run_cons, hstep]
      exact ih hj' hk' (eventFree_cons hfree)

/-- A script that has come to rest is finished. -/
theorem Script.quiescent {k j : Nat} (hj : j ≤ k) (hk : k ≤ sent j)
    (hquiet : (client.scriptState store memory commands sent history k j).Quiescent) :
    k = commands.length := by
  have hsent := hscript.sent_le j
  have houtbox := congrArg List.length hquiet.1
  have hinbox := congrArg List.length hquiet.2
  simp only [scriptState, List.length_drop, List.length_take, answersTo_length,
    List.length_nil] at houtbox hinbox
  rcases Nat.lt_or_ge j commands.length with hlt | hge
  · have := hscript.ahead j hlt
    omega
  · omega

variable (history) in
/-- Executing and delivering in turns follows a script. -/
theorem Script.alternate (now : Clock) (count : Nat) {k : Nat}
    (hcount : k + count ≤ commands.length) :
    client.run (client.scriptState store memory commands sent history k k)
        ((List.replicate count [.execute, .deliver now]).flatten : List (Action Event Clock)) =
      client.scriptState store memory commands sent history (k + count) (k + count) := by
  induction count generalizing k with
  | zero => rfl
  | succ count ih =>
      have hahead := hscript.ahead k (by omega)
      rw [List.replicate_succ, List.flatten_cons, List.cons_append, List.singleton_append,
        run_cons, run_cons, hscript.step_execute client le_rfl hahead,
        hscript.step_deliver client now (Nat.lt_succ_self k) hahead, ih (by omega)]
      congr 1 <;> omega

variable (store memory commands sent history) in
omit hscript in
theorem quiescent_scriptState (hall : sent commands.length ≤ commands.length) :
    (client.scriptState store memory commands sent history commands.length
      commands.length).Quiescent := by
  constructor
  · apply List.drop_eq_nil_of_le
    rw [List.length_take]
    omega
  · apply List.drop_eq_nil_of_le
    rw [answersTo_length, List.length_take]
    omega

end Scripted

end Pipeline.Client
