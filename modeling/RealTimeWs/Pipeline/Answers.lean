import RealTimeWs.Pipeline.Script

/-! # What becomes of a request

A request is answered by its own turn or by a callback further down a chain of
commands. Two general laws follow such chains through arbitrary schedules. What is
asked is conserved: it is paid by an output or still owed by an outstanding
callback. What is told is true: the facts that replies have shown are carried from
the moment of their execution to the output that relies on them.
-/

namespace Pipeline

variable {Store Command Reply Callback Event Clock Output Memory : Type}

/-! ## Received events -/

/-- The event that an action brings. -/
def Action.occurrence : Action Event Clock → Option Event
  | .event e _ => some e
  | .execute => none
  | .deliver _ => none

theorem Client.EventFree.occurrences {schedule : List (Action Event Clock)}
    (hfree : EventFree schedule) : schedule.filterMap Action.occurrence = [] := by
  apply List.filterMap_eq_nil_iff.mpr
  intro action hmem
  cases action with
  | event e now => exact absurd hmem (hfree e now)
  | execute => rfl
  | deliver now => rfl

namespace Client

variable {client : Client Store Command Reply Callback Event Clock Output Memory}
variable {s : State Store Command Reply Callback Event Output Memory}

/-- A client that has ended does not start again. -/
theorem thrown_run (hthrown : s.thrown = true) (schedule : List (Action Event Clock)) :
    (client.run s schedule).thrown = true := by
  induction schedule generalizing s with
  | nil => exact hthrown
  | cons action rest ih =>
      apply ih
      cases action with
      | event e now => simp [step, hthrown]
      | execute =>
          simp only [step]
          split <;> exact hthrown
      | deliver now => simp [step, hthrown]

theorem mem_history_step {entry : Nat × Event} (hmem : entry ∈ s.history)
    (action : Action Event Clock) : entry ∈ (client.step s action).history := by
  cases action with
  | event e now =>
      simp only [step]
      split
      · exact hmem
      · exact List.mem_append_left _ hmem
  | execute =>
      simp only [step]
      split <;> exact hmem
  | deliver now =>
      simp only [step]
      split
      · exact hmem
      · split <;> exact hmem

/-- A client that is still alive has received the events of its schedule, in its order. -/
theorem history_of_alive {schedule : List (Action Event Clock)}
    (halive : (client.run s schedule).thrown = false) :
    (client.run s schedule).history.map Prod.snd =
      s.history.map Prod.snd ++ schedule.filterMap Action.occurrence := by
  induction schedule generalizing s with
  | nil => exact (List.append_nil _).symm
  | cons action rest ih =>
      have hbefore : s.thrown = false := by
        cases hthrown : s.thrown with
        | false => rfl
        | true =>
            rw [thrown_run hthrown] at halive
            cases halive
      have hstep : (client.step s action).history.map Prod.snd =
          s.history.map Prod.snd ++ [action].filterMap Action.occurrence := by
        cases action with
        | event e now =>
            simp [step, hbefore, occur, State.record, State.perform, Action.occurrence]
        | execute =>
            simp only [step]
            split <;> simp [Action.occurrence]
        | deliver now =>
            simp only [step, hbefore, Bool.false_eq_true, if_false]
            split <;> simp [answer, State.perform, Action.occurrence]
      rw [run_cons, ih halive, hstep, List.append_assoc, ← List.filterMap_append]
      rfl

theorem received_of_alive {schedule : List (Action Event Clock)}
    (halive : (client.run s schedule).thrown = false) {e : Event} {now : Clock}
    (hmem : .event e now ∈ schedule) : ∃ n, (n, e) ∈ (client.run s schedule).history := by
  have hevent : e ∈ (client.run s schedule).history.map Prod.snd := by
    rw [history_of_alive halive]
    exact List.mem_append_right _ (List.mem_filterMap.mpr ⟨_, hmem, rfl⟩)
  obtain ⟨⟨n, event⟩, hentry, rfl⟩ := List.mem_map.mp hevent
  exact ⟨n, hentry⟩

/-- A guard may be shown separately for every place of a schedule. -/
theorem guarded_of_places
    {guard : State Store Command Reply Callback Event Output Memory → Action Event Clock → Prop}
    {schedule : List (Action Event Clock)}
    (hplaces : ∀ before action after, schedule = before ++ action :: after →
      Enabled (client.run s before) action →
        guard (client.flush (client.run s before)) action) :
    client.Guarded guard s schedule := by
  induction schedule generalizing s with
  | nil => trivial
  | cons first rest ih =>
      refine ⟨hplaces [] first rest rfl, ih ?_⟩
      intro before action after hsplit
      exact hplaces (first :: before) action after (by rw [hsplit]; rfl)

end Client

/-! ## Conservation -/

/-- What events ask for, callbacks still owe and outputs pay. -/
structure Ledger (Callback Event Output Weight : Type) where
  asked : Event → Weight
  owed : Callback → Weight
  paid : Output → Weight

namespace Ledger

variable {Weight : Type} [AddCommMonoid Weight]
variable (ledger : Ledger Callback Event Output Weight)

/-- What the callbacks of a batch owe. -/
def debt (batch : List (Command × Callback)) : Weight :=
  (batch.map fun entry => ledger.owed entry.2).sum

/-- What a list of outputs pays. -/
def payment (outputs : List Output) : Weight := (outputs.map ledger.paid).sum

/-- All that has been asked for. -/
def requested (s : State Store Command Reply Callback Event Output Memory) : Weight :=
  (s.history.map fun entry => ledger.asked entry.2).sum

/-- All that outstanding callbacks owe. -/
def pending (s : State Store Command Reply Callback Event Output Memory) : Weight :=
  (s.inbox.map fun a => ledger.owed a.callback).sum + ledger.debt s.outbox

@[simp] theorem debt_nil : ledger.debt ([] : List (Command × Callback)) = 0 := rfl

@[simp] theorem debt_cons (entry : Command × Callback) (rest : List (Command × Callback)) :
    ledger.debt (entry :: rest) = ledger.owed entry.2 + ledger.debt rest := by
  simp [debt]

@[simp] theorem debt_append (first second : List (Command × Callback)) :
    ledger.debt (first ++ second) = ledger.debt first + ledger.debt second := by
  simp [debt]

@[simp] theorem payment_nil : ledger.payment [] = 0 := rfl

@[simp] theorem payment_cons (output : Output) (rest : List Output) :
    ledger.payment (output :: rest) = ledger.paid output + ledger.payment rest := by
  simp [payment]

@[simp] theorem payment_append (first second : List Output) :
    ledger.payment (first ++ second) = ledger.payment first + ledger.payment second := by
  simp [payment]

/-- A batch that owes nothing. -/
theorem debt_eq_zero {batch : List (Command × Callback)}
    (hfree : ∀ entry ∈ batch, ledger.owed entry.2 = 0) : ledger.debt batch = 0 := by
  rw [debt, List.sum_eq_zero]
  intro weight hmem
  obtain ⟨entry, hentry, rfl⟩ := List.mem_map.mp hmem
  exact hfree entry hentry

/-- Every turn passes on all that it takes, also one that throws. -/
structure Balanced
    (client : Client Store Command Reply Callback Event Clock Output Memory) : Prop where
  event : ∀ e now memory, ledger.asked e =
    ledger.debt (client.onEvent e now memory).sends +
      ledger.payment (client.onEvent e now memory).outputs
  reply : ∀ callback n reply now memory, ledger.owed callback =
    ledger.debt (client.onReply callback n reply now memory).sends +
      ledger.payment (client.onReply callback n reply now memory).outputs

variable {ledger}
variable {client : Client Store Command Reply Callback Event Clock Output Memory}

theorem Balanced.step (hbalanced : ledger.Balanced client)
    (s : State Store Command Reply Callback Event Output Memory) (action : Action Event Clock)
    (hkept : ledger.requested s = ledger.payment s.outputs + ledger.pending s) :
    ledger.requested (client.step s action) =
      ledger.payment (client.step s action).outputs + ledger.pending (client.step s action) := by
  unfold requested pending at *
  cases action with
  | event e now =>
      cases hthrown : s.thrown with
      | true => simpa [Client.step, hthrown] using hkept
      | false =>
          simp only [Client.step, hthrown, Bool.false_eq_true, ↓reduceIte, Client.occur,
            State.perform, State.record, List.map_append, List.sum_append, List.map_cons,
            List.map_nil, List.sum_cons, List.sum_nil, add_zero, debt_append, payment_append]
          rw [hkept, hbalanced.event e now s.memory]
          abel
  | execute =>
      cases hsent : s.outbox with
      | nil => simpa [Client.step, hsent] using hkept
      | cons entry rest =>
          simp only [Client.step, hsent, List.map_append, List.sum_append, List.map_cons,
            List.map_nil, List.sum_cons, List.sum_nil, add_zero]
          rw [hkept, hsent, debt_cons]
          abel
  | deliver now =>
      cases hthrown : s.thrown with
      | true => simpa [Client.step, hthrown] using hkept
      | false =>
          cases hinbox : s.inbox with
          | nil => simpa [Client.step, hthrown, hinbox] using hkept
          | cons a rest =>
              simp only [Client.step, hthrown, hinbox, Bool.false_eq_true, ↓reduceIte,
                Client.answer, State.perform, debt_append, payment_append]
              rw [hkept, hinbox, List.map_cons, List.sum_cons,
                hbalanced.reply a.callback a.ordinal a.reply now s.memory]
              abel

/-- Along every run, all that has been asked is paid or still owed. -/
theorem Balanced.run (hbalanced : ledger.Balanced client)
    (s : State Store Command Reply Callback Event Output Memory)
    (schedule : List (Action Event Clock))
    (hkept : ledger.requested s = ledger.payment s.outputs + ledger.pending s) :
    ledger.requested (client.run s schedule) =
      ledger.payment (client.run s schedule).outputs +
        ledger.pending (client.run s schedule) := by
  induction schedule generalizing s with
  | nil => exact hkept
  | cons action rest ih => exact ih _ (hbalanced.step s action hkept)

/-- An idle client owes nothing. -/
theorem pending_of_quiescent {s : State Store Command Reply Callback Event Output Memory}
    (hquiet : s.Quiescent) : ledger.pending s = 0 := by
  simp [pending, hquiet.1, hquiet.2]

end Ledger

/-! ## Testimony -/

namespace Client

variable (client : Client Store Command Reply Callback Event Clock Output Memory)
variable (origin : State Store Command Reply Callback Event Output Memory)

/-- Something was the case at a moment of the past, perhaps just now. -/
def Once (fact : State Store Command Reply Callback Event Output Memory → Prop)
    (past : List (Action Event Clock)) : Prop :=
  ∃ earlier, earlier <+: past ∧ fact (client.run origin earlier)

variable {client origin}

theorem once_now {fact : State Store Command Reply Callback Event Output Memory → Prop}
    {past : List (Action Event Clock)} (hfact : fact (client.run origin past)) :
    client.Once origin fact past :=
  ⟨past, List.prefix_rfl, hfact⟩

theorem Once.later {fact : State Store Command Reply Callback Event Output Memory → Prop}
    {past : List (Action Event Clock)} (honce : client.Once origin fact past)
    (action : Action Event Clock) : client.Once origin fact (past ++ [action]) := by
  obtain ⟨earlier, hearlier, hfact⟩ := honce
  exact ⟨earlier, hearlier.trans (List.prefix_append _ _), hfact⟩

/-- A fact that lasts and held once still holds. -/
theorem Once.lasting {fact : State Store Command Reply Callback Event Output Memory → Prop}
    (hlasts : ∀ s action, fact s → fact (client.step s action))
    {past : List (Action Event Clock)} (honce : client.Once origin fact past) :
    fact (client.run origin past) := by
  obtain ⟨earlier, ⟨rest, rfl⟩, hfact⟩ := honce
  rw [run_append]
  generalize client.run origin earlier = s at hfact
  induction rest generalizing s with
  | nil => exact hfact
  | cons action rest ih => exact ih _ (hlasts s action hfact)

/-- What the past of a run says about a command that is sent, a reply that is given
and an output that is told. -/
structure Testimony (Command Reply Callback Event Clock Output : Type) where
  sent : List (Action Event Clock) → Command × Callback → Prop
  given : List (Action Event Clock) → Answer Reply Callback → Prop
  told : List (Action Event Clock) → Output → Prop

namespace Testimony

variable (testimony : Testimony Command Reply Callback Event Clock Output)

/-- A turn speaks truly about what it sends and tells. -/
def Speaks (past : List (Action Event Clock)) (turn : Turn Command Callback Output Memory) :
    Prop :=
  (∀ entry ∈ turn.sends, testimony.sent past entry) ∧
    ∀ output ∈ turn.outputs, testimony.told past output

variable (client origin)

/-- What has to be shown of each step, for the moments of one schedule. Testimony
does not expire. -/
structure Sound (schedule : List (Action Event Clock)) : Prop where
  sent_later : ∀ past action entry, testimony.sent past entry →
    testimony.sent (past ++ [action]) entry
  given_later : ∀ past action a, testimony.given past a → testimony.given (past ++ [action]) a
  told_later : ∀ past action output, testimony.told past output →
    testimony.told (past ++ [action]) output
  event : ∀ past e now, past ++ [.event e now] <+: schedule →
    (client.run origin past).thrown = false →
    testimony.Speaks (past ++ [.event e now])
      (client.onEvent e now (client.run origin past).memory)
  execute : ∀ past command callback rest, past ++ [.execute] <+: schedule →
    (client.run origin past).outbox = (command, callback) :: rest →
    testimony.sent past (command, callback) →
    testimony.given (past ++ [.execute]) ⟨(client.run origin past).executed,
      (client.execute (client.run origin past).executed (client.run origin past).store command).2,
      callback⟩
  deliver : ∀ past a rest now, past ++ [.deliver now] <+: schedule →
    (client.run origin past).thrown = false → (client.run origin past).inbox = a :: rest →
    testimony.given past a →
    testimony.Speaks (past ++ [.deliver now])
      (client.onReply a.callback a.ordinal a.reply now (client.run origin past).memory)

/-- The testimony covers everything that a state holds. -/
structure Covers (past : List (Action Event Clock))
    (s : State Store Command Reply Callback Event Output Memory) : Prop where
  sent : ∀ entry ∈ s.outbox, testimony.sent past entry
  given : ∀ a ∈ s.inbox, testimony.given past a
  told : ∀ output ∈ s.outputs, testimony.told past output

variable {testimony client origin}
variable {schedule : List (Action Event Clock)}

theorem Covers.later (hsound : testimony.Sound client origin schedule)
    {past : List (Action Event Clock)} {s : State Store Command Reply Callback Event Output Memory}
    (hcovers : testimony.Covers past s) (action : Action Event Clock) :
    testimony.Covers (past ++ [action]) s where
  sent := fun entry hmem => hsound.sent_later past action entry (hcovers.sent entry hmem)
  given := fun a hmem => hsound.given_later past action a (hcovers.given a hmem)
  told := fun output hmem => hsound.told_later past action output (hcovers.told output hmem)

theorem Covers.perform {past : List (Action Event Clock)}
    {s : State Store Command Reply Callback Event Output Memory}
    (hcovers : testimony.Covers past s) {turn : Turn Command Callback Output Memory}
    (hspeaks : testimony.Speaks past turn) : testimony.Covers past (s.perform turn) := by
  refine ⟨?_, hcovers.given, ?_⟩
  · intro entry hmem
    rcases List.mem_append.mp hmem with hold | hnew
    · exact hcovers.sent entry hold
    · exact hspeaks.1 entry hnew
  · intro output hmem
    rcases List.mem_append.mp hmem with hold | hnew
    · exact hcovers.told output hold
    · exact hspeaks.2 output hnew

/-- One more step of the schedule is covered. -/
theorem Sound.step (hsound : testimony.Sound client origin schedule)
    {past : List (Action Event Clock)} {action : Action Event Clock}
    (hpast : past ++ [action] <+: schedule)
    (hcovers : testimony.Covers past (client.run origin past)) :
    testimony.Covers (past ++ [action]) (client.step (client.run origin past) action) := by
  have hlater := hcovers.later hsound action
  cases action with
  | event e now =>
      cases hthrown : (client.run origin past).thrown with
      | true => simpa [Client.step, hthrown] using hlater
      | false =>
          simp only [Client.step, hthrown, Bool.false_eq_true, ↓reduceIte]
          have hrecord : testimony.Covers (past ++ [.event e now])
              ((client.run origin past).record e) := ⟨hlater.sent, hlater.given, hlater.told⟩
          exact hrecord.perform (hsound.event past e now hpast hthrown)
  | execute =>
      cases hsent : (client.run origin past).outbox with
      | nil => simpa [Client.step, hsent] using hlater
      | cons entry rest =>
          obtain ⟨command, callback⟩ := entry
          have hfirst := hcovers.sent (command, callback) (hsent ▸ List.mem_cons_self)
          simp only [Client.step, hsent]
          refine ⟨?_, ?_, hlater.told⟩
          · intro entry hmem
            exact hlater.sent entry (hsent ▸ List.mem_cons_of_mem _ hmem)
          · intro a hmem
            rcases List.mem_append.mp hmem with hold | hnew
            · exact hlater.given a hold
            · rw [List.mem_singleton.mp hnew]
              exact hsound.execute past command callback rest hpast hsent hfirst
  | deliver now =>
      cases hthrown : (client.run origin past).thrown with
      | true => simpa [Client.step, hthrown] using hlater
      | false =>
          cases hinbox : (client.run origin past).inbox with
          | nil => simpa [Client.step, hthrown, hinbox] using hlater
          | cons a rest =>
              simp only [Client.step, hthrown, hinbox, Bool.false_eq_true, ↓reduceIte]
              have hrest : testimony.Covers (past ++ [.deliver now])
                  { client.run origin past with inbox := rest } :=
                ⟨hlater.sent, fun b hmem => hlater.given b (hinbox ▸ List.mem_cons_of_mem _ hmem),
                  hlater.told⟩
              exact hrest.perform (hsound.deliver past a rest now hpast hthrown hinbox
                (hcovers.given a (hinbox ▸ List.mem_cons_self)))

/-- At every moment of the schedule the testimony covers the state. -/
theorem Sound.run (hsound : testimony.Sound client origin schedule)
    (hstart : testimony.Covers [] origin) {past : List (Action Event Clock)}
    (hpast : past <+: schedule) : testimony.Covers past (client.run origin past) := by
  induction past using List.reverseRecOn with
  | nil => exact hstart
  | append_singleton past action ih =>
      rw [run_append]
      exact hsound.step hpast (ih ((List.prefix_append _ _).trans hpast))

theorem covers_start (store : Store) (memory : Memory) :
    testimony.Covers ([] : List (Action Event Clock)) (State.start store memory) := by
  constructor <;> intro _ hmem <;> cases hmem

end Testimony

end Client

end Pipeline
