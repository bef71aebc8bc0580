import RealTimeWs.Pipeline.Invariant

/-! # When things happen

A command executes when all commands sent before it have executed, so what it
meets is known when it is sent. Turns see a clock; along a schedule whose clock
never goes back, a bound on everything that was stamped so far may grow with it.
-/

namespace Pipeline

variable {Store Command Reply Callback Event Clock Output Memory : Type}

/-- The time that a turn sees. -/
def Action.time : Action Event Clock → Option Clock
  | .event _ now => some now
  | .execute => none
  | .deliver now => some now

/-- The clock of a schedule never goes back and starts no earlier than given. -/
def Timely [LE Clock] : Clock → List (Action Event Clock) → Prop
  | _, [] => True
  | start, action :: rest =>
      match action.time with
      | none => Timely start rest
      | some now => start ≤ now ∧ Timely now rest

/-- A first part during which the clock stands still. -/
theorem timely_append_of_const [Preorder Clock] {start : Clock}
    {first second : List (Action Event Clock)}
    (hconst : ∀ action ∈ first, ∀ now, action.time = some now → now = start)
    (hsecond : Timely start second) : Timely start (first ++ second) := by
  induction first with
  | nil => exact hsecond
  | cons action rest ih =>
      have hrest := ih fun action hmem => hconst action (List.mem_cons_of_mem _ hmem)
      rw [List.cons_append, Timely]
      cases htime : action.time with
      | none => exact hrest
      | some now =>
          have hnow := hconst action List.mem_cons_self now htime
          subst hnow
          exact ⟨le_refl _, hrest⟩

namespace Client

variable (client : Client Store Command Reply Callback Event Clock Output Memory)

theorem guarded_append {guard : State Store Command Reply Callback Event Output Memory →
    Action Event Clock → Prop} {s : State Store Command Reply Callback Event Output Memory}
    {first second : List (Action Event Clock)} :
    client.Guarded guard s (first ++ second) ↔
      client.Guarded guard s first ∧ client.Guarded guard (client.run s first) second := by
  induction first generalizing s with
  | nil => simp [Guarded]
  | cons action rest ih => simp [Guarded, ih, and_assoc]

/-- A guard that every action of the schedule meets in any state. -/
theorem guarded_of_forall {guard : State Store Command Reply Callback Event Output Memory →
    Action Event Clock → Prop} (s : State Store Command Reply Callback Event Output Memory)
    (schedule : List (Action Event Clock)) (hguard : ∀ action ∈ schedule, ∀ s, guard s action) :
    client.Guarded guard s schedule := by
  induction schedule generalizing s with
  | nil => trivial
  | cons action rest ih =>
      refine ⟨fun _ => hguard action List.mem_cons_self _, ih _ ?_⟩
      intro action hmem
      exact hguard action (List.mem_cons_of_mem _ hmem)

/-- Flushing keeps the oldest reply in front. -/
theorem flush_inbox_cons {s : State Store Command Reply Callback Event Output Memory}
    {a : Answer Reply Callback} {rest : List (Answer Reply Callback)}
    (hinbox : s.inbox = a :: rest) : ∃ more, (client.flush s).inbox = a :: more := by
  refine ⟨rest ++ client.answersTo s.executed s.store s.outbox, ?_⟩
  rw [← List.cons_append, ← hinbox]
  rfl

/-! ## The execution of a sent command -/

/-- One action executes at most one command, the oldest one, and may send more. -/
theorem outstanding_step (s : State Store Command Reply Callback Event Output Memory)
    (action : Action Event Clock) :
    ((client.step s action).executed = s.executed ∧ (client.step s action).store = s.store ∧
        ∃ more, (client.step s action).outbox = s.outbox ++ more) ∨
      ∃ command callback rest, s.outbox = (command, callback) :: rest ∧
        (client.step s action).executed = s.executed + 1 ∧
        (client.step s action).store = (client.execute s.executed s.store command).1 ∧
        (client.step s action).outbox = rest := by
  cases action with
  | event e now =>
      left
      simp only [step]
      split
      · exact ⟨rfl, rfl, [], (List.append_nil _).symm⟩
      · exact ⟨rfl, rfl, _, rfl⟩
  | execute =>
      cases hsent : s.outbox with
      | nil =>
          exact Or.inl ⟨by simp [step, hsent], by simp [step, hsent], [], by simp [step, hsent]⟩
      | cons entry rest =>
          obtain ⟨command, callback⟩ := entry
          exact Or.inr ⟨command, callback, rest, rfl, by simp [step, hsent], by simp [step, hsent],
            by simp [step, hsent]⟩
  | deliver now =>
      left
      simp only [step]
      split
      · exact ⟨rfl, rfl, [], (List.append_nil _).symm⟩
      · split
        · exact ⟨rfl, rfl, [], (List.append_nil _).symm⟩
        · exact ⟨rfl, rfl, _, rfl⟩

theorem executed_le_run (s : State Store Command Reply Callback Event Output Memory)
    (schedule : List (Action Event Clock)) : s.executed ≤ (client.run s schedule).executed := by
  induction schedule generalizing s with
  | nil => exact le_rfl
  | cons action rest ih =>
      refine le_trans ?_ (ih (client.step s action))
      rcases client.outstanding_step s action with ⟨hsame, _⟩ | ⟨_, _, _, _, hmore, _⟩ <;> omega

/-- When the commands before a sent one have executed, it is the next to execute and
meets the store that they leave. -/
theorem next_of_run {s : State Store Command Reply Callback Event Output Memory}
    {before after : List (Command × Callback)} {entry : Command × Callback}
    (hsent : s.outbox = before ++ entry :: after) {schedule : List (Action Event Clock)}
    (hexecuted : (client.run s schedule).executed = s.executed + before.length) :
    (client.run s schedule).store = client.storeAfter s.executed s.store before ∧
      ∃ more, (client.run s schedule).outbox = entry :: more := by
  induction schedule generalizing s before after with
  | nil =>
      -- Nothing has executed, so nothing was sent before.
      have hempty : before = [] := by
        rw [run_nil] at hexecuted
        apply List.eq_nil_of_length_eq_zero
        omega
      subst hempty
      exact ⟨rfl, after, hsent⟩
  | cons action rest ih =>
      rw [run_cons] at hexecuted ⊢
      rcases client.outstanding_step s action with ⟨hsame, hstore, more, houtbox⟩ |
        ⟨command, callback, later, hhead, hnext, hstore, houtbox⟩
      · rw [hsent, List.append_assoc, List.cons_append] at houtbox
        rw [← hsame] at hexecuted
        obtain ⟨hfinal, hmore⟩ := ih houtbox hexecuted
        exact ⟨by rw [hfinal, hsame, hstore], hmore⟩
      · have hle := client.executed_le_run (client.step s action) rest
        cases before with
        | nil =>
            rw [hexecuted, hnext, List.length_nil] at hle
            omega
        | cons head before =>
            rw [hsent, List.cons_append, List.cons.injEq] at hhead
            obtain ⟨rfl, hlater⟩ := hhead
            rw [← hlater] at houtbox
            rw [List.length_cons] at hexecuted
            obtain ⟨hfinal, hmore⟩ := ih houtbox (by omega)
            exact ⟨by rw [hfinal, hnext, hstore, storeAfter_cons], hmore⟩

/-! ## Clocks -/

/-- An invariant that may grow with the clock is met by every action at its own
time, provided the clock never goes back. -/
theorem guarded_of_timely [Preorder Clock]
    {guard : State Store Command Reply Callback Event Output Memory → Action Event Clock → Prop}
    {invariant : Clock → State Store Command Reply Callback Event Output Memory → Prop}
    (hgrows : ∀ start now s, start ≤ now → invariant start s → invariant now s)
    (hpreserved : ∀ now, client.Preserved
      (fun s action => guard s action ∧ action.time = some now) (invariant now))
    {s : State Store Command Reply Callback Event Output Memory}
    {schedule : List (Action Event Clock)} {start : Clock} (htimely : Timely start schedule)
    (hguarded : client.Guarded guard s schedule) (hinvariant : invariant start (client.flush s)) :
    client.Guarded (fun s action => guard s action ∧
      ∀ now, action.time = some now → invariant now s) s schedule := by
  induction schedule generalizing s start with
  | nil => trivial
  | cons action rest ih =>
      rw [Timely] at htimely
      cases htime : action.time with
      | none =>
          rw [htime] at htimely
          have hexecute : action = .execute := by
            cases action <;> first | rfl | cases htime
          subst hexecute
          refine ⟨fun henabled => ⟨hguarded.1 henabled, fun _ hcontra => by cases hcontra⟩,
            ih htimely hguarded.2 ?_⟩
          rw [flush_step_execute]
          exact hinvariant
      | some now =>
          rw [htime] at htimely
          obtain ⟨hle, hrest⟩ := htimely
          have hnow : invariant now (client.flush s) := hgrows start now _ hle hinvariant
          refine ⟨fun henabled => ⟨hguarded.1 henabled, ?_⟩, ih hrest hguarded.2 ?_⟩
          · intro other hother
            rw [htime, Option.some.injEq] at hother
            exact hother ▸ hnow
          · exact (hpreserved now).step client s action
              (fun henabled => ⟨hguarded.1 henabled, htime⟩) hnow

end Client

end Pipeline
