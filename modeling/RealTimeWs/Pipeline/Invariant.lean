import RealTimeWs.Pipeline.Basic

/-! # Invariants of pipelined clients

Commands execute in sending order, so what a command does is fixed when it is
sent. `flush` executes everything outstanding; it commutes with turns of the
client, so an invariant of flushed states only has to be preserved by turns whose
commands take effect at once. What a command meets when it executes much later is
recovered from what its batch met when it was sent.
-/

namespace Pipeline.Client

variable {Store Command Reply Callback Event Clock Output Memory : Type}
variable (client : Client Store Command Reply Callback Event Clock Output Memory)

/-- Execute every command that is still in the outbox. -/
def flush (s : State Store Command Reply Callback Event Output Memory) :
    State Store Command Reply Callback Event Output Memory :=
  { s with
    store := client.storeAfter s.executed s.store s.outbox
    outbox := []
    inbox := s.inbox ++ client.answersTo s.executed s.store s.outbox
    executed := s.executed + s.outbox.length }

section Flush

variable (s : State Store Command Reply Callback Event Output Memory)

@[simp] theorem flush_outbox : (client.flush s).outbox = [] := rfl

@[simp] theorem flush_memory : (client.flush s).memory = s.memory := rfl

@[simp] theorem flush_outputs : (client.flush s).outputs = s.outputs := rfl

@[simp] theorem flush_history : (client.flush s).history = s.history := rfl

@[simp] theorem flush_thrown : (client.flush s).thrown = s.thrown := rfl

theorem flush_of_outbox_nil (hempty : s.outbox = []) : client.flush s = s := by
  cases s
  simp only at hempty
  subst hempty
  simp [flush]

/-- Executing the oldest command early makes no difference to what is flushed. -/
theorem flush_step_execute : client.flush (client.step s .execute) = client.flush s := by
  cases hsent : s.outbox with
  | nil => simp [step, hsent]
  | cons entry rest =>
      obtain ⟨command, callback⟩ := entry
      simp only [step, hsent, flush, storeAfter_cons, answersTo_cons, List.length_cons,
        List.append_assoc, List.singleton_append]
      congr 1
      omega

/-- Flushing before a turn that only appends to the outbox makes no difference. -/
theorem flush_perform (turn : Turn Command Callback Output Memory) :
    client.flush (s.perform turn) = client.flush ((client.flush s).perform turn) := by
  simp only [flush, State.perform, storeAfter_append, answersTo_append, List.nil_append,
    List.append_assoc, List.length_append]
  congr 1
  omega

theorem flush_record (e : Event) : client.flush (s.record e) = (client.flush s).record e := by
  simp [flush, State.record]

theorem flush_occur (e : Event) (now : Clock) :
    client.flush (client.occur s e now) = client.flush (client.occur (client.flush s) e now) := by
  rw [occur, flush_perform, flush_record]
  rfl

theorem flush_answer (a : Answer Reply Callback) (now : Clock) :
    client.flush (client.answer s a now) = client.flush (client.answer (client.flush s) a now) :=
  client.flush_perform s _

/-- A turn from a flushed state, with its commands executed at once. -/
theorem flush_perform_of_outbox_nil (hempty : s.outbox = [])
    (turn : Turn Command Callback Output Memory) :
    client.flush (s.perform turn) =
      { s with
        store := client.storeAfter s.executed s.store turn.sends
        outbox := []
        inbox := s.inbox ++ client.answersTo s.executed s.store turn.sends
        executed := s.executed + turn.sends.length
        memory := turn.memory
        outputs := s.outputs ++ turn.outputs
        thrown := turn.thrown } := by
  simp [flush, State.perform, hempty]

end Flush

/-! ## Runs under a guard -/

/-- Events need a living client, deliveries also a reply that has arrived. -/
def Enabled (s : State Store Command Reply Callback Event Output Memory) :
    Action Event Clock → Prop
  | .event _ _ => s.thrown = false
  | .execute => True
  | .deliver _ => s.thrown = false ∧ s.inbox ≠ []

/-- Every enabled action of the schedule meets the guard in the state before it.
The guard sees that state with all sent commands executed. -/
def Guarded (guard : State Store Command Reply Callback Event Output Memory →
    Action Event Clock → Prop) :
    State Store Command Reply Callback Event Output Memory → List (Action Event Clock) → Prop
  | _, [] => True
  | s, action :: rest =>
      (Enabled s action → guard (client.flush s) action) ∧
        Guarded guard (client.step s action) rest

/-- A guard on events alone only has to be met by the events of the schedule. -/
theorem guarded_of_events (allowed : Event → Prop)
    (s : State Store Command Reply Callback Event Output Memory)
    (schedule : List (Action Event Clock))
    (hallowed : ∀ e now, Action.event e now ∈ schedule → allowed e) :
    client.Guarded (fun _ action => ∀ e now, action = .event e now → allowed e) s schedule := by
  induction schedule generalizing s with
  | nil => trivial
  | cons action rest ih =>
      refine ⟨?_, ih _ fun e now hmem => hallowed e now (List.mem_cons_of_mem _ hmem)⟩
      intro _ e now heq
      exact hallowed e now (heq ▸ List.mem_cons_self)

theorem guarded_trivial (s : State Store Command Reply Callback Event Output Memory)
    (schedule : List (Action Event Clock)) : client.Guarded (fun _ _ => True) s schedule := by
  induction schedule generalizing s with
  | nil => trivial
  | cons action rest ih => exact ⟨fun _ => trivial, ih _⟩

theorem Guarded.imp {first second : State Store Command Reply Callback Event Output Memory →
    Action Event Clock → Prop} {s : State Store Command Reply Callback Event Output Memory}
    {schedule : List (Action Event Clock)} (hguarded : client.Guarded first s schedule)
    (himp : ∀ s action, first s action → second s action) :
    client.Guarded second s schedule := by
  induction schedule generalizing s with
  | nil => trivial
  | cons action rest ih =>
      exact ⟨fun henabled => himp _ _ (hguarded.1 henabled), ih hguarded.2⟩

theorem Guarded.and {first second : State Store Command Reply Callback Event Output Memory →
    Action Event Clock → Prop} {s : State Store Command Reply Callback Event Output Memory}
    {schedule : List (Action Event Clock)} (hfirst : client.Guarded first s schedule)
    (hsecond : client.Guarded second s schedule) :
    client.Guarded (fun s action => first s action ∧ second s action) s schedule := by
  induction schedule generalizing s with
  | nil => trivial
  | cons action rest ih =>
      exact ⟨fun henabled => ⟨hfirst.1 henabled, hsecond.1 henabled⟩, ih hfirst.2 hsecond.2⟩

section Rules

variable (guard : State Store Command Reply Callback Event Output Memory →
  Action Event Clock → Prop)
variable (invariant : State Store Command Reply Callback Event Output Memory → Prop)

/-- What an invariant has to satisfy: turns from flushed states, with their
commands executed at once, preserve it. -/
structure Preserved : Prop where
  event : ∀ s e now, s.outbox = [] → s.thrown = false → guard s (.event e now) → invariant s →
    invariant (client.flush (client.occur s e now))
  deliver : ∀ s a rest now, s.outbox = [] → s.thrown = false → s.inbox = a :: rest →
    guard s (.deliver now) → invariant s →
    invariant (client.flush (client.answer { s with inbox := rest } a now))

variable {guard invariant}

theorem Preserved.of_imp {stronger : State Store Command Reply Callback Event Output Memory →
    Action Event Clock → Prop} (hpreserved : client.Preserved guard invariant)
    (himp : ∀ s action, stronger s action → guard s action) :
    client.Preserved stronger invariant where
  event := fun s e now hempty hthrown hguard =>
    hpreserved.event s e now hempty hthrown (himp s _ hguard)
  deliver := fun s a rest now hempty hthrown hinbox hguard =>
    hpreserved.deliver s a rest now hempty hthrown hinbox (himp s _ hguard)

/-- One action of a guarded schedule preserves an invariant of flushed states. -/
theorem Preserved.step (hpreserved : client.Preserved guard invariant)
    (s : State Store Command Reply Callback Event Output Memory) (action : Action Event Clock)
    (hguard : Enabled s action → guard (client.flush s) action)
    (hinvariant : invariant (client.flush s)) :
    invariant (client.flush (client.step s action)) := by
  cases action with
  | event e now =>
      cases hthrown : s.thrown with
      | true => simpa [Client.step, hthrown] using hinvariant
      | false =>
          simp only [Client.step, hthrown, Bool.false_eq_true, ↓reduceIte]
          rw [flush_occur]
          exact hpreserved.event _ e now rfl hthrown (hguard hthrown) hinvariant
  | execute =>
      rw [flush_step_execute]
      exact hinvariant
  | deliver now =>
      cases hthrown : s.thrown with
      | true => simpa [Client.step, hthrown] using hinvariant
      | false =>
          cases hinbox : s.inbox with
          | nil => simpa [Client.step, hthrown, hinbox] using hinvariant
          | cons a rest =>
              simp only [Client.step, hthrown, hinbox, Bool.false_eq_true, ↓reduceIte]
              rw [flush_answer]
              refine hpreserved.deliver (client.flush s) a
                (rest ++ client.answersTo s.executed s.store s.outbox) now rfl hthrown ?_
                (hguard ⟨hthrown, by simp [hinbox]⟩) hinvariant
              simp [flush, hinbox]

/-- An invariant of flushed states holds along every guarded run. -/
theorem Preserved.run (hpreserved : client.Preserved guard invariant)
    (s : State Store Command Reply Callback Event Output Memory)
    (schedule : List (Action Event Clock)) (hguarded : client.Guarded guard s schedule)
    (hinvariant : invariant (client.flush s)) :
    invariant (client.flush (client.run s schedule)) := by
  induction schedule generalizing s with
  | nil => exact hinvariant
  | cons action rest ih =>
      exact ih _ hguarded.2 (hpreserved.step client s action hguarded.1 hinvariant)

/-- Further invariants may be proved as if the guard promised the ones before. -/
theorem Preserved.guarded (hpreserved : client.Preserved guard invariant)
    (s : State Store Command Reply Callback Event Output Memory)
    (schedule : List (Action Event Clock)) (hguarded : client.Guarded guard s schedule)
    (hinvariant : invariant (client.flush s)) :
    client.Guarded (fun s action => guard s action ∧ invariant s) s schedule := by
  induction schedule generalizing s with
  | nil => trivial
  | cons action rest ih =>
      refine ⟨fun henabled => ⟨hguarded.1 henabled, hinvariant⟩, ih _ hguarded.2 ?_⟩
      exact hpreserved.step client s action hguarded.1 hinvariant

/-- In a quiescent state there is nothing to flush. -/
theorem flush_of_quiescent {s : State Store Command Reply Callback Event Output Memory}
    (hquiet : s.Quiescent) : client.flush s = s :=
  client.flush_of_outbox_nil s hquiet.1

/-! ## What commands meet when they execute -/

/-- Every command of a batch satisfies `meets` on the store it executes on. -/
def Meets (meets : Store → Command → Callback → Prop) :
    Nat → Store → List (Command × Callback) → Prop
  | _, _, [] => True
  | n, store, (command, callback) :: rest =>
      meets store command callback ∧ Meets meets (n + 1) (client.execute n store command).1 rest

theorem meets_append (meets : Store → Command → Callback → Prop) (n : Nat) (store : Store)
    (first second : List (Command × Callback)) :
    client.Meets meets n store (first ++ second) ↔
      client.Meets meets n store first ∧
        client.Meets meets (n + first.length) (client.storeAfter n store first) second := by
  induction first generalizing n store with
  | nil => simp [Meets]
  | cons entry rest ih =>
      obtain ⟨command, callback⟩ := entry
      have hlength : n + (rest.length + 1) = n + 1 + rest.length := by omega
      simp only [List.cons_append, Meets, storeAfter_cons, List.length_cons, hlength, ih, and_assoc]

/-- Commands that meet their obligation on every store. -/
theorem meets_of_forall (meets : Store → Command → Callback → Prop) (n : Nat) (store : Store)
    (batch : List (Command × Callback))
    (hall : ∀ command callback, (command, callback) ∈ batch →
      ∀ store, meets store command callback) :
    client.Meets meets n store batch := by
  induction batch generalizing n store with
  | nil => trivial
  | cons entry rest ih =>
      obtain ⟨command, callback⟩ := entry
      refine ⟨hall command callback List.mem_cons_self store, ih _ _ ?_⟩
      intro command callback hmem
      exact hall command callback (List.mem_cons_of_mem _ hmem)

/-- The obligation on the commands of each turn, at the store the turn sees. -/
structure Sends (guard : State Store Command Reply Callback Event Output Memory →
    Action Event Clock → Prop)
    (invariant : State Store Command Reply Callback Event Output Memory → Prop)
    (meets : Store → Command → Callback → Prop) : Prop where
  event : ∀ s e now, s.outbox = [] → guard s (.event e now) → invariant s →
    client.Meets meets s.executed s.store (client.onEvent e now s.memory).sends
  deliver : ∀ s a rest now, s.outbox = [] → s.inbox = a :: rest → guard s (.deliver now) →
    invariant s → client.Meets meets s.executed s.store
      (client.onReply a.callback a.ordinal a.reply now s.memory).sends

variable {meets : Store → Command → Callback → Prop}

/-- One action keeps the outstanding commands within their obligation. -/
theorem Sends.step (hsends : client.Sends guard invariant meets)
    (s : State Store Command Reply Callback Event Output Memory) (action : Action Event Clock)
    (hguard : Enabled s action → guard (client.flush s) action)
    (hinvariant : invariant (client.flush s))
    (hmeets : client.Meets meets s.executed s.store s.outbox) :
    client.Meets meets (client.step s action).executed (client.step s action).store
      (client.step s action).outbox := by
  cases action with
  | event e now =>
      cases hthrown : s.thrown with
      | true => simpa [Client.step, hthrown] using hmeets
      | false =>
          simp only [Client.step, hthrown, Bool.false_eq_true, ↓reduceIte, occur, State.perform,
            State.record, meets_append]
          exact ⟨hmeets, hsends.event (client.flush s) e now rfl (hguard hthrown) hinvariant⟩
  | execute =>
      cases hsent : s.outbox with
      | nil => simpa [Client.step, hsent] using hmeets
      | cons entry rest =>
          obtain ⟨command, callback⟩ := entry
          rw [hsent] at hmeets
          simpa [Client.step, hsent] using hmeets.2
  | deliver now =>
      cases hthrown : s.thrown with
      | true => simpa [Client.step, hthrown] using hmeets
      | false =>
          cases hinbox : s.inbox with
          | nil => simpa [Client.step, hthrown, hinbox] using hmeets
          | cons a rest =>
              simp only [Client.step, hthrown, hinbox, Bool.false_eq_true, ↓reduceIte, answer,
                State.perform, meets_append]
              refine ⟨hmeets, hsends.deliver (client.flush s) a
                (rest ++ client.answersTo s.executed s.store s.outbox) now rfl ?_
                (hguard ⟨hthrown, by simp [hinbox]⟩) hinvariant⟩
              simp [flush, hinbox]

/-- Along a guarded run every command still meets its obligation when it executes. -/
theorem Sends.run (hsends : client.Sends guard invariant meets)
    (hpreserved : client.Preserved guard invariant)
    (s : State Store Command Reply Callback Event Output Memory)
    (schedule : List (Action Event Clock)) (hguarded : client.Guarded guard s schedule)
    (hinvariant : invariant (client.flush s))
    (hmeets : client.Meets meets s.executed s.store s.outbox) :
    client.Meets meets (client.run s schedule).executed (client.run s schedule).store
      (client.run s schedule).outbox := by
  induction schedule generalizing s with
  | nil => exact hmeets
  | cons action rest ih =>
      exact ih _ hguarded.2 (hpreserved.step client s action hguarded.1 hinvariant)
        (hsends.step client s action hguarded.1 hinvariant hmeets)

/-- The store changes one command at a time, and each of them meets its obligation. -/
theorem store_step {property : Store → Prop}
    (hexecute : ∀ n store command callback, meets store command callback → property store →
      property (client.execute n store command).1)
    (s : State Store Command Reply Callback Event Output Memory) (action : Action Event Clock)
    (hmeets : client.Meets meets s.executed s.store s.outbox) (hproperty : property s.store) :
    property (client.step s action).store := by
  cases action with
  | event e now =>
      simp only [Client.step]
      split <;> exact hproperty
  | execute =>
      cases hsent : s.outbox with
      | nil => simpa [Client.step, hsent] using hproperty
      | cons entry rest =>
          obtain ⟨command, callback⟩ := entry
          rw [hsent] at hmeets
          simp only [Client.step, hsent]
          exact hexecute _ _ _ callback hmeets.1 hproperty
  | deliver now =>
      simp only [Client.step]
      split
      · exact hproperty
      · split <;> exact hproperty

/-- A property of the store that such commands keep holds in every state of a run,
not only in flushed ones. -/
theorem Sends.store_run (hsends : client.Sends guard invariant meets)
    (hpreserved : client.Preserved guard invariant) {property : Store → Prop}
    (hexecute : ∀ n store command callback, meets store command callback → property store →
      property (client.execute n store command).1)
    (s : State Store Command Reply Callback Event Output Memory)
    (schedule : List (Action Event Clock)) (hguarded : client.Guarded guard s schedule)
    (hinvariant : invariant (client.flush s))
    (hmeets : client.Meets meets s.executed s.store s.outbox) (hproperty : property s.store) :
    property (client.run s schedule).store := by
  induction schedule generalizing s with
  | nil => exact hproperty
  | cons action rest ih =>
      exact ih _ hguarded.2 (hpreserved.step client s action hguarded.1 hinvariant)
        (hsends.step client s action hguarded.1 hinvariant hmeets)
        (client.store_step hexecute s action hmeets hproperty)

end Rules

/-! ## The order of outstanding replies -/

theorem answersTo_ordinal (n : Nat) (store : Store) (batch : List (Command × Callback))
    {a : Answer Reply Callback} (hmem : a ∈ client.answersTo n store batch) :
    n ≤ a.ordinal ∧ a.ordinal < n + batch.length := by
  induction batch generalizing n store with
  | nil => simp at hmem
  | cons entry rest ih =>
      obtain ⟨command, callback⟩ := entry
      rw [answersTo_cons, List.mem_cons] at hmem
      rcases hmem with rfl | hmem
      · simp
      · have htail := ih _ _ hmem
        simp only [List.length_cons]
        omega

theorem answersTo_sorted (n : Nat) (store : Store) (batch : List (Command × Callback)) :
    (client.answersTo n store batch).Pairwise fun a b => a.ordinal < b.ordinal := by
  induction batch generalizing n store with
  | nil => exact List.Pairwise.nil
  | cons entry rest ih =>
      obtain ⟨command, callback⟩ := entry
      rw [answersTo_cons, List.pairwise_cons]
      refine ⟨fun a hmem => ?_, ih _ _⟩
      have := (client.answersTo_ordinal _ _ _ hmem).1
      simp only
      omega

/-- Replies arrive in the order of their commands, and all of them belong to the
past of the connection, like the events that have been handled. -/
structure Ordered (s : State Store Command Reply Callback Event Output Memory) : Prop where
  sorted : s.inbox.Pairwise fun a b => a.ordinal < b.ordinal
  below : ∀ a ∈ s.inbox, a.ordinal < s.executed
  past : ∀ entry ∈ s.history, entry.1 ≤ s.executed
  recorded : s.history.Pairwise fun earlier later => earlier.1 ≤ later.1

theorem Ordered.perform {s : State Store Command Reply Callback Event Output Memory}
    (hordered : Ordered s) (hempty : s.outbox = []) (turn : Turn Command Callback Output Memory) :
    Ordered (client.flush (s.perform turn)) := by
  rw [flush_perform_of_outbox_nil client s hempty turn]
  constructor
  · rw [List.pairwise_append]
    refine ⟨hordered.sorted, client.answersTo_sorted _ _ _, ?_⟩
    intro a ha b hb
    exact lt_of_lt_of_le (hordered.below a ha) (client.answersTo_ordinal _ _ _ hb).1
  · intro a hmem
    rcases List.mem_append.mp hmem with hold | hnew
    · exact lt_of_lt_of_le (hordered.below a hold) (Nat.le_add_right _ _)
    · exact (client.answersTo_ordinal _ _ _ hnew).2
  · intro entry hmem
    exact (hordered.past entry hmem).trans (Nat.le_add_right _ _)
  · exact hordered.recorded

theorem preserved_ordered (guard : State Store Command Reply Callback Event Output Memory →
    Action Event Clock → Prop) : client.Preserved guard Ordered where
  event := by
    intro s e now hempty _ _ hordered
    have hrecord : Ordered (s.record e) := by
      refine ⟨hordered.sorted, hordered.below, ?_, ?_⟩
      · intro entry hmem
        rcases List.mem_append.mp hmem with hold | hnew
        · exact hordered.past entry hold
        · rw [List.mem_singleton.mp hnew]
          simp [hempty, State.record]
      · refine List.pairwise_append.mpr ⟨hordered.recorded, List.pairwise_singleton _ _, ?_⟩
        intro earlier hmem later hlater
        rw [List.mem_singleton.mp hlater]
        exact (hordered.past earlier hmem).trans (Nat.le_add_right _ _)
    exact hrecord.perform client hempty _
  deliver := by
    intro s a rest now hempty _ hinbox _ hordered
    have hrest : Ordered { s with inbox := rest } := by
      refine ⟨?_, ?_, hordered.past, hordered.recorded⟩
      · have hsorted := hordered.sorted
        rw [hinbox] at hsorted
        exact hsorted.of_cons
      · intro b hmem
        exact hordered.below b (hinbox ▸ List.mem_cons_of_mem _ hmem)
    exact hrest.perform client hempty _

/-- The oldest reply comes before every other one. -/
theorem Ordered.head_lt {s : State Store Command Reply Callback Event Output Memory}
    {a b : Answer Reply Callback} {rest : List (Answer Reply Callback)} (hordered : Ordered s)
    (hinbox : s.inbox = a :: rest) (hmem : b ∈ rest) : a.ordinal < b.ordinal := by
  have hsorted := hordered.sorted
  rw [hinbox] at hsorted
  exact List.rel_of_pairwise_cons hsorted hmem

theorem Ordered.not_lt_head {s : State Store Command Reply Callback Event Output Memory}
    {a b : Answer Reply Callback} {rest : List (Answer Reply Callback)} (hordered : Ordered s)
    (hinbox : s.inbox = a :: rest) (hmem : b ∈ s.inbox) : ¬ b.ordinal < a.ordinal := by
  rw [hinbox] at hmem
  rcases List.mem_cons.mp hmem with rfl | hrest
  · exact lt_irrefl _
  · exact (hordered.head_lt hinbox hrest).not_gt

/-- The events of a run are those of its schedule. -/
theorem mem_history_run {s : State Store Command Reply Callback Event Output Memory}
    {schedule : List (Action Event Clock)} {entry : Nat × Event}
    (hmem : entry ∈ (client.run s schedule).history) :
    entry ∈ s.history ∨ ∃ now, .event entry.2 now ∈ schedule := by
  induction schedule generalizing s with
  | nil => exact Or.inl hmem
  | cons action rest ih =>
      rcases ih hmem with hstep | ⟨now, hlater⟩
      · cases action with
        | event e now =>
            simp only [step] at hstep
            split at hstep
            · exact Or.inl hstep
            · rcases List.mem_append.mp hstep with hold | hnew
              · exact Or.inl hold
              · rw [List.mem_singleton.mp hnew]
                exact Or.inr ⟨now, List.mem_cons_self⟩
        | execute =>
            left
            simp only [step] at hstep
            split at hstep <;> exact hstep
        | deliver now =>
            left
            simp only [step] at hstep
            split at hstep
            · exact hstep
            · split at hstep <;> exact hstep
      · exact Or.inr ⟨now, List.mem_cons_of_mem _ hlater⟩

end Pipeline.Client
