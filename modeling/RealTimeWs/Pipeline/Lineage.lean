import RealTimeWs.Pipeline.Basic

/-! # The commands of one request

A request sends commands, the callbacks of these send further ones, and so on. The
ordinals of those commands whose callbacks have not run yet are followed through a
run; the request is finished when there are none left. What all commands of a
request have in common is derived from what a callback may send.
-/

namespace Pipeline.Client

variable {Store Command Reply Callback Event Clock Output Memory : Type}
variable (client : Client Store Command Reply Callback Event Clock Output Memory)

/-- The ordinals that the next commands of a state will get. -/
def fresh (s : State Store Command Reply Callback Event Output Memory) (count : Nat) :
    Finset Nat :=
  Finset.Ico (s.executed + s.outbox.length) (s.executed + s.outbox.length + count)

/-- The commands of a request after one more action: a callback of the request is
replaced by what it sends. -/
def outstanding (s : State Store Command Reply Callback Event Output Memory) (own : Finset Nat) :
    Action Event Clock → Finset Nat
  | .deliver now =>
      if s.thrown then own
      else match s.inbox with
        | [] => own
        | a :: _ =>
            if a.ordinal ∈ own then own.erase a.ordinal ∪
              fresh s (client.onReply a.callback a.ordinal a.reply now s.memory).sends.length
            else own
  | _ => own

/-- The commands of a request that are outstanding after a whole schedule. -/
def follow (s : State Store Command Reply Callback Event Output Memory) (own : Finset Nat) :
    List (Action Event Clock) → Finset Nat
  | [] => own
  | action :: rest => follow (client.step s action) (client.outstanding s own action) rest

/-- A command of the request that has not been executed. -/
def Queued (s : State Store Command Reply Callback Event Output Memory) (own : Finset Nat)
    (entry : Command × Callback) : Prop :=
  ∃ i, s.outbox[i]? = some entry ∧ s.executed + i ∈ own

/-- A reply to the request whose callback has not run. -/
def Held (s : State Store Command Reply Callback Event Output Memory) (own : Finset Nat)
    (holds : Answer Reply Callback → Prop) : Prop :=
  ∃ a ∈ s.inbox, a.ordinal ∈ own ∧ holds a

/-- Ordinals belong to what they number, and every command and callback of the
request is of a known kind. -/
structure Lineage (sent : Command × Callback → Prop) (received : Callback → Prop)
    (s : State Store Command Reply Callback Event Output Memory) (own : Finset Nat) : Prop where
  bounded : ∀ n ∈ own, n < s.executed + s.outbox.length
  past : ∀ a ∈ s.inbox, a.ordinal < s.executed
  sorted : s.inbox.Pairwise fun a b => a.ordinal < b.ordinal
  queued : ∀ entry, Queued s own entry → sent entry
  held : ∀ a ∈ s.inbox, a.ordinal ∈ own → received a.callback

/-! ## Turns -/

section Turns

variable {s : State Store Command Reply Callback Event Output Memory} {own : Finset Nat}
variable {entry : Command × Callback}

theorem Queued.perform (hqueued : Queued s own entry)
    (turn : Turn Command Callback Output Memory) : Queued (s.perform turn) own entry := by
  obtain ⟨i, hentry, hown⟩ := hqueued
  refine ⟨i, ?_, hown⟩
  rw [State.perform, List.getElem?_append_left (List.getElem?_eq_some_iff.mp hentry).1]
  exact hentry

theorem Queued.mono {larger : Finset Nat} (hqueued : Queued s own entry)
    (hsubset : own ⊆ larger) : Queued s larger entry := by
  obtain ⟨i, hentry, hown⟩ := hqueued
  exact ⟨i, hentry, hsubset hown⟩

/-- What a turn sends is numbered from the end of the outbox. -/
theorem queued_of_mem_sends {turn : Turn Command Callback Output Memory}
    (hmem : entry ∈ turn.sends) (own : Finset Nat) :
    Queued (s.perform turn) (own ∪ fresh s turn.sends.length) entry := by
  obtain ⟨i, hlt, hentry⟩ := List.getElem_of_mem hmem
  refine ⟨s.outbox.length + i, ?_, ?_⟩
  · rw [State.perform, List.getElem?_append_right (Nat.le_add_right _ _), Nat.add_sub_cancel_left,
      List.getElem?_eq_getElem hlt, hentry]
  · apply Finset.mem_union_right
    rw [fresh, Finset.mem_Ico]
    simp only [State.perform]
    omega

/-- A queued command was queued before the turn, or the turn has sent it. -/
theorem queued_perform_cases {turn : Turn Command Callback Output Memory}
    (hqueued : Queued (s.perform turn) own entry) :
    Queued s own entry ∨
      entry ∈ turn.sends ∧ ∃ n ∈ own, s.executed + s.outbox.length ≤ n := by
  obtain ⟨i, hentry, hown⟩ := hqueued
  rw [State.perform, List.getElem?_append] at hentry
  split at hentry
  · exact .inl ⟨i, hentry, hown⟩
  · refine .inr ⟨List.mem_of_getElem? hentry, s.executed + i, hown, ?_⟩
    omega

end Turns

/-! ## Steps -/

section Steps

variable {s : State Store Command Reply Callback Event Output Memory} {own : Finset Nat}
variable {entry : Command × Callback}

/-- The oldest command is executed and its reply is held; the others move up. -/
theorem Queued.execute (hqueued : Queued s own entry) :
    Queued (client.step s .execute) own entry ∨
      (∃ rest, s.outbox = entry :: rest) ∧ s.executed ∈ own := by
  obtain ⟨i, hentry, hown⟩ := hqueued
  cases hsent : s.outbox with
  | nil =>
      rw [hsent] at hentry
      cases hentry
  | cons first rest =>
      rw [hsent] at hentry
      cases i with
      | zero =>
          right
          rw [List.getElem?_cons_zero, Option.some.injEq] at hentry
          exact ⟨⟨rest, by rw [hentry]⟩, hown⟩
      | succ i =>
          left
          refine ⟨i, ?_, ?_⟩
          · simp only [step, hsent]
            exact hentry
          · simp only [step, hsent]
            rw [Nat.add_assoc, Nat.add_comm 1]
            exact hown

theorem Held.execute {holds : Answer Reply Callback → Prop} (hheld : Held s own holds) :
    Held (client.step s .execute) own holds := by
  obtain ⟨a, hmem, hrest⟩ := hheld
  refine ⟨a, ?_, hrest⟩
  simp only [step]
  split
  · exact hmem
  · exact List.mem_append_left _ hmem

/-- The reply to the oldest command is held under its own ordinal. -/
theorem held_of_execute {command : Command} {callback : Callback}
    {rest : List (Command × Callback)} (hsent : s.outbox = (command, callback) :: rest)
    (hown : s.executed ∈ own) {holds : Answer Reply Callback → Prop}
    (hholds : holds ⟨s.executed, (client.execute s.executed s.store command).2, callback⟩) :
    Held (client.step s .execute) own holds := by
  refine ⟨_, ?_, hown, hholds⟩
  simp only [step, hsent]
  exact List.mem_append_right _ (List.mem_singleton_self _)

variable {a : Answer Reply Callback} {rest : List (Answer Reply Callback)}

/-- What a reply leaves outstanding. -/
theorem outstanding_deliver (hthrown : s.thrown = false) (hinbox : s.inbox = a :: rest)
    (now : Clock) :
    client.outstanding s own (.deliver now) =
      if a.ordinal ∈ own then own.erase a.ordinal ∪
        fresh s (client.onReply a.callback a.ordinal a.reply now s.memory).sends.length
      else own := by
  simp [outstanding, hthrown, hinbox]

theorem subset_outstanding (hthrown : s.thrown = false) (hinbox : s.inbox = a :: rest)
    (now : Clock) : own.erase a.ordinal ⊆ client.outstanding s own (.deliver now) := by
  rw [client.outstanding_deliver hthrown hinbox]
  split
  · exact Finset.subset_union_left
  · exact Finset.erase_subset _ _

variable {sent : Command × Callback → Prop} {received : Callback → Prop}

/-- A command that waits is not numbered like a reply. -/
theorem Queued.deliver (hlineage : Lineage sent received s own) (hqueued : Queued s own entry)
    (hthrown : s.thrown = false) (hinbox : s.inbox = a :: rest) (now : Clock) :
    Queued (client.answer { s with inbox := rest } a now)
      (client.outstanding s own (.deliver now)) entry := by
  obtain ⟨i, hentry, hown⟩ := hqueued
  have hpast := hlineage.past a (hinbox ▸ List.mem_cons_self)
  have hkept : Queued { s with inbox := rest } (own.erase a.ordinal) entry := by
    refine ⟨i, hentry, Finset.mem_erase.mpr ⟨?_, hown⟩⟩
    change s.executed + i ≠ a.ordinal
    omega
  exact (hkept.perform _).mono (client.subset_outstanding hthrown hinbox now)

/-- A held reply stays held unless its callback runs. -/
theorem Held.deliver (hlineage : Lineage sent received s own)
    {holds : Answer Reply Callback → Prop} (hheld : Held s own holds)
    (hthrown : s.thrown = false) (hinbox : s.inbox = a :: rest) (now : Clock) :
    Held (client.answer { s with inbox := rest } a now)
      (client.outstanding s own (.deliver now)) holds ∨ (holds a ∧ a.ordinal ∈ own) := by
  obtain ⟨b, hmem, hown, hholds⟩ := hheld
  have hsorted := hlineage.sorted
  rw [hinbox] at hmem hsorted
  rcases List.mem_cons.mp hmem with rfl | hrest
  · exact .inr ⟨hholds, hown⟩
  · left
    refine ⟨b, hrest, ?_, hholds⟩
    apply client.subset_outstanding hthrown hinbox now
    exact Finset.mem_erase.mpr ⟨(List.rel_of_pairwise_cons hsorted hrest).ne', hown⟩

/-- What a callback of the request sends belongs to the request. -/
theorem queued_of_deliver (hthrown : s.thrown = false) (hinbox : s.inbox = a :: rest)
    (hown : a.ordinal ∈ own) (now : Clock)
    (hmem : entry ∈ (client.onReply a.callback a.ordinal a.reply now s.memory).sends) :
    Queued (client.answer { s with inbox := rest } a now)
      (client.outstanding s own (.deliver now)) entry := by
  rw [client.outstanding_deliver hthrown hinbox, if_pos hown]
  exact queued_of_mem_sends hmem (own.erase a.ordinal)

end Steps

/-! ## Commands of a known kind -/

section Kinds

variable {sent : Command × Callback → Prop} {received : Callback → Prop}

/-- What callbacks of a kind send, and what replies to commands of a kind run, stays
within the two kinds. -/
structure Closed (sent : Command × Callback → Prop) (received : Callback → Prop) : Prop where
  replied : ∀ entry, sent entry → received entry.2
  sends : ∀ callback, received callback → ∀ n reply now memory,
    ∀ entry ∈ (client.onReply callback n reply now memory).sends, sent entry

variable {s : State Store Command Reply Callback Event Output Memory} {own : Finset Nat}

theorem Lineage.event (hlineage : Lineage sent received s own) (e : Event) (now : Clock) :
    Lineage sent received (client.occur s e now) own := by
  refine ⟨?_, hlineage.past, hlineage.sorted, ?_, hlineage.held⟩
  · intro n hown
    have hlt := hlineage.bounded n hown
    simp only [occur, State.perform, State.record, List.length_append]
    omega
  · intro entry hqueued
    rcases queued_perform_cases hqueued with hold | ⟨_, n, hown, hle⟩
    · exact hlineage.queued entry hold
    · exact absurd (hlineage.bounded n hown) (not_lt.mpr hle)

theorem Lineage.execute (hclosed : client.Closed sent received)
    (hlineage : Lineage sent received s own) :
    Lineage sent received (client.step s .execute) own := by
  cases hsent : s.outbox with
  | nil => simpa [step, hsent] using hlineage
  | cons first rest =>
      have hlast : s.executed ∈ own → sent first := by
        intro hown
        exact hlineage.queued first ⟨0, by rw [hsent]; rfl, hown⟩
      simp only [step, hsent]
      constructor
      · intro n hown
        have hlt := hlineage.bounded n hown
        rw [hsent, List.length_cons] at hlt
        simp only
        omega
      · intro a hmem
        rcases List.mem_append.mp hmem with hold | hnew
        · exact (hlineage.past a hold).trans (Nat.lt_succ_self _)
        · rw [List.mem_singleton.mp hnew]
          exact Nat.lt_succ_self _
      · refine List.pairwise_append.mpr ⟨hlineage.sorted, List.pairwise_singleton _ _, ?_⟩
        intro a hold b hnew
        rw [List.mem_singleton.mp hnew]
        exact hlineage.past a hold
      · intro entry hqueued
        obtain ⟨i, hentry, hown⟩ := hqueued
        apply hlineage.queued entry
        refine ⟨i + 1, ?_, ?_⟩
        · rw [hsent]
          exact hentry
        · rw [Nat.add_comm i, ← Nat.add_assoc]
          exact hown
      · intro a hmem hown
        rcases List.mem_append.mp hmem with hold | hnew
        · exact hlineage.held a hold hown
        · rw [List.mem_singleton.mp hnew] at hown ⊢
          exact hclosed.replied first (hlast hown)

theorem Lineage.deliver (hclosed : client.Closed sent received)
    (hlineage : Lineage sent received s own) {a : Answer Reply Callback}
    {rest : List (Answer Reply Callback)} (hthrown : s.thrown = false)
    (hinbox : s.inbox = a :: rest) (now : Clock) :
    Lineage sent received (client.answer { s with inbox := rest } a now)
      (client.outstanding s own (.deliver now)) := by
  have hrest : ∀ b ∈ rest, b ∈ s.inbox := fun b hmem => hinbox ▸ List.mem_cons_of_mem _ hmem
  have hcases : ∀ n ∈ client.outstanding s own (.deliver now), n ∈ own ∨
      a.ordinal ∈ own ∧
        n ∈ fresh s (client.onReply a.callback a.ordinal a.reply now s.memory).sends.length := by
    intro n hn
    rw [client.outstanding_deliver hthrown hinbox] at hn
    split at hn
    next hown =>
      rcases Finset.mem_union.mp hn with hold | hnew
      · exact .inl (Finset.mem_of_mem_erase hold)
      · exact .inr ⟨hown, hnew⟩
    next => exact .inl hn
  constructor
  · intro n hn
    simp only [answer, State.perform, List.length_append]
    rcases hcases n hn with hold | ⟨_, hnew⟩
    · have hlt := hlineage.bounded n hold
      omega
    · rw [fresh, Finset.mem_Ico] at hnew
      omega
  · exact fun b hmem => hlineage.past b (hrest b hmem)
  · have hsorted := hlineage.sorted
    rw [hinbox] at hsorted
    exact hsorted.of_cons
  · intro entry hqueued
    obtain ⟨i, hentry, hown⟩ := hqueued
    rw [answer, State.perform, List.getElem?_append] at hentry
    change s.executed + i ∈ _ at hown
    split at hentry
    next hlt =>
      apply hlineage.queued entry
      refine ⟨i, hentry, ?_⟩
      rcases hcases _ hown with hold | ⟨_, hnew⟩
      · exact hold
      · rw [fresh, Finset.mem_Ico] at hnew
        change i < s.outbox.length at hlt
        omega
    next hge =>
      change ¬ i < s.outbox.length at hge
      rcases hcases _ hown with hold | ⟨hanswered, _⟩
      · have hlt := hlineage.bounded _ hold
        omega
      · have hreceived := hlineage.held a (hinbox ▸ List.mem_cons_self) hanswered
        exact hclosed.sends _ hreceived _ _ _ _ entry (List.mem_of_getElem? hentry)
  · intro b hmem hown
    rcases hcases _ hown with hold | ⟨_, hnew⟩
    · exact hlineage.held b (hrest b hmem) hold
    · have hlt := hlineage.past b (hrest b hmem)
      rw [fresh, Finset.mem_Ico] at hnew
      omega

/-- The kinds are kept by every action. -/
theorem Lineage.step (hclosed : client.Closed sent received)
    (hlineage : Lineage sent received s own) (action : Action Event Clock) :
    Lineage sent received (client.step s action) (client.outstanding s own action) := by
  cases action with
  | event e now =>
      simp only [Client.step, outstanding]
      split
      · exact hlineage
      · exact hlineage.event client e now
  | execute => exact hlineage.execute client hclosed
  | deliver now =>
      cases hthrown : s.thrown with
      | true => simpa [Client.step, outstanding, hthrown] using hlineage
      | false =>
          cases hinbox : s.inbox with
          | nil => simpa [Client.step, outstanding, hthrown, hinbox] using hlineage
          | cons a rest =>
              simp only [Client.step, hthrown, hinbox, Bool.false_eq_true, ↓reduceIte]
              exact hlineage.deliver client hclosed hthrown hinbox now

/-- The kinds are kept by every run. -/
theorem Lineage.run (hclosed : client.Closed sent received)
    (hlineage : Lineage sent received s own) (schedule : List (Action Event Clock)) :
    Lineage sent received (client.run s schedule) (client.follow s own schedule) := by
  induction schedule generalizing s own with
  | nil => exact hlineage
  | cons action rest ih =>
      apply ih
      exact hlineage.step client hclosed action

end Kinds

end Pipeline.Client
