import Mathlib.Data.Finset.Lattice.Fold
import Mathlib.Data.List.Count
import Mathlib.Logic.Function.Basic
import Mathlib.Order.Lattice

/-! # Counted references

Every cell may point to one other cell, and a program holds pointers to cells. When
each cell counts the pointers to it, the last pointer can be given up and with it the
cell, whose own pointer is the next one to be given up. Counting is exact as long as
only held pointers are given up, and without circles nothing stays behind.
-/

namespace Memory

variable {α : Type}

/-- The pointer leads through these addresses to the end. -/
def Linked (next : α → Option α) : Option α → List α → Prop
  | pointer, [] => pointer = none
  | pointer, address :: rest => pointer = some address ∧ Linked next (next address) rest

section Linked

variable {next next' : α → Option α} {pointer : Option α} {addresses : List α}

theorem Linked.congr (hlinked : Linked next pointer addresses)
    (hsame : ∀ address ∈ addresses, next' address = next address) :
    Linked next' pointer addresses := by
  induction addresses generalizing pointer with
  | nil => exact hlinked
  | cons address rest ih =>
      refine ⟨hlinked.1, ?_⟩
      rw [hsame address List.mem_cons_self]
      exact ih hlinked.2 fun other hmem => hsame other (List.mem_cons_of_mem address hmem)

theorem Linked.head (hlinked : Linked next pointer addresses) : pointer = addresses.head? := by
  cases addresses with
  | nil => exact hlinked
  | cons address rest => exact hlinked.1

end Linked

/-- Following pointers from a held one, the program comes to the address. -/
inductive Leads (next : α → Option α) (held : List α) : α → Prop
  | held {address : α} (hmem : address ∈ held) : Leads next held address
  | next {address other : α} (hleads : Leads next held address)
      (hnext : next address = some other) : Leads next held other

variable [DecidableEq α]

/-- How many of these cells point to the address. -/
def referrers (next : α → Option α) (live : Finset α) (address : α) : Nat :=
  (live.filter fun other => next other = some address).card

/-- The cells in use count the pointers to them: those that are held and those of the
cells in use. -/
structure Counts (next : α → Option α) (ref : α → Nat) (live : Finset α) (held : List α) :
    Prop where
  exact : ∀ address ∈ live, ref address = held.count address + referrers next live address
  used : ∀ address ∈ live, ref address ≠ 0
  closed : ∀ address ∈ live, ∀ other, next address = some other → other ∈ live
  held : ∀ address ∈ held, address ∈ live

section Counts

variable {next next' : α → Option α} {ref ref' : α → Nat} {live : Finset α} {held : List α}
variable {address : α}

theorem Counts.congr (hcounts : Counts next ref live held)
    (hnext : ∀ address ∈ live, next' address = next address)
    (href : ∀ address ∈ live, ref' address = ref address) : Counts next' ref' live held where
  exact := by
    intro other hmem
    have hsame : referrers next' live other = referrers next live other := by
      rw [referrers, referrers, Finset.filter_congr fun third hthird => by rw [hnext third hthird]]
    rw [href other hmem, hcounts.exact other hmem, hsame]
  used := by
    intro other hmem
    rw [href other hmem]
    exact hcounts.used other hmem
  closed := by
    intro other hmem third hthird
    rw [hnext other hmem] at hthird
    exact hcounts.closed other hmem third hthird
  held := hcounts.held

theorem Counts.perm {held' : List α} (hcounts : Counts next ref live held)
    (hperm : held.Perm held') : Counts next ref live held' where
  exact := by
    intro other hmem
    rw [hcounts.exact other hmem, hperm.count_eq]
  used := hcounts.used
  closed := hcounts.closed
  held := fun other hmem => hcounts.held other (hperm.mem_iff.mpr hmem)

/-- One more cell points somewhere. -/
theorem referrers_insert (hnew : address ∉ live) (other : α) :
    referrers next (insert address live) other =
      (next address).toList.count other + referrers next live other := by
  rw [referrers, referrers, Finset.filter_insert]
  cases hnext : next address with
  | none => simp
  | some third =>
      by_cases heq : third = other
      · subst heq
        rw [if_pos rfl, Finset.card_insert_of_notMem
          (fun hmem => hnew (Finset.mem_filter.mp hmem).1), Nat.add_comm]
        simp
      · simp [heq]

theorem referrers_eq_zero (hnone : ∀ other ∈ live, next other ≠ some address) :
    referrers next live address = 0 := by
  rw [referrers, Finset.card_eq_zero, Finset.filter_eq_empty_iff]
  exact fun other hmem => hnone other hmem

/-- A new cell takes over a pointer that was held. -/
theorem Counts.create (hcounts : Counts next ref live ((next address).toList ++ held))
    (hnew : address ∉ live) (href : ref address = 1) :
    Counts next ref (insert address live) (address :: held) where
  exact := by
    intro other hmem
    rw [referrers_insert hnew, List.count_cons]
    rcases Finset.mem_insert.mp hmem with rfl | hold
    · have hnot : (next other).toList.count other = 0 := by
        apply List.count_eq_zero_of_not_mem
        intro hself
        exact hnew (hcounts.held other (List.mem_append_left _ hself))
      have hheld : held.count other = 0 := by
        apply List.count_eq_zero_of_not_mem
        intro hmem
        exact hnew (hcounts.held other (List.mem_append_right _ hmem))
      have hnone : referrers next live other = 0 :=
        referrers_eq_zero fun third hthird heq => hnew (hcounts.closed third hthird other heq)
      rw [href, hnot, hheld, hnone]
      simp
    · have hne : address ≠ other := by
        rintro rfl
        exact hnew hold
      rw [hcounts.exact other hold, List.count_append]
      simp only [beq_iff_eq, hne, if_false]
      omega
  used := by
    intro other hmem
    rcases Finset.mem_insert.mp hmem with rfl | hold
    · rw [href]
      exact one_ne_zero
    · exact hcounts.used other hold
  closed := by
    intro other hmem third hthird
    apply Finset.mem_insert_of_mem
    rcases Finset.mem_insert.mp hmem with rfl | hold
    · apply hcounts.held
      rw [hthird]
      exact List.mem_append_left _ (List.mem_singleton_self third)
    · exact hcounts.closed other hold third hthird
  held := by
    intro other hmem
    rcases List.mem_cons.mp hmem with rfl | hold
    · exact Finset.mem_insert_self other live
    · exact Finset.mem_insert_of_mem (hcounts.held other (List.mem_append_right _ hold))

/-- The last pointer is given up, and the cell with it. Its own pointer is held instead. -/
theorem Counts.release (hcounts : Counts next ref live held) (hmem : address ∈ held)
    (hlast : ref address = 1) :
    Counts next ref (live.erase address) ((next address).toList ++ held.erase address) := by
  have hlive := hcounts.held address hmem
  have hexact := hcounts.exact address hlive
  have hheld : 0 < held.count address := List.count_pos_iff.mpr hmem
  have hnone : referrers next live address = 0 := by omega
  have hunreferred : ∀ other ∈ live, next other ≠ some address := by
    intro other hother heq
    have hpos : 0 < referrers next live address :=
      Finset.card_pos.mpr ⟨other, Finset.mem_filter.mpr ⟨hother, heq⟩⟩
    omega
  have hsplit : ∀ other, referrers next live other =
      (next address).toList.count other + referrers next (live.erase address) other := by
    intro other
    rw [← referrers_insert (Finset.notMem_erase address live), Finset.insert_erase hlive]
  refine ⟨?_, ?_, ?_, ?_⟩
  · intro other hother
    obtain ⟨hne, hold⟩ := Finset.mem_erase.mp hother
    rw [hcounts.exact other hold, hsplit other, List.count_append,
      List.count_erase_of_ne hne]
    omega
  · intro other hother
    exact hcounts.used other (Finset.mem_of_mem_erase hother)
  · intro other hother third hthird
    have hold := Finset.mem_of_mem_erase hother
    refine Finset.mem_erase.mpr ⟨?_, hcounts.closed other hold third hthird⟩
    rintro rfl
    exact hunreferred other hold hthird
  · intro other hother
    rcases List.mem_append.mp hother with hnext | hold
    · have hthird : next address = some other := Option.mem_toList.mp hnext
      refine Finset.mem_erase.mpr ⟨?_, hcounts.closed address hlive other hthird⟩
      rintro rfl
      exact hunreferred other hlive hthird
    · refine Finset.mem_erase.mpr ⟨?_, hcounts.held other (List.mem_of_mem_erase hold)⟩
      rintro rfl
      have hcount : 0 < (held.erase other).count other := List.count_pos_iff.mpr hold
      rw [List.count_erase_self] at hcount
      omega

/-- A pointer that is not the last one is given up. -/
theorem Counts.drop (hcounts : Counts next ref live held) (hmem : address ∈ held)
    (hmore : ref address ≠ 1) :
    Counts next (Function.update ref address (ref address - 1)) live (held.erase address) := by
  have hlive := hcounts.held address hmem
  have hheld : 0 < held.count address := List.count_pos_iff.mpr hmem
  have hused := hcounts.used address hlive
  refine ⟨?_, ?_, hcounts.closed, ?_⟩
  · intro other hother
    by_cases heq : other = address
    · subst heq
      rw [Function.update_self, List.count_erase_self, hcounts.exact other hlive]
      omega
    · rw [Function.update_of_ne heq, List.count_erase_of_ne heq, hcounts.exact other hother]
  · intro other hother
    by_cases heq : other = address
    · subst heq
      rw [Function.update_self]
      omega
    · rw [Function.update_of_ne heq]
      exact hcounts.used other hother
  · exact fun other hother => hcounts.held other (List.mem_of_mem_erase hother)

/-- One more pointer to a cell in use. -/
theorem Counts.share (hcounts : Counts next ref live held) (hlive : address ∈ live) :
    Counts next (Function.update ref address (ref address + 1)) live (address :: held) := by
  refine ⟨?_, ?_, hcounts.closed, ?_⟩
  · intro other hother
    by_cases heq : other = address
    · subst heq
      rw [Function.update_self, List.count_cons_self, hcounts.exact other hlive]
      omega
    · rw [Function.update_of_ne heq, List.count_cons_of_ne (Ne.symm heq),
        hcounts.exact other hother]
  · intro other hother
    by_cases heq : other = address
    · subst heq
      rw [Function.update_self]
      exact Nat.succ_ne_zero _
    · rw [Function.update_of_ne heq]
      exact hcounts.used other hother
  · intro other hother
    rcases List.mem_cons.mp hother with rfl | hold
    · exact hlive
    · exact hcounts.held other hold

/-- A new chain is held by its first cell. The induction adds its cells from the last
to the first. -/
theorem Counts.chain {pointer : Option α} {addresses : List α}
    (hcounts : Counts next ref live held) (hlinked : Linked next pointer addresses)
    (hnodup : addresses.Nodup) (hnew : ∀ address ∈ addresses, address ∉ live)
    (href : ∀ address ∈ addresses, ref address = 1) :
    Counts next ref (live ∪ addresses.toFinset) (pointer.toList ++ held) := by
  induction addresses generalizing pointer with
  | nil =>
      rw [show pointer = none from hlinked]
      simpa using hcounts
  | cons address rest ih =>
      obtain ⟨hpointer, hrest⟩ := hlinked
      obtain ⟨hnot, hnodup⟩ := List.nodup_cons.mp hnodup
      have htail := ih hrest hnodup
        (fun other hmem => hnew other (List.mem_cons_of_mem address hmem))
        (fun other hmem => href other (List.mem_cons_of_mem address hmem))
      have hfresh : address ∉ live ∪ rest.toFinset := by
        simp [hnot, hnew address List.mem_cons_self]
      have hcreate := htail.create hfresh (href address List.mem_cons_self)
      rw [hpointer, List.toFinset_cons, Finset.union_insert]
      exact hcreate

/-- Pointers lead to lower ranks, so there is no circle. -/
def Ranked (next : α → Option α) (live : Finset α) : Prop :=
  ∃ rank : α → Nat, ∀ address ∈ live, ∀ other, next address = some other →
    rank other < rank address

omit [DecidableEq α] in
theorem Ranked.mono {live' : Finset α} (hranked : Ranked next live) (hsubset : live' ⊆ live)
    (hnext : ∀ address ∈ live', next' address = next address) : Ranked next' live' := by
  obtain ⟨rank, hrank⟩ := hranked
  refine ⟨rank, fun address hmem other hother => ?_⟩
  rw [hnext address hmem] at hother
  exact hrank address (hsubset hmem) other hother

/-- A new cell is above the one it points to. -/
theorem Ranked.insert (hranked : Ranked next live) (hnew : address ∉ live)
    (hclosed : ∀ other ∈ live, next other ≠ some address) (hself : next address ≠ some address) :
    Ranked next (insert address live) := by
  obtain ⟨rank, hrank⟩ := hranked
  refine ⟨Function.update rank address ((next address).elim 0 fun other => rank other + 1), ?_⟩
  intro other hmem third hthird
  rcases Finset.mem_insert.mp hmem with rfl | hold
  · have hne : third ≠ other := by
      rintro rfl
      exact hself hthird
    rw [Function.update_self, Function.update_of_ne hne, hthird]
    exact Nat.lt_succ_self _
  · have hne : other ≠ address := by
      rintro rfl
      exact hnew hold
    have hne' : third ≠ address := by
      rintro rfl
      exact hclosed other hold hthird
    rw [Function.update_of_ne hne, Function.update_of_ne hne']
    exact hrank other hold third hthird

theorem Ranked.chain {pointer : Option α} {addresses : List α} (hranked : Ranked next live)
    (hclosed : ∀ other ∈ live, ∀ third, next other = some third → third ∈ live)
    (hlinked : Linked next pointer addresses) (hnodup : addresses.Nodup)
    (hnew : ∀ address ∈ addresses, address ∉ live) :
    Ranked next (live ∪ addresses.toFinset) ∧
      ∀ other ∈ live ∪ addresses.toFinset, ∀ third, next other = some third →
        third ∈ live ∪ addresses.toFinset := by
  induction addresses generalizing pointer with
  | nil =>
      rw [List.toFinset_nil, Finset.union_empty]
      exact ⟨hranked, hclosed⟩
  | cons address rest ih =>
      obtain ⟨_, hrest⟩ := hlinked
      obtain ⟨hnot, hnodup⟩ := List.nodup_cons.mp hnodup
      obtain ⟨hrank, htail⟩ := ih hrest hnodup
        fun other hmem => hnew other (List.mem_cons_of_mem address hmem)
      have hfresh : address ∉ live ∪ rest.toFinset := by
        simp [hnot, hnew address List.mem_cons_self]
      have hnext : ∀ third, next address = some third → third ∈ rest := by
        intro third hthird
        rw [hrest.head] at hthird
        exact List.mem_of_head? hthird
      rw [List.toFinset_cons, Finset.union_insert]
      refine ⟨hrank.insert hfresh ?_ ?_, ?_⟩
      · exact fun other hmem heq => hfresh (htail other hmem address heq)
      · exact fun heq => hnot (hnext address heq)
      · intro other hmem third hthird
        apply Finset.mem_insert_of_mem
        rcases Finset.mem_insert.mp hmem with rfl | hold
        · exact Finset.mem_union_right _ (List.mem_toFinset.mpr (hnext third hthird))
        · exact htail other hold third hthird

theorem Counts.live_of_leads (hcounts : Counts next ref live held)
    (hleads : Leads next held address) : address ∈ live := by
  induction hleads with
  | held hmem => exact hcounts.held _ hmem
  | next _ hnext ih => exact hcounts.closed _ ih _ hnext

/-- Every cell in use is counted because of a pointer: to a cell that is not held leads one of
a higher rank. The induction is on how far below the highest rank it is. -/
theorem Counts.leads_of_live (hcounts : Counts next ref live held) (hranked : Ranked next live)
    (hlive : address ∈ live) : Leads next held address := by
  obtain ⟨rank, hrank⟩ := hranked
  induction hbelow : live.sup rank - rank address using Nat.strong_induction_on
    generalizing address with
  | _ below ih =>
      by_cases hheld : address ∈ held
      · exact Leads.held hheld
      · have hexact := hcounts.exact address hlive
        have hused := hcounts.used address hlive
        rw [List.count_eq_zero_of_not_mem hheld, Nat.zero_add] at hexact
        have hreferred : 0 < referrers next live address := by omega
        obtain ⟨other, hother⟩ := Finset.card_pos.mp hreferred
        obtain ⟨hmem, hpoints⟩ := Finset.mem_filter.mp hother
        have hlt := hrank other hmem address hpoints
        have hle : rank other ≤ live.sup rank := Finset.le_sup hmem
        exact (ih (live.sup rank - rank other) (by omega) hmem rfl).next hpoints

end Counts

end Memory
