import Mathlib.Data.List.Basic
import Mathlib.Logic.Basic

/-! # Memory with faults

Allocations get an address of their own, and an address is never given out again.
A pointer that outlives its cell therefore never reads the cell of a later
allocation: every use of it is a fault.
-/

namespace Memory

/-- What a program may not do with a pointer. -/
inductive Fault where
  | null
  | freed
  | freedTwice
  | endless
deriving DecidableEq, Repr

section Returns

variable {α β : Type} {computation : Except Fault α} {holds holds' : α → Prop}

/-- The computation ends without a fault, and its result meets the postcondition. -/
def Returns (computation : Except Fault α) (holds : α → Prop) : Prop :=
  ∃ result, computation = .ok result ∧ holds result

theorem Returns.ok {result : α} (hholds : holds result) : Returns (.ok result) holds :=
  ⟨result, rfl, hholds⟩

theorem Returns.mono (hreturns : Returns computation holds)
    (himp : ∀ result, holds result → holds' result) : Returns computation holds' := by
  obtain ⟨result, hresult, hholds⟩ := hreturns
  exact ⟨result, hresult, himp result hholds⟩

theorem Returns.bind {next : α → Except Fault β} {after : β → Prop}
    (hreturns : Returns computation holds)
    (hnext : ∀ result, holds result → Returns (next result) after) :
    Returns (computation >>= next) after := by
  obtain ⟨result, rfl, hholds⟩ := hreturns
  exact hnext result hholds

theorem Returns.map {image : α → β} {after : β → Prop}
    (hreturns : Returns computation fun result => after (image result)) :
    Returns (image <$> computation) after := by
  obtain ⟨result, rfl, hholds⟩ := hreturns
  exact ⟨image result, rfl, hholds⟩

@[simp] theorem bind_ok (result : α) (next : α → Except Fault β) :
    ((Except.ok result : Except Fault α) >>= next) = next result := rfl

end Returns

/-- Cells by address. A cell is empty once it has been freed. -/
structure Heap (α : Type) where
  cells : List (Option α) := []
deriving DecidableEq, Repr

namespace Heap

variable {α : Type} (heap : Heap α)

/-- What the cell at an address holds, if it is allocated and not freed. -/
def lookup (address : Nat) : Option α := heap.cells[address]?.join

/-- How many cells are allocated and not freed. -/
def live : Nat := heap.cells.countP Option.isSome

/-- A new cell and its address. -/
def alloc (value : α) : Nat × Heap α := (heap.cells.length, ⟨heap.cells ++ [some value]⟩)

/-- Fill or empty the cell at an address. -/
def put (address : Nat) (cell : Option α) : Heap α := ⟨heap.cells.set address cell⟩

/-- Follow a pointer. -/
def read : Option Nat → Except Fault α
  | none => .error .null
  | some address =>
      match heap.lookup address with
      | none => .error .freed
      | some value => .ok value

/-- Write what a pointer leads to. -/
def write (pointer : Option Nat) (value : α) : Except Fault (Heap α) :=
  match pointer with
  | none => .error .null
  | some address =>
      match heap.lookup address with
      | none => .error .freed
      | some _ => .ok (heap.put address (some value))

/-- Give the cell of a pointer back. -/
def free : Option Nat → Except Fault (Heap α)
  | none => .error .null
  | some address =>
      match heap.lookup address with
      | none => .error .freedTwice
      | some _ => .ok (heap.put address none)

section Laws

variable {heap} {address : Nat} {value : α}

theorem read_of_lookup (hlookup : heap.lookup address = some value) :
    heap.read (some address) = .ok value := by
  simp [read, hlookup]

theorem write_of_lookup (hlookup : heap.lookup address = some value) (value' : α) :
    heap.write (some address) value' = .ok (heap.put address (some value')) := by
  simp [write, hlookup]

theorem free_of_lookup (hlookup : heap.lookup address = some value) :
    heap.free (some address) = .ok (heap.put address none) := by
  simp [free, hlookup]

theorem lookup_eq_some : heap.lookup address = some value ↔
    heap.cells[address]? = some (some value) := by
  cases hcell : heap.cells[address]? with
  | none => simp [lookup, hcell]
  | some cell => simp [lookup, hcell]

theorem lt_of_lookup (hlookup : heap.lookup address = some value) :
    address < heap.cells.length :=
  (List.getElem?_eq_some_iff.mp (lookup_eq_some.mp hlookup)).1

@[simp] theorem lookup_fresh : heap.lookup heap.cells.length = none := by
  simp [lookup]

@[simp] theorem lookup_empty : (⟨[]⟩ : Heap α).lookup address = none := by
  simp [lookup]

theorem lookup_alloc (value : α) (address : Nat) :
    (heap.alloc value).2.lookup address =
      if address = heap.cells.length then some value else heap.lookup address := by
  rcases Nat.lt_trichotomy address heap.cells.length with hlt | heq | hgt
  · simp [alloc, lookup, List.getElem?_append_left hlt, Nat.ne_of_lt hlt]
  · simp [alloc, lookup, heq]
  · have hle : heap.cells.length ≤ address := Nat.le_of_lt hgt
    have hempty : heap.cells[address]? = none := List.getElem?_eq_none hle
    have hsingle : ([some value] : List (Option α))[address - heap.cells.length]? = none :=
      List.getElem?_eq_none (by simp; omega)
    simp [alloc, lookup, List.getElem?_append_right hle, hempty, hsingle, Nat.ne_of_gt hgt]

theorem lookup_put (hlookup : heap.lookup address = some value) (cell : Option α) (other : Nat) :
    (heap.put address cell).lookup other =
      if other = address then cell else heap.lookup other := by
  by_cases hother : other = address
  · subst hother
    simp [put, lookup, lt_of_lookup hlookup]
  · have hne : address ≠ other := fun heq => hother heq.symm
    simp [put, lookup, List.getElem?_set_ne hne, hother]

theorem lookup_alloc_self (heap : Heap α) (value : α) :
    (heap.alloc value).2.lookup (heap.alloc value).1 = some value := by
  rw [lookup_alloc, alloc, if_pos rfl]

/-- A cell that is freed again leaves nothing behind. -/
theorem lookup_put_alloc (value : α) (address : Nat) :
    ((heap.alloc value).2.put (heap.alloc value).1 none).lookup address = heap.lookup address := by
  rw [lookup_put (lookup_alloc_self heap value), lookup_alloc]
  by_cases hnew : address = heap.cells.length
  · subst hnew
    rw [lookup_fresh]
    exact if_pos rfl
  · rw [if_neg hnew]
    exact if_neg hnew

theorem put_self (hlookup : heap.lookup address = some value) :
    heap.put address (some value) = heap := by
  obtain ⟨hlt, hcell⟩ := List.getElem?_eq_some_iff.mp (lookup_eq_some.mp hlookup)
  rw [put, ← hcell, List.set_getElem_self]

theorem put_put (cell cell' : Option α) :
    (heap.put address cell).put address cell' = heap.put address cell' := by
  simp [put]

theorem put_comm {other : Nat} (hne : address ≠ other) (cell cell' : Option α) :
    (heap.put address cell).put other cell' = (heap.put other cell').put address cell := by
  simp [put, List.set_comm cell cell' hne]

@[simp] theorem length_put (cell : Option α) :
    (heap.put address cell).cells.length = heap.cells.length := by
  simp [put]

/-- Nothing is live exactly when no address can be used. -/
theorem live_eq_zero_iff : heap.live = 0 ↔ ∀ address, heap.lookup address = none := by
  rw [live, List.countP_eq_zero]
  constructor
  · intro hnone address
    cases hlookup : heap.lookup address with
    | none => rfl
    | some value =>
        have hmem := List.mem_of_getElem? (lookup_eq_some.mp hlookup)
        exact absurd rfl (hnone _ hmem)
  · intro hnone cell hmem hsome
    obtain ⟨address, hcell⟩ := List.getElem?_of_mem hmem
    obtain ⟨value, rfl⟩ := Option.isSome_iff_exists.mp hsome
    rw [← lookup_eq_some, hnone address] at hcell
    cases hcell

end Laws

end Heap

end Memory
