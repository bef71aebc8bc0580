import Mathlib.Data.Fintype.Card
import Mathlib.Data.List.Range
import Mathlib.Logic.Function.Basic
import RealTimeWs.Memory.Blocks

/-! # A ring as a queue

Two parties share a ring. One takes places from the head on, the other frees them from the
tail on, and each sees only from the mark on a place whose turn it is. What stands in the
taken places is a queue, which a reader may turn into messages of several places each.
-/

namespace Memory

section Ring

variable {n : Nat} [NeZero n]

theorem around_add (start : Fin n) (first second : Nat) :
    around (around start first) second = around start (first + second) := by
  induction second with
  | zero => exact around_zero _
  | succ second ih => rw [around_succ, ih, ← Nat.add_assoc, around_succ]

/-- Every place comes within one round. -/
theorem exists_around (start place : Fin n) : ∃ steps < n, place = around start steps := by
  refine ⟨(place - start).val, (place - start).isLt, ?_⟩
  rw [around, Fin.ofNat_eq_cast, Fin.cast_val_eq_self, add_sub_cancel]

/-! ## Taken places -/

/-- The places that are taken are so many from the tail on. -/
structure Occupied (taken : Fin n → Prop) (tail : Fin n) (count : Nat) : Prop where
  le : count ≤ n
  taken_iff : ∀ steps < n, taken (around tail steps) ↔ steps < count

variable {taken taken' : Fin n → Prop} {tail : Fin n} {count : Nat}

theorem Occupied.empty (hfree : ∀ place, ¬ taken place) (tail : Fin n) : Occupied taken tail 0 where
  le := Nat.zero_le n
  taken_iff := fun steps _ => iff_of_false (hfree (around tail steps)) (Nat.not_lt_zero steps)

/-- The party at the tail finds something to do. -/
theorem Occupied.tail_iff (hocc : Occupied taken tail count) : taken tail ↔ 0 < count := by
  have hzero := hocc.taken_iff 0 (Nat.pos_of_neZero n)
  rwa [around_zero] at hzero

/-- The party at the head finds so many free places if and only if there are so many. -/
theorem Occupied.free_iff (hocc : Occupied taken tail count) {more : Nat} (hround : more ≤ n) :
    (∀ steps < more, ¬ taken (around (around tail count) steps)) ↔ count + more ≤ n := by
  constructor
  · intro hfree
    by_contra hover
    -- the first place that is not there has come round to the tail
    have hle := hocc.le
    have hsteps : n - count < more := by omega
    have htail : around (around tail count) (n - count) = tail := by
      rw [around_add, Nat.add_sub_cancel' hle, around, Fin.ofNat_eq_cast, Fin.natCast_self,
        add_zero]
    refine hfree _ hsteps ?_
    rw [htail]
    exact hocc.tail_iff.mpr (by omega)
  · intro hroom steps hlt
    rw [around_add, hocc.taken_iff _ (by omega)]
    omega

/-- Free places at the head are taken. -/
theorem Occupied.push (hocc : Occupied taken tail count) {more : Nat} (hroom : count + more ≤ n)
    (hnew : ∀ steps < more, taken' (around (around tail count) steps))
    (hold : ∀ place, (∀ steps < more, place ≠ around (around tail count) steps) →
      (taken' place ↔ taken place)) : Occupied taken' tail (count + more) where
  le := hroom
  taken_iff := by
    intro steps hlt
    by_cases hmore : count ≤ steps ∧ steps < count + more
    · have hplace : around tail steps = around (around tail count) (steps - count) := by
        rw [around_add, Nat.add_sub_cancel' hmore.1]
      rw [hplace]
      exact iff_of_true (hnew _ (by omega)) hmore.2
    · rw [hold, hocc.taken_iff steps hlt]
      · omega
      · intro later hlater heq
        rw [around_add] at heq
        have hsame := around_inj hlt (by omega) heq
        omega

/-- Places at the tail are freed. -/
theorem Occupied.pop (hocc : Occupied taken tail count) {fewer : Nat} (hfewer : fewer ≤ count)
    (hgone : ∀ steps < fewer, ¬ taken' (around tail steps))
    (hold : ∀ place, (∀ steps < fewer, place ≠ around tail steps) →
      (taken' place ↔ taken place)) : Occupied taken' (around tail fewer) (count - fewer) where
  le := (Nat.sub_le _ _).trans hocc.le
  taken_iff := by
    intro steps hlt
    have hle := hocc.le
    rw [around_add]
    by_cases hwithin : fewer + steps < n
    · rw [hold, hocc.taken_iff _ hwithin]
      · omega
      · intro earlier hearlier heq
        have hsame := around_inj hwithin (by omega) heq
        omega
    · -- round to one of the places that were freed
      have hplace : around tail (fewer + steps) = around tail (fewer + steps - n) := by
        conv_lhs => rw [← Nat.sub_add_cancel (Nat.not_lt.mp hwithin)]
        rw [← around_add, around, Fin.ofNat_eq_cast, Fin.natCast_self, add_zero]
      rw [hplace]
      exact iff_of_false (hgone _ (by omega)) (by omega)

theorem around_injOn (tail : Fin n) (hle : count ≤ n) :
    Set.InjOn (around tail) (Finset.range count) := by
  intro steps hsteps later hlater heq
  rw [Finset.mem_coe, Finset.mem_range] at hsteps hlater
  exact around_inj (hsteps.trans_le hle) (hlater.trans_le hle) heq

theorem Occupied.card [DecidablePred taken] (hocc : Occupied taken tail count) :
    (Finset.univ.filter taken).card = count := by
  have himage : Finset.univ.filter taken = (Finset.range count).image (around tail) := by
    ext place
    rw [Finset.mem_filter, Finset.mem_image]
    constructor
    · rintro ⟨_, htaken⟩
      obtain ⟨steps, hlt, rfl⟩ := exists_around tail place
      exact ⟨steps, Finset.mem_range.mpr ((hocc.taken_iff steps hlt).mp htaken), rfl⟩
    · rintro ⟨steps, hmem, rfl⟩
      have hlt := Finset.mem_range.mp hmem
      exact ⟨Finset.mem_univ _, (hocc.taken_iff steps (hlt.trans_le hocc.le)).mpr hlt⟩
  rw [himage, Finset.card_image_of_injOn (around_injOn tail hocc.le), Finset.card_range]

theorem Occupied.card_free [DecidablePred taken] (hocc : Occupied taken tail count) :
    (Finset.univ.filter fun place => ¬ taken place).card = n - count := by
  rw [Finset.filter_not, Finset.card_sdiff_of_subset (Finset.filter_subset _ _), hocc.card,
    Finset.card_univ, Fintype.card_fin]

/-! ## What stands in them -/

variable {α : Type}

/-- What stands in some places, in order. -/
def listed (slots : Fin n → α) (start : Fin n) (count : Nat) : List α :=
  (List.range count).map fun steps => slots (around start steps)

@[simp] theorem listed_zero (slots : Fin n → α) (start : Fin n) : listed slots start 0 = [] :=
  rfl

@[simp] theorem length_listed (slots : Fin n → α) (start : Fin n) (count : Nat) :
    (listed slots start count).length = count := by
  simp [listed]

theorem listed_congr {slots slots' : Fin n → α} {start : Fin n} {count : Nat}
    (hsame : ∀ steps < count, slots' (around start steps) = slots (around start steps)) :
    listed slots' start count = listed slots start count :=
  List.map_congr_left fun steps hmem => hsame steps (List.mem_range.mp hmem)

theorem listed_add (slots : Fin n → α) (start : Fin n) (first second : Nat) :
    listed slots start (first + second) =
      listed slots start first ++ listed slots (around start first) second := by
  rw [listed, List.range_add, List.map_append, List.map_map]
  congr 1
  apply List.map_congr_left
  intro steps _
  rw [Function.comp_apply, around_add]

theorem listed_succ (slots : Fin n → α) (start : Fin n) (count : Nat) :
    listed slots start (count + 1) = slots start :: listed slots (start + 1) count := by
  rw [Nat.add_comm, listed_add, around_succ, around_zero]
  simp [listed]

theorem listed_succ' (slots : Fin n → α) (start : Fin n) (count : Nat) :
    listed slots start (count + 1) = listed slots start count ++ [slots (around start count)] := by
  rw [listed_add]
  simp [listed]

/-- A place behind them is written. -/
theorem listed_update {slots : Fin n → α} {tail : Fin n} {first count index : Nat} (value : α)
    (hbefore : first + count ≤ index) (hlt : index < n) :
    listed (Function.update slots (around tail index) value) (around tail first) count =
      listed slots (around tail first) count := by
  apply listed_congr
  intro steps hsteps
  apply Function.update_of_ne
  rw [around_add]
  intro heq
  have hsame := around_inj (by omega) hlt heq
  omega

end Ring

/-! ## Reading messages -/

section Reading

variable {σ α β : Type}

/-- Read values one after the other. The reader may complete messages, and it fails on a value
that it does not expect. -/
def readAll (reader : σ → α → Option (σ × List β)) : σ → List α → Option (σ × List β)
  | state, [] => some (state, [])
  | state, value :: rest => do
      let (next, messages) ← reader state value
      let (final, more) ← readAll reader next rest
      some (final, messages ++ more)

variable {reader : σ → α → Option (σ × List β)} {state next final : σ} {values rest : List α}
  {messages more : List β}

@[simp] theorem readAll_nil : readAll reader state [] = some (state, []) := rfl

theorem readAll_append (hread : readAll reader state values = some (next, messages))
    (hrest : readAll reader next rest = some (final, more)) :
    readAll reader state (values ++ rest) = some (final, messages ++ more) := by
  induction values generalizing state messages with
  | nil =>
      cases hread
      exact hrest
  | cons value values ih =>
      rw [readAll] at hread
      rw [List.cons_append, readAll]
      cases hfirst : reader state value with
      | none =>
          rw [hfirst] at hread
          cases hread
      | some result =>
          obtain ⟨middle, out⟩ := result
          rw [hfirst] at hread
          cases htail : readAll reader middle values with
          | none => simp [htail] at hread
          | some tail =>
              obtain ⟨last, tailMessages⟩ := tail
              simp only [htail, Option.bind_eq_bind, Option.bind_some, Option.some.injEq,
                Prod.mk.injEq] at hread
              obtain ⟨rfl, rfl⟩ := hread
              simp [ih htail]

/-- A value more. -/
theorem readAll_concat {value : α} (hread : readAll reader state values = some (next, messages))
    (hvalue : reader next value = some (final, more)) :
    readAll reader state (values ++ [value]) = some (final, messages ++ more) := by
  refine readAll_append hread ?_
  simp [readAll, hvalue]

/-- The first value is one that the reader expects. -/
theorem readAll_cons {value : α} (hread : readAll reader state (value :: rest) =
    some (final, messages)) : ∃ next out later, reader state value = some (next, out) ∧
      readAll reader next rest = some (final, later) ∧ messages = out ++ later := by
  rw [readAll] at hread
  cases hfirst : reader state value with
  | none =>
      rw [hfirst] at hread
      cases hread
  | some result =>
      obtain ⟨next, out⟩ := result
      rw [hfirst] at hread
      cases htail : readAll reader next rest with
      | none => simp [htail] at hread
      | some tail =>
          obtain ⟨last, later⟩ := tail
          simp only [htail, Option.bind_eq_bind, Option.bind_some, Option.some.injEq,
            Prod.mk.injEq] at hread
          obtain ⟨rfl, rfl⟩ := hread
          exact ⟨next, out, later, rfl, htail, rfl⟩

end Reading

end Memory
