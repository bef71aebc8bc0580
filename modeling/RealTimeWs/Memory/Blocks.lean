import Mathlib.Data.Fin.Basic
import Mathlib.Data.List.Basic
import Mathlib.Algebra.Group.Fin.Basic
import Mathlib.Algebra.GroupWithZero.Nat

/-! # Blocks in a ring

A sequence that does not fit one block goes on at the start of the next one. Here the
blocks of one size are taken together as one sequence, so that a cursor into a block is
a position in the sequence. The blocks lie in a ring, and a cursor that stays within one
round meets every block at most once.
-/

namespace Memory

/-! ## Positions in a ring -/

section Ring

variable {n : Nat} [NeZero n]

/-- The place some steps behind another one. -/
def around (start : Fin n) (steps : Nat) : Fin n := start + Fin.ofNat n steps

@[simp] theorem around_zero (start : Fin n) : around start 0 = start := by
  apply Fin.ext
  simp [around]

theorem around_succ (start : Fin n) (steps : Nat) :
    around start (steps + 1) = around start steps + 1 := by
  apply Fin.ext
  simp [around, Fin.val_add, Nat.add_assoc]

theorem around_succ' (start : Fin n) (steps : Nat) :
    around (start + 1) steps = around start (steps + 1) := by
  apply Fin.ext
  simp [around, Fin.val_add, Nat.add_assoc, Nat.add_comm 1 steps]

/-- Within one round no place comes twice. -/
theorem around_inj {start : Fin n} {steps steps' : Nat} (hlt : steps < n) (hlt' : steps' < n)
    (heq : around start steps = around start steps') : steps = steps' := by
  have hval := congrArg Fin.val (add_left_cancel heq)
  simpa [Nat.mod_eq_of_lt hlt, Nat.mod_eq_of_lt hlt'] using hval

end Ring

/-! ## Blocks of one size -/

section Blocks

variable {α : Type}

/-- Values over a part of a block. -/
def overwrite (block : List α) (offset : Nat) (values : List α) : List α :=
  block.take offset ++ values ++ block.drop (offset + values.length)

theorem length_overwrite {block values : List α} {offset : Nat}
    (hfits : offset + values.length ≤ block.length) :
    (overwrite block offset values).length = block.length := by
  simp only [overwrite, List.length_append, List.length_take, List.length_drop]
  omega

/-- What stands up to the end of the values that were written. -/
theorem take_overwrite {block values : List α} {offset : Nat}
    (hfits : offset + values.length ≤ block.length) :
    (overwrite block offset values).take (offset + values.length) =
      block.take offset ++ values := by
  have hlength : (block.take offset ++ values).length = offset + values.length := by
    rw [List.length_append, List.length_take]
    omega
  rw [overwrite, ← hlength, List.take_left]

/-- The first blocks, one behind the other. -/
def joined (blocks : Nat → List α) (count : Nat) : List α := (List.range count).flatMap blocks

@[simp] theorem joined_zero (blocks : Nat → List α) : joined blocks 0 = [] := rfl

theorem joined_succ (blocks : Nat → List α) (count : Nat) :
    joined blocks (count + 1) = joined blocks count ++ blocks count := by
  simp [joined, List.range_succ]

theorem joined_congr {blocks blocks' : Nat → List α} {count : Nat}
    (hsame : ∀ i < count, blocks' i = blocks i) : joined blocks' count = joined blocks count := by
  induction count with
  | zero => rfl
  | succ count ih =>
      rw [joined_succ, joined_succ, hsame count (Nat.lt_succ_self count),
        ih (fun i hlt => hsame i (Nat.lt_succ_of_lt hlt))]

variable {blocks blocks' : Nat → List α} {size count k offset : Nat}

theorem length_joined (hsize : ∀ i < count, (blocks i).length = size) :
    (joined blocks count).length = count * size := by
  induction count with
  | zero => simp
  | succ count ih =>
      rw [joined_succ, List.length_append, hsize count (Nat.lt_succ_self count),
        ih (fun i hlt => hsize i (Nat.lt_succ_of_lt hlt)), Nat.succ_mul]

/-- Further blocks do not change what stands in the first ones. -/
theorem take_joined_of_le {more total : Nat} (hsize : ∀ i < count, (blocks i).length = size)
    (htotal : total ≤ count * size) :
    (joined blocks (count + more)).take total = (joined blocks count).take total := by
  induction more with
  | zero => rfl
  | succ more ih =>
      have hlonger : (joined blocks count).length ≤ (joined blocks (count + more)).length := by
        rw [joined, joined, List.range_add, List.flatMap_append, List.length_append]
        exact Nat.le_add_right _ _
      rw [← Nat.add_assoc, joined_succ, List.take_append_of_le_length, ih]
      rw [length_joined hsize] at hlonger
      exact htotal.trans hlonger

/-- The blocks before a cursor are full, and the cursor is in the last one. -/
theorem take_joined (hsize : ∀ i < count, (blocks i).length = size) (hk : k < count)
    (hoffset : offset ≤ size) :
    (joined blocks count).take (k * size + offset) = joined blocks k ++ (blocks k).take offset := by
  induction count with
  | zero => omega
  | succ count ih =>
      have hsize' : ∀ i < count, (blocks i).length = size :=
        fun i hlt => hsize i (Nat.lt_succ_of_lt hlt)
      have hlength := length_joined hsize'
      rw [joined_succ]
      rcases Nat.lt_or_ge k count with hlt | hge
      · -- the cursor is before the last block
        have hbefore : k * size + offset ≤ (joined blocks count).length := by
          have hround : (k + 1) * size ≤ count * size := Nat.mul_le_mul_right size hlt
          rw [Nat.succ_mul] at hround
          omega
        rw [List.take_append_of_le_length hbefore, ih hsize' hlt]
      · obtain rfl : k = count := by omega
        rw [← hlength, List.take_length_add_append]

/-- Values that are read at a cursor are the next ones of the sequence. -/
theorem take_drop_joined {more : Nat} (hsize : ∀ i < count, (blocks i).length = size)
    (hk : k < count) (hfits : offset + more ≤ size) :
    ((joined blocks count).drop (k * size + offset)).take more =
      ((blocks k).drop offset).take more := by
  apply List.append_cancel_left
  rw [← List.take_add, Nat.add_assoc, take_joined hsize hk hfits, take_joined hsize hk (by omega),
    List.take_add, List.append_assoc]

/-- Values that are read one after the other. -/
theorem take_drop_add (list : List α) (position first second : Nat) :
    (list.drop position).take (first + second) =
      (list.drop position).take first ++ (list.drop (position + first)).take second := by
  rw [List.take_add, List.drop_drop]

/-- Values that are written at a cursor come behind those that stand before it. -/
theorem take_joined_overwrite {values : List α} (hsize : ∀ i < count, (blocks i).length = size)
    (hk : k < count) (hfits : offset + values.length ≤ size)
    (hblock : blocks' k = overwrite (blocks k) offset values)
    (hothers : ∀ i < count, i ≠ k → blocks' i = blocks i) :
    (joined blocks' count).take (k * size + offset + values.length) =
      (joined blocks count).take (k * size + offset) ++ values := by
  have hroom : offset + values.length ≤ (blocks k).length := by rw [hsize k hk]; exact hfits
  have hsize' : ∀ i < count, (blocks' i).length = size := by
    intro i hlt
    by_cases hi : i = k
    · rw [hi, hblock, length_overwrite hroom, hsize k hk]
    · rw [hothers i hlt hi, hsize i hlt]
  have hbefore : joined blocks' k = joined blocks k :=
    joined_congr (fun i hlt => hothers i (hlt.trans hk) hlt.ne)
  rw [Nat.add_assoc, take_joined hsize' hk hfits, take_joined hsize hk (by omega), hbefore, hblock,
    take_overwrite hroom, List.append_assoc]

/-- A sequence of some length is read back block by block. -/
theorem flatMap_take (hsize : ∀ i < count, (blocks i).length = size) (total : Nat) :
    ((List.range count).flatMap fun i => (blocks i).take (total - i * size)) =
      (joined blocks count).take total := by
  induction count with
  | zero => simp
  | succ count ih =>
      have hsize' : ∀ i < count, (blocks i).length = size :=
        fun i hlt => hsize i (Nat.lt_succ_of_lt hlt)
      rw [List.range_succ, List.flatMap_append, ih hsize', joined_succ, List.take_append,
        length_joined hsize']
      simp

end Blocks

end Memory
