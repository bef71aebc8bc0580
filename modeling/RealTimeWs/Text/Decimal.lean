import Mathlib

/-! # Decimal numerals

Reading and writing of decimal integers as lists of characters. The digits of a
natural number are those of `Nat.repr`; padding adds zeros on the left and does
not change the value that is read back.
-/

namespace Decimal

/-- The value of a nonempty run of decimal digits. -/
def natValue (text : List Char) : Option Nat :=
  if text ≠ [] ∧ text.all Char.isDigit then some (Nat.ofDigitChars 10 text 0) else none

/-- The value of a decimal integer in its shortest form: no sign other than a
minus, no leading zeros and no negative zero. -/
def intValue (text : String) : Option Int :=
  let value := match text.toList with
    | '-' :: digits => (natValue digits).map fun n => -(n : Int)
    | digits => (natValue digits).map fun n => (n : Int)
  value.filter fun n => n.repr = text

/-- The value of a decimal integer in any form: with or without a sign, and with any number
of digits. -/
def signedValue : List Char → Option Int
  | '-' :: digits => (natValue digits).map fun (n : Nat) => -(n : Int)
  | '+' :: digits => (natValue digits).map fun (n : Nat) => (n : Int)
  | digits => (natValue digits).map fun (n : Nat) => (n : Int)

/-- Digits of a number, padded with zeros to at least the given width. -/
def padded (width n : Nat) : List Char :=
  List.replicate (width - (Nat.toDigits 10 n).length) '0' ++ Nat.toDigits 10 n

theorem isDigit_of_mem_toDigits {n : Nat} {c : Char} (hmem : c ∈ Nat.toDigits 10 n) :
    c.isDigit = true :=
  Nat.isDigit_of_mem_toDigits (by decide) (by decide) hmem

theorem isDigit_of_mem_padded {width n : Nat} {c : Char} (hmem : c ∈ padded width n) :
    c.isDigit = true := by
  rcases List.mem_append.mp hmem with hzero | hdigit
  · rw [List.eq_of_mem_replicate hzero]
    decide
  · exact isDigit_of_mem_toDigits hdigit

theorem digits_of_natValue_eq {text : List Char} {n : Nat} (hvalue : natValue text = some n) :
    text ≠ [] ∧ (∀ c ∈ text, c.isDigit = true) ∧ Nat.ofDigitChars 10 text 0 = n := by
  rw [natValue] at hvalue
  split at hvalue
  next hdigits => exact ⟨hdigits.1, List.all_eq_true.mp hdigits.2, Option.some.inj hvalue⟩
  next => cases hvalue

theorem natValue_toDigits (n : Nat) : natValue (Nat.toDigits 10 n) = some n := by
  have hdigits : (Nat.toDigits 10 n).all Char.isDigit = true :=
    List.all_eq_true.mpr fun _ => isDigit_of_mem_toDigits
  simp [natValue, Nat.toDigits_ne_nil, hdigits, Nat.ofDigitChars_ten_toDigits]

theorem natValue_repr (n : Nat) : natValue n.repr.toList = some n := by
  rw [Nat.toList_repr]
  exact natValue_toDigits n

/-- Padding keeps the value. -/
theorem natValue_padded (width n : Nat) : natValue (padded width n) = some n := by
  have hdigits : (padded width n).all Char.isDigit = true :=
    List.all_eq_true.mpr fun _ => isDigit_of_mem_padded
  have hne : padded width n ≠ [] := by
    simp [padded, Nat.toDigits_ne_nil]
  rw [natValue, if_pos ⟨hne, hdigits⟩, padded, Nat.ofDigitChars_append,
    Nat.ofDigitChars_replicate_zero, Nat.mul_zero, Nat.ofDigitChars_ten_toDigits]

theorem padded_length (width n : Nat) (hwidth : 0 < width) (hlt : n < 10 ^ width) :
    (padded width n).length = width := by
  have hle : (Nat.toDigits 10 n).length ≤ width :=
    (Nat.length_toDigits_le_iff (by decide) hwidth).mpr hlt
  simp only [padded, List.length_append, List.length_replicate]
  omega

/-- The text of a natural number reads back as that number. -/
theorem intValue_repr (n : Nat) : intValue n.repr = some (n : Int) := by
  have hrepr : (n : Int).repr = n.repr := rfl
  have hhead : ∀ rest, n.repr.toList ≠ '-' :: rest := by
    intro rest heq
    have hmem : '-' ∈ Nat.toDigits 10 n := by
      rw [← Nat.toList_repr, heq]
      exact List.mem_cons_self
    exact absurd (isDigit_of_mem_toDigits hmem) (by decide)
  unfold intValue
  split
  next digits heq => exact absurd heq (hhead digits)
  next =>
    rw [natValue_repr]
    simp [hrepr]

/-- So does the text of any integer. -/
theorem intValue_int_repr (n : Int) : intValue n.repr = some n := by
  cases n with
  | ofNat n => exact intValue_repr n
  | negSucc n =>
      have htext : (Int.negSucc n).repr.toList = '-' :: (n + 1).repr.toList := by
        change ("-" ++ (n + 1).repr).toList = _
        rw [String.toList_append]
        rfl
      unfold intValue
      rw [htext]
      simp only [natValue_repr]
      change Option.filter (fun m => m.repr = (Int.negSucc n).repr) (some (Int.negSucc n)) = _
      simp

/-- Digits alone are a number without a sign. -/
theorem signedValue_of_digits {text : List Char} {n : Nat}
    (hvalue : natValue text = some n) : signedValue text = some (n : Int) := by
  obtain ⟨_, hdigits, _⟩ := digits_of_natValue_eq hvalue
  unfold signedValue
  split
  next => exact absurd (hdigits '-' List.mem_cons_self) (by decide)
  next => exact absurd (hdigits '+' List.mem_cons_self) (by decide)
  next => rw [hvalue, Option.map_some]

end Decimal
