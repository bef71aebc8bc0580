import RealTimeWs.Text.Decimal
import RealTimeWs.Text.Utf8

/-! # Reading integers from memory

The function of the C library that reads a decimal integer: blanks, a sign and digits,
up to the first byte that is no digit. It does not know where the text was meant to
end. Values that do not fit are replaced by the nearest one that does.
-/

namespace Strtol

/-- The character of a byte. -/
def charOf (byte : UInt8) : Char := Char.ofNat byte.toNat

/-- `isspace` in the C locale. -/
def isSpace (c : Char) : Bool := c == ' ' || (9 ≤ c.toNat && c.toNat ≤ 13)

/-- The nearest number that fits a signed integer of this many bits. -/
def saturate (bits : Nat) (n : Int) : Int :=
  max (-2 ^ (bits - 1)) (min n (2 ^ (bits - 1) - 1))

/-- The value of the digits at the start of a text. -/
def leading (text : List Char) : Int := Nat.ofDigitChars 10 (text.takeWhile Char.isDigit) 0

/-- Whether a text starts with a minus, and what is behind its sign. -/
def unsign : List Char → Bool × List Char
  | '-' :: rest => (true, rest)
  | '+' :: rest => (false, rest)
  | rest => (false, rest)

/-- The integer at the start of a text. -/
def signed (text : List Char) : Int :=
  if (unsign text).1 then -leading (unsign text).2 else leading (unsign text).2

/-- Read an integer, with blanks in front of it. -/
def strtol (bits : Nat) (memory : List UInt8) : Int :=
  saturate bits (signed ((memory.map charOf).dropWhile isSpace))

theorem map_charOf_ascii {text : List Char} (hascii : ∀ c ∈ text, c.toNat < 128) :
    (Utf8.ascii text).map charOf = text := by
  rw [Utf8.ascii, List.map_map]
  conv_rhs => rw [← List.map_id text]
  apply List.map_congr_left
  intro c hmem
  have hbyte : (UInt8.ofNat c.toNat).toNat = c.toNat := by
    have := hascii c hmem
    rw [UInt8.toNat_ofNat']
    omega
  rw [Function.comp_apply, charOf, hbyte, Char.ofNat_toNat, id]

theorem toNat_lt_of_isDigit {c : Char} (hdigit : c.isDigit = true) :
    48 ≤ c.toNat ∧ c.toNat ≤ 57 := by
  rw [Char.isDigit, Bool.and_eq_true, decide_eq_true_iff, decide_eq_true_iff] at hdigit
  exact hdigit

theorem isSpace_eq_false_of_isDigit {c : Char} (hdigit : c.isDigit = true) : isSpace c = false := by
  have hrange := toNat_lt_of_isDigit hdigit
  have hblank : c ≠ ' ' := by
    intro heq
    rw [heq] at hdigit
    cases hdigit
  simp only [isSpace, Bool.or_eq_false_iff, beq_eq_false_iff_ne, Bool.and_eq_false_iff,
    decide_eq_false_iff_not]
  exact ⟨hblank, .inr (by omega)⟩

/-- The digits end at the first byte that is none. -/
theorem leading_digits {digits : List Char} {n : Nat} (hvalue : Decimal.natValue digits = some n)
    {c : Char} (hstop : c.isDigit = false) (rest : List Char) :
    leading (digits ++ c :: rest) = n := by
  obtain ⟨_, hdigits, hn⟩ := Decimal.digits_of_natValue_eq hvalue
  rw [leading, List.takeWhile_append_of_pos hdigits, List.takeWhile_cons_of_neg (by simp [hstop]),
    List.append_nil, hn]

theorem unsign_of_ne {text : List Char} (hminus : ∀ rest, text ≠ '-' :: rest)
    (hplus : ∀ rest, text ≠ '+' :: rest) : unsign text = (false, text) := by
  unfold unsign
  split
  · exact absurd rfl (hminus _)
  · exact absurd rfl (hplus _)
  · rfl

/-- The forms of a decimal integer: its sign and its digits. -/
theorem forms_of_signedValue {text : List Char} {n : Int}
    (hvalue : Decimal.signedValue text = some n) :
    ∃ digits m, Decimal.natValue digits = some m ∧
      (text = '-' :: digits ∧ n = -(m : Int) ∨ text = '+' :: digits ∧ n = m ∨
        text = digits ∧ n = m) := by
  unfold Decimal.signedValue at hvalue
  split at hvalue
  all_goals
    obtain ⟨m, hm, rfl⟩ := Option.map_eq_some_iff.mp hvalue
    exact ⟨_, m, hm, by simp⟩

/-- A decimal integer starts with a sign or a digit, and reading its text gives its value. -/
theorem signed_decimal {text : List Char} {n : Int} (hvalue : Decimal.signedValue text = some n)
    {c : Char} (hstop : c.isDigit = false) (rest : List Char) :
    signed (text ++ c :: rest) = n ∧ (∀ c ∈ text, c.toNat < 128) ∧
      ∃ first more, text = first :: more ∧ isSpace first = false := by
  obtain ⟨digits, m, hm, hform⟩ := forms_of_signedValue hvalue
  obtain ⟨hne, hdigits, _⟩ := Decimal.digits_of_natValue_eq hm
  have hascii : ∀ c ∈ digits, c.toNat < 128 := by
    intro c hmem
    have := toNat_lt_of_isDigit (hdigits c hmem)
    omega
  have hlead := leading_digits hm hstop rest
  rcases hform with ⟨rfl, rfl⟩ | ⟨rfl, rfl⟩ | ⟨rfl, rfl⟩
  · refine ⟨?_, ?_, '-', digits, rfl, by decide⟩
    · rw [List.cons_append, signed, unsign, if_pos rfl, hlead]
    · exact List.forall_mem_cons.mpr ⟨by decide, hascii⟩
  · refine ⟨?_, ?_, '+', digits, rfl, by decide⟩
    · rw [List.cons_append, signed, unsign, if_neg Bool.false_ne_true, hlead]
    · exact List.forall_mem_cons.mpr ⟨by decide, hascii⟩
  · obtain ⟨first, more, rfl⟩ := List.exists_cons_of_ne_nil hne
    have hfirst := hdigits first List.mem_cons_self
    refine ⟨?_, hascii, first, more, rfl, isSpace_eq_false_of_isDigit hfirst⟩
    have hnone : unsign (first :: more ++ c :: rest) = (false, first :: more ++ c :: rest) := by
      apply unsign_of_ne
      · intro rest' heq
        cases heq
        cases hfirst
      · intro rest' heq
        cases heq
        cases hfirst
    rw [signed, hnone, if_neg Bool.false_ne_true, hlead]

/-- A decimal integer is read as its value, if that fits. -/
theorem strtol_decimal (bits : Nat) {text : List Char} {n : Int}
    (hvalue : Decimal.signedValue text = some n) {byte : UInt8}
    (hstop : (charOf byte).isDigit = false) (behind : List UInt8) :
    strtol bits (Utf8.ascii text ++ byte :: behind) = saturate bits n := by
  obtain ⟨hsigned, hascii, first, more, rfl, hspace⟩ :=
    signed_decimal hvalue hstop (behind.map charOf)
  rw [strtol, List.map_append, List.map_cons, map_charOf_ascii hascii, List.cons_append,
    List.dropWhile_cons_of_neg (by simp [hspace]), ← List.cons_append, hsigned]

end Strtol
