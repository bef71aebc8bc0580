import RealTimeWs.Text.Decimal

/-! # Numeric strings of a script

`Number` applied to a text of letters, digits and underscores, and the text that
the resulting number is printed as. Without a sign and a decimal point the value is
a natural number, infinite or not a number; it is rounded to double precision, and
from `2 ^ 53` on printed with as few digits as still denote it.
-/

namespace Script

/-- The numbers that texts without a sign and a point denote. -/
inductive Number where
  | nan
  | infinity
  | nat (n : Nat)
  deriving DecidableEq

/-- The closest multiple of a unit, in units, ties to an even one. -/
def rounded (n unit : Nat) : Nat :=
  if unit < 2 * (n % unit) ∨ (unit = 2 * (n % unit) ∧ n / unit % 2 = 1) then n / unit + 1
  else n / unit

/-- The closest double to a natural number. -/
def ofNat (n : Nat) : Number :=
  let unit := 2 ^ (n.log2 - 52)
  let value := rounded n unit * unit
  if value.log2 < 1024 then .nat value else .infinity

/-- The value of a digit, letters counted from ten. -/
def digitValue (c : Char) : Option Nat :=
  if c.isDigit then some (c.toNat - '0'.toNat)
  else if 'a' ≤ c ∧ c ≤ 'z' then some (c.toNat - 'a'.toNat + 10)
  else if 'A' ≤ c ∧ c ≤ 'Z' then some (c.toNat - 'A'.toNat + 10)
  else none

/-- The value of a nonempty run of digits in a radix up to 36. -/
def radixValue (radix : Nat) (text : List Char) : Option Nat :=
  if text = [] then none
  else text.foldlM (fun value c =>
    (digitValue c).bind fun d => if d < radix then some (value * radix + d) else none) 0

/-- Digits with an optional exponent. -/
def decimalValue (text : List Char) : Option Nat :=
  match text.dropWhile Char.isDigit with
  | [] => Decimal.natValue text
  | mark :: exponent =>
      if mark = 'e' ∨ mark = 'E' then
        (Decimal.natValue (text.takeWhile Char.isDigit)).bind fun mantissa =>
          (Decimal.natValue exponent).map fun power => mantissa * 10 ^ power
      else none

/-- The exact value that a text denotes. -/
def exactValue : List Char → Option Nat
  | [] => some 0
  | '0' :: 'x' :: digits | '0' :: 'X' :: digits => radixValue 16 digits
  | '0' :: 'o' :: digits | '0' :: 'O' :: digits => radixValue 8 digits
  | '0' :: 'b' :: digits | '0' :: 'B' :: digits => radixValue 2 digits
  | text => decimalValue text

/-- `Number` of a text of letters, digits and underscores. -/
def number (text : String) : Number :=
  if text = "Infinity" then .infinity
  else match exactValue text.toList with
    | none => .nan
    | some n => ofNat n

/-- The fewest decimal digits that denote a double, with the zeros after them. -/
def shortest (n : Nat) : Nat × Nat :=
  let denotes (digits zeros : Nat) : Bool := ofNat (digits * 10 ^ zeros) = .nat n
  let candidate (zeros : Nat) : Option Nat :=
    let low := n / 10 ^ zeros
    let nearer := n - low * 10 ^ zeros ≤ (low + 1) * 10 ^ zeros - n
    if denotes low zeros ∧ (nearer ∨ ¬ denotes (low + 1) zeros) then some low
    else if denotes (low + 1) zeros then some (low + 1)
    else none
  ((List.range (Nat.toDigits 10 n).length).reverse.findSome? fun zeros =>
    (candidate zeros).map fun digits => (digits, zeros)).getD (n, 0)

/-- The printed form of a double from `2 ^ 53` on. -/
def largeText (n : Nat) : List Char :=
  let digits := Nat.toDigits 10 (shortest n).1
  let zeros := (shortest n).2
  let length := digits.length + zeros
  if length ≤ 21 then digits ++ List.replicate zeros '0'
  else digits.take 1 ++ (if digits.length = 1 then [] else '.' :: digits.drop 1) ++
    ['e', '+'] ++ Nat.toDigits 10 (length - 1)

/-- The printed form of a number. -/
def text : Number → String
  | .nan => "NaN"
  | .infinity => "Infinity"
  | .nat n => if n < 2 ^ 53 then n.repr else String.ofList (largeText n)

/-! ## Small values -/

theorem ofNat_of_lt {n : Nat} (hlt : n < 2 ^ 53) : ofNat n = .nat n := by
  have hlog : n.log2 < 53 := by
    rcases Nat.eq_zero_or_pos n with rfl | hpos
    · decide
    · exact (Nat.log2_lt (Nat.pos_iff_ne_zero.mp hpos)).mpr hlt
  have hunit : n.log2 - 52 = 0 := by omega
  have hbound : n.log2 < 1024 := by omega
  simp [ofNat, rounded, hunit, Nat.mod_one, hbound]

/-! ## Printed forms -/

theorem shortest_low (n : Nat) : n / 10 ^ (shortest n).2 ≤ (shortest n).1 := by
  unfold shortest
  simp only
  generalize hfound : List.findSome? _ _ = found
  cases found with
  | none => simp
  | some pair =>
      obtain ⟨zeros, _, hzeros⟩ := List.exists_of_findSome?_eq_some hfound
      simp only [Option.map_eq_some_iff] at hzeros
      obtain ⟨digits, hdigits, rfl⟩ := hzeros
      simp only [Option.getD_some]
      split_ifs at hdigits <;> simp only [Option.some.injEq] at hdigits <;> omega

/-- A number printed with many digits has a long text. -/
theorem five_le_length_largeText {n : Nat} (hle : 2 ^ 53 ≤ n) : 5 ≤ (largeText n).length := by
  have hdigits : (Nat.toDigits 10 (shortest n).1).length + (shortest n).2 ≥ 5 := by
    by_contra hshort
    have hsum : (Nat.toDigits 10 (shortest n).1).length + (shortest n).2 ≤ 4 := by omega
    have hlt : (shortest n).1 < 10 ^ (Nat.toDigits 10 (shortest n).1).length :=
      (Nat.length_toDigits_le_iff (by decide) Nat.length_toDigits_pos).mp le_rfl
    have hdiv : n < 10 ^ (Nat.toDigits 10 (shortest n).1).length * 10 ^ (shortest n).2 :=
      (Nat.div_lt_iff_lt_mul (by positivity)).mp (lt_of_le_of_lt (shortest_low n) hlt)
    rw [← pow_add] at hdiv
    have hpow := Nat.pow_le_pow_right (show 0 < 10 by decide) hsum
    omega
  simp only [largeText]
  split
  next => simpa using hdigits
  next hlong =>
      have hexponent : 2 ≤ (Nat.toDigits 10
          ((Nat.toDigits 10 (shortest n).1).length + (shortest n).2 - 1)).length := by
        by_contra hone
        have hlt := (Nat.length_toDigits_le_iff (show 1 < 10 by decide) (show 0 < 1 by decide)).mp
          (show (Nat.toDigits 10
            ((Nat.toDigits 10 (shortest n).1).length + (shortest n).2 - 1)).length ≤ 1 by omega)
        omega
      have hfirst : 1 ≤ (Nat.toDigits 10 (shortest n).1).length := Nat.length_toDigits_pos
      simp only [List.length_append, List.length_take, List.length_cons, List.length_nil]
      omega

theorem length_repr_lt_five {i : Nat} (hlt : i < 1024) : i.repr.toList.length < 5 := by
  rw [Nat.toList_repr]
  have := (Nat.length_toDigits_le_iff (show 1 < 10 by decide) (show 0 < 4 by decide)).mpr
    (show i < 10 ^ 4 by omega)
  omega

/-- A number is printed as a natural number below 1024 only if it is that number. -/
theorem text_eq_repr {x : Number} {i : Nat} (hlt : i < 1024) : text x = i.repr ↔ x = .nat i := by
  constructor
  · intro heq
    cases x with
    | nan =>
        have hdigit : Char.isDigit 'N' = true := by
          apply Decimal.isDigit_of_mem_toDigits (n := i)
          rw [← Nat.toList_repr, ← heq]
          decide
        exact absurd hdigit (by decide)
    | infinity =>
        have hdigit : Char.isDigit 'I' = true := by
          apply Decimal.isDigit_of_mem_toDigits (n := i)
          rw [← Nat.toList_repr, ← heq]
          decide
        exact absurd hdigit (by decide)
    | nat n =>
        simp only [text] at heq
        split at heq
        next => rw [Nat.repr_inj.mp heq]
        next hlarge =>
            have hlength := five_le_length_largeText (not_lt.mp hlarge)
            have hshort := length_repr_lt_five hlt
            rw [← heq, String.toList_ofList] at hshort
            omega
  · rintro rfl
    simp only [text]
    rw [if_pos (by omega)]

example : text (number "0512") = "512" ∧ text (number "0x1F") = "31" ∧
    text (number "5e2") = "500" ∧ text (number "0512d") = "NaN" := by decide

/-- A text of digits alone is read as in the decimal system. -/
theorem exactValue_of_digits {text : List Char} {n : Nat}
    (hvalue : Decimal.natValue text = some n) : exactValue text = some n := by
  obtain ⟨hne, hdigits, _⟩ := Decimal.digits_of_natValue_eq hvalue
  have hdecimal : decimalValue text = some n := by
    rw [decimalValue, List.dropWhile_eq_nil_iff.mpr hdigits]
    exact hvalue
  -- a letter behind the leading zero would be a digit
  unfold exactValue
  split
  next => exact absurd rfl hne
  all_goals first
    | exact hdecimal
    | exact absurd (hdigits _ (List.mem_cons_of_mem _ List.mem_cons_self)) (by decide)

theorem number_of_digits {text : List Char} {n : Nat} (hvalue : Decimal.natValue text = some n)
    (hlt : n < 2 ^ 53) : number (String.ofList text) = .nat n := by
  have hword : String.ofList text ≠ "Infinity" := by
    intro heq
    have htext := congrArg String.toList heq
    rw [String.toList_ofList] at htext
    obtain ⟨_, hdigits, _⟩ := Decimal.digits_of_natValue_eq hvalue
    rw [htext] at hdigits
    exact absurd (hdigits 'I' (by decide)) (by decide)
  rw [number, if_neg hword, String.toList_ofList, exactValue_of_digits hvalue]
  exact ofNat_of_lt hlt

end Script
