import RealTimeWs.Concentrator.Udp

/-! # What lies behind a payload

The number is read up to the first byte that is no digit, and the callback does not look
at the length of the payload. Two receptions of the same payload therefore agree when
the number ends inside the payload, and otherwise only when its digits leave no choice.
-/

namespace RealTimeWs

open Strtol

/-- The sign of the number in the payload, and the rest of the payload behind it. -/
def numeral (payload : List UInt8) : Bool × List Char :=
  unsign ((payload.map charOf).dropWhile isSpace)

/-- The second number starts with the digits of the first one. -/
def Continues (n m : Nat) : Prop := ∃ width tail, tail < 10 ^ width ∧ m = n * 10 ^ width + tail

/-- The number ends inside the payload, or every number of 32 bits that starts with its digits
sets the same percentage as the numbers that are too large. -/
def ReadsInside (payload : List UInt8) : Prop :=
  (∃ c ∈ (numeral payload).2, c.isDigit = false) ∨
    ∀ m, Continues (Nat.ofDigitChars 10 (numeral payload).2 0) m →
      if (numeral payload).1 then m ≤ 2 ^ 31 → -(m : Int) % 2 ^ 16 ≤ 10
      else m < 2 ^ 31 → 1023 ≤ m % 2 ^ 16

/-! ## Reading on -/

section Reading

variable {payload behind : List UInt8} {text more : List Char}

/-- The sign is found at the start, so it does not depend on what follows. -/
theorem unsign_append (hstart : text ≠ [] ∨ unsign more = (false, more)) :
    unsign (text ++ more) = ((unsign text).1, (unsign text).2 ++ more) := by
  cases text with
  | nil =>
      rcases hstart with hne | hmore
      · exact absurd rfl hne
      · exact hmore
  | cons first rest =>
      by_cases hminus : first = '-'
      · subst hminus
        rfl
      · by_cases hplus : first = '+'
        · subst hplus
          rfl
        · have hnone : ∀ tail, unsign (first :: tail) = (false, first :: tail) := by
            intro tail
            apply unsign_of_ne
            · exact fun rest heq => hminus (List.cons.inj heq).1
            · exact fun rest heq => hplus (List.cons.inj heq).1
          rw [List.cons_append, hnone, hnone, List.cons_append]

/-- A text that starts like a numeral without a sign. -/
theorem numeral_append (hstart : (payload.map charOf).dropWhile isSpace ≠ [] ∨
      (behind.map charOf).dropWhile isSpace = behind.map charOf ∧
        unsign (behind.map charOf) = (false, behind.map charOf)) :
    numeral (payload ++ behind) =
      ((numeral payload).1, (numeral payload).2 ++ behind.map charOf) := by
  rw [numeral, numeral, List.map_append, List.dropWhile_append]
  rcases hstart with hne | ⟨hspace, hsign⟩
  · rw [if_neg (by simpa using hne), unsign_append (.inl hne)]
  · split
    next hempty =>
      rw [List.isEmpty_iff] at hempty
      rw [hspace, hsign, hempty]
      rfl
    next hempty => exact unsign_append (.inl (by simpa using hempty))

/-- The number that is read from memory, before it is made to fit. -/
def readNumber (memory : List UInt8) : Int :=
  if (numeral memory).1 then -leading (numeral memory).2 else leading (numeral memory).2

/-- Nothing behind the end of the digits is read. -/
theorem leading_append_of_stop (hstop : ∃ c ∈ text, c.isDigit = false) :
    leading (text ++ more) = leading text := by
  have hlength : (text.takeWhile Char.isDigit).length ≠ text.length := by
    intro hlength
    obtain ⟨c, hmem, hdigit⟩ := hstop
    have hall := (List.takeWhile_prefix Char.isDigit).eq_of_length hlength
    have := List.mem_takeWhile_imp (hall ▸ hmem)
    rw [hdigit] at this
    cases this
  rw [leading, leading, List.takeWhile_append, if_neg hlength]

theorem ofDigitChars_lt (hdigits : ∀ c ∈ text, c.isDigit = true) :
    Nat.ofDigitChars 10 text 0 < 10 ^ text.length := by
  induction text using List.reverseRecOn with
  | nil => simp
  | append_singleton text c ih =>
      have hlast := toNat_lt_of_isDigit
        (hdigits c (List.mem_append_right text (List.mem_singleton.mpr rfl)))
      have hrest := ih fun c hmem => hdigits c (List.mem_append_left _ hmem)
      rw [Nat.ofDigitChars_append, Nat.ofDigitChars_cons, Nat.ofDigitChars_nil, List.length_append,
        List.length_singleton, Nat.pow_succ]
      have hzero : '0'.toNat = 48 := rfl
      omega

/-- Otherwise the digits go on behind the payload. -/
theorem continues_leading (hdigits : ∀ c ∈ text, c.isDigit = true) (more : List Char) :
    ∃ m, Continues (Nat.ofDigitChars 10 text 0) m ∧ leading (text ++ more) = m := by
  refine ⟨_, ⟨(more.takeWhile Char.isDigit).length,
    Nat.ofDigitChars 10 (more.takeWhile Char.isDigit) 0, ?_, rfl⟩, ?_⟩
  · exact ofDigitChars_lt fun c hmem => List.mem_takeWhile_imp hmem
  · rw [leading, List.takeWhile_append_of_pos hdigits, Nat.ofDigitChars_append,
      Nat.ofDigitChars_eq_ofDigitChars_zero]
    rw [Nat.mul_comm]

/-- Every tail of the right size can be written with exactly that many digits. -/
theorem exists_digits {width tail : Nat} (htail : tail < 10 ^ width) :
    ∃ digits : List Char, digits.length = width ∧ (∀ c ∈ digits, c.isDigit = true) ∧
      Nat.ofDigitChars 10 digits 0 = tail := by
  rcases Nat.eq_zero_or_pos width with rfl | hpos
  · refine ⟨[], rfl, by simp, ?_⟩
    rw [Nat.ofDigitChars_nil]
    omega
  · refine ⟨Decimal.padded width tail, Decimal.padded_length width tail hpos htail, ?_, ?_⟩
    · exact fun c hmem => Decimal.isDigit_of_mem_padded hmem
    · exact (Decimal.digits_of_natValue_eq (Decimal.natValue_padded width tail)).2.2

/-- Digits behind a payload that has not ended its number are read with it. -/
theorem numeral_append_digits {digits : List Char} (hdigits : ∀ c ∈ digits, c.isDigit = true) :
    numeral (payload ++ (Utf8.ascii digits ++ [0])) =
      ((numeral payload).1, (numeral payload).2 ++ (digits ++ [charOf 0])) := by
  have hascii : ∀ c ∈ digits, c.toNat < 128 := by
    intro c hmem
    have := toNat_lt_of_isDigit (hdigits c hmem)
    omega
  have hchars : (Utf8.ascii digits ++ [0]).map charOf = digits ++ [charOf 0] := by
    rw [List.map_append, map_charOf_ascii hascii, List.map_singleton]
  have hfirst : ∃ first rest, digits ++ [charOf 0] = first :: rest ∧ isSpace first = false ∧
      first ≠ '-' ∧ first ≠ '+' := by
    cases digits with
    | nil => exact ⟨charOf 0, [], rfl, by decide, by decide, by decide⟩
    | cons first rest =>
        have hfirst := hdigits first List.mem_cons_self
        refine ⟨first, rest ++ [charOf 0], rfl, isSpace_eq_false_of_isDigit hfirst, ?_, ?_⟩
        · intro heq
          rw [heq] at hfirst
          cases hfirst
        · intro heq
          rw [heq] at hfirst
          cases hfirst
  obtain ⟨first, rest, heq, hspace, hminus, hplus⟩ := hfirst
  rw [← hchars]
  apply numeral_append
  right
  rw [hchars, heq]
  refine ⟨List.dropWhile_cons_of_neg (by simp [hspace]), unsign_of_ne ?_ ?_⟩
  · exact fun rest heq => hminus (List.cons.inj heq).1
  · exact fun rest heq => hplus (List.cons.inj heq).1

theorem readNumber_append_digits (payload : List UInt8) {digits : List Char}
    (hdigits : ∀ c ∈ digits, c.isDigit = true)
    (hopen : ∀ c ∈ (numeral payload).2, c.isDigit = true) {m : Nat}
    (hvalue : Nat.ofDigitChars 10 (numeral payload).2 0 * 10 ^ digits.length +
      Nat.ofDigitChars 10 digits 0 = m) :
    readNumber (payload ++ (Utf8.ascii digits ++ [0])) =
      if (numeral payload).1 then -(m : Int) else m := by
  have hleading : leading ((numeral payload).2 ++ (digits ++ [charOf 0])) = m := by
    rw [leading, List.takeWhile_append_of_pos hopen, List.takeWhile_append_of_pos hdigits,
      List.takeWhile_cons_of_neg (by decide), List.append_nil, Nat.ofDigitChars_append,
      Nat.ofDigitChars_eq_ofDigitChars_zero, Nat.mul_comm, hvalue]
  rw [readNumber, numeral_append_digits hdigits, hleading]

/-- Every number that goes on from an open one lies in some memory behind the payload. -/
theorem exists_behind (hopen : ∀ c ∈ (numeral payload).2, c.isDigit = true) {m : Nat}
    (hm : Continues (Nat.ofDigitChars 10 (numeral payload).2 0) m) :
    ∃ behind, readNumber (payload ++ behind) = if (numeral payload).1 then -(m : Int) else m := by
  obtain ⟨width, tail, htail, hm⟩ := hm
  obtain ⟨digits, hlength, hdigits, hvalue⟩ := exists_digits htail
  refine ⟨Utf8.ascii digits ++ [0], readNumber_append_digits payload hdigits hopen ?_⟩
  rw [hlength, hvalue, hm]

/-- Some of them are too large. -/
theorem exists_large (n : Nat) : ∃ m, Continues n m ∧ 2 ^ 31 < m :=
  ⟨n * 10 ^ 10 + 9999999999, ⟨10, 9999999999, by norm_num, rfl⟩, by omega⟩

/-- A sign or a digit starts the number, so the payload decides where it starts. -/
theorem readNumber_append (hstart : (payload.map charOf).dropWhile isSpace ≠ [])
    (behind : List UInt8) :
    readNumber (payload ++ behind) = if (numeral payload).1
      then -leading ((numeral payload).2 ++ behind.map charOf)
      else leading ((numeral payload).2 ++ behind.map charOf) := by
  rw [readNumber, numeral_append (.inl hstart)]

end Reading

/-! ## Two receptions -/

section Receptions

/-- The percentage that a number from memory sets. -/
def percentOfRead (n : Int) : Nat := percentOf (toUint16 (saturate 32 n))

theorem percentOfRead_large {n : Int} (hlarge : 2 ^ 31 ≤ n) : percentOfRead n = 100 := by
  rcases saturate_cases n with ⟨hlow, _⟩ | ⟨hfits, _⟩ | ⟨_, hsaturated⟩
  · omega
  · omega
  · rw [percentOfRead, hsaturated]
    rfl

theorem percentOfRead_small {n : Int} (hsmall : n < -2 ^ 31) : percentOfRead n = 0 := by
  rcases saturate_cases n with ⟨_, hsaturated⟩ | ⟨hfits, _⟩ | ⟨hhigh, _⟩
  · rw [percentOfRead, hsaturated]
    rfl
  · omega
  · omega

theorem percentOfRead_of_fits {n : Int} (hlow : -2 ^ 31 ≤ n) (hhigh : n < 2 ^ 31) :
    percentOfRead n = percentOf (n % 2 ^ 16).toNat := by
  rcases saturate_cases n with ⟨hlow', _⟩ | ⟨_, hsaturated⟩ | ⟨hhigh', _⟩
  · omega
  · rw [percentOfRead, hsaturated, toUint16]
  · omega

/-- Numbers without a minus set the full percentage, if they are too large or look large. -/
theorem percentOfRead_eq_hundred_iff (m : Nat) :
    percentOfRead m = 100 ↔ (m < 2 ^ 31 → 1023 ≤ m % 2 ^ 16) := by
  rcases Nat.lt_or_ge m (2 ^ 31) with hfits | hlarge
  · rw [percentOfRead_of_fits (by omega) (by omega), percentOf_eq_hundred_iff]
    omega
  · rw [percentOfRead_large (by omega)]
    exact iff_of_true rfl (fun hlt => by omega)

/-- Numbers with a minus set no percentage, if they are too small or look small. -/
theorem percentOfRead_eq_zero_iff (m : Nat) :
    percentOfRead (-m) = 0 ↔ (m ≤ 2 ^ 31 → -(m : Int) % 2 ^ 16 ≤ 10) := by
  rcases Nat.lt_or_ge (2 ^ 31) m with hsmall | hfits
  · rw [percentOfRead_small (by omega)]
    exact iff_of_true rfl (fun hle => by omega)
  · rw [percentOfRead_of_fits (by omega) (by omega), percentOf_eq_zero_iff]
    omega

theorem udpReceiveCallback_percent (memory : List UInt8) (state : Concentrator) :
    (udpReceiveCallback memory state).uhADCxConvertedValuePercent =
      percentOfRead (readNumber memory) := rfl

theorem udpReceiveCallback_congr {memory memory' : List UInt8} (state : Concentrator)
    (hpercent : percentOfRead (readNumber memory) = percentOfRead (readNumber memory')) :
    udpReceiveCallback memory state = udpReceiveCallback memory' state := by
  rw [← udpReceiveCallback_percent memory state, ← udpReceiveCallback_percent memory' state]
    at hpercent
  simp only [udpReceiveCallback] at hpercent ⊢
  rw [hpercent]

theorem isDigit_of_not_stop {text : List Char} (hstop : ¬ ∃ c ∈ text, c.isDigit = false) :
    ∀ c ∈ text, c.isDigit = true := by
  intro c hmem
  by_contra hdigit
  exact hstop ⟨c, hmem, Bool.eq_false_of_not_eq_true hdigit⟩

/-- A number that may go on, but whose digits leave no choice. -/
theorem percentOfRead_open {minus : Bool} {text : List Char}
    (hopen : ∀ c ∈ text, c.isDigit = true)
    (hany : ∀ m, Continues (Nat.ofDigitChars 10 text 0) m →
      if minus then m ≤ 2 ^ 31 → -(m : Int) % 2 ^ 16 ≤ 10 else m < 2 ^ 31 → 1023 ≤ m % 2 ^ 16)
    (more : List Char) :
    percentOfRead (if minus then -leading (text ++ more) else leading (text ++ more)) =
      if minus then 0 else 100 := by
  obtain ⟨m, hm, hleading⟩ := continues_leading hopen more
  have hall := hany m hm
  rw [hleading]
  cases minus with
  | true => exact (percentOfRead_eq_zero_iff m).mpr hall
  | false => exact (percentOfRead_eq_hundred_iff m).mpr hall

/-- A payload of blanks leaves every choice. -/
theorem ReadsInside.start {payload : List UInt8} (hinside : ReadsInside payload) :
    (payload.map charOf).dropWhile isSpace ≠ [] := by
  intro hempty
  have hnumeral : numeral payload = (false, []) := by
    rw [numeral, hempty]
    rfl
  rw [ReadsInside, hnumeral] at hinside
  rcases hinside with ⟨c, hmem, _⟩ | hany
  · cases hmem
  · have hzero := hany 0 ⟨0, 0, by decide, by simp⟩
    simp at hzero

/-- Two receptions of one payload agree, whatever lies behind it, exactly when the number ends
inside the payload or its digits leave no choice. -/
theorem receptions_agree_iff (state : Concentrator) (payload : List UInt8) :
    (∀ behind behind', udpReceiveCallback (payload ++ behind) state =
      udpReceiveCallback (payload ++ behind') state) ↔ ReadsInside payload := by
  constructor
  · intro hsame
    by_cases hstop : ∃ c ∈ (numeral payload).2, c.isDigit = false
    · exact .inl hstop
    · have hopen := isDigit_of_not_stop hstop
      right
      obtain ⟨large, hlarge, hlt⟩ := exists_large (Nat.ofDigitChars 10 (numeral payload).2 0)
      obtain ⟨behind', hread'⟩ := exists_behind hopen hlarge
      intro m hm
      obtain ⟨behind, hread⟩ := exists_behind hopen hm
      have hpercent := congrArg Concentrator.uhADCxConvertedValuePercent (hsame behind behind')
      rw [udpReceiveCallback_percent, udpReceiveCallback_percent, hread, hread'] at hpercent
      split at hpercent
      next hminus =>
        rw [percentOfRead_small (show -(large : Int) < -2 ^ 31 by omega)] at hpercent
        rw [if_pos hminus]
        exact (percentOfRead_eq_zero_iff m).mp hpercent
      next hminus =>
        rw [percentOfRead_large (show (2 : Int) ^ 31 ≤ large by omega)] at hpercent
        rw [if_neg hminus]
        exact (percentOfRead_eq_hundred_iff m).mp hpercent
  · intro hinside behind behind'
    apply udpReceiveCallback_congr
    rw [readNumber_append hinside.start behind, readNumber_append hinside.start behind']
    by_cases hstop : ∃ c ∈ (numeral payload).2, c.isDigit = false
    · rw [leading_append_of_stop hstop, leading_append_of_stop hstop]
    · have hopen := isDigit_of_not_stop hstop
      have hany := hinside.resolve_left hstop
      rw [percentOfRead_open hopen hany, percentOfRead_open hopen hany]

/-- The payload of the server ends with its last digit. A digit that an older packet has left
behind it is read as one more. -/
theorem older_packet_read :
    (udpReceiveCallback (Utf8.ascii "51".toList ++ Utf8.ascii "2".toList ++ [0])
        (mainSetup 168000000)).uhADCxConvertedValuePercent = 50 ∧
      (udpReceiveCallback (Utf8.ascii "51".toList ++ [0]) (mainSetup 168000000)
        ).uhADCxConvertedValuePercent = 4 := by
  decide

end Receptions

end RealTimeWs
