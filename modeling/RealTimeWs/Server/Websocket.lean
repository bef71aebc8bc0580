import RealTimeWs.Server.Handlers
import RealTimeWs.Text.Quotient

/-! # Values sent to the browser

The WebSocket hook smooths the readings of a device with a moving average over
the newest five. It divides by five also where the history is shorter.
-/

namespace RealTimeWs

open Redis

namespace Websocket

/-- Simple Moving Average -/
def sma : Nat := 5

/-- `Math.round(sum / sma)` of the readings in a reply. -/
def average (reply : List String) : Script.Number :=
  Script.divRound (reply.foldl (fun sum entry => Script.add sum (Script.number entry)) (.nat 0)) sma

/-- The value emitted for a device when the `n`-th command reads its history, or
none where the callback throws. -/
def emitted (order : SetOrder) (n : Nat) (store : Store) (device : String) :
    Option Script.Number :=
  match (execute order n store ⟨dataKey device, .lrange 0 (sma - 1)⟩).2 with
  | .members reply => some (average reply)
  | _ => none

/-- The arithmetic mean, halves rounded up as `Math.round` does. -/
def roundedMean (readings : List Nat) : Nat :=
  (2 * readings.sum + readings.length) / (2 * readings.length)

/-- A value that is the rounded mean of some readings and lies between them. -/
def Smooths (readings : List Nat) (value : Option Script.Number) : Prop :=
  ∃ mean low high, value = some (.nat mean) ∧ mean = roundedMean readings ∧
    readings.min? = some low ∧ readings.max? = some high ∧ low ≤ mean ∧ mean ≤ high

/-- The readings whose mean the division by five rounds to: a full window, unless its double
quotient is the half above the mean, or so little in a shorter one that the wrong divisor
does not show. -/
def Averaged (readings : List Nat) : Prop :=
  readings.length = 5 ∧ readings.sum < 2 ^ 53 ∧
      (readings.sum < 5 * 2 ^ 50 ∨ readings.sum % 5 ≠ 2) ∨
  readings.length = 4 ∧ readings.sum ∈ [0, 1, 3, 4, 5, 8, 9, 13] ∨
  readings.length = 3 ∧ readings.sum ∈ [0, 1, 3, 4] ∨
  readings.length ≤ 2 ∧ readings.sum = 0

/-! ## The mean of a window -/

theorem roundedMean_between {readings : List Nat} (hne : readings ≠ []) :
    ∃ low high, readings.min? = some low ∧ readings.max? = some high ∧
      low ≤ roundedMean readings ∧ roundedMean readings ≤ high := by
  have hpos : 0 < readings.length := List.length_pos_iff.mpr hne
  obtain ⟨low, hlow⟩ := Option.isSome_iff_exists.mp (List.isSome_min?_of_ne_nil hne)
  obtain ⟨high, hhigh⟩ := Option.isSome_iff_exists.mp (List.isSome_max?_of_ne_nil hne)
  refine ⟨low, high, hlow, hhigh, ?_, ?_⟩
  · have hsum : readings.length • low ≤ readings.sum :=
      List.card_nsmul_le_sum _ _ (List.min?_eq_some_iff.mp hlow).2
    rw [smul_eq_mul] at hsum
    rw [roundedMean, Nat.le_div_iff_mul_le (by omega)]
    nlinarith
  · have hsum : readings.sum ≤ readings.length • high :=
      List.sum_le_card_nsmul _ _ (List.max?_eq_some_iff.mp hhigh).2
    rw [smul_eq_mul] at hsum
    rw [roundedMean, ← Nat.lt_succ_iff, Nat.div_lt_iff_lt_mul (by omega)]
    nlinarith

/-- The mean lies between the readings on its own account. -/
theorem smooths_iff {readings : List Nat} (hne : readings ≠ []) (value : Script.Number) :
    Smooths readings (some value) ↔ value = .nat (roundedMean readings) := by
  constructor
  · intro hsmooths
    obtain ⟨mean, low, high, hvalue, hmean, -⟩ := hsmooths
    rw [← hmean]
    exact Option.some.inj hvalue
  · intro hvalue
    obtain ⟨low, high, hlow, hhigh, hbetween⟩ := roundedMean_between hne
    exact ⟨_, low, high, congrArg some hvalue, rfl, hlow, hhigh, hbetween⟩

/-! ## The sum of a window -/

/-- Sums that doubles hold are exact. -/
theorem foldl_add_of_lt (total : Nat) {readings : List Nat}
    (hlt : total + readings.sum < 2 ^ 53) :
    (readings.map Script.Number.nat).foldl Script.add (.nat total) =
      .nat (total + readings.sum) := by
  induction readings generalizing total with
  | nil => simp
  | cons reading rest ih =>
      rw [List.sum_cons, ← add_assoc] at hlt ⊢
      rw [List.map_cons, List.foldl_cons, Script.add, Script.ofNat_of_lt (by omega)]
      exact ih _ hlt

/-- What addition makes of anything else. -/
theorem exists_of_foldl_add_eq_nat {start : Script.Number} {readings : List Nat} {sum : Nat}
    (hsum : (readings.map Script.Number.nat).foldl Script.add start = .nat sum) :
    ∃ n, start = .nat n := by
  induction readings generalizing start with
  | nil => exact ⟨sum, hsum⟩
  | cons reading rest ih =>
      obtain ⟨n, hn⟩ := ih hsum
      cases start with
      | nan => cases hn
      | infinity => cases hn
      | nat m => exact ⟨m, rfl⟩

/-- Each rounding of a sum adds little. -/
theorem foldl_add_le {total sum : Nat} {readings : List Nat}
    (hsum : (readings.map Script.Number.nat).foldl Script.add (.nat total) = .nat sum) :
    64 ^ readings.length * sum ≤ 65 ^ readings.length * (total + readings.sum) := by
  induction readings generalizing total with
  | nil =>
      cases hsum
      simp
  | cons reading rest ih =>
      rw [List.map_cons, List.foldl_cons, Script.add] at hsum
      obtain ⟨next, hnext⟩ := exists_of_foldl_add_eq_nat hsum
      rw [hnext] at hsum
      have hrest := ih hsum
      have hstep := Script.ofNat_le hnext
      rw [List.length_cons, List.sum_cons, pow_succ', pow_succ']
      have hpow : 0 < 65 ^ rest.length := Nat.pow_pos (by decide)
      calc 64 * 64 ^ rest.length * sum = 64 * (64 ^ rest.length * sum) := by ring
        _ ≤ 64 * (65 ^ rest.length * (next + rest.sum)) := Nat.mul_le_mul_left _ hrest
        _ = 65 ^ rest.length * (64 * next + 64 * rest.sum) := by ring
        _ ≤ 65 ^ rest.length * (65 * (total + reading) + 65 * rest.sum) := by
            apply Nat.mul_le_mul_left
            omega
        _ = 65 * 65 ^ rest.length * (total + (reading + rest.sum)) := by ring

/-! ## The emitted value -/

/-- The sum is over the numbers of the entries. -/
theorem average_eq {reply : List String} {readings : List Nat}
    (hnumeric : reply.map Script.number = readings.map Script.Number.nat) :
    average reply =
      Script.divRound ((readings.map Script.Number.nat).foldl Script.add (.nat 0)) sma := by
  rw [average, ← hnumeric, List.foldl_map]

theorem average_of_lt {reply : List String} {readings : List Nat}
    (hnumeric : reply.map Script.number = readings.map Script.Number.nat)
    (hlt : readings.sum < 2 ^ 52) : average reply = .nat ((2 * readings.sum + 5) / 10) := by
  rw [average_eq hnumeric, foldl_add_of_lt 0 (by omega), Script.divRound, Nat.zero_add,
    Script.roundQuotient_of_lt (by decide) hlt]
  rfl

/-- From `5 * 2 ^ 50` on doubles have two binary digits after the point, and two fifths are
rounded to a half. -/
theorem roundQuotient_sma_iff {sum : Nat} (hlt : sum < 2 ^ 53) :
    Script.roundQuotient sum sma = (2 * sum + 5) / 10 ↔ sum < 5 * 2 ^ 50 ∨ sum % 5 ≠ 2 := by
  rcases Nat.lt_or_ge sum (2 ^ 52) with hsmall | hlarge
  · exact iff_of_true (Script.roundQuotient_of_lt (by decide) hsmall) (Or.inl (by omega))
  · have hdivisor : Nat.log2 sma = 2 := by decide
    rcases Nat.lt_or_ge sum (5 * 2 ^ 50) with hbelow | habove
    · have hbinade : Script.binade sum sma = 52 := by
        rw [Script.binade, hdivisor, sma, Nat.log2_eq_iff (by omega)]
        omega
      have hbits : Script.fractionBits sum sma = 3 := by
        rw [Script.fractionBits, hbinade, hdivisor]
      have hspacing : Script.spacing sum sma = 1 := by
        rw [Script.spacing, hbinade, hdivisor]
        rfl
      refine iff_of_true ?_ (Or.inl hbelow)
      rw [Script.roundQuotient, Script.significand, hbits, hspacing, Script.rounded, sma]
      split <;> omega
    · have hbinade : Script.binade sum sma = 53 := by
        rw [Script.binade, hdivisor, sma, Nat.log2_eq_iff (by omega)]
        omega
      have hbits : Script.fractionBits sum sma = 2 := by
        rw [Script.fractionBits, hbinade, hdivisor]
      have hspacing : Script.spacing sum sma = 1 := by
        rw [Script.spacing, hbinade, hdivisor]
        rfl
      obtain ⟨whole, fifths, hfifths, rfl⟩ :
          ∃ whole fifths, fifths < 5 ∧ sum = 5 * whole + fifths :=
        ⟨sum / 5, sum % 5, Nat.mod_lt _ (by decide), (Nat.div_add_mod sum 5).symm⟩
      rw [Script.roundQuotient, Script.significand, hbits, hspacing, Script.rounded, sma]
      interval_cases fifths <;> split <;> omega

/-- A full window whose sum doubles hold is divided by its own length. -/
theorem average_full_iff {reply : List String} {readings : List Nat}
    (hnumeric : reply.map Script.number = readings.map Script.Number.nat)
    (hfull : readings.length = 5) (hlt : readings.sum < 2 ^ 53) :
    average reply = .nat (roundedMean readings) ↔
      readings.sum < 5 * 2 ^ 50 ∨ readings.sum % 5 ≠ 2 := by
  rw [average_eq hnumeric, foldl_add_of_lt 0 (by omega), Script.divRound, Nat.zero_add,
    Script.Number.nat.injEq, roundedMean, hfull, roundQuotient_sma_iff hlt]

/-- A short window of large readings is divided by too much for any rounding. -/
theorem average_ne_of_ge {reply : List String} {readings : List Nat}
    (hnumeric : reply.map Script.number = readings.map Script.Number.nat)
    (hne : readings ≠ []) (hshort : readings.length ≤ 4) (hge : 2 ^ 52 ≤ readings.sum) :
    average reply ≠ .nat (roundedMean readings) := by
  intro hmean
  rw [average_eq hnumeric] at hmean
  cases hsum : (readings.map Script.Number.nat).foldl Script.add (.nat 0) with
  | nan =>
      rw [hsum] at hmean
      cases hmean
  | infinity =>
      rw [hsum] at hmean
      cases hmean
  | nat sum =>
      rw [hsum, Script.divRound, Script.Number.nat.injEq] at hmean
      have hquotient := Script.roundQuotient_le (n := sum) (show 0 < sma by decide)
      have hrounded := foldl_add_le hsum
      rw [hmean, roundedMean] at hquotient
      have hpos : 0 < readings.length := List.length_pos_iff.mpr hne
      simp only [sma] at hquotient
      generalize readings.sum = total at *
      generalize readings.length = length at *
      interval_cases length <;> omega

/-- Divided by five, a shorter window gives its mean for a few small sums only. -/
theorem short_mean_iff {total length : Nat} (hpos : 0 < length) (hshort : length ≤ 4) :
    (2 * total + 5) / 10 = (2 * total + length) / (2 * length) ↔
      length = 4 ∧ total ∈ [0, 1, 3, 4, 5, 8, 9, 13] ∨ length = 3 ∧ total ∈ [0, 1, 3, 4] ∨
        length ≤ 2 ∧ total = 0 := by
  rcases Nat.lt_or_ge total 40 with hlt | hge
  · interval_cases length <;> interval_cases total <;> decide
  · have hne : (2 * total + 5) / 10 ≠ (2 * total + length) / (2 * length) := by
      interval_cases length <;> omega
    simp only [hne, false_iff, List.mem_cons, List.not_mem_nil, or_false]
    omega

/-- The emitted value is the mean of the readings it was computed from, and lies
between them, if the window is full or the wrong divisor does not show; only for a
full window whose sum doubles do not hold is the converse left open. -/
theorem smooths_emitted_iff (order : SetOrder) (n : Nat) (store : Store) (device : String)
    (history : List String) (values : List Nat)
    (hstore : store (dataKey device) = some (.list history)) (hne : history ≠ [])
    (hnumeric : history.map Script.number = values.map Script.Number.nat) :
    (Averaged (values.take sma) →
      Smooths (values.take sma) (emitted order n store device)) ∧
    (Smooths (values.take sma) (emitted order n store device) →
      Averaged (values.take sma) ∨
        (values.take sma).length = 5 ∧ 2 ^ 53 ≤ (values.take sma).sum) := by
  have hemitted : emitted order n store device = some (average (history.take sma)) := by
    simp [emitted, execute, hstore, Operation.reply, slice, sma]
  have hwindow : (history.take sma).map Script.number =
      (values.take sma).map Script.Number.nat := by
    rw [List.map_take, List.map_take, hnumeric]
  have hvalues : values.take sma ≠ [] := by
    intro hnil
    rw [hnil, List.map_nil, List.map_eq_nil_iff, List.take_eq_nil_iff] at hwindow
    exact hwindow.elim (by decide) hne
  have hlength : (values.take sma).length ≤ 5 := List.length_take_le _ _
  have hpos : 0 < (values.take sma).length := List.length_pos_iff.mpr hvalues
  rw [hemitted, smooths_iff hvalues]
  generalize values.take sma = window at *
  rcases Nat.lt_or_eq_of_le hlength with hshort | hfull
  · -- the divisor is not the number of readings
    have hmean : average (history.take sma) = .nat (roundedMean window) ↔
        window.length = 4 ∧ window.sum ∈ [0, 1, 3, 4, 5, 8, 9, 13] ∨
          window.length = 3 ∧ window.sum ∈ [0, 1, 3, 4] ∨ window.length ≤ 2 ∧ window.sum = 0 := by
      rcases Nat.lt_or_ge window.sum (2 ^ 52) with hlt | hge
      · rw [average_of_lt hwindow hlt, Script.Number.nat.injEq, roundedMean,
          short_mean_iff hpos (by omega)]
      · refine iff_of_false (average_ne_of_ge hwindow hvalues (by omega) hge) ?_
        simp only [List.mem_cons, List.not_mem_nil, or_false]
        omega
    rw [hmean]
    constructor
    · intro haveraged
      rcases haveraged with ⟨hfull, -⟩ | hsmall
      · omega
      · exact hsmall
    · intro hsmall
      exact .inl (.inr hsmall)
  · rcases Nat.lt_or_ge window.sum (2 ^ 53) with hlt | hge
    · rw [average_full_iff hwindow hfull hlt]
      constructor
      · intro haveraged
        rcases haveraged with ⟨-, -, hquotient⟩ | ⟨hfour, -⟩ | ⟨hthree, -⟩ | ⟨htwo, -⟩
        · exact hquotient
        · omega
        · omega
        · omega
      · intro hquotient
        exact .inl (.inl ⟨hfull, hlt, hquotient⟩)
    · constructor
      · intro haveraged
        rcases haveraged with ⟨-, hlt, -⟩ | ⟨hfour, -⟩ | ⟨hthree, -⟩ | ⟨htwo, -⟩ <;> omega
      · intro _
        exact .inr ⟨hfull, hge⟩

/-- A store that holds nothing but the history of one device. -/
def historyStore (device : String) (history : List String) : Store :=
  Function.update empty (dataKey device) (some (.list history))

theorem smooths_emitted_full :
    Smooths [10, 20, 30, 40, 51] (emitted referencePlatform.order 0
      (historyStore "adch_000001" ["0010", "0020", "0030", "0040", "0051", "1023"])
      "adch_000001") := by
  apply (smooths_emitted_iff referencePlatform.order 0
    (historyStore "adch_000001" ["0010", "0020", "0030", "0040", "0051", "1023"]) "adch_000001"
    ["0010", "0020", "0030", "0040", "0051", "1023"] [10, 20, 30, 40, 51, 1023]
    (Function.update_self _ _ _) (by decide) (by decide)).1
  left
  decide

/-- The first reading of a device is divided by five. -/
theorem first_reading_divided :
    historyStore "adch_000001" ["1000"] (dataKey "adch_000001") = some (.list ["1000"]) ∧
      Script.number "1000" = .nat 1000 ∧
      emitted referencePlatform.order 0 (historyStore "adch_000001" ["1000"]) "adch_000001" =
        some (.nat 200) ∧
      ¬ Smooths [1000] (emitted referencePlatform.order 0 (historyStore "adch_000001" ["1000"])
        "adch_000001") := by
  have hemitted : emitted referencePlatform.order 0 (historyStore "adch_000001" ["1000"])
      "adch_000001" = some (.nat 200) := by decide
  refine ⟨Function.update_self _ _ _, by decide, hemitted, ?_⟩
  rw [hemitted, smooths_iff (by decide)]
  decide

end Websocket

end RealTimeWs
