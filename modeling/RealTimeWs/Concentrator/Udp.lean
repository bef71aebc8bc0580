import RealTimeWs.Text.Strtol

/-! # Readings and settings of the concentrator

A reading goes to the server as a message of two bulk strings. A setting comes back as
the bytes of a decimal number, from which the callback computes a percentage and the
compare value of the timer. The number is read from memory that holds the payload and,
behind it, whatever the buffer held before.
-/

namespace RealTimeWs

open Strtol

/-- The variables of the concentrator that the functions below share. The width of a
variable is that of its type in the source. -/
structure Concentrator where
  led4 : Bool
  uhADCxConvertedValue : Nat
  uhADCxConvertedValuePercent : Nat
  aCCValueBuffer : Nat
  uhTimerPeriod : Nat
deriving DecidableEq, Repr

/-- The bytes of the message with a reading. -/
def concentratorSend (deviceUid : List Char) (state : Concentrator) : List UInt8 :=
  Utf8.ascii ("*2\r\n$11\r\n".toList ++ deviceUid ++ "\r\n$4\r\n".toList ++
    Decimal.padded 4 state.uhADCxConvertedValue ++ "\r\n".toList)

/-- The conversion of a signed number to an unsigned one of sixteen bits. -/
def toUint16 (n : Int) : Nat := (n % 2 ^ 16).toNat

/-- The percentage of a value that is stored without a sign. -/
def percentOf (value : Nat) : Nat :=
  if value ≤ 0 then 0
  else if 1023 ≤ value then 100
  else (value * 100) / 1023

/-- The compare value of a percentage, in unsigned arithmetic of 32 bits. -/
def compareValue (percent uhTimerPeriod : Nat) : Nat :=
  (percent * ((uhTimerPeriod + (2 ^ 32 - 1)) % 2 ^ 32)) % 2 ^ 32 / 100

/-- `udp_receive_callback`: the number at the payload sets the output of the timer. -/
def udpReceiveCallback (memory : List UInt8) (state : Concentrator) : Concentrator :=
  let value := toUint16 (strtol 32 memory)
  let percent := percentOf value
  { state with
    led4 := !state.led4
    uhADCxConvertedValuePercent := percent
    aCCValueBuffer := compareValue percent state.uhTimerPeriod }

/-- The variables when the main loop starts. -/
def mainSetup (systemCoreClock : Nat) : Concentrator :=
  let uhTimerPeriod := (systemCoreClock / 17570 + (2 ^ 32 - 1)) % 2 ^ 32
  { led4 := false
    uhADCxConvertedValue := 0
    uhADCxConvertedValuePercent := 50
    aCCValueBuffer := compareValue 50 uhTimerPeriod
    uhTimerPeriod := uhTimerPeriod }

/-! ## The percentage of a number -/

/-- The branches of the percentage are one clamp. -/
theorem percentOf_eq (value : Nat) : percentOf value = 100 * min value 1023 / 1023 := by
  unfold percentOf
  split
  · omega
  · split <;> omega

theorem percentOf_eq_hundred_iff (value : Nat) : percentOf value = 100 ↔ 1023 ≤ value := by
  rw [percentOf_eq]
  omega

theorem percentOf_eq_zero_iff (value : Nat) : percentOf value = 0 ↔ value ≤ 10 := by
  rw [percentOf_eq]
  omega

/-- The percentage that a number stands for. -/
def percentage (n : Int) : Int := 100 * max 0 (min n 1023) / 1023

/-- The numbers that keep their meaning when they are cut to sixteen bits without a sign:
negative ones have to look small, large ones have to look large. Numbers that do not fit
32 bits were replaced before. -/
def SurvivesTruncation (n : Int) : Prop :=
  (n < 0 → n < -2 ^ 31 ∨ n % 2 ^ 16 ≤ 10) ∧ (2 ^ 16 ≤ n → 2 ^ 31 ≤ n ∨ 1023 ≤ n % 2 ^ 16)

theorem saturate_cases (n : Int) :
    n < -2 ^ 31 ∧ saturate 32 n = -2 ^ 31 ∨
      (-2 ^ 31 ≤ n ∧ n < 2 ^ 31) ∧ saturate 32 n = n ∨
      2 ^ 31 ≤ n ∧ saturate 32 n = 2 ^ 31 - 1 := by
  have hunfold : saturate 32 n = max (-2147483648) (min n 2147483647) := rfl
  rw [hunfold]
  omega

theorem percentOf_truncated_iff (n : Int) :
    (percentOf (toUint16 (saturate 32 n)) : Int) = percentage n ↔ SurvivesTruncation n := by
  -- the value without a sign, as it is compared
  have hvalue : ∀ m : Int, (percentOf (toUint16 m) : Int) = 100 * min (m % 2 ^ 16) 1023 / 1023 := by
    intro m
    rw [percentOf_eq, toUint16]
    omega
  rw [hvalue, percentage, SurvivesTruncation]
  rcases saturate_cases n with ⟨hlow, hsaturated⟩ | ⟨hfits, hsaturated⟩ | ⟨hhigh, hsaturated⟩
  · rw [hsaturated]
    omega
  · rw [hsaturated]
    clear hsaturated
    rcases lt_or_ge n 0 with hnegative | hpositive
    · omega
    · rcases lt_or_ge n (2 ^ 16) with hsmall | hlarge
      · have hwhole : n % 2 ^ 16 = n := by omega
        have hclamp : max 0 (min n 1023) = min n 1023 := by omega
        rw [hwhole, hclamp]
        exact iff_of_true rfl ⟨by omega, by omega⟩
      · omega
  · rw [hsaturated]
    omega

/-- A received number sets the percentage it stands for exactly when it survives the
truncation. -/
theorem percent_of_received_iff (state : Concentrator) (text : List Char) (n : Int)
    (hvalue : Decimal.signedValue text = some n) (byte : UInt8)
    (hstop : (charOf byte).isDigit = false) (behind : List UInt8) :
    ((udpReceiveCallback (Utf8.ascii text ++ byte :: behind) state).uhADCxConvertedValuePercent :
        Int) = percentage n ↔ SurvivesTruncation n := by
  rw [← percentOf_truncated_iff, udpReceiveCallback, strtol_decimal 32 hvalue hstop]

theorem percent_of_received_iff_512 :
    ((udpReceiveCallback (Utf8.ascii "512".toList ++ 0 :: []) (mainSetup 168000000)
        ).uhADCxConvertedValuePercent : Int) = percentage 512 ↔ SurvivesTruncation 512 :=
  percent_of_received_iff (mainSetup 168000000) "512".toList 512 (by decide) 0 (by decide) []

/-- The number one below zero sets the full percentage instead of none, which is also more
than the larger number zero sets. -/
theorem minus_one_received :
    ((udpReceiveCallback (Utf8.ascii "-1".toList ++ 0 :: []) (mainSetup 168000000)
        ).uhADCxConvertedValuePercent : Int) = 100 ∧
      percentage (-1) = 0 ∧
      (udpReceiveCallback (Utf8.ascii "0".toList ++ 0 :: []) (mainSetup 168000000)
        ).uhADCxConvertedValuePercent = 0 := by
  decide

/-! ## The compare value over a run -/

/-- The variables after the datagrams with the given memory. -/
def receiveAll (memories : List (List UInt8)) (state : Concentrator) : Concentrator :=
  memories.foldl (fun state memory => udpReceiveCallback memory state) state

theorem percentOf_le (value : Nat) : percentOf value ≤ 100 := by
  rw [percentOf_eq]
  omega

/-- Where the full percentage of the period fits 32 bits, the compare value of any
percentage is computed without wrapping around. -/
theorem compareValue_eq {percent period : Nat} (hpercent : percent ≤ 100) (hpos : 0 < period)
    (hfits : 100 * (period - 1) < 2 ^ 32) :
    percent * (period - 1) < 2 ^ 32 ∧
      compareValue percent period = percent * (period - 1) / 100 := by
  have hproduct : percent * (period - 1) < 2 ^ 32 :=
    lt_of_le_of_lt (Nat.mul_le_mul_right (period - 1) hpercent) hfits
  have hbelow : (period + (2 ^ 32 - 1)) % 2 ^ 32 = period - 1 := by omega
  refine ⟨hproduct, ?_⟩
  rw [compareValue, hbelow, Nat.mod_eq_of_lt hproduct]

/-- A percentage of the period does not exceed it. -/
theorem percent_mul_div_le {percent : Nat} (hpercent : percent ≤ 100) (bound : Nat) :
    percent * bound / 100 ≤ bound :=
  Nat.div_le_of_le_mul (Nat.mul_le_mul_right bound hpercent)

/-- The timer is set up for its period: its compare value is the percentage of the last number
of the period, and the arithmetic of 32 bits has room for any percentage of it. -/
structure Driven (period : Nat) (state : Concentrator) : Prop where
  period_eq : state.uhTimerPeriod = period
  period_pos : 0 < period
  fits : 100 * (period - 1) < 2 ^ 32
  percent_le : state.uhADCxConvertedValuePercent ≤ 100
  compare_eq : state.aCCValueBuffer = compareValue state.uhADCxConvertedValuePercent period

/-- The period that the clock gives is positive, and small against 32 bits. -/
theorem driven_mainSetup {systemCoreClock : Nat} (hlow : 2 * 17570 ≤ systemCoreClock)
    (hhigh : systemCoreClock < 2 ^ 32) :
    Driven (systemCoreClock / 17570 - 1) (mainSetup systemCoreClock) := by
  -- the quotient is at least two, so nothing goes below zero
  have hperiod : (systemCoreClock / 17570 + (2 ^ 32 - 1)) % 2 ^ 32 =
      systemCoreClock / 17570 - 1 := by
    omega
  exact
    { period_eq := hperiod
      period_pos := by omega
      fits := by omega
      percent_le := Nat.le_of_ble_eq_true rfl
      compare_eq := by rw [mainSetup, hperiod] }

/-- A datagram changes the percentage and the compare value together. -/
theorem Driven.udpReceiveCallback {period : Nat} {state : Concentrator}
    (hdriven : Driven period state) (memory : List UInt8) :
    Driven period (udpReceiveCallback memory state) where
  period_eq := hdriven.period_eq
  period_pos := hdriven.period_pos
  fits := hdriven.fits
  percent_le := percentOf_le _
  compare_eq := by
    rw [← hdriven.period_eq]
    rfl

theorem Driven.receiveAll {period : Nat} {state : Concentrator} (hdriven : Driven period state)
    (memories : List (List UInt8)) : Driven period (receiveAll memories state) := by
  induction memories generalizing state with
  | nil => exact hdriven
  | cons memory rest ih => exact ih (hdriven.udpReceiveCallback memory)

/-- The compare value is the percentage of the last number of the period, computed without
wrapping around, and does not exceed it. -/
structure WithinPeriod (state : Concentrator) : Prop where
  period_pos : 1 ≤ state.uhTimerPeriod
  percent_le : state.uhADCxConvertedValuePercent ≤ 100
  product_lt : state.uhADCxConvertedValuePercent * (state.uhTimerPeriod - 1) < 2 ^ 32
  compare_eq : state.aCCValueBuffer =
    state.uhADCxConvertedValuePercent * (state.uhTimerPeriod - 1) / 100
  compare_le : state.aCCValueBuffer ≤ state.uhTimerPeriod - 1

theorem Driven.withinPeriod {period : Nat} {state : Concentrator} (hdriven : Driven period state) :
    WithinPeriod state := by
  obtain ⟨hproduct, hcompare⟩ :=
    compareValue_eq hdriven.percent_le hdriven.period_pos hdriven.fits
  have hvalue := hdriven.compare_eq.trans hcompare
  obtain rfl := hdriven.period_eq
  refine ⟨hdriven.period_pos, hdriven.percent_le, hproduct, hvalue, ?_⟩
  rw [hvalue]
  exact percent_mul_div_le hdriven.percent_le _

/-- After any datagrams the compare value fits the period that the clock gives. -/
theorem compare_value_within_period {systemCoreClock : Nat} (hlow : 2 * 17570 ≤ systemCoreClock)
    (hhigh : systemCoreClock < 2 ^ 32) (memories : List (List UInt8)) :
    (receiveAll memories (mainSetup systemCoreClock)).uhTimerPeriod =
        systemCoreClock / 17570 - 1 ∧
      WithinPeriod (receiveAll memories (mainSetup systemCoreClock)) := by
  have hdriven := (driven_mainSetup hlow hhigh).receiveAll memories
  exact ⟨hdriven.period_eq, hdriven.withinPeriod⟩

/-- At the clock of the board, after a number below zero and a number in range: the first one
wraps around to a large one, and half of the period stands for the second one. -/
theorem compare_value_within_period_168MHz :
    ((receiveAll [Utf8.ascii "-1".toList] (mainSetup 168000000)).uhADCxConvertedValuePercent = 100 ∧
      (receiveAll [Utf8.ascii "-1".toList] (mainSetup 168000000)).aCCValueBuffer = 9559 ∧
      WithinPeriod (receiveAll [Utf8.ascii "-1".toList] (mainSetup 168000000))) ∧
    (receiveAll [Utf8.ascii "-1".toList, Utf8.ascii "512".toList]
        (mainSetup 168000000)).uhTimerPeriod = 9560 ∧
      (receiveAll [Utf8.ascii "-1".toList, Utf8.ascii "512".toList]
        (mainSetup 168000000)).uhADCxConvertedValuePercent = 50 ∧
      (receiveAll [Utf8.ascii "-1".toList, Utf8.ascii "512".toList]
        (mainSetup 168000000)).aCCValueBuffer = 4779 ∧
      WithinPeriod (receiveAll [Utf8.ascii "-1".toList, Utf8.ascii "512".toList]
        (mainSetup 168000000)) := by
  have hfirst := @compare_value_within_period 168000000 (by decide) (by decide)
    [Utf8.ascii "-1".toList]
  have hboth := @compare_value_within_period 168000000 (by decide) (by decide)
    [Utf8.ascii "-1".toList, Utf8.ascii "512".toList]
  exact ⟨⟨by decide +kernel, by decide +kernel, hfirst.2⟩, hboth.1, by decide +kernel,
    by decide +kernel, hboth.2⟩

end RealTimeWs
