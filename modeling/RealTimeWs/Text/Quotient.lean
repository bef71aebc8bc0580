import RealTimeWs.Text.Number

/-! # Sums and quotients of numbers

Addition of natural doubles, and `Math.round` of a quotient by a natural divisor.
Both operations round to double precision first. Below `2 ^ 52` this rounding is not
visible in the result; above, it is small against the operands.
-/

namespace Script

/-- `a + b` -/
def add : Number → Number → Number
  | .nan, _ | _, .nan => .nan
  | .infinity, _ | _, .infinity => .infinity
  | .nat a, .nat b => ofNat (a + b)

/-- The exponent of `n / d`, with the divisor's own length added to keep it natural. -/
def binade (n d : Nat) : Nat := (2 ^ (d.log2 + 1) * n / d).log2

/-- The binary digits after the point that the closest double to `n / d` has. -/
def fractionBits (n d : Nat) : Nat := 52 + (d.log2 + 1) - binade n d

/-- The distance of neighbouring doubles at `n / d` where it is above one. -/
def spacing (n d : Nat) : Nat := 2 ^ (binade n d - (52 + (d.log2 + 1)))

/-- The closest double to `n / d`, in units of its last place. -/
def significand (n d : Nat) : Nat := rounded (n * 2 ^ fractionBits n d) (d * spacing n d)

/-- `Math.round` of the closest double to `n / d`. -/
def roundQuotient (n d : Nat) : Nat :=
  (2 * (significand n d * spacing n d) + 2 ^ fractionBits n d) / 2 ^ (fractionBits n d + 1)

/-- `Math.round(x / d)` for a positive divisor. -/
def divRound : Number → Nat → Number
  | .nan, _ => .nan
  | .infinity, _ => .infinity
  | .nat n, d => .nat (roundQuotient n d)

/-! ## Rounding -/

theorem le_rounded {n unit c : Nat} (hunit : 0 < unit) (hle : c * unit ≤ n) :
    c ≤ rounded n unit := by
  have hdiv : c ≤ n / unit := (Nat.le_div_iff_mul_le hunit).mpr hle
  unfold rounded
  split <;> omega

theorem rounded_le {n unit : Nat} : rounded n unit ≤ n / unit + 1 := by
  unfold rounded
  split <;> omega

/-- What is nearer to `c` than to the next multiple is not rounded up. -/
theorem rounded_le_of_lt {n unit c : Nat} (hlt : 2 * n < (2 * c + 1) * unit) :
    rounded n unit ≤ c := by
  have hsplit := Nat.div_add_mod n unit
  have hdiv : n / unit ≤ c := by
    by_contra hgt
    have hmul : (c + 1) * unit ≤ n / unit * unit := Nat.mul_le_mul_right _ (by omega)
    have hle := Nat.div_mul_le_self n unit
    nlinarith
  rcases Nat.lt_or_eq_of_le hdiv with hbelow | hequal
  · exact rounded_le.trans hbelow
  · have hmod : 2 * (n % unit) < unit := by
      rw [hequal] at hsplit
      nlinarith
    unfold rounded
    rw [if_neg (by omega)]
    exact hdiv

/-- Rounding adds little. -/
theorem ofNat_le {n m : Nat} (hround : ofNat n = .nat m) : 64 * m ≤ 65 * n := by
  rcases Nat.lt_or_ge n (2 ^ 53) with hlt | hge
  · rw [ofNat_of_lt hlt] at hround
    cases hround
    omega
  · have hpos : n ≠ 0 := by omega
    have hlog : 53 ≤ n.log2 := by
      by_contra hlt
      have := (Nat.log2_lt hpos).mp (show n.log2 < 53 by omega)
      omega
    have hpow : 64 * 2 ^ (n.log2 - 52) ≤ n := by
      calc 64 * 2 ^ (n.log2 - 52) = 2 ^ (6 + (n.log2 - 52)) := by rw [pow_add]; norm_num
        _ ≤ 2 ^ n.log2 := Nat.pow_le_pow_right (by decide) (by omega)
        _ ≤ n := Nat.log2_self_le hpos
    simp only [ofNat] at hround
    split at hround
    · cases hround
      have hdiv := Nat.div_mul_le_self n (2 ^ (n.log2 - 52))
      have hmul : rounded n (2 ^ (n.log2 - 52)) * 2 ^ (n.log2 - 52) ≤
          (n / 2 ^ (n.log2 - 52) + 1) * 2 ^ (n.log2 - 52) := Nat.mul_le_mul_right _ rounded_le
      rw [add_mul, one_mul] at hmul
      omega
    · cases hround

/-! ## Quotients -/

theorem pow_binade_mul_le {n d : Nat} (hpos : 0 < n) (hd : 0 < d) :
    2 ^ binade n d * d ≤ 2 ^ (d.log2 + 1) * n := by
  have hd2 : d < 2 ^ (d.log2 + 1) := Nat.lt_log2_self
  have hne : 2 ^ (d.log2 + 1) * n / d ≠ 0 := by
    apply Nat.pos_iff_ne_zero.mp
    apply Nat.div_pos _ hd
    nlinarith
  calc 2 ^ binade n d * d ≤ (2 ^ (d.log2 + 1) * n / d) * d :=
        Nat.mul_le_mul_right _ (Nat.log2_self_le hne)
    _ ≤ 2 ^ (d.log2 + 1) * n := Nat.div_mul_le_self _ _

/-- Small quotients have more binary digits after the point than the divisor has. -/
theorem lt_pow_fractionBits {n d : Nat} (hd : 0 < d) (hlt : n < 2 ^ 52) :
    binade n d < 52 + (d.log2 + 1) ∧ d < 2 ^ fractionBits n d := by
  have hlog : d < 2 ^ (d.log2 + 1) := Nat.lt_log2_self
  rcases Nat.eq_zero_or_pos n with rfl | hpos
  · have hzero : binade 0 d = 0 := by simp [binade]
    refine ⟨by omega, ?_⟩
    rw [fractionBits, hzero]
    exact hlog.trans_le (Nat.pow_le_pow_right (by decide) (by omega))
  · have hprod : 2 ^ binade n d * d < 2 ^ (52 + (d.log2 + 1)) := by
      calc 2 ^ binade n d * d ≤ 2 ^ (d.log2 + 1) * n := pow_binade_mul_le hpos hd
        _ < 2 ^ (d.log2 + 1) * 2 ^ 52 := Nat.mul_lt_mul_of_pos_left hlt (Nat.two_pow_pos _)
        _ = 2 ^ (52 + (d.log2 + 1)) := by rw [pow_add _ 52, mul_comm]
    have hbinade : binade n d < 52 + (d.log2 + 1) := by
      apply (Nat.pow_lt_pow_iff_right (show 1 < 2 by decide)).mp
      calc 2 ^ binade n d ≤ 2 ^ binade n d * d := Nat.le_mul_of_pos_right _ hd
        _ < 2 ^ (52 + (d.log2 + 1)) := hprod
    refine ⟨hbinade, ?_⟩
    have hsum : binade n d + fractionBits n d = 52 + (d.log2 + 1) := by
      rw [fractionBits]
      omega
    rw [← hsum, pow_add] at hprod
    exact Nat.lt_of_mul_lt_mul_left hprod

/-- Below `2 ^ 52` the rounded quotient is the exact one, halves rounded up. -/
theorem roundQuotient_of_lt {n d : Nat} (hd : 0 < d) (hlt : n < 2 ^ 52) :
    roundQuotient n d = (2 * n + d) / (2 * d) := by
  obtain ⟨hbinade, hbits⟩ := lt_pow_fractionBits hd hlt
  have hspacing : spacing n d = 1 := by
    rw [spacing, Nat.sub_eq_zero_of_le hbinade.le, pow_zero]
  obtain ⟨k, hk⟩ : ∃ k, fractionBits n d = k + 1 := by
    refine ⟨fractionBits n d - 1, ?_⟩
    rw [fractionBits]
    omega
  set half := 2 ^ k with hhalf
  have hone : 2 ^ (k + 1) = 2 * half := by rw [pow_succ, mul_comm]
  have htwo : 2 ^ (k + 1 + 1) = 4 * half := by rw [pow_succ, hone]; ring
  rw [hk, hone] at hbits
  have hsignificand : significand n d = rounded (n * (2 * half)) d := by
    rw [significand, hspacing, mul_one, hk, hone]
  set j := (2 * n + d) / (2 * d) with hj
  have hlow : j * (2 * d) ≤ 2 * n + d := Nat.div_mul_le_self _ _
  have hhigh : 2 * n + d < (j + 1) * (2 * d) := by
    rw [hj, mul_comm (_ + 1)]
    exact Nat.lt_mul_div_succ _ (Nat.mul_pos (by decide) hd)
  have hpos : 0 < half := Nat.two_pow_pos _
  -- the two halves around `j` are multiples of the last place
  have hle : 2 * j * half ≤ significand n d + half := by
    rcases Nat.eq_zero_or_pos j with hzero | hjpos
    · rw [hzero]
      omega
    · have hc : (2 * j - 1) * half ≤ significand n d := by
        rw [hsignificand]
        apply le_rounded hd
        have hodd : (2 * j - 1) * d ≤ 2 * n := by
          rw [Nat.sub_mul]
          have : 2 * j * d = j * (2 * d) := by ring
          omega
        calc (2 * j - 1) * half * d = (2 * j - 1) * d * half := by ring
          _ ≤ 2 * n * half := Nat.mul_le_mul_right _ hodd
          _ = n * (2 * half) := by ring
      have hmul : (2 * j - 1) * half + half = 2 * j * half := by
        rw [← Nat.succ_mul]
        congr 1
        omega
      omega
  have hless : significand n d < (2 * j + 1) * half := by
    have hcpos : 0 < (2 * j + 1) * half := Nat.mul_pos (by omega) hpos
    have hround : significand n d ≤ (2 * j + 1) * half - 1 := by
      rw [hsignificand]
      apply rounded_le_of_lt
      have hodd : 2 * n + 1 ≤ (2 * j + 1) * d := by nlinarith
      have hscaled : (2 * n + 1) * (2 * half) ≤ (2 * j + 1) * d * (2 * half) :=
        Nat.mul_le_mul_right _ hodd
      have hcoefficient : 2 * ((2 * j + 1) * half - 1) + 1 = 2 * ((2 * j + 1) * half) - 1 := by
        omega
      rw [hcoefficient, Nat.sub_mul, one_mul]
      have hleft : 2 * (n * (2 * half)) + 2 * half = (2 * n + 1) * (2 * half) := by ring
      have hright : 2 * ((2 * j + 1) * half) * d = (2 * j + 1) * d * (2 * half) := by ring
      omega
    omega
  rw [roundQuotient, hspacing, mul_one, hk, hone, htwo]
  apply Nat.div_eq_of_lt_le
  · have : j * (4 * half) = 2 * (2 * j * half) := by ring
    omega
  · have : (j + 1) * (4 * half) = 2 * ((2 * j + 1) * half) + 2 * half := by ring
    omega

/-- A rounded quotient exceeds the quotient by at most half a place and a half. -/
theorem mul_roundQuotient_le (n d : Nat) :
    2 * d * roundQuotient n d * 2 ^ fractionBits n d ≤
      (2 * n + d) * 2 ^ fractionBits n d + 2 * (d * spacing n d) := by
  have hplaces : d * (significand n d * spacing n d) ≤
      n * 2 ^ fractionBits n d + d * spacing n d := by
    calc d * (significand n d * spacing n d)
        = significand n d * (d * spacing n d) := by ring
      _ ≤ (n * 2 ^ fractionBits n d / (d * spacing n d) + 1) * (d * spacing n d) :=
          Nat.mul_le_mul_right _ rounded_le
      _ ≤ n * 2 ^ fractionBits n d + d * spacing n d := by
          rw [add_mul, one_mul]
          exact Nat.add_le_add_right (Nat.div_mul_le_self _ _) _
  have hround : roundQuotient n d * (2 * 2 ^ fractionBits n d) ≤
      2 * (significand n d * spacing n d) + 2 ^ fractionBits n d := by
    rw [← pow_succ']
    exact Nat.div_mul_le_self _ _
  calc 2 * d * roundQuotient n d * 2 ^ fractionBits n d
      = d * (roundQuotient n d * (2 * 2 ^ fractionBits n d)) := by ring
    _ ≤ d * (2 * (significand n d * spacing n d) + 2 ^ fractionBits n d) :=
        Nat.mul_le_mul_left _ hround
    _ = 2 * (d * (significand n d * spacing n d)) + d * 2 ^ fractionBits n d := by ring
    _ ≤ 2 * (n * 2 ^ fractionBits n d + d * spacing n d) + d * 2 ^ fractionBits n d := by
        omega
    _ = (2 * n + d) * 2 ^ fractionBits n d + 2 * (d * spacing n d) := by ring

/-- A rounded quotient is little above the quotient. -/
theorem roundQuotient_le {n d : Nat} (hd : 0 < d) :
    64 * (d * roundQuotient n d) ≤ 65 * n + 128 * d := by
  have hbound := mul_roundQuotient_le n d
  rcases Nat.le_total (binade n d) (52 + (d.log2 + 1)) with hsmall | hlarge
  · -- neighbouring doubles are at most one apart
    have hspacing : spacing n d = 1 := by
      rw [spacing, Nat.sub_eq_zero_of_le hsmall, pow_zero]
    rw [hspacing, mul_one] at hbound
    have hpos : 0 < 2 ^ fractionBits n d := Nat.two_pow_pos _
    have hscaled : 2 * d * roundQuotient n d * 2 ^ fractionBits n d ≤
        (2 * n + 3 * d) * 2 ^ fractionBits n d := by nlinarith
    have hle := Nat.le_of_mul_le_mul_right hscaled hpos
    nlinarith
  · -- the distance of neighbouring doubles is a small part of the quotient
    have hbits : fractionBits n d = 0 := Nat.sub_eq_zero_of_le hlarge
    have hn : 0 < n := by
      by_contra hzero
      rw [Nat.eq_zero_of_not_pos hzero] at hlarge
      simp [binade] at hlarge
    have hpow := pow_binade_mul_le hn hd
    have hspacing : 2 ^ binade n d = 2 ^ (d.log2 + 1) * (2 ^ 52 * spacing n d) := by
      rw [spacing, ← pow_add, ← pow_add]
      congr 1
      omega
    rw [hspacing, mul_assoc] at hpow
    have hplace := Nat.le_of_mul_le_mul_left hpow (Nat.two_pow_pos _)
    rw [hbits, pow_zero, mul_one, mul_one] at hbound
    nlinarith

end Script
