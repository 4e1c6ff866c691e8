import Mathlib.Algebra.Order.Field.Basic
import Mathlib.Algebra.Order.Field.Power
import Mathlib.Data.Nat.Log
import Mathlib.Data.Rat.Cast.Order
import Mathlib.Tactic.FieldSimp
import Mathlib.Tactic.Linarith
import Mathlib.Tactic.NormNum
import Mathlib.Tactic.Positivity
import Mathlib.Tactic.Ring
import ScmPlugins.Number.Binary64

/-!
Rounding to binary numbers of 64 bits. A quotient is met to within one part in 2^53 unless it is too
small, and it is beyond all numbers exactly from halfway between the greatest of them and the power
of two that follows.
-/

namespace ScmPlugins

section Halves

variable {n d k : Nat}

theorem roundHalfEven_cases (n d : Nat) :
    2 * (n % d) ≤ d ∧ roundHalfEven n d = n / d ∨
      d ≤ 2 * (n % d) ∧ roundHalfEven n d = n / d + 1 := by
  unfold roundHalfEven
  dsimp only
  split
  · exact .inl ⟨by omega, rfl⟩
  · split
    · exact .inr ⟨by omega, rfl⟩
    · obtain even | odd := Nat.mod_two_eq_zero_or_one (n / d)
      · exact .inl ⟨by omega, by rw [even, Nat.add_zero]⟩
      · exact .inr ⟨by omega, by rw [odd]⟩

theorem roundHalfEven_near (hd : 0 < d) :
    2 * n ≤ 2 * (roundHalfEven n d * d) + d ∧ 2 * (roundHalfEven n d * d) ≤ 2 * n + d := by
  have split : n / d * d + n % d = n := Nat.div_add_mod' n d
  have rest : n % d < d := Nat.mod_lt n hd
  obtain ⟨near, rounded⟩ | ⟨near, rounded⟩ := roundHalfEven_cases n d
  · rw [rounded]
    omega
  · rw [rounded, Nat.succ_mul (n / d)]
    omega

theorem lt_roundHalfEven (hd : 0 < d) (odd : k % 2 = 1) (half : (2 * k + 1) * d ≤ 2 * n) :
    k < roundHalfEven n d := by
  rw [Nat.add_mul, Nat.mul_assoc] at half
  have below : k ≤ n / d := by
    rw [Nat.le_div_iff_mul_le hd]
    omega
  obtain more | rfl := Nat.lt_or_eq_of_le below
  · obtain ⟨-, rounded⟩ | ⟨-, rounded⟩ := roundHalfEven_cases n d <;> omega
  · have split : n / d * d + n % d = n := Nat.div_add_mod' n d
    have rest : d ≤ 2 * (n % d) := by omega
    simp only [roundHalfEven, if_neg (Nat.not_lt.2 rest), odd]
    split <;> omega

end Halves

namespace Binary64

def size (x : Binary64) : ℚ := x.mantissa * 2 ^ x.exponent

/-- Halfway between the greatest number and the power of two that follows. -/
def limit : ℚ := 2 ^ (1024 : Int) - 2 ^ (970 : Int)

variable {n d : Nat} {e : Int} {x y : Binary64}

theorem two_pow_toNat (e : Int) :
    ((Nat.pow 2 e.toNat : Nat) : ℚ) = 2 ^ e * (Nat.pow 2 (-e).toNat : Nat) := by
  simp only [Nat.pow_eq, Nat.cast_pow, Nat.cast_ofNat, ← zpow_natCast]
  rw [← zpow_add₀ two_ne_zero]
  congr 1
  omega

theorem ratio_eq (hd : 0 < d) (n : Nat) (e : Int) :
    ((n * Nat.pow 2 (-e).toNat : Nat) : ℚ) / (d * Nat.pow 2 e.toNat : Nat) = n / d / 2 ^ e := by
  have power : (0 : ℚ) < (Nat.pow 2 (-e).toNat : Nat) := by
    exact_mod_cast Nat.pow_pos (n := (-e).toNat) two_pos
  have positive : (0 : ℚ) < d := by exact_mod_cast hd
  have two : (0 : ℚ) < 2 ^ e := zpow_pos two_pos e
  rw [Nat.cast_mul, Nat.cast_mul, two_pow_toNat e]
  field_simp

theorem ratio_lt_iff (hd : 0 < d) (n : Nat) (e : Int) :
    n * Nat.pow 2 (-e).toNat < d * Nat.pow 2 e.toNat ↔ (n / d : ℚ) < 2 ^ e := by
  have positive : (0 : ℚ) < (d * Nat.pow 2 e.toNat : Nat) := by
    exact_mod_cast Nat.mul_pos hd (Nat.pow_pos two_pos)
  have two : (0 : ℚ) < 2 ^ e := zpow_pos two_pos e
  rw [← div_lt_one two, ← ratio_eq hd, div_lt_one positive, Nat.cast_lt]

theorem log2_spec (hn : 0 < n) :
    (2 : ℚ) ^ (n.log2 : Int) ≤ n ∧ (n : ℚ) < 2 ^ ((n.log2 : Int) + 1) := by
  rw [← Nat.cast_succ, zpow_natCast, zpow_natCast]
  exact ⟨by exact_mod_cast Nat.log2_self_le hn.ne', by exact_mod_cast Nat.lt_log2_self⟩

theorem binade_spec (hn : 0 < n) (hd : 0 < d) :
    (2 : ℚ) ^ binade n d ≤ n / d ∧ (n / d : ℚ) < 2 ^ (binade n d + 1) := by
  have positive : (0 : ℚ) < d := by exact_mod_cast hd
  obtain ⟨lowN, highN⟩ := log2_spec hn
  obtain ⟨lowD, highD⟩ := log2_spec hd
  have below : (2 : ℚ) ^ ((n.log2 : Int) - d.log2 - 1) ≤ n / d := by
    rw [le_div_iff₀ positive]
    calc (2 : ℚ) ^ ((n.log2 : Int) - d.log2 - 1) * d
        ≤ 2 ^ ((n.log2 : Int) - d.log2 - 1) * 2 ^ ((d.log2 : Int) + 1) := by gcongr
      _ = 2 ^ (n.log2 : Int) := by
        rw [← zpow_add₀ two_ne_zero]
        congr 1
        omega
      _ ≤ n := lowN
  have above : (n / d : ℚ) < 2 ^ ((n.log2 : Int) - d.log2 + 1) := by
    rw [div_lt_iff₀ positive]
    calc (n : ℚ) < 2 ^ ((n.log2 : Int) + 1) := highN
      _ = 2 ^ ((n.log2 : Int) - d.log2 + 1) * 2 ^ (d.log2 : Int) := by
        rw [← zpow_add₀ two_ne_zero]
        congr 1
        omega
      _ ≤ 2 ^ ((n.log2 : Int) - d.log2 + 1) * d := by gcongr
  unfold binade
  dsimp only
  split
  · rename_i less
    rw [ratio_lt_iff hd] at less
    exact ⟨below, by rwa [Int.sub_add_cancel]⟩
  · rename_i more
    rw [ratio_lt_iff hd, not_lt] at more
    exact ⟨more, above⟩

def lastBit (n d : Nat) : Int := max (binade n d - 52) (-1074)

def rounded (n d : Nat) : Nat :=
  roundHalfEven (n * Nat.pow 2 (-lastBit n d).toNat) (d * Nat.pow 2 (lastBit n d).toNat)

theorem ofQuotient_of_pos (hn : 0 < n) :
    ofQuotient n d =
      if rounded n d = Nat.pow 2 53 then
        if lastBit n d + 1 > 971 then none else some ⟨false, Nat.pow 2 52, lastBit n d + 1⟩
      else if lastBit n d > 971 then none else some ⟨false, rounded n d, lastBit n d⟩ := by
  rw [ofQuotient, if_neg hn.ne']
  dsimp only
  by_cases carried : rounded n d = Nat.pow 2 53
  · rw [if_pos carried]
    unfold rounded lastBit at carried
    rw [if_pos carried]
    rfl
  · rw [if_neg carried]
    unfold rounded lastBit at carried
    rw [if_neg carried]
    rfl

theorem rounded_near (hd : 0 < d) :
    |(rounded n d : ℚ) * 2 ^ lastBit n d - n / d| ≤ 2 ^ lastBit n d / 2 := by
  have positive : 0 < d * Nat.pow 2 (lastBit n d).toNat := Nat.mul_pos hd (Nat.pow_pos two_pos)
  have unit : (0 : ℚ) < 2 ^ lastBit n d := zpow_pos two_pos _
  have ratio := ratio_eq hd n (lastBit n d)
  obtain ⟨low, high⟩ := roundHalfEven_near (n := n * Nat.pow 2 (-lastBit n d).toNat) positive
  change 2 * _ ≤ 2 * (rounded n d * _) + _ at low
  change 2 * (rounded n d * _) ≤ _ at high
  generalize n * Nat.pow 2 (-lastBit n d).toNat = a at ratio low high
  generalize d * Nat.pow 2 (lastBit n d).toNat = b at positive ratio low high
  have positive : (0 : ℚ) < b := by exact_mod_cast positive
  have low : (2 * a : ℚ) ≤ 2 * (rounded n d * b) + b := by exact_mod_cast low
  have high : (2 * (rounded n d * b) : ℚ) ≤ 2 * a + b := by exact_mod_cast high
  have away : |(rounded n d : ℚ) - a / b| ≤ 1 / 2 := by
    rw [abs_le]
    constructor
    · rw [neg_le_sub_iff_le_add, div_le_iff₀ positive]
      linarith
    · rw [sub_le_iff_le_add', ← sub_le_iff_le_add, le_div_iff₀ positive]
      linarith
  calc |(rounded n d : ℚ) * 2 ^ lastBit n d - n / d|
      = |(rounded n d : ℚ) - a / b| * 2 ^ lastBit n d := by
        rw [ratio, ← abs_of_pos unit, ← abs_mul, abs_of_pos unit, sub_mul,
          div_mul_cancel₀ _ unit.ne']
    _ ≤ 1 / 2 * 2 ^ lastBit n d := by gcongr
    _ = 2 ^ lastBit n d / 2 := by ring

theorem lt_rounded {k : Nat} (hd : 0 < d) (odd : k % 2 = 1)
    (half : (k + 1 / 2) * 2 ^ lastBit n d ≤ (n / d : ℚ)) : k < rounded n d := by
  have positive : 0 < d * Nat.pow 2 (lastBit n d).toNat := Nat.mul_pos hd (Nat.pow_pos two_pos)
  have unit : (0 : ℚ) < 2 ^ lastBit n d := zpow_pos two_pos _
  refine lt_roundHalfEven positive odd ?_
  have positive' : (0 : ℚ) < (d * Nat.pow 2 (lastBit n d).toNat : Nat) := by exact_mod_cast positive
  rw [← le_div_iff₀ unit, ← ratio_eq hd, le_div_iff₀ positive'] at half
  have twice : ((2 * k + 1 : Nat) : ℚ) * (d * Nat.pow 2 (lastBit n d).toNat : Nat) ≤
      2 * (n * Nat.pow 2 (-lastBit n d).toNat : Nat) := by
    rw [Nat.cast_succ, Nat.cast_mul, Nat.cast_ofNat]
    linarith
  exact_mod_cast twice

theorem le_binade (hn : 0 < n) (hd : 0 < d) (h : (2 : ℚ) ^ e ≤ n / d) : e ≤ binade n d := by
  have less : (2 : ℚ) ^ e < 2 ^ (binade n d + 1) := h.trans_lt (binade_spec hn hd).2
  exact Int.lt_add_one_iff.1 ((zpow_lt_zpow_iff_right₀ one_lt_two).1 less)

theorem rounded_le (hn : 0 < n) (hd : 0 < d) (normal : lastBit n d = binade n d - 52) :
    rounded n d ≤ 2 ^ 53 := by
  have unit : (0 : ℚ) < 2 ^ lastBit n d := zpow_pos two_pos _
  have less : (n / d : ℚ) < 2 ^ (53 : Int) * 2 ^ lastBit n d := by
    rw [← zpow_add₀ two_ne_zero]
    have next : binade n d + 1 = 53 + lastBit n d := by omega
    exact next ▸ (binade_spec hn hd).2
  have above := (abs_le.1 (rounded_near (n := n) hd)).2
  have half : (rounded n d : ℚ) < 2 ^ (53 : Int) + 1 / 2 := by
    rw [← mul_lt_mul_iff_left₀ unit]
    linarith
  have next : (rounded n d : ℚ) < (2 ^ 53 + 1 : Nat) := half.trans (by norm_num)
  exact Nat.lt_succ_iff.1 (Nat.cast_lt.1 next)

theorem size_of_ofQuotient (hn : 0 < n) (h : ofQuotient n d = some x) :
    x.size = rounded n d * 2 ^ lastBit n d := by
  rw [ofQuotient_of_pos hn] at h
  split at h
  · rename_i carried
    split at h
    · cases h
    · cases h
      rw [size, carried, zpow_add_one₀ two_ne_zero]
      norm_num
      ring
  · split at h
    · cases h
    · cases h
      rfl

theorem size_near (hn : 0 < n) (hd : 0 < d) (normal : (2 : ℚ) ^ (-1022 : Int) ≤ n / d)
    (h : ofQuotient n d = some x) : |x.size - n / d| ≤ n / d / 2 ^ 53 := by
  have first : -1022 ≤ binade n d := le_binade hn hd normal
  have last : lastBit n d = binade n d - 52 := max_eq_left (by omega)
  have near := rounded_near (n := n) hd
  rw [← size_of_ofQuotient hn h, last, zpow_sub₀ two_ne_zero] at near
  have low := (binade_spec hn hd).1
  calc |x.size - n / d| ≤ 2 ^ binade n d / 2 ^ (52 : Int) / 2 := near
    _ ≤ n / d / 2 ^ (52 : Int) / 2 := by gcongr
    _ = n / d / 2 ^ 53 := by
      rw [div_div]
      norm_num

theorem two_pow_le_limit : (2 : ℚ) ^ (1023 : Int) ≤ limit := by
  have double : (2 : ℚ) ^ (1024 : Int) = 2 ^ (1023 : Int) * 2 := zpow_add_one₀ two_ne_zero 1023
  have less : (2 : ℚ) ^ (970 : Int) ≤ 2 ^ (1023 : Int) := zpow_le_zpow_right₀ one_le_two (by decide)
  calc (2 : ℚ) ^ (1023 : Int) = 2 ^ (1023 : Int) * 2 - 2 ^ (1023 : Int) := by ring
    _ ≤ 2 ^ (1023 : Int) * 2 - 2 ^ (970 : Int) := sub_le_sub_left less _
    _ = limit := by rw [limit, double]

theorem limit_le : limit ≤ (2 : ℚ) ^ (1024 : Int) :=
  sub_le_self _ (zpow_nonneg zero_le_two _)

theorem limit_eq : limit = (2 ^ 53 - 1 / 2) * 2 ^ (971 : Int) := by
  have whole : (2 : ℚ) ^ (1024 : Int) = 2 ^ (53 : Int) * 2 ^ (971 : Int) :=
    zpow_add₀ two_ne_zero 53 971
  have half : (2 : ℚ) ^ (971 : Int) = 2 ^ (970 : Int) * 2 := zpow_add_one₀ two_ne_zero 970
  rw [limit, whole, sub_mul, half]
  ring

theorem limit_le_of_rounded (hd : 0 < d) (carried : rounded n d = Nat.pow 2 53)
    (high : 971 ≤ lastBit n d) : limit ≤ n / d := by
  have above := (abs_le.1 (rounded_near (n := n) hd)).2
  rw [carried] at above
  calc limit = (2 ^ 53 - 1 / 2) * 2 ^ (971 : Int) := limit_eq
    _ ≤ (2 ^ 53 - 1 / 2) * 2 ^ lastBit n d := by
      gcongr
      norm_num
    _ ≤ n / d := by
      norm_num at above
      linarith

theorem ofQuotient_eq_none_iff (hd : 0 < d) : ofQuotient n d = none ↔ limit ≤ n / d := by
  obtain rfl | hn := Nat.eq_zero_or_pos n
  · have positive : 0 < limit := lt_of_lt_of_le (zpow_pos two_pos _) two_pow_le_limit
    simpa [ofQuotient] using positive
  have last : lastBit n d = max (binade n d - 52) (-1074) := rfl
  rw [ofQuotient_of_pos hn]
  constructor
  · intro none
    split at none
    · rename_i carried
      split at none
      · exact limit_le_of_rounded hd carried (by omega)
      · cases none
    · split at none
      · have first : 1024 ≤ binade n d := by omega
        calc limit ≤ 2 ^ (1024 : Int) := limit_le
          _ ≤ 2 ^ binade n d := zpow_le_zpow_right₀ one_le_two first
          _ ≤ n / d := (binade_spec hn hd).1
      · cases none
  · intro beyond
    have first : 1023 ≤ binade n d := le_binade hn hd (two_pow_le_limit.trans beyond)
    split
    · rw [if_pos (by omega)]
    · -- In the last binade the quotient is halfway above the greatest number, which is odd.
      rename_i kept
      refine if_pos ?_
      by_contra within
      have unit : lastBit n d = 971 := by omega
      refine kept (le_antisymm (rounded_le hn hd (by omega)) ?_)
      refine lt_rounded (k := 2 ^ 53 - 1) hd (by decide) ?_
      rw [unit]
      refine le_trans (le_of_eq ?_) beyond
      rw [limit_eq]
      norm_num

theorem quotient_pos (x : Binary64) : 0 < x.quotient.2 := Nat.pow_pos two_pos

theorem quotient_eq (x : Binary64) : (x.quotient.1 : ℚ) / x.quotient.2 = x.size := by
  have power : (0 : ℚ) < (Nat.pow 2 (-x.exponent).toNat : Nat) := by
    exact_mod_cast Nat.pow_pos (n := (-x.exponent).toNat) two_pos
  rw [quotient, size, Nat.cast_mul, two_pow_toNat x.exponent, ← mul_assoc,
    mul_div_cancel_right₀ _ power.ne']

theorem size_nonneg (x : Binary64) : 0 ≤ x.size :=
  mul_nonneg (Nat.cast_nonneg _) (zpow_nonneg zero_le_two _)

theorem size_le (hd : 0 < d) (h : ofQuotient n d = some x) : x.size ≤ 2 * max (n / d : ℚ) 1 := by
  obtain rfl | hn := Nat.eq_zero_or_pos n
  · cases h
    simp [size, zero]
  have unit : (2 : ℚ) ^ lastBit n d ≤ max (n / d : ℚ) 1 := by
    obtain last | last : lastBit n d = binade n d - 52 ∨ lastBit n d = -1074 := max_choice _ _
    · refine le_max_of_le_left (le_trans ?_ (binade_spec hn hd).1)
      exact zpow_le_zpow_right₀ one_le_two (by omega)
    · refine le_max_of_le_right (zpow_le_one_of_nonpos₀ (one_le_two (α := ℚ)) ?_)
      omega
  have above := (abs_le.1 (rounded_near (n := n) hd)).2
  have most : (n / d : ℚ) ≤ max (n / d : ℚ) 1 := le_max_left _ _
  have positive : (0 : ℚ) ≤ max (n / d : ℚ) 1 := zero_le_one.trans (le_max_right _ _)
  rw [size_of_ofQuotient hn h]
  linarith

/-- Of the numbers the one nearest to `r`, if `r` is not too small, or none beyond them all. -/
structure Rounds (r : ℚ) (o : Option Binary64) : Prop where
  none_iff : o = none ↔ limit ≤ r
  near : 2 ^ (-1022 : Int) ≤ r → ∀ x, o = some x → |x.size - r| ≤ r / 2 ^ 53
  le : ∀ x, o = some x → x.size ≤ 2 * max r 1

theorem rounds_ofQuotient (n : Nat) (hd : 0 < d) : Rounds (n / d) (ofQuotient n d) where
  none_iff := ofQuotient_eq_none_iff hd
  near normal x h := by
    refine size_near (Nat.pos_of_ne_zero ?_) hd normal h
    rintro rfl
    rw [Nat.cast_zero, zero_div] at normal
    exact absurd normal (not_le.2 (zpow_pos two_pos _))
  le _ h := size_le hd h

theorem rounds_ofNat (n : Nat) : Rounds n (ofNat n) := by
  simpa [ofNat] using rounds_ofQuotient n one_pos

theorem rounds_mul (x y : Binary64) : Rounds (x.size * y.size) (x.mul y) := by
  have rounds := rounds_ofQuotient (x.quotient.1 * y.quotient.1)
    (Nat.mul_pos x.quotient_pos y.quotient_pos)
  rwa [Nat.cast_mul, Nat.cast_mul, mul_div_mul_comm, quotient_eq, quotient_eq] at rounds

theorem rounds_div (x : Binary64) (h : 0 < y.size) : Rounds (x.size / y.size) (x.div y) := by
  have nonzero : 0 < y.quotient.1 := by
    refine Nat.pos_of_ne_zero fun zero => h.ne' ?_
    rw [← quotient_eq, zero, Nat.cast_zero, zero_div]
  have rounds := rounds_ofQuotient (x.quotient.1 * y.quotient.2)
    (Nat.mul_pos x.quotient_pos nonzero)
  rwa [Nat.cast_mul, Nat.cast_mul, mul_div_mul_comm, quotient_eq, ← inv_div, quotient_eq,
    ← div_eq_mul_inv] at rounds

theorem Rounds.exists_near {r : ℚ} {o : Option Binary64} (h : Rounds r o) (one : 1 ≤ r)
    (less : r < limit) : ∃ x, o = some x ∧ |x.size - r| ≤ r / 2 ^ 53 := by
  cases found : o with
  | none => exact absurd less (not_lt.2 (h.none_iff.1 found))
  | some x =>
    have small : (2 : ℚ) ^ (-1022 : Int) ≤ 1 := zpow_le_one_of_nonpos₀ one_le_two (by decide)
    exact ⟨x, rfl, h.near (small.trans one) x found⟩

section Decimals

variable {m k : Nat} {o : Option Binary64} {r : ℚ}

theorem lt_limit : (1797 * 10 ^ 305 : ℚ) < limit := by
  have whole : 1797 * 10 ^ 305 + 2 ^ 970 < 2 ^ 1024 := by decide +kernel
  have whole' : (1797 * 10 ^ 305 + 2 ^ 970 : ℚ) < 2 ^ 1024 := by exact_mod_cast whole
  rw [limit, lt_sub_iff_add_lt]
  exact_mod_cast whole'

theorem limit_lt : limit < (1798 * 10 ^ 305 : ℚ) := by
  have whole : 2 ^ 1024 < 1798 * 10 ^ 305 + 2 ^ 970 := by decide +kernel
  have whole' : (2 ^ 1024 : ℚ) < 1798 * 10 ^ 305 + 2 ^ 970 := by exact_mod_cast whole
  rw [limit, sub_lt_iff_lt_add]
  exact_mod_cast whole'

theorem exists_pow10 (hk : k ≤ 308) :
    ∃ p, pow10 k = some p ∧ |p.size - 10 ^ k| ≤ 10 ^ k / 2 ^ 53 := by
  have rounds := rounds_ofNat (Nat.pow 10 k)
  rw [Nat.pow_eq, Nat.cast_pow, Nat.cast_ofNat] at rounds
  refine rounds.exists_near (one_le_pow₀ (by norm_num)) (lt_of_le_of_lt ?_ lt_limit)
  calc (10 : ℚ) ^ k ≤ 10 ^ (3 + 305) := pow_le_pow_right₀ (by norm_num) hk
    _ = 10 ^ 3 * 10 ^ 305 := pow_add _ _ _
    _ ≤ 1797 * 10 ^ 305 := by
      gcongr
      norm_num

theorem exists_significand (h : m < 2 ^ 64) :
    ∃ x, ofNat m = some x ∧ |x.size - m| ≤ m / 2 ^ 53 := by
  obtain rfl | positive := Nat.eq_zero_or_pos m
  · exact ⟨zero false, rfl, by simp [size, zero]⟩
  · refine (rounds_ofNat m).exists_near (by exact_mod_cast positive) (lt_trans ?_ lt_limit)
    exact_mod_cast h.trans (by decide +kernel : 2 ^ 64 < 1797 * 10 ^ 305)

theorem isZero_iff (x : Binary64) : x.isZero = true ↔ x.size = 0 := by
  have unit : (2 : ℚ) ^ x.exponent ≠ 0 := zpow_ne_zero _ two_ne_zero
  simp [isZero, size, unit]

theorem rounds_mulPow10 (x : Binary64) (hk : k ≤ 308) :
    ∃ r, Rounds r (x.mulPow10 k) ∧ |r - x.size * 10 ^ k| ≤ x.size * 10 ^ k / 2 ^ 53 := by
  obtain ⟨p, found, near⟩ := exists_pow10 hk
  refine ⟨x.size * p.size, ?_, ?_⟩
  · rw [mulPow10, found]
    exact rounds_mul x p
  · rw [← mul_sub, abs_mul, abs_of_nonneg x.size_nonneg, mul_div_assoc]
    exact mul_le_mul_of_nonneg_left near x.size_nonneg

theorem rounds_divPow10 (x : Binary64) (hk : k ≤ 308) :
    ∃ r, Rounds r (x.divPow10 k) ∧ r ≤ 2 * x.size / 10 ^ k := by
  obtain ⟨p, found, near⟩ := exists_pow10 hk
  have power : (0 : ℚ) < 10 ^ k := by positivity
  have half : (10 ^ k / 2 : ℚ) ≤ p.size := by
    have low := (abs_le.1 near).1
    have small : (10 ^ k / 2 ^ 53 : ℚ) ≤ 10 ^ k / 2 := by
      gcongr
      norm_num
    linarith
  have positive : 0 < p.size := lt_of_lt_of_le (half_pos power) half
  refine ⟨x.size / p.size, ?_, ?_⟩
  · rw [divPow10, found]
    exact rounds_div x positive
  · calc x.size / p.size ≤ x.size / (10 ^ k / 2) :=
        div_le_div_of_nonneg_left x.size_nonneg (half_pos power) half
      _ = 2 * x.size / 10 ^ k := by
        field_simp

theorem exists_divPow10 (hk : k ≤ 308) (hx : x.size ≤ 2 ^ 66) :
    ∃ y, x.divPow10 k = some y ∧ y.size ≤ 2 * max (2 ^ 67 / 10 ^ k) 1 := by
  obtain ⟨r, rounds, most⟩ := rounds_divPow10 x hk
  have bound : r ≤ 2 ^ 67 / 10 ^ k := by
    refine most.trans ?_
    gcongr
    linarith
  have one : (1 : ℚ) ≤ 10 ^ k := one_le_pow₀ (by norm_num)
  have few : (2 ^ 67 : ℚ) < limit := by
    refine lt_trans ?_ lt_limit
    exact_mod_cast (by decide +kernel : 2 ^ 67 < 1797 * 10 ^ 305)
  have less : r < limit := bound.trans_lt ((div_le_self (by positivity) one).trans_lt few)
  cases found : x.divPow10 k with
  | none => exact absurd less (not_lt.2 (rounds.none_iff.1 found))
  | some y => exact ⟨y, rfl, (rounds.le y found).trans (by gcongr)⟩

theorem isSome_scaled_of_neg (he : e < 0) (hx : x.size ≤ 2 ^ 66) : (scaled x e).isSome = true := by
  induction x, e using scaled.induct with
  | case1 x e small zero => rw [scaled, if_pos small, if_pos zero, Option.isSome_some]
  | case2 x e small nonzero ih =>
    obtain ⟨y, found, most⟩ := exists_divPow10 (k := 308) le_rfl hx
    have quotient : (2 ^ 67 / 10 ^ 308 : ℚ) ≤ 1 := by
      rw [div_le_one (by positivity)]
      exact_mod_cast (by decide +kernel : 2 ^ 67 ≤ 10 ^ 308)
    rw [max_eq_right quotient] at most
    rw [scaled, if_pos small, if_neg nonzero, found, Option.bind_some]
    exact ih y (by omega) (most.trans (by norm_num))
  | case3 x e large negative =>
    obtain ⟨y, found, -⟩ := exists_divPow10 (k := (-e).toNat) (by omega) hx
    rw [scaled, if_neg large, if_pos negative, found, Option.isSome_some]
  | case4 _ e _ positive => exact absurd he positive
  | case5 _ e _ positive => exact absurd he positive
  | case6 _ e _ positive => exact absurd he positive

theorem scaled_of_le (he : 0 ≤ e) (he' : e ≤ 308) : scaled x e = x.mulPow10 e.toNat := by
  rw [scaled, if_neg (by omega), if_neg (by omega), if_pos he']

theorem scaled_of_lt (he : 308 < e) :
    scaled x e = if x.isZero = true then some x else none := by
  rw [scaled, if_neg (by omega), if_neg (by omega), if_neg (by omega)]

theorem exists_rounds_scaled (near : |x.size - m| ≤ m / 2 ^ 53) (he : 0 ≤ e) (he' : e ≤ 308) :
    ∃ r, Rounds r (scaled x e) ∧ |r - m * 10 ^ e| ≤ m * 10 ^ e / 2 ^ 51 := by
  obtain ⟨r, rounds, product⟩ := rounds_mulPow10 x (k := e.toNat) (by omega)
  have power : (10 : ℚ) ^ e.toNat = 10 ^ e := by
    rw [← zpow_natCast, Int.toNat_of_nonneg he]
  have positive : (0 : ℚ) < 10 ^ e := zpow_pos (by norm_num) e
  rw [power] at product
  refine ⟨r, scaled_of_le he he' ▸ rounds, ?_⟩
  have above : x.size ≤ 3 * m := by
    have high := (abs_le.1 near).2
    have few : (m / 2 ^ 53 : ℚ) ≤ m := div_le_self (Nat.cast_nonneg m) (by norm_num)
    have nonneg : (0 : ℚ) ≤ m := Nat.cast_nonneg m
    linarith
  calc |r - m * 10 ^ e| = |(r - x.size * 10 ^ e) + (x.size - m) * 10 ^ e| := by
        congr 1
        ring
    _ ≤ |r - x.size * 10 ^ e| + |(x.size - m) * 10 ^ e| := abs_add_le _ _
    _ = |r - x.size * 10 ^ e| + |x.size - m| * 10 ^ e := by rw [abs_mul, abs_of_pos positive]
    _ ≤ x.size * 10 ^ e / 2 ^ 53 + m / 2 ^ 53 * 10 ^ e := by gcongr
    _ ≤ 3 * m * 10 ^ e / 2 ^ 53 + m / 2 ^ 53 * 10 ^ e := by gcongr
    _ = m * 10 ^ e / 2 ^ 51 := by ring

theorem le_mul_of_pos (positive : 0 < m) (he : 308 < e) :
    (10 ^ 4 * 10 ^ 305 : ℚ) ≤ m * 10 ^ e := by
  have one : (1 : ℚ) ≤ m := by exact_mod_cast positive
  have base : (1 : ℚ) ≤ 10 := by norm_num
  calc (10 ^ 4 * 10 ^ 305 : ℚ) = 10 ^ (309 : Int) := by
        rw [← pow_add]
        exact (zpow_natCast 10 309).symm
    _ ≤ 10 ^ e := zpow_le_zpow_right₀ base (by omega)
    _ ≤ m * 10 ^ e := le_mul_of_one_le_left (zpow_nonneg (by norm_num) e) one

theorem isSome_ofDecimal (negative : Bool) (h : m < 2 ^ 64)
    (less : (m * 10 ^ e : ℚ) ≤ 1796 * 10 ^ 305) : (ofDecimal negative m e).isSome = true := by
  obtain ⟨x, found, near⟩ := exists_significand h
  rw [ofDecimal, found, Option.bind_some, Option.isSome_map]
  have power : (0 : ℚ) < 10 ^ 305 := by positivity
  obtain below | small | beyond : e < 0 ∨ (0 ≤ e ∧ e ≤ 308) ∨ 308 < e := by omega
  · refine isSome_scaled_of_neg below ?_
    have above := (abs_le.1 near).2
    have most : (m : ℚ) < 2 ^ 64 := by exact_mod_cast h
    have few : (m / 2 ^ 53 : ℚ) ≤ m := div_le_self (Nat.cast_nonneg m) (by norm_num)
    linarith only [above, most, few]
  · obtain ⟨r, rounds, product⟩ := exists_rounds_scaled near small.1 small.2
    have above := (abs_le.1 product).2
    have bound := lt_limit
    rw [Option.isSome_iff_ne_none, Ne, rounds.none_iff, not_le]
    generalize (10 : ℚ) ^ 305 = t at less power bound
    generalize (m * 10 ^ e : ℚ) = v at less above
    refine lt_of_le_of_lt ?_ bound
    norm_num at above
    linarith
  · rw [scaled_of_lt beyond, if_pos, Option.isSome_some]
    obtain rfl | positive := Nat.eq_zero_or_pos m
    · rw [isZero_iff]
      simpa using near
    · have more := le_mul_of_pos positive beyond
      generalize (10 : ℚ) ^ 305 = t at less power more
      linarith

theorem ofDecimal_eq_none (negative : Bool) (h : m < 2 ^ 64)
    (more : (1799 * 10 ^ 305 : ℚ) ≤ m * 10 ^ e) : ofDecimal negative m e = none := by
  obtain ⟨x, found, near⟩ := exists_significand h
  rw [ofDecimal, found, Option.bind_some, Option.map_eq_none_iff]
  have power : (0 : ℚ) < 10 ^ 305 := by positivity
  obtain below | small | beyond : e < 0 ∨ (0 ≤ e ∧ e ≤ 308) ∨ 308 < e := by omega
  · have few : 2 ^ 64 < 1799 * 10 ^ 305 := by decide +kernel
    have fewer : (m : ℚ) < 1799 * 10 ^ 305 := by exact_mod_cast h.trans few
    have shrunk : (m * 10 ^ e : ℚ) ≤ m := by
      refine mul_le_of_le_one_right (Nat.cast_nonneg m) ?_
      exact zpow_le_one_of_nonpos₀ (by norm_num) below.le
    exact absurd fewer (not_lt.2 (more.trans shrunk))
  · obtain ⟨r, rounds, product⟩ := exists_rounds_scaled near small.1 small.2
    have low := (abs_le.1 product).1
    have bound := limit_lt
    rw [rounds.none_iff]
    generalize (10 : ℚ) ^ 305 = t at more power bound
    generalize (m * 10 ^ e : ℚ) = v at more low
    refine bound.le.trans ?_
    norm_num at low
    linarith
  · rw [scaled_of_lt beyond, if_neg]
    rw [isZero_iff]
    intro nothing
    have low := (abs_le.1 near).1
    rw [nothing] at low
    have none : (m : ℚ) ≤ 0 := by
      norm_num at low
      linarith only [low]
    have shrunk : (m * 10 ^ e : ℚ) ≤ 0 :=
      mul_nonpos_of_nonpos_of_nonneg none (zpow_nonneg (by norm_num) e)
    exact absurd (more.trans shrunk) (not_le.2 (by positivity))

end Decimals

end Binary64

end ScmPlugins
