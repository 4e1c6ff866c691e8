import Mathlib.Algebra.Order.Field.Basic
import Mathlib.Tactic.FieldSimp
import Mathlib.Tactic.Linarith
import Mathlib.Tactic.NormNum
import Mathlib.Tactic.Ring
import ScmPlugins.Proofs.Json.Integers
import ScmPlugins.Proofs.Number.Binary64

namespace ScmPlugins.Json

open Decimal (valueOf valueOf_append valueOf_lt valueOf_nil)

namespace Literal

variable {ds es r : List Char} {n : Nat} {l : Literal}

theorem fit64_spec (hn : n < 2 ^ 64) (h : ∀ c ∈ ds, c.isDigit = true) :
    ∃ t, ds = t ++ (fit64 n ds).2 ∧ (fit64 n ds).1 = n * 10 ^ t.length + valueOf t ∧
      (fit64 n ds).1 < 2 ^ 64 ∧ ((fit64 n ds).2 = [] ∨ 10 ^ 18 ≤ (fit64 n ds).1) := by
  induction ds generalizing n with
  | nil => exact ⟨[], rfl, by simp [fit64], hn, .inl rfl⟩
  | cons c ds ih =>
    obtain ⟨digit, rest⟩ := List.forall_mem_cons.1 h
    rw [fit64]
    split
    · rename_i fits
      obtain ⟨t, split, kept, less, end_⟩ := ih fits rest
      refine ⟨c :: t, congrArg (c :: ·) split, ?_, less, end_⟩
      rw [kept, Decimal.valueOf_cons, List.length_cons, Nat.pow_succ', Literal.digit]
      ring
    · rename_i full
      have high := (Decimal.toNat_of_isDigit digit).2
      refine ⟨[], rfl, by simp, hn, .inr ?_⟩
      rw [Literal.digit] at full
      omega

theorem near_of_between {m unit a v : ℚ} (positive : 0 ≤ unit) (many : 10 ^ 18 ≤ m)
    (low : m * unit ≤ a) (high : a ≤ (m + 1) * unit) (low' : m * unit ≤ v)
    (high' : v ≤ (m + 1) * unit) : |a - v| ≤ v / 10 ^ 18 := by
  have away : |a - v| ≤ unit := abs_sub_le_iff.2 ⟨by linarith, by linarith⟩
  refine away.trans ?_
  rw [le_div_iff₀ (by positivity), mul_comm]
  exact (mul_le_mul_of_nonneg_right many positive).trans low'

def pointed (ds es : List Char) : ℚ := valueOf ds + valueOf es / 10 ^ es.length

theorem pointed_nonneg (ds es : List Char) : 0 ≤ pointed ds es := by
  unfold pointed
  positivity

theorem pointed_eq (ds es : List Char) : pointed ds es = valueOf (ds ++ es) / 10 ^ es.length := by
  rw [pointed, valueOf_append]
  push_cast
  field_simp

theorem pointed_append_left (ds b es : List Char) :
    pointed (ds ++ b) es = valueOf ds * 10 ^ b.length + pointed b es := by
  rw [pointed, pointed, valueOf_append]
  push_cast
  ring

theorem pointed_append_right (ds es r : List Char) :
    pointed ds (es ++ r) = pointed ds es + pointed [] r / 10 ^ es.length := by
  rw [pointed, pointed, pointed, valueOf_append, valueOf_nil, List.length_append, pow_add]
  push_cast
  field_simp
  ring

theorem pointed_le (hd : ∀ c ∈ ds, c.isDigit = true) (he : ∀ c ∈ es, c.isDigit = true) :
    pointed ds es ≤ 10 ^ ds.length := by
  have next : (valueOf ds + 1 : ℚ) ≤ 10 ^ ds.length := by exact_mod_cast valueOf_lt hd
  have part : (valueOf es / 10 ^ es.length : ℚ) ≤ 1 := by
    rw [div_le_one (by positivity)]
    exact_mod_cast (valueOf_lt he).le
  rw [pointed]
  linarith

theorem near_places (ds : List Char) {es r : List Char} (hr : ∀ c ∈ r, c.isDigit = true)
    (many : 10 ^ 18 ≤ valueOf (ds ++ es)) :
    |pointed ds es - pointed ds (es ++ r)| ≤ pointed ds (es ++ r) / 10 ^ 18 := by
  have unit : (0 : ℚ) ≤ 1 / 10 ^ es.length := by positivity
  have kept : pointed ds es = valueOf (ds ++ es) * (1 / 10 ^ es.length) := by
    rw [pointed_eq, mul_one_div]
  have rest : pointed [] r / 10 ^ es.length ≤ 1 / 10 ^ es.length := by
    have one : pointed [] r ≤ 1 := pointed_le nofun hr
    gcongr
  have rest' : 0 ≤ pointed [] r / 10 ^ es.length := div_nonneg (pointed_nonneg _ _) (by positivity)
  rw [pointed_append_right, kept]
  refine near_of_between unit (m := valueOf (ds ++ es)) (by exact_mod_cast many) le_rfl ?_ ?_ ?_ <;>
    linarith

theorem near_whole {ds b es : List Char} (hb : ∀ c ∈ b, c.isDigit = true)
    (he : ∀ c ∈ es, c.isDigit = true) (hr : ∀ c ∈ r, c.isDigit = true)
    (many : 10 ^ 18 ≤ valueOf ds) :
    |pointed ds es * 10 ^ b.length - pointed (ds ++ b) (es ++ r)| ≤
      pointed (ds ++ b) (es ++ r) / 10 ^ 18 := by
  have power : (0 : ℚ) ≤ 10 ^ b.length := by positivity
  have split : pointed ds es = valueOf ds + pointed [] es := by
    simpa using pointed_append_left ds [] es
  have low := pointed_nonneg [] es
  have high : pointed [] es ≤ 1 := pointed_le nofun he
  have low' := pointed_nonneg b (es ++ r)
  have high' := pointed_le hb (List.forall_mem_append.2 ⟨he, hr⟩)
  refine near_of_between power (m := valueOf ds) (by exact_mod_cast many) ?_ ?_ ?_ ?_
  · exact mul_le_mul_of_nonneg_right (by linarith) power
  · exact mul_le_mul_of_nonneg_right (by linarith) power
  · rw [pointed_append_left]
    linarith
  · rw [pointed_append_left, add_mul, one_mul]
    linarith

def places (l : Literal) : List Char := l.fraction.getD []

def kept (l : Literal) : Nat := (fit64 (fit64 0 l.whole).1 l.places).1

def place (l : Literal) : Int :=
  (fit64 0 l.whole).2.length - (l.places.length - (fit64 (fit64 0 l.whole).1 l.places).2.length)

theorem real?_eq (l : Literal) :
    l.real? = Binary64.ofDecimal l.negative l.kept (l.place + l.power) := rfl

def size (l : Literal) : ℚ := pointed l.whole l.places * 10 ^ l.power

theorem kept_near (hw : ∀ c ∈ l.whole, c.isDigit = true) (hp : ∀ c ∈ l.places, c.isDigit = true) :
    l.kept < 2 ^ 64 ∧
      |l.kept * 10 ^ l.place - pointed l.whole l.places| ≤ pointed l.whole l.places / 10 ^ 18 := by
  obtain ⟨t, split, first, less, end_⟩ := fit64_spec (n := 0) (by decide) hw
  obtain ⟨t', split', second, less', end_'⟩ := fit64_spec less hp
  refine ⟨less', ?_⟩
  rw [Nat.zero_mul, Nat.zero_add] at first
  have second := second.trans (by rw [first, ← valueOf_append])
  rw [second] at end_'
  rw [first] at end_
  have front : (l.kept : ℚ) * 10 ^ l.place = pointed t t' * 10 ^ (fit64 0 l.whole).2.length := by
    have length := congrArg List.length split'
    rw [List.length_append] at length
    have exponent : l.place = (fit64 0 l.whole).2.length - t'.length := by
      unfold place
      omega
    rw [exponent, zpow_sub₀ (by norm_num), zpow_natCast, zpow_natCast, kept, second, pointed_eq]
    field_simp
  rw [front]
  rw [split] at hw
  rw [split'] at hp
  generalize (fit64 (fit64 0 l.whole).1 l.places).2 = r at split' hp end_'
  generalize (fit64 0 l.whole).2 = b at split hw end_
  obtain ⟨-, hb⟩ := List.forall_mem_append.1 hw
  obtain ⟨ht', hr⟩ := List.forall_mem_append.1 hp
  rw [split, split']
  obtain rfl | many := end_
  · rw [List.length_nil, pow_zero, mul_one, List.append_nil]
    obtain rfl | many' := end_'
    · rw [List.append_nil, sub_self, abs_zero]
      exact div_nonneg (pointed_nonneg _ _) (by positivity)
    · exact near_places t hr many'
  · exact near_whole hb ht' hr many

theorem kept_size_near (hw : ∀ c ∈ l.whole, c.isDigit = true)
    (hp : ∀ c ∈ l.places, c.isDigit = true) :
    |l.kept * 10 ^ (l.place + l.power) - l.size| ≤ l.size / 10 ^ 18 := by
  have power : (0 : ℚ) < 10 ^ l.power := zpow_pos (by norm_num) _
  rw [size, zpow_add₀ (by norm_num), ← mul_assoc, ← sub_mul, abs_mul, abs_of_pos power,
    mul_div_right_comm]
  exact mul_le_mul_of_nonneg_right (kept_near hw hp).2 power.le

theorem isSome_real? (hw : ∀ c ∈ l.whole, c.isDigit = true)
    (hp : ∀ c ∈ l.places, c.isDigit = true) (h : l.size ≤ 17 * 10 ^ 307) :
    l.real?.isSome = true := by
  have near := (abs_le.1 (kept_size_near hw hp)).2
  have scale : (10 ^ 307 : ℚ) = 10 ^ 2 * 10 ^ 305 := pow_add 10 2 305
  have positive : (0 : ℚ) < 10 ^ 305 := by positivity
  rw [real?_eq]
  refine Binary64.isSome_ofDecimal l.negative (kept_near hw hp).1 ?_
  rw [scale] at h
  generalize (10 : ℚ) ^ 305 = t at h positive ⊢
  linarith

theorem real?_eq_none (hw : ∀ c ∈ l.whole, c.isDigit = true)
    (hp : ∀ c ∈ l.places, c.isDigit = true) (h : 18 * 10 ^ 307 ≤ l.size) : l.real? = none := by
  have near := (abs_le.1 (kept_size_near hw hp)).1
  have scale : (10 ^ 307 : ℚ) = 10 ^ 2 * 10 ^ 305 := pow_add 10 2 305
  have positive : (0 : ℚ) < 10 ^ 305 := by positivity
  rw [real?_eq]
  refine Binary64.ofDecimal_eq_none l.negative (kept_near hw hp).1 ?_
  rw [scale] at h
  generalize (10 : ℚ) ^ 305 = t at h positive ⊢
  linarith

theorem digits_of_scanFraction {atEnd : Fault} {o : Option (List Char)} {s : List Char}
    (h : scanFraction atEnd s = .ok (o, r)) : ∀ c ∈ o.getD [], c.isDigit = true := by
  unfold scanFraction at h
  split at h
  · obtain ⟨⟨es, u⟩, read, ⟨⟩⟩ := Except.map_eq_ok_iff.1 h
    exact (digits_of_eq_ok read).2.2
  · cases h
    nofun

theorem digits_of_scan {atEnd : Fault} {v : List Char} (h : scan atEnd v = .ok (l, r)) :
    (∀ c ∈ l.whole, c.isDigit = true) ∧ ∀ c ∈ l.places, c.isDigit = true := by
  unfold scan at h
  split at h
  · cases h
  · rename_i scanned
    split at h
    · cases h
    · rename_i scanned'
      split at h
      · cases h
      · cases h
        refine ⟨?_, digits_of_scanFraction scanned'⟩
        obtain ⟨-, whole⟩ := wholePart_of_scanWhole scanned
        exact whole.forall_isDigit

end Literal

variable {v : List Char} {n : Int} {l : Literal}

theorem IsInteger.exists_size (h : IsInteger v n) :
    ∃ l, Literal.scan .invalidNumber v = .ok (l, []) ∧ l.size = |n| := by
  obtain ⟨l, scanned, fraction, exponent, rfl⟩ := (isInteger_iff_scan .invalidNumber).1 h
  refine ⟨l, scanned, ?_⟩
  rw [Literal.size, Literal.places, Literal.power, fraction, exponent, ofDigits_eq_valueOf]
  cases l.negative <;> simp [Literal.pointed]

theorem overflows_of_le (scanned : Literal.scan .invalidNumber v = .ok (l, []))
    (h : 18 * 10 ^ 307 ≤ l.size) : Overflows v := by
  obtain ⟨hw, hp⟩ := Literal.digits_of_scan scanned
  refine ⟨l, scanned, ?_, Literal.real?_eq_none hw hp h⟩
  rw [Option.eq_none_iff_forall_ne_some]
  intro n found
  obtain ⟨integer, whole, -⟩ := (int?_eq_some_iff scanned).1 found
  obtain ⟨l', scanned', size⟩ := integer.exists_size
  rw [scanned] at scanned'
  cases scanned'
  have few : |n| ≤ 2 ^ 64 := abs_le.2 ⟨by have := whole.1; omega, by have := whole.2; omega⟩
  have small : ((|n| : Int) : ℚ) ≤ 2 ^ 64 := by exact_mod_cast few
  have less : (2 ^ 64 : ℚ) < 18 * 10 ^ 307 := by
    exact_mod_cast (by decide +kernel : 2 ^ 64 < 18 * 10 ^ 307)
  rw [size] at h
  exact absurd (h.trans small) (not_le.2 less)

theorem not_overflows_of_le (scanned : Literal.scan .invalidNumber v = .ok (l, []))
    (h : l.size ≤ 17 * 10 ^ 307) : ¬Overflows v := by
  rintro ⟨l', scanned', -, none⟩
  rw [scanned] at scanned'
  cases scanned'
  obtain ⟨hw, hp⟩ := Literal.digits_of_scan scanned
  have some := Literal.isSome_real? hw hp h
  rw [none] at some
  cases some

end ScmPlugins.Json
