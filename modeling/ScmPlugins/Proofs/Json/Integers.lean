import ScmPlugins.Proofs.Json.Limits
import ScmPlugins.Proofs.Number.Decimal

namespace ScmPlugins.Json

open Decimal (valueOf)

inductive IsInteger : List Char → Int → Prop
  | plain {ds : List Char} (whole : WholePart ds) : IsInteger ds (valueOf ds)
  | minus {ds : List Char} (whole : WholePart ds) : IsInteger ('-' :: ds) (-valueOf ds)

def minusZero : List Char := ['-', '0']

/-- The text of a number that no binary number of 64 bits is held for. -/
def Overflows (v : List Char) : Prop :=
  ∃ l, Literal.scan .invalidNumber v = .ok (l, []) ∧ l.int? = none ∧ l.real? = none

section Literals

open Literal

variable {v ds s r : List Char} {n : Int} {l : Literal} {atEnd : Fault}

theorem WholePart.valueOf_eq_zero_iff (h : WholePart ds) : valueOf ds = 0 ↔ ds = ['0'] := by
  cases h with
  | zero => simp [valueOf]
  | @digits d ds digit nonzero _ =>
    have positive := Decimal.valueOf_pos digit nonzero ds
    simp only [List.cons.injEq, nonzero, false_and, iff_false]
    omega

theorem ofDigits_eq_valueOf (ds : List Char) : ofDigits ds = valueOf ds :=
  Decimal.foldl_eq_valueOf ds

theorem eq_of_scanFraction_none (h : scanFraction atEnd s = .ok (none, r)) : s = r := by
  unfold scanFraction at h
  split at h
  · obtain ⟨p, -, same⟩ := Except.map_eq_ok_iff.1 h
    cases same
  · cases h
    rfl

theorem eq_of_scanExponent_none (h : scanExponent atEnd s = .ok (none, r)) : s = r := by
  unfold scanExponent at h
  split at h
  case h_3 =>
    cases h
    rfl
  all_goals
    obtain ⟨p, -, same⟩ := Except.map_eq_ok_iff.1 h
    cases same

theorem scanMinus_eq (v : List Char) :
    v = (if (scanMinus v).1 then ['-'] else []) ++ (scanMinus v).2 := by
  unfold scanMinus
  split <;> rfl

theorem written_of_scan (h : scan atEnd v = .ok (l, [])) (fraction : l.fraction = none)
    (exponent : l.exponent = none) :
    WholePart l.whole ∧ v = (if l.negative then ['-'] else []) ++ l.whole := by
  unfold scan at h
  split at h
  · cases h
  · rename_i scanned
    split at h
    · cases h
    · rename_i scanned'
      split at h
      · cases h
      · rename_i scanned''
        cases h
        dsimp only at fraction exponent ⊢
        subst fraction exponent
        obtain rfl := eq_of_scanFraction_none scanned'
        obtain rfl := eq_of_scanExponent_none scanned''
        obtain ⟨rest, whole⟩ := wholePart_of_scanWhole scanned
        rw [List.append_nil] at rest
        refine ⟨whole, ?_⟩
        rw [← rest]
        exact scanMinus_eq v

theorem scan_of_wholePart (h : WholePart ds) (negative : Bool) :
    scan atEnd ((if negative then ['-'] else []) ++ ds) = .ok (⟨negative, ds, none, none⟩, []) := by
  have whole : scanWhole atEnd ds = .ok (ds, []) := by
    simpa using h.scanWhole atEnd (r := []) nofun
  have sign : scanMinus ((if negative then ['-'] else []) ++ ds) = (negative, ds) := by
    cases negative with
    | true => rfl
    | false =>
      obtain ⟨d, u, rfl, digit⟩ := h.startsDigit
      change scanMinus (d :: u) = _
      rw [scanMinus]
      rintro t same
      rw [(List.cons.inj same).1] at digit
      exact absurd digit (by decide)
  simp [scan, sign, whole, scanFraction, scanExponent]

theorem isInteger_iff_scan (atEnd : Fault) :
    IsInteger v n ↔ ∃ l, scan atEnd v = .ok (l, []) ∧ l.fraction = none ∧ l.exponent = none ∧
      n = if l.negative then -(ofDigits l.whole : Int) else ofDigits l.whole := by
  constructor
  · rintro (⟨whole⟩ | ⟨whole⟩)
    · exact ⟨_, scan_of_wholePart whole false, rfl, rfl, by simp [ofDigits_eq_valueOf]⟩
    · exact ⟨_, scan_of_wholePart whole true, rfl, rfl, by simp [ofDigits_eq_valueOf]⟩
  · rintro ⟨l, scanned, fraction, exponent, rfl⟩
    obtain ⟨whole, written⟩ := written_of_scan scanned fraction exponent
    rw [written, ofDigits_eq_valueOf]
    split
    · exact .minus whole
    · exact .plain whole

theorem IsInteger.unique {m : Int} (h : IsInteger v m) (h' : IsInteger v n) : m = n := by
  obtain ⟨l, scanned, -, -, rfl⟩ := (isInteger_iff_scan .invalidNumber).1 h
  obtain ⟨l', scanned', -, -, rfl⟩ := (isInteger_iff_scan .invalidNumber).1 h'
  rw [scanned] at scanned'
  cases scanned'
  rfl

theorem eq_minusZero_iff (whole : WholePart ds) (negative : Bool) :
    (if negative then ['-'] else []) ++ ds = minusZero ↔ negative = true ∧ ofDigits ds = 0 := by
  rw [ofDigits_eq_valueOf, whole.valueOf_eq_zero_iff, minusZero]
  cases negative with
  | true => simp
  | false =>
    obtain ⟨d, u, rfl, digit⟩ := whole.startsDigit
    simp only [Bool.false_eq_true, if_false, List.nil_append, List.cons.injEq, false_and, iff_false]
    rintro ⟨rfl, -⟩
    exact absurd digit (by decide)

theorem int?_eq_some_iff (h : scan atEnd v = .ok (l, [])) :
    l.int? = some n ↔ IsInteger v n ∧ IsWhole n ∧ v ≠ minusZero := by
  have same : (∃ l', scan atEnd v = .ok (l', []) ∧ l'.fraction = none ∧ l'.exponent = none ∧
      n = if l'.negative then -(ofDigits l'.whole : Int) else ofDigits l'.whole) ↔
      l.fraction = none ∧ l.exponent = none ∧
        n = if l.negative then -(ofDigits l.whole : Int) else ofDigits l.whole := by
    simp only [h, Except.ok.injEq, Prod.mk.injEq, and_true, exists_eq_left']
  rw [isInteger_iff_scan atEnd, same]
  obtain ⟨negative, whole, fraction, exponent⟩ := l
  by_cases plain : fraction = none ∧ exponent = none
  · obtain ⟨rfl, rfl⟩ := plain
    obtain ⟨part, rfl⟩ := written_of_scan h rfl rfl
    rw [Ne, eq_minusZero_iff part]
    simp only [int?, IsWhole]
    cases negative <;> simp <;> grind
  · have none : int? ⟨negative, whole, fraction, exponent⟩ = none := by
      cases fraction <;> cases exponent <;> simp_all [int?]
    rw [none]
    grind

end Literals

theorem IsInteger.isNumber {v : List Char} {n : Int} (h : IsInteger v n) : IsNumber v := by
  have signed (minus : List Char) {ds : List Char} (sign : minus ∈ [[], ['-']])
      (whole : WholePart ds) : IsNumber (minus ++ ds) := by
    simpa using IsNumber.mk sign whole .none .none
  obtain ⟨whole⟩ | ⟨whole⟩ := h
  · exact signed [] (by simp) whole
  · exact signed ['-'] (by simp) whole

section Values

variable {v : List Char} {depth : Nat} {n : Int} {j : Json}

theorem run_value_number {l : Literal} (h : IsNumber v)
    (scanned : Literal.scan .invalidNumber v = .ok (l, [])) :
    (value depth).run v = l.value.map (·, []) := by
  obtain ⟨c, u, rfl, -⟩ := h.exists_cons
  obtain ⟨space, bracket, brace⟩ := h.head
  have alone := scalar_number h []
  rw [List.append_nil] at alone
  rw [run_value_of_scalar space bracket brace, alone]
  simp only [number, scan_atEnd scanned]
  cases l.value <;> rfl

theorem IsNumber.exists_scan (h : IsNumber v) :
    ∃ l, Literal.scan .invalidNumber v = .ok (l, []) := by
  simpa using h.scan .invalidNumber endsNumber_nil

theorem run_value_int_iff (h : IsNumber v) :
    (value depth).run v = .ok (.int n, []) ↔ IsInteger v n ∧ IsWhole n ∧ v ≠ minusZero := by
  obtain ⟨l, scanned⟩ := h.exists_scan
  rw [run_value_number h scanned, ← int?_eq_some_iff scanned, Literal.value]
  cases l.int? <;> cases l.real? <;> simp [Except.map]

theorem run_value_eq_error_iff (depth : Nat) (h : IsNumber v) :
    (∃ f, (value depth).run v = .error f) ↔ Overflows v := by
  obtain ⟨l, scanned⟩ := h.exists_scan
  rw [run_value_number h scanned, Overflows, scanned, Literal.value]
  cases found : l.int? <;> cases found' : l.real? <;> simp [Except.map, found, found']

theorem exists_run_value (depth : Nat) (h : IsNumber v) (finite : ¬Overflows v) :
    ∃ j, (value depth).run v = .ok (j, []) := by
  obtain ⟨l, scanned⟩ := h.exists_scan
  have read : (value depth).run v = l.value.map (·, []) := run_value_number h scanned
  cases found : l.value with
  | ok j => exact ⟨j, by rw [read, found]; rfl⟩
  | error f =>
    have overflows := (run_value_eq_error_iff depth h).1 ⟨f, by rw [read, found]; rfl⟩
    exact absurd overflows finite

end Values

end ScmPlugins.Json
