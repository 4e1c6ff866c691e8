import ScmPlugins.Json.Basic
import ScmPlugins.Json.Fault

namespace ScmPlugins.Json

structure Literal where
  negative : Bool
  whole : List Char
  fraction : Option (List Char)
  exponent : Option (Bool × List Char)
  deriving DecidableEq, Repr

namespace Literal

def digit (c : Char) : Nat := c.toNat - 48

def ofDigits (ds : List Char) : Nat := ds.foldl (fun n c => 10 * n + digit c) 0

def digits (atEnd : Fault) : List Char → Except Fault (List Char × List Char)
  | [] => .error atEnd
  | c :: r =>
    if c.isDigit then .ok (c :: r.takeWhile Char.isDigit, r.dropWhile Char.isDigit)
    else .error .invalidNumber

def scanWhole (atEnd : Fault) : List Char → Except Fault (List Char × List Char)
  | '0' :: c :: r => if c.isDigit then .error .invalidNumber else .ok (['0'], c :: r)
  | s => digits atEnd s

def scanFraction (atEnd : Fault) : List Char → Except Fault (Option (List Char) × List Char)
  | '.' :: r => (digits atEnd r).map fun (ds, r) => (some ds, r)
  | s => .ok (none, s)

def scanSign : List Char → Bool × List Char
  | '+' :: r => (false, r)
  | '-' :: r => (true, r)
  | s => (false, s)

def scanExponent (atEnd : Fault) : List Char → Except Fault (Option (Bool × List Char) × List Char)
  | 'e' :: r | 'E' :: r =>
    (digits atEnd (scanSign r).2).map fun (ds, t) => (some ((scanSign r).1, ds), t)
  | s => .ok (none, s)

def scanMinus : List Char → Bool × List Char
  | '-' :: r => (true, r)
  | s => (false, s)

def scan (atEnd : Fault) (s : List Char) : Except Fault (Literal × List Char) :=
  match scanWhole atEnd (scanMinus s).2 with
  | .error f => .error f
  | .ok (whole, r) =>
    match scanFraction atEnd r with
    | .error f => .error f
    | .ok (fraction, r) =>
      match scanExponent atEnd r with
      | .error f => .error f
      | .ok (exponent, r) => .ok (⟨(scanMinus s).1, whole, fraction, exponent⟩, r)

def fit64 (n : Nat) : List Char → Nat × List Char
  | [] => (n, [])
  | c :: r =>
    if 10 * n + digit c < 0x10000000000000000 then fit64 (10 * n + digit c) r else (n, c :: r)

def power (l : Literal) : Int :=
  match l.exponent with
  | none => 0
  | some (negative, ds) => if negative then -ofDigits ds else ofDigits ds

/-- The binary number of a literal, from as many leading digits as fit into 64 bits. Later digits
before the point count as zeros and later ones after it not at all. -/
def real? (l : Literal) : Option Binary64 :=
  let (m, beyond) := fit64 0 l.whole
  let fraction := l.fraction.getD []
  let (m, left) := fit64 m fraction
  Binary64.ofDecimal l.negative m (beyond.length - (fraction.length - left.length) + l.power)

/-- The whole number that 64 bits hold. A negative zero is none. -/
def int? (l : Literal) : Option Int :=
  if l.fraction.isSome || l.exponent.isSome then none
  else
    let n := ofDigits l.whole
    if l.negative then if 0 < n ∧ n ≤ 0x8000000000000000 then some (-n) else none
    else if n < 0x10000000000000000 then some n else none

def value (l : Literal) : Except Fault Json :=
  match l.int? with
  | some n => .ok (.int n)
  | none =>
    match l.real? with
    | some x => .ok (.real x)
    | none => .error .numberOutOfRange

theorem digits_shorter {atEnd s ds r} (h : digits atEnd s = .ok (ds, r)) :
    r.length < s.length := by
  unfold digits at h; split at h
  · simp at h
  · split at h
    · simp only [Except.ok.injEq, Prod.mk.injEq] at h
      rw [← h.2]
      simpa using Nat.lt_succ_of_le ((List.dropWhile_sublist _).length_le)
    · simp at h

theorem scanWhole_shorter {atEnd s ds r} (h : scanWhole atEnd s = .ok (ds, r)) :
    r.length < s.length := by
  unfold scanWhole at h; split at h
  · split at h <;> simp at h
    simp [← h.2]
  · exact digits_shorter h

theorem scanFraction_le {atEnd s ds r} (h : scanFraction atEnd s = .ok (ds, r)) :
    r.length ≤ s.length := by
  unfold scanFraction at h; split at h
  · rename_i t
    cases h' : digits atEnd t with
    | error f => simp [h', Except.map] at h
    | ok p =>
      obtain ⟨ds, rest⟩ := p
      have := digits_shorter h'
      simp [h', Except.map] at h
      simp [← h.2]; omega
  · simp_all

theorem scanSign_le (s : List Char) : (scanSign s).2.length ≤ s.length := by
  unfold scanSign; split <;> simp

theorem scanMinus_le (s : List Char) : (scanMinus s).2.length ≤ s.length := by
  unfold scanMinus; split <;> simp

theorem scanExponent_le {atEnd s ds r} (h : scanExponent atEnd s = .ok (ds, r)) :
    r.length ≤ s.length := by
  unfold scanExponent at h
  split at h
  case h_3 => simp_all
  all_goals
    rename_i t
    have := scanSign_le t
    cases h' : digits atEnd (scanSign t).2 with
    | error f => simp [h', Except.map] at h
    | ok p =>
      obtain ⟨ds, rest⟩ := p
      have := digits_shorter h'
      simp [h', Except.map] at h
      simp [← h.2]; omega

theorem scan_shorter {atEnd s l r} (h : scan atEnd s = .ok (l, r)) : r.length < s.length := by
  unfold scan at h; split at h
  · simp at h
  · split at h
    · simp at h
    · split at h
      · simp at h
      · rename_i h₁ _ _ _ h₂ _ _ _ h₃
        have := scanWhole_shorter h₁
        have := scanFraction_le h₂
        have := scanExponent_le h₃
        have := scanMinus_le s
        simp at h; rw [← h.2]; omega

end Literal

end ScmPlugins.Json
