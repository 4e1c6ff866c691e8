import Mathlib.Data.List.Induction
import Mathlib.Data.Nat.Digits.Defs
import ScmPlugins.Number.Decimal

namespace ScmPlugins.Decimal

def valueOf (ds : List Char) : Nat := Nat.ofDigits 10 (ds.reverse.map fun c => c.toNat - '0'.toNat)

theorem toNat_of_isDigit {c : Char} (h : c.isDigit = true) : 48 ≤ c.toNat ∧ c.toNat ≤ 57 := by
  simpa [Char.isDigit, UInt32.le_iff_toNat_le] using h

variable {s ds : List Char} {n : Nat}

@[simp] theorem valueOf_nil : valueOf [] = 0 := rfl

theorem valueOf_concat (ds : List Char) (c : Char) :
    valueOf (ds ++ [c]) = 10 * valueOf ds + (c.toNat - 48) := by
  rw [valueOf, List.reverse_append, List.reverse_singleton, List.singleton_append, List.map_cons,
    Nat.ofDigits_cons, Nat.add_comm]
  rfl

theorem foldl_eq_valueOf (ds : List Char) :
    ds.foldl (fun n c => 10 * n + (c.toNat - 48)) 0 = valueOf ds := by
  induction ds using List.reverseRecOn with
  | nil => rfl
  | append_singleton ds c ih =>
    rw [List.foldl_append, ih, List.foldl_cons, List.foldl_nil, valueOf_concat]

theorem digits?_eq_some_iff :
    digits? s = some n ↔ (s ≠ [] ∧ ∀ c ∈ s, c.isDigit = true) ∧ valueOf s = n := by
  have all : s.all Char.isDigit = true ↔ ∀ c ∈ s, c.isDigit = true := List.all_eq_true
  rw [digits?, foldl_eq_valueOf, ← all]
  cases s <;> simp

theorem valueOf_cons (c : Char) (ds : List Char) :
    valueOf (c :: ds) = (c.toNat - 48) * 10 ^ ds.length + valueOf ds := by
  rw [valueOf, List.reverse_cons, List.map_append, Nat.ofDigits_append, Nat.add_comm, valueOf]
  simp [Nat.mul_comm]

theorem valueOf_append (ds es : List Char) :
    valueOf (ds ++ es) = valueOf ds * 10 ^ es.length + valueOf es := by
  rw [valueOf, List.reverse_append, List.map_append, Nat.ofDigits_append, Nat.add_comm]
  simp [valueOf, Nat.mul_comm]

theorem valueOf_lt (h : ∀ c ∈ ds, c.isDigit = true) : valueOf ds < 10 ^ ds.length := by
  have digits : ∀ k ∈ ds.reverse.map fun c => c.toNat - '0'.toNat, k < 10 := by
    simp only [List.mem_map, List.mem_reverse]
    rintro _ ⟨c, hc, rfl⟩
    have high := (toNat_of_isDigit (h c hc)).2
    change c.toNat - 48 < 10
    omega
  have less := Nat.ofDigits_lt_base_pow_length (by decide) digits
  rwa [List.length_map, List.length_reverse] at less

theorem valueOf_pos {c : Char} (digit : c.isDigit = true) (nonzero : c ≠ '0') (ds : List Char) :
    0 < valueOf (c :: ds) := by
  have low := (toNat_of_isDigit digit).1
  have other : c.toNat ≠ 48 := fun same => nonzero (Char.toNat_inj.1 same)
  have leading : 0 < (c.toNat - 48) * 10 ^ ds.length :=
    Nat.mul_pos (by omega) (Nat.pow_pos (by decide))
  rw [valueOf_cons]
  omega

end ScmPlugins.Decimal
