import Mathlib.Data.List.Nodup
import ScmPlugins.Proofs.Configuration.Values

namespace ScmPlugins.Configuration

variable {a b : Configuration} {k v : String}

def SameValues (a b : Configuration) : Prop := ∀ k, a.value? k = b.value? k

theorem SameValues.refl (a : Configuration) : a.SameValues a := fun _ => rfl

theorem SameValues.symm (h : a.SameValues b) : b.SameValues a := fun k => (h k).symm

theorem SameValues.trans {c : Configuration} (h : a.SameValues b) (h' : b.SameValues c) :
    a.SameValues c := fun k => (h k).trans (h' k)

theorem value?_eq_some_iff : a.value? k = some v ↔ (k, v) ∈ a.pairs := by
  simp [value?, pairs, OrderedMap.get?_eq_some_iff]

theorem value?_eq_none_iff : a.value? k = none ↔ k ∉ a.keys := by
  rw [value?, Option.map_eq_none_iff, ← OrderedMap.get?_isSome_iff, Option.not_isSome_iff_eq_none]

theorem sameValues_iff_mem_pairs : a.SameValues b ↔ ∀ e, e ∈ a.pairs ↔ e ∈ b.pairs := by
  have same (k : String) :
      a.value? k = b.value? k ↔ ∀ v, (k, v) ∈ a.pairs ↔ (k, v) ∈ b.pairs := by
    rw [Option.ext_iff]
    simp only [value?_eq_some_iff]
  simp only [SameValues, same, Prod.forall]

theorem SameValues.of_pairs_eq (h : a.pairs = b.pairs) : a.SameValues b := by
  rw [sameValues_iff_mem_pairs, h]
  exact fun _ => Iff.rfl

theorem sameValues_iff_on_keys :
    a.SameValues b ↔ ∀ k ∈ a.keys ++ b.keys, a.value? k = b.value? k := by
  refine ⟨fun h k _ => h k, fun h k => ?_⟩
  by_cases member : k ∈ a.keys ++ b.keys
  · exact h k member
  · rw [List.mem_append, not_or] at member
    rw [value?_eq_none_iff.2 member.1, value?_eq_none_iff.2 member.2]

instance (a b : Configuration) : Decidable (a.SameValues b) :=
  decidable_of_iff _ sameValues_iff_on_keys.symm

theorem nodup_pairs (c : Configuration) : c.pairs.Nodup := by
  refine List.Nodup.of_map (·.1) ?_
  rw [map_fst_pairs]
  exact c.nodup

theorem pairwise_identity (c : Configuration) : c.identity.Pairwise fun e f => e.1 ≤ f.1 := by
  have sorted : c.identity.Pairwise fun e f => decide (e.1 ≤ f.1) = true :=
    List.pairwise_mergeSort (by simpa using fun _ _ _ => String.le_trans)
      (by simpa using String.le_total) c.pairs
  exact sorted.imp of_decide_eq_true

theorem identity_perm (c : Configuration) : c.identity.Perm c.pairs := List.mergeSort_perm _ _

theorem identity_eq_iff_sameValues : a.identity = b.identity ↔ a.SameValues b := by
  rw [sameValues_iff_mem_pairs]
  constructor
  · intro same e
    rw [← a.identity_perm.mem_iff, same, b.identity_perm.mem_iff]
  · intro same
    have perm : a.pairs.Perm b.pairs :=
      (List.perm_ext_iff_of_nodup a.nodup_pairs b.nodup_pairs).2 same
    have perm : a.identity.Perm b.identity :=
      (a.identity_perm.trans perm).trans b.identity_perm.symm
    refine perm.eq_of_pairwise ?_ a.pairwise_identity b.pairwise_identity
    -- The order is on the keys alone, but no two entries of one identity share a key.
    rintro ⟨k, v⟩ ⟨l, w⟩ left right le ge
    obtain rfl : k = l := String.le_antisymm le ge
    have left := value?_eq_some_iff.2 (a.identity_perm.mem_iff.1 left)
    have right := value?_eq_some_iff.2 ((same _).2 (b.identity_perm.mem_iff.1 right))
    rw [left] at right
    obtain rfl := Option.some.inj right
    rfl

end ScmPlugins.Configuration
