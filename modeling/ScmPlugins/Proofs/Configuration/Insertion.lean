import Mathlib.Data.Finset.Card
import Mathlib.Data.List.Perm.Subperm
import ScmPlugins.Proofs.Configuration.Identity

namespace ScmPlugins

namespace OrderedMap

variable {β : Type}

/-- Inserts one after another; beside the map, what each insertion replaced. -/
def insertAll (m : OrderedMap β) : List (String × β) → List (Option β) × OrderedMap β
  | [] => ([], m)
  | (k, v) :: es =>
    let (old, m) := m.exchange k v
    let (olds, m) := insertAll m es
    (old :: olds, m)

section Histories

variable (m : OrderedMap β) (es fs : List (String × β)) (k l : String) (v : β)

theorem insertAll_cons :
    m.insertAll ((k, v) :: es) =
      (m.get? k :: ((m.insert k v).insertAll es).1, ((m.insert k v).insertAll es).2) := by
  rw [insertAll, exchange_eq]

theorem insertAll_append :
    m.insertAll (es ++ fs) =
      ((m.insertAll es).1 ++ ((m.insertAll es).2.insertAll fs).1,
        ((m.insertAll es).2.insertAll fs).2) := by
  induction es generalizing m with
  | nil => rfl
  | cons e es ih =>
    obtain ⟨k, v⟩ := e
    rw [List.cons_append, insertAll_cons, insertAll_cons, ih]
    rfl

theorem insertAll_concat :
    m.insertAll (es ++ [(k, v)]) =
      ((m.insertAll es).1 ++ [(m.insertAll es).2.get? k], (m.insertAll es).2.insert k v) := by
  rw [insertAll_append, insertAll_cons]
  rfl

theorem insertAll_snd : (m.insertAll es).2 = es.foldl (fun m e => m.insert e.1 e.2) m := by
  induction es generalizing m with
  | nil => rfl
  | cons e es ih => rw [insertAll_cons, ih, List.foldl_cons]

theorem keys_insertAll : ((∅ : OrderedMap β).insertAll es).2.keys = (es.map (·.1)).eraseDups := by
  induction es using List.reverseRecOn with
  | nil => rfl
  | append_singleton es e ih =>
    rw [insertAll_concat, keys_insert, ih, List.map_append, List.eraseDups_append]
    by_cases met : e.1 ∈ es.map (·.1) <;> simp [List.removeAll, List.eraseDups_cons, met]

theorem get?_insertAll :
    ((∅ : OrderedMap β).insertAll es).2.get? k =
      ((es.filter (·.1 == k)).map (·.2)).getLast? := by
  induction es using List.reverseRecOn with
  | nil => rfl
  | append_singleton es e ih =>
    rw [insertAll_concat, get?_insert, ih, List.filter_append, List.map_append,
      List.getLast?_append]
    by_cases here : e.1 = k
    · simp [here]
    · simp [here, Ne.symm here]

theorem replaced_insertAll :
    (m.insertAll es).1 = es.mapIdx fun i e => (m.insertAll (es.take i)).2.get? e.1 := by
  induction es using List.reverseRecOn with
  | nil => rfl
  | append_singleton es e ih =>
    have before : (es.mapIdx fun i f => (m.insertAll (es.take i)).2.get? f.1) =
        es.mapIdx fun i f => (m.insertAll ((es ++ [e]).take i)).2.get? f.1 :=
      List.mapIdx_eq_mapIdx_iff.2 fun i h => by rw [List.take_append_of_le_length h.le]
    rw [insertAll_concat, List.mapIdx_concat, List.take_left, ih, before]

theorem size_insertAll :
    ((∅ : OrderedMap β).insertAll es).2.size = (es.map (·.1)).toFinset.card := by
  have distinct : ((∅ : OrderedMap β).insertAll es).2.keys.Nodup := nodup _
  have same : (es.map (·.1)).toFinset = ((∅ : OrderedMap β).insertAll es).2.keys.toFinset := by
    ext k
    rw [keys_insertAll, List.mem_toFinset, List.mem_toFinset, List.mem_eraseDups]
  rw [same, List.toFinset_card_of_nodup distinct, keys, List.length_map, size]

theorem insertAll_entries (m : OrderedMap β) : ((∅ : OrderedMap β).insertAll m.entries).2 = m := by
  rw [insertAll_snd]
  exact ext (entries_ofList m.nodup)

end Histories

section Lookups

variable {m n : OrderedMap β}

theorem nodup_entries (m : OrderedMap β) : m.entries.Nodup := .of_map _ m.nodup

theorem perm_iff_get? : m.entries.Perm n.entries ↔ ∀ k, m.get? k = n.get? k := by
  rw [List.perm_ext_iff_of_nodup m.nodup_entries n.nodup_entries, Prod.forall]
  refine forall_congr' fun k => ?_
  rw [Option.ext_iff]
  simp only [get?_eq_some_iff]

end Lookups

end OrderedMap

namespace Configuration

variable {a b c : Configuration}

theorem same_iff_perm : a.same b = true ↔ a.entries.Perm b.entries := by
  simp only [same, Bool.and_eq_true, List.all_eq_true, beq_iff_eq, OrderedMap.get?_eq_some_iff]
  constructor
  · rintro ⟨size, within⟩
    exact (List.subperm_of_subset a.nodup_entries within).perm_of_length_le size.ge
  · intro perm
    exact ⟨perm.length_eq, perm.subset⟩

theorem same_iff_get? : a.same b = true ↔ ∀ k, a.get? k = b.get? k :=
  same_iff_perm.trans OrderedMap.perm_iff_get?

theorem same_equivalence : Equivalence fun a b : Configuration => a.same b = true where
  refl _ := same_iff_get?.2 fun _ => rfl
  symm h := same_iff_get?.2 fun k => (same_iff_get?.1 h k).symm
  trans h h' := same_iff_get?.2 fun k => (same_iff_get?.1 h k).trans (same_iff_get?.1 h' k)

theorem identity_eq_of_same (h : a.same b = true) : a.identity = b.identity :=
  identity_eq_iff_sameValues.2 fun k => congrArg _ (same_iff_get?.1 h k)

theorem same_insertAll {es fs : List (String × Property)}
    (h : ∀ k, es.filter (·.1 == k) = fs.filter (·.1 == k)) :
    same (OrderedMap.insertAll ∅ es).2 (OrderedMap.insertAll ∅ fs).2 = true :=
  same_iff_get?.2 fun k => by rw [OrderedMap.get?_insertAll, OrderedMap.get?_insertAll, h]

/-- After any history of insertions the keys stand in order of their first insertion, each with the
property that was inserted last; and each insertion replaced what was there. Configurations are
equal where the same is found, in whatever order it was inserted, and their identities are equal
where the same values are found. -/
theorem properties_kept_by_key :
    (∀ es : List (String × Property),
      let (replaced, c) := OrderedMap.insertAll ∅ es
      c.keys.Nodup ∧ c.keys = (es.map (·.1)).eraseDups ∧
        c.size = (es.map (·.1)).toFinset.card ∧
        (∀ k, c.get? k = ((es.filter (·.1 == k)).map (·.2)).getLast?) ∧
        replaced = es.mapIdx fun i e => (OrderedMap.insertAll ∅ (es.take i)).2.get? e.1) ∧
      (∀ pairs, ofValues pairs =
        (OrderedMap.insertAll ∅ (pairs.map fun (k, v) => (k, { value := v }))).2) ∧
      (∀ c : Configuration, ∃ es, (OrderedMap.insertAll ∅ es).2 = c) ∧
      (Equivalence fun a b : Configuration => a.same b = true) ∧
      (∀ a b : Configuration,
        (a.same b = true ↔ ∀ k, a.get? k = b.get? k) ∧
          (a.same b = true ↔ a.entries.Perm b.entries) ∧
          (a.same b = true → a.identity = b.identity) ∧
          (a.identity = b.identity ↔ a.SameValues b)) ∧
      ∀ es fs : List (String × Property),
        (∀ k, es.filter (·.1 == k) = fs.filter (·.1 == k)) →
        same (OrderedMap.insertAll ∅ es).2 (OrderedMap.insertAll ∅ fs).2 = true := by
  refine ⟨fun es => ?_, fun pairs => ?_, fun c => ?_, same_equivalence, fun a b => ?_, ?_⟩
  · exact ⟨OrderedMap.nodup _, OrderedMap.keys_insertAll es, OrderedMap.size_insertAll es,
      OrderedMap.get?_insertAll es, OrderedMap.replaced_insertAll ∅ es⟩
  · exact (OrderedMap.insertAll_snd ∅ _).symm
  · exact ⟨c.entries, OrderedMap.insertAll_entries c⟩
  · exact ⟨same_iff_get?, same_iff_perm, identity_eq_of_same, identity_eq_iff_sameValues⟩
  · exact fun es fs => same_insertAll

theorem properties_kept_by_key_branch :
    let branch (value : String) : String × Property := ("branch", { value })
    let url : String × Property := ("url", { value := "u", secure := true })
    let es := [branch "a", url, branch "b"]
    let fs := [url, branch "a", branch "b"]
    (OrderedMap.insertAll ∅ es).1 = [none, none, some { value := "a" }] ∧
      (OrderedMap.insertAll ∅ es).2.keys = ["branch", "url"] ∧
      same (OrderedMap.insertAll ∅ es).2 (OrderedMap.insertAll ∅ fs).2 = true ∧
      identity (OrderedMap.insertAll ∅ es).2 = identity (OrderedMap.insertAll ∅ fs).2 := by
  intro branch url es fs
  obtain ⟨history, -, -, -, equality, order⟩ := properties_kept_by_key
  have apart : ∀ k, es.filter (·.1 == k) = fs.filter (·.1 == k) := by
    intro k
    by_cases here : "branch" = k
    · subst here
      decide
    · simp [es, fs, branch, url, List.filter_cons, here]
  have same := order es fs apart
  refine ⟨(history es).2.2.2.2.trans (by decide), (history es).2.1.trans (by decide), same, ?_⟩
  exact (equality _ _).2.2.1 same

end Configuration

end ScmPlugins
