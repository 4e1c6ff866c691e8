import ScmPlugins.Configuration

namespace ScmPlugins.Configuration

def pairs (c : Configuration) : List (String × String) := c.entries.map fun (k, p) => (k, p.value)

def bare (c : Configuration) : Configuration := ofValues c.pairs

def IsBare (c : Configuration) : Prop := ∀ e ∈ c.entries, e.2 = { value := e.2.value }

instance (c : Configuration) : Decidable c.IsBare :=
  inferInstanceAs (Decidable (∀ e ∈ c.entries, e.2 = { value := e.2.value }))

theorem map_fst_pairs (c : Configuration) : c.pairs.map (·.1) = c.entries.map (·.1) := by
  simp [pairs, Function.comp_def]

theorem identity_eq_of_pairs_eq {a b : Configuration} (h : a.pairs = b.pairs) :
    a.identity = b.identity := by
  show a.pairs.mergeSort _ = b.pairs.mergeSort _
  rw [h]

theorem entries_bare (c : Configuration) :
    c.bare.entries = c.entries.map fun e => (e.1, { value := e.2.value }) := by
  have nodup : ((c.pairs.map fun e => (e.1, ({ value := e.2 } : Property))).map (·.1)).Nodup := by
    simpa [pairs, Function.comp_def] using c.nodup
  rw [bare, ofValues, OrderedMap.entries_ofList nodup]
  simp [pairs, Function.comp_def]

@[simp] theorem pairs_bare (c : Configuration) : c.bare.pairs = c.pairs := by
  simp [pairs, entries_bare, Function.comp_def]

theorem isBare_bare (c : Configuration) : c.bare.IsBare := by
  intro e he
  rw [entries_bare] at he
  obtain ⟨f, -, rfl⟩ := List.mem_map.1 he
  rfl

theorem identity_bare (c : Configuration) : c.bare.identity = c.identity :=
  identity_eq_of_pairs_eq c.pairs_bare

theorem same_bare_iff (c : Configuration) : c.bare.same c = true ↔ c.IsBare := by
  have size : c.bare.size = c.size := by simp [OrderedMap.size, entries_bare]
  have found (e : String × Property) (he : e ∈ c.entries) :
      c.get? e.1 = some { value := e.2.value } ↔ e.2 = { value := e.2.value } := by
    rw [OrderedMap.get?_eq_some_iff.2 he, Option.some.injEq]
  simp only [same, size, beq_self_eq_true, Bool.true_and, entries_bare, List.all_map,
    List.all_eq_true, Function.comp_apply, beq_iff_eq]
  constructor
  · intro h e he
    exact (found e he).1 (h e he)
  · intro h e he
    exact (found e he).2 (h e he)

end ScmPlugins.Configuration
