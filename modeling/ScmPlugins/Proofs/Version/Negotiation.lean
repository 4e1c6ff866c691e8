import ScmPlugins.Version

namespace ScmPlugins.Version

instance : Std.IsLinearOrder Version where
  le_refl := le_refl
  le_trans _ _ _ := le_trans
  le_antisymm _ _ := le_antisymm
  le_total := le_total

theorem max_eq (a b : Version) : max a b = if a ≤ b then b else a := rfl

instance : Std.LawfulOrderMax Version where
  max_eq_or a b := by
    rw [max_eq]
    split
    · exact .inr rfl
    · exact .inl rfl
  max_le_iff a b c := by
    rw [max_eq]
    split
    · rename_i h
      exact ⟨fun hb => ⟨le_trans h hb, hb⟩, And.right⟩
    · rename_i h
      have h' : b ≤ a := (le_total a b).resolve_left h
      exact ⟨fun ha => ⟨ha, le_trans h' ha⟩, And.left⟩

theorem negotiate_eq_some_iff {server plugin : List Version} {v : Version} :
    negotiate server plugin = some v ↔
      v ∈ server ∧ v ∈ plugin ∧ ∀ u ∈ server, u ∈ plugin → u ≤ v := by
  simp [negotiate, List.max?_eq_some_iff, and_assoc]

theorem negotiate_eq_none_iff {server plugin : List Version} :
    negotiate server plugin = none ↔ ∀ v ∈ server, v ∉ plugin := by
  simp [negotiate, List.filter_eq_nil_iff]

theorem negotiate_congr {server server' plugin plugin' : List Version}
    (h : ∀ v, v ∈ server ∧ v ∈ plugin ↔ v ∈ server' ∧ v ∈ plugin') :
    negotiate server plugin = negotiate server' plugin' := by
  ext v
  simp only [negotiate_eq_some_iff, ← and_assoc, ← and_imp, h]

theorem negotiate_comm (server plugin : List Version) :
    negotiate server plugin = negotiate plugin server :=
  negotiate_congr fun _ => and_comm

end ScmPlugins.Version
