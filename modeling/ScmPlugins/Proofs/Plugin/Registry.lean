import ScmPlugins.Plugin.Registry

namespace ScmPlugins.Registry

variable {g g' : Registry} {d : Descriptor} {info : PluginInfo} {id id' : String}

theorem get?_of_register (h : g.register d = .ok g') (id : String) :
    g'.get? id = if id = d.id then some { descriptor := d } else g.get? id := by
  unfold register at h
  split at h
  · cases h
  · cases h
    exact OrderedMap.get?_insert g.records d.id id { descriptor := d }

theorem get?_deregister (g : Registry) (id id' : String) :
    (g.deregister id').2.get? id = if id = id' then none else g.get? id :=
  OrderedMap.get?_erase g.records id' id

theorem get?_of_publish (h : g.publish info = some g') :
    ∃ record, g.get? info.plugin = some record ∧ ∀ id, g'.get? id =
      if id = info.plugin then some { record with info := some info } else g.get? id := by
  obtain ⟨record, found, rfl⟩ := Option.map_eq_some_iff.1 h
  exact ⟨record, found, fun id => OrderedMap.get?_insert g.records info.plugin id _⟩

theorem declared_eq_some_iff {versions : List Version} :
    g.declared id = some versions ↔
      ∃ record, g.get? id = some record ∧ record.descriptor.versions = versions := by
  rw [declared, Option.map_eq_some_iff]

theorem supports_iff {provider event : String} :
    g.supports id provider event = true ↔
      ∃ record info, g.get? id = some record ∧ record.info = some info ∧
        info.capabilities.supports provider event = true := by
  unfold supports
  cases g.get? id with
  | none => simp
  | some record => cases h : record.info <;> simp [h]

end ScmPlugins.Registry
