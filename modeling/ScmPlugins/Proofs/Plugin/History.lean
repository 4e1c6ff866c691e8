import Mathlib.Data.List.Induction
import ScmPlugins.Client.Failure
import ScmPlugins.Proofs.Plugin.Registry

/-!
Registries and how they came about. What is recorded of a plugin is decided by the calls about it
that were not refused: the last registration, unless a deregistration came later, and the last
publication after that registration.
-/

namespace ScmPlugins.Registry

inductive Change where
  | register (d : Descriptor)
  | publish (info : PluginInfo)
  | deregister (id : String)
  deriving DecidableEq

inductive Reply where
  | done
  | removed (record : Option PluginRecord)
  | refused (f : Failure)
  deriving DecidableEq

namespace Change

def plugin : Change → String
  | register d => d.id
  | publish info => info.plugin
  | deregister id => id

def Registers (id : String) (c : Change) : Prop := ∃ d, c = register d ∧ d.id = id

def Informs (id : String) (c : Change) : Prop := ∃ info, c = publish info ∧ info.plugin = id

def Spares (id : String) : Change → Prop
  | register d => d.id ≠ id
  | publish _ => True
  | deregister id' => id' ≠ id

instance (id : String) : (c : Change) → Decidable (c.Spares id)
  | .register d => inferInstanceAs (Decidable (d.id ≠ id))
  | .publish _ => .isTrue trivial
  | .deregister id' => inferInstanceAs (Decidable (id' ≠ id))

end Change

open Change (Registers Informs)

variable {g g' : Registry} {c c' : Change} {d : Descriptor} {info : PluginInfo} {f : Failure}
  {id : String} {h past past' since since' : List Change} {record record' : PluginRecord}

def perform (g : Registry) : Change → Reply × Registry
  | .register d =>
    match g.register d with
    | .ok g' => (.done, g')
    | .error e => (.refused (.invalidDescriptor e), g)
  | .publish info =>
    match g.publish info with
    | some g' => (.done, g')
    | none => (.refused (.pluginNotFound info.plugin), g)
  | .deregister id => (.removed (g.deregister id).1, (g.deregister id).2)

def Accepts (g : Registry) (c : Change) : Prop := ∀ f, (g.perform c).1 ≠ .refused f

def performAll (g : Registry) (cs : List Change) : Registry :=
  cs.foldl (fun g c => (g.perform c).2) g

def after (h : List Change) : Registry := performAll {} h

theorem after_snoc (h : List Change) (c : Change) : after (h ++ [c]) = ((after h).perform c).2 := by
  simp [after, performAll]

theorem perform_of_refused (hf : (g.perform c).1 = .refused f) : (g.perform c).2 = g := by
  cases c with
  | register d => cases h : g.register d <;> simp [perform, h] at hf ⊢
  | publish info => cases h : g.publish info <;> simp [perform, h] at hf ⊢
  | deregister id => cases hf

theorem register_refused_iff :
    (g.perform (.register d)).1 = .refused f ↔
      Text.isBlank d.id = true ∧ f = .invalidDescriptor .blankId ∨
      Text.isBlank d.id = false ∧ d.versions = [] ∧ f = .invalidDescriptor (.noVersions d.id) := by
  obtain ⟨id, versions⟩ := d
  cases blank : Text.isBlank id <;> cases versions <;>
    simp [perform, register, Descriptor.validate, blank, eq_comm]

theorem publish_refused_iff :
    (g.perform (.publish info)).1 = .refused f ↔
      g.get? info.plugin = none ∧ f = .pluginNotFound info.plugin := by
  cases found : g.get? info.plugin <;> simp [perform, publish, found, eq_comm]

theorem accepts_deregister (g : Registry) (id : String) : g.Accepts (.deregister id) := by
  intro f hf
  cases hf

theorem get?_perform_register (hc : g.Accepts (.register d)) (id : String) :
    (g.perform (.register d)).2.get? id =
      if id = d.id then some { descriptor := d } else g.get? id := by
  cases registered : g.register d with
  | error e => exact absurd (by simp [perform, registered]) (hc (.invalidDescriptor e))
  | ok g' =>
    rw [perform, registered]
    exact get?_of_register registered id

theorem get?_perform_publish (g : Registry) (info : PluginInfo) (id : String) :
    (g.perform (.publish info)).2.get? id =
      if id = info.plugin then (g.get? id).map fun r => { r with info := some info }
      else g.get? id := by
  cases published : g.publish info with
  | none =>
    have absent : g.get? info.plugin = none := by simpa [publish] using published
    have unchanged : (g.perform (.publish info)).2 = g := by simp [perform, published]
    rw [unchanged]
    split
    · rename_i same
      rw [same, absent, Option.map_none]
    · rfl
  | some g' =>
    obtain ⟨record, found, after⟩ := get?_of_publish published
    have changed : (g.perform (.publish info)).2 = g' := by simp [perform, published]
    rw [changed, after]
    split
    · rename_i same
      rw [same, found, Option.map_some]
    · rfl

theorem get?_perform_deregister (g : Registry) (id id' : String) :
    (g.perform (.deregister id')).2.get? id = if id = id' then none else g.get? id :=
  get?_deregister g id id'

theorem get?_perform_of_not_accepts (hc : ¬g.Accepts c) (id : String) :
    (g.perform c).2.get? id = g.get? id := by
  obtain ⟨f, hf⟩ := Classical.not_forall.1 hc
  rw [perform_of_refused (Classical.not_not.1 hf)]

theorem get?_perform_of_ne (other : c.plugin ≠ id) : (g.perform c).2.get? id = g.get? id := by
  by_cases hc : g.Accepts c
  · cases c with
    | register d => exact (get?_perform_register hc id).trans (if_neg (Ne.symm other))
    | publish info => exact (get?_perform_publish g info id).trans (if_neg (Ne.symm other))
    | deregister id' => exact (get?_perform_deregister g id id').trans (if_neg (Ne.symm other))
  · exact get?_perform_of_not_accepts hc id

def descriptor? (g : Registry) (id : String) : Option Descriptor := (g.get? id).map (·.descriptor)

theorem descriptor?_perform (spares : c.Spares id) :
    (g.perform c).2.descriptor? id = g.descriptor? id := by
  unfold descriptor?
  cases c with
  | register d => rw [get?_perform_of_ne (c := .register d) spares]
  | deregister id' => rw [get?_perform_of_ne (c := .deregister id') spares]
  | publish info =>
    rw [get?_perform_publish]
    split
    · rw [Option.map_map]
      rfl
    · rfl

theorem descriptor?_performAll {cs : List Change} (spare : ∀ c ∈ cs, c.Spares id) :
    (g.performAll cs).descriptor? id = g.descriptor? id := by
  induction cs generalizing g with
  | nil => rfl
  | cons c cs ih =>
    obtain ⟨here, rest⟩ := List.forall_mem_cons.1 spare
    exact (ih rest).trans (descriptor?_perform here)

theorem reply_congr (same : g.get? c.plugin = g'.get? c.plugin) :
    (g.perform c).1 = (g'.perform c).1 := by
  cases c with
  | register d =>
    cases valid : d.validate <;> simp [perform, register, valid]
  | publish info =>
    have same : g.get? info.plugin = g'.get? info.plugin := same
    cases found : g'.get? info.plugin <;> simp [perform, publish, same, found]
  | deregister id => exact congrArg Reply.removed same

/-- In the history `h` the call `c` was made between `past` and `since`, and was not refused. -/
structure Made (h past : List Change) (c : Change) (since : List Change) : Prop where
  split : h = past ++ c :: since
  accepted : (after past).Accepts c

structure LastMade (kind : Change → Prop) (h past : List Change) (c : Change)
    (since : List Change) : Prop extends Made h past c since where
  ofKind : kind c
  last : ∀ past' c' since', Made h past' c' since' → kind c' → past'.length ≤ past.length

theorem made_snoc_iff :
    Made (h ++ [c]) past c' since ↔
      (∃ since', since = since' ++ [c] ∧ Made h past c' since') ∨
        past = h ∧ c' = c ∧ since = [] ∧ (after h).Accepts c := by
  constructor
  · rintro ⟨split, accepted⟩
    cases since using List.reverseRecOn with
    | nil =>
      obtain ⟨rfl, same⟩ := List.append_inj' split rfl
      obtain rfl := List.singleton_inj.1 same
      exact .inr ⟨rfl, rfl, rfl, accepted⟩
    | append_singleton since' x =>
      have split : h ++ [c] = (past ++ c' :: since') ++ [x] := by simpa using split
      obtain ⟨rfl, same⟩ := List.append_inj' split rfl
      obtain rfl := List.singleton_inj.1 same
      exact .inl ⟨since', rfl, rfl, accepted⟩
  · rintro (⟨since', rfl, rfl, accepted⟩ | ⟨rfl, rfl, rfl, accepted⟩)
    · exact ⟨by simp, accepted⟩
    · exact ⟨rfl, accepted⟩

section Snoc

variable {kind : Change → Prop}

theorem LastMade.here (accepted : (after h).Accepts c) (hc : kind c) :
    LastMade kind (h ++ [c]) h c [] := by
  refine ⟨⟨rfl, accepted⟩, hc, ?_⟩
  intro past' c' since' made _
  obtain ⟨since', -, made⟩ | ⟨rfl, -⟩ := made_snoc_iff.1 made
  · rw [made.split, List.length_append]
    exact Nat.le_add_right _ _
  · exact Nat.le_refl _

theorem lastMade_snoc_iff (skipped : ¬((after h).Accepts c ∧ kind c)) :
    LastMade kind (h ++ [c]) past c' since ↔
      ∃ since', since = since' ++ [c] ∧ LastMade kind h past c' since' := by
  constructor
  · rintro ⟨made, ofKind, last⟩
    obtain ⟨since', rfl, before⟩ | ⟨-, rfl, -, accepted⟩ := made_snoc_iff.1 made
    · refine ⟨since', rfl, before, ofKind, ?_⟩
      intro past' c' since'' made' ofKind'
      exact last past' c' _ (made_snoc_iff.2 (.inl ⟨since'', rfl, made'⟩)) ofKind'
    · exact absurd ⟨accepted, ofKind⟩ skipped
  · rintro ⟨since', rfl, made, ofKind, last⟩
    refine ⟨made_snoc_iff.2 (.inl ⟨since', rfl, made⟩), ofKind, ?_⟩
    intro past' c' since'' made' ofKind'
    obtain ⟨since'', -, made'⟩ | ⟨-, rfl, -, accepted⟩ := made_snoc_iff.1 made'
    · exact last past' c' since'' made' ofKind'
    · exact absurd ⟨accepted, ofKind'⟩ skipped

theorem LastMade.unique (a : LastMade kind h past c since) (b : LastMade kind h past' c' since') :
    past = past' ∧ c = c' ∧ since = since' := by
  have length : past.length = past'.length :=
    Nat.le_antisymm (b.last _ _ _ a.toMade a.ofKind) (a.last _ _ _ b.toMade b.ofKind)
  obtain ⟨rfl, same⟩ := List.append_inj (a.split.symm.trans b.split) length
  obtain ⟨rfl, rfl⟩ := List.cons.inj same
  exact ⟨rfl, rfl, rfl⟩

end Snoc

/-- What the calls of a history make of a plugin: it was last registered after `past`, and not
deregistered `since`; its info was the last to be published after that, if any was. -/
structure Stands (h : List Change) (id : String) (record : PluginRecord)
    (past since : List Change) : Prop where
  registered : LastMade (Registers id) h past (.register record.descriptor) since
  kept : .deregister id ∉ since
  informed : ∀ info, record.info = some info ↔ ∃ mid rest,
    LastMade (Informs id) h (past ++ .register record.descriptor :: mid) (.publish info) rest

theorem Stands.skip (stands : Stands h id record past since)
    (skipped : (after h).Accepts c → c.plugin ≠ id) :
    Stands (h ++ [c]) id record past (since ++ [c]) := by
  have register : ¬((after h).Accepts c ∧ Registers id c) := by
    rintro ⟨accepted, d, rfl, same⟩
    exact skipped accepted same
  have publish : ¬((after h).Accepts c ∧ Informs id c) := by
    rintro ⟨accepted, info, rfl, same⟩
    exact skipped accepted same
  have kept : .deregister id ≠ c := by
    rintro rfl
    exact skipped (accepts_deregister _ _) rfl
  refine ⟨(lastMade_snoc_iff register).2 ⟨since, rfl, stands.registered⟩, ?_, ?_⟩
  · simp [stands.kept, kept]
  · intro info
    rw [stands.informed]
    simp only [lastMade_snoc_iff publish]
    constructor
    · rintro ⟨mid, rest, last⟩
      exact ⟨mid, _, rest, rfl, last⟩
    · rintro ⟨mid, _, rest, -, last⟩
      exact ⟨mid, rest, last⟩

theorem Stands.register (accepted : (after h).Accepts (.register d)) :
    Stands (h ++ [.register d]) d.id { descriptor := d } h [] where
  registered := .here accepted ⟨d, rfl, rfl⟩
  kept := List.not_mem_nil
  informed := by
    intro info
    refine ⟨nofun, ?_⟩
    rintro ⟨mid, rest, last⟩
    have length := congrArg List.length last.split
    simp only [List.length_append, List.length_cons, List.length_nil] at length
    omega

theorem Stands.publish (stands : Stands h info.plugin record past since)
    (accepted : (after h).Accepts (.publish info)) :
    Stands (h ++ [.publish info]) info.plugin { record with info := some info } past
      (since ++ [.publish info]) where
  registered := (lastMade_snoc_iff (by simp [Registers])).2 ⟨since, rfl, stands.registered⟩
  kept := by simp [stands.kept]
  informed := by
    intro info'
    have here : LastMade (Informs info.plugin) (h ++ [.publish info]) h (.publish info) [] :=
      .here accepted ⟨info, rfl, rfl⟩
    constructor
    · intro same
      obtain rfl := Option.some.inj same
      exact ⟨since, [], stands.registered.split ▸ here⟩
    · rintro ⟨mid, rest, last⟩
      obtain ⟨-, same, -⟩ := last.unique here
      rw [Change.publish.inj same]

theorem Stands.unique (a : Stands h id record past since) (b : Stands h id record' past' since') :
    record = record' := by
  obtain ⟨rfl, same, -⟩ := a.registered.unique b.registered
  obtain ⟨descriptor, info⟩ := record
  obtain ⟨descriptor', info'⟩ := record'
  obtain rfl := Change.register.inj same
  congr 1
  exact Option.ext fun x => (a.informed x).trans (b.informed x).symm

theorem get?_perform_of_skipped (skipped : g.Accepts c → c.plugin ≠ id) :
    (g.perform c).2.get? id = g.get? id := by
  by_cases accepted : g.Accepts c
  · exact get?_perform_of_ne (skipped accepted)
  · exact get?_perform_of_not_accepts accepted id

theorem exists_stands (found : (after h).get? id = some record) :
    ∃ past since, Stands h id record past since := by
  -- The last call decides, unless it was refused or about another plugin.
  induction h using List.reverseRecOn generalizing record with
  | nil => cases found
  | append_singleton h c ih =>
    rw [after_snoc] at found
    by_cases skipped : (after h).Accepts c → c.plugin ≠ id
    · rw [get?_perform_of_skipped skipped] at found
      obtain ⟨past, since, stands⟩ := ih found
      exact ⟨past, _, stands.skip skipped⟩
    · obtain ⟨accepted, about⟩ : (after h).Accepts c ∧ c.plugin = id := by
        simpa [Classical.not_imp] using skipped
      cases c with
      | register d =>
        obtain rfl : d.id = id := about
        rw [get?_perform_register accepted, if_pos rfl] at found
        cases found
        exact ⟨h, [], .register accepted⟩
      | publish info =>
        obtain rfl : info.plugin = id := about
        rw [get?_perform_publish, if_pos rfl] at found
        obtain ⟨before, recorded, rfl⟩ := Option.map_eq_some_iff.1 found
        obtain ⟨past, since, stands⟩ := ih recorded
        exact ⟨past, _, stands.publish accepted⟩
      | deregister id' =>
        obtain rfl : id' = id := about
        rw [get?_perform_deregister, if_pos rfl] at found
        cases found

theorem isSome_perform (present : (g.get? id).isSome) (kept : c ≠ .deregister id) :
    ((g.perform c).2.get? id).isSome := by
  by_cases skipped : g.Accepts c → c.plugin ≠ id
  · rwa [get?_perform_of_skipped skipped]
  · obtain ⟨accepted, about⟩ : g.Accepts c ∧ c.plugin = id := by
      simpa [Classical.not_imp] using skipped
    cases c with
    | register d =>
      obtain rfl : d.id = id := about
      rw [get?_perform_register accepted, if_pos rfl]
      rfl
    | publish info =>
      obtain rfl : info.plugin = id := about
      rw [get?_perform_publish, if_pos rfl, Option.isSome_map]
      exact present
    | deregister id' => exact absurd (congrArg Change.deregister about) kept

theorem Made.isSome_get? (made : Made h past (.register d) since)
    (kept : .deregister d.id ∉ since) : ((after h).get? d.id).isSome := by
  obtain ⟨rfl, accepted⟩ := made
  induction since using List.reverseRecOn with
  | nil =>
    rw [after_snoc, get?_perform_register accepted, if_pos rfl]
    rfl
  | append_singleton since c ih =>
    have kept : .deregister d.id ∉ since ∧ c ≠ .deregister d.id := by
      simpa [eq_comm] using kept
    rw [← List.cons_append, ← List.append_assoc, after_snoc]
    exact isSome_perform (ih kept.1) kept.2

theorem isSome_get?_after_iff :
    ((after h).get? id).isSome ↔
      ∃ past d since, Made h past (.register d) since ∧ d.id = id ∧ .deregister id ∉ since := by
  constructor
  · intro present
    obtain ⟨record, found⟩ := Option.isSome_iff_exists.1 present
    obtain ⟨past, since, stands⟩ := exists_stands found
    obtain ⟨d, same, named⟩ := stands.registered.ofKind
    obtain rfl := Change.register.inj same
    exact ⟨past, _, since, stands.registered.toMade, named, stands.kept⟩
  · rintro ⟨past, d, since, made, rfl, kept⟩
    exact made.isSome_get? kept

theorem get?_after_iff :
    (after h).get? id = some record ↔ ∃ past since, Stands h id record past since := by
  constructor
  · exact exists_stands
  · rintro ⟨past, since, stands⟩
    obtain ⟨d, same, named⟩ := stands.registered.ofKind
    have present : ((after h).get? id).isSome :=
      isSome_get?_after_iff.2 ⟨past, d, since, same ▸ stands.registered.toMade, named, stands.kept⟩
    obtain ⟨record', found⟩ := Option.isSome_iff_exists.1 present
    obtain ⟨past', since', stands'⟩ := exists_stands found
    rw [found, stands.unique stands']

theorem Stands.named (stands : Stands h id record past since) :
    record.descriptor.id = id ∧ ∀ info, record.info = some info → info.plugin = id := by
  obtain ⟨d, same, named⟩ := stands.registered.ofKind
  refine ⟨Change.register.inj same ▸ named, fun info published => ?_⟩
  obtain ⟨mid, rest, last⟩ := (stands.informed info).1 published
  obtain ⟨info', same, named⟩ := last.ofKind
  exact Change.publish.inj same ▸ named

theorem reply_perform_of_ne (other : c.plugin ≠ c'.plugin) (g : Registry) :
    ((g.perform c).2.perform c').1 = (g.perform c').1 :=
  reply_congr (get?_perform_of_ne other)

theorem get?_perform_congr (same : g.get? id = g'.get? id) (about : c.plugin = id) :
    (g.perform c).2.get? id = (g'.perform c).2.get? id := by
  subst about
  have reply := reply_congr same
  by_cases accepted : g.Accepts c
  · have accepted' : g'.Accepts c := fun f => reply ▸ accepted f
    cases c with
    | register d =>
      rw [get?_perform_register accepted, get?_perform_register accepted', same]
    | publish info => rw [get?_perform_publish, get?_perform_publish, same]
    | deregister id => rw [get?_perform_deregister, get?_perform_deregister, same]
  · have refused : ¬g'.Accepts c := fun accepted' => accepted fun f => reply ▸ accepted' f
    rw [get?_perform_of_not_accepts accepted, get?_perform_of_not_accepts refused, same]

theorem get?_perform_comm (other : c.plugin ≠ c'.plugin) (g : Registry) (id : String) :
    ((g.perform c).2.perform c').2.get? id = ((g.perform c').2.perform c).2.get? id := by
  by_cases about : c.plugin = id
  · have other' : c'.plugin ≠ id := fun about' => other (about.trans about'.symm)
    rw [get?_perform_of_ne other']
    exact (get?_perform_congr (get?_perform_of_ne other') about).symm
  · rw [get?_perform_of_ne (g := (g.perform c').2) about]
    by_cases about' : c'.plugin = id
    · exact get?_perform_congr (get?_perform_of_ne about) about'
    · rw [get?_perform_of_ne about', get?_perform_of_ne about', get?_perform_of_ne about]

theorem exists_ids (g : Registry) :
    ∃ ids : List String, ids.Nodup ∧ (∀ id, id ∈ ids ↔ (g.get? id).isSome) ∧ g.size = ids.length :=
  ⟨g.records.keys, g.records.nodup, fun _ => OrderedMap.get?_isSome_iff.symm,
    (List.length_map _).symm⟩

/-- The history of a registry says all about it. A plugin is present exactly if one of its accepted
registrations has no deregistration behind it; its descriptor is that of the last, and its info the
last that was accepted since. Nothing else is ever refused than what cannot be registered and info
about plugins that are absent, and then all records stay; nor do they depend on calls about other
plugins. -/
theorem history_law :
    (∀ h id, ((after h).get? id).isSome ↔
      ∃ past d since, Made h past (.register d) since ∧ d.id = id ∧ .deregister id ∉ since) ∧
    (∀ h id record, (after h).get? id = some record ↔ ∃ past since, Stands h id record past since) ∧
    (∀ h id record, (after h).get? id = some record →
      record.descriptor.id = id ∧ ∀ info, record.info = some info → info.plugin = id) ∧
    (∀ h, ∃ ids : List String, ids.Nodup ∧ (∀ id, id ∈ ids ↔ ((after h).get? id).isSome) ∧
      (after h).size = ids.length) ∧
    (∀ (g : Registry) d f, (g.perform (.register d)).1 = .refused f ↔
      Text.isBlank d.id = true ∧ f = .invalidDescriptor .blankId ∨
      Text.isBlank d.id = false ∧ d.versions = [] ∧ f = .invalidDescriptor (.noVersions d.id)) ∧
    (∀ (g : Registry) info f, (g.perform (.publish info)).1 = .refused f ↔
      g.get? info.plugin = none ∧ f = .pluginNotFound info.plugin) ∧
    (∀ (g : Registry) id, (g.perform (.deregister id)).1 = .removed (g.get? id)) ∧
    (∀ (g : Registry) c f, (g.perform c).1 = .refused f → (g.perform c).2 = g) ∧
    (∀ (g : Registry) c id, c.plugin ≠ id → (g.perform c).2.get? id = g.get? id) ∧
    (∀ (g : Registry) c c', c.plugin ≠ c'.plugin →
      ((g.perform c).2.perform c').1 = (g.perform c').1 ∧
      ((g.perform c').2.perform c).1 = (g.perform c).1 ∧
      ∀ id, ((g.perform c).2.perform c').2.get? id = ((g.perform c').2.perform c).2.get? id) ∧
    ∀ (g : Registry) id provider event, g.supports id provider event = true ↔
      ∃ record info, g.get? id = some record ∧ record.info = some info ∧
        ∃ hook ∈ info.capabilities.webhooks, hook.provider = provider ∧ event ∈ hook.events := by
  refine ⟨fun h id => isSome_get?_after_iff, fun h id record => get?_after_iff, ?_,
    fun h => exists_ids _, fun g d f => register_refused_iff, fun g info f => publish_refused_iff,
    fun g id => rfl, fun g c f => perform_of_refused, fun g c id => get?_perform_of_ne, ?_, ?_⟩
  · intro h id record found
    obtain ⟨past, since, stands⟩ := exists_stands found
    exact stands.named
  · intro g c c' other
    exact ⟨reply_perform_of_ne other g, reply_perform_of_ne other.symm g, get?_perform_comm other g⟩
  · intro g id provider event
    simp only [supports_iff, Capabilities.supports_iff]

theorem history_law_republished :
    let info (shown : String) : PluginInfo :=
      { plugin := "git", displayName := shown, template := "", configuration := ∅
        capabilities := ⟨[⟨"github", ["push", "ping"]⟩, ⟨"gitlab", ["tag"]⟩]⟩ }
    let h : List Change := [.register ⟨" ", [.v1_0]⟩, .publish (info "early"),
      .register ⟨"git", [.v1_0]⟩, .publish (info "first"), .register ⟨"git", [.v2_0]⟩,
      .register ⟨"hg", [.v1_0]⟩, .publish (info "second"), .register ⟨"git", []⟩, .deregister "hg"]
    let record : PluginRecord := ⟨⟨"git", [.v2_0]⟩, some (info "second")⟩
    (∃ past since, Stands h "git" record past since) ∧
      (∃ past since, Stands (h.take 6) "git" { record with info := none } past since) ∧
      (¬∃ past d since, Made h past (.register d) since ∧ d.id = "hg" ∧ .deregister "hg" ∉ since) ∧
      (after h).size = 1 ∧
      ((after h).perform (.publish { info "third" with plugin := "hg" })).1 =
        .refused (.pluginNotFound "hg") ∧
      ((after h).perform (.publish { info "third" with plugin := "hg" })).2 = after h ∧
      (((after h).perform (.register ⟨"hg", [.v1_0]⟩)).2.perform (.deregister "git")).1 =
        .removed (some record) ∧
      (after h).supports "git" "github" "ping" = true ∧
      (after h).supports "git" "gitlab" "push" = false := by
  intro info h record
  obtain ⟨present, recorded, -, -, -, notFound, removed, unchanged, -, commute, supports⟩ :=
    history_law
  have absent : ((after h).perform (.publish { info "third" with plugin := "hg" })).1 =
      .refused (.pluginNotFound "hg") := (notFound _ _ _).2 ⟨by decide, rfl⟩
  refine ⟨(recorded h "git" record).1 (by decide), (recorded _ "git" _).1 (by decide), ?_,
    by decide, absent, unchanged _ _ _ absent, ?_, ?_, by decide⟩
  · rw [← present h "hg"]
    decide
  · have deregistered := (commute (after h) (.register ⟨"hg", [.v1_0]⟩) (.deregister "git")
      (by decide)).1
    rw [deregistered, removed, show (after h).get? "git" = some record by decide]
  · exact (supports (after h) "git" "github" "ping").2
      ⟨record, info "second", by decide, rfl, ⟨"github", ["push", "ping"]⟩, by decide, rfl,
        by decide⟩

end ScmPlugins.Registry
