import Mathlib.Data.List.Nodup
import Mathlib.Logic.Relation
import ScmPlugins.Proofs.Response.Layout
import ScmPlugins.Proofs.Response.Polls

/-!
What does not matter in an answer. Where an object is read by name, the order of its members,
members of other names and members that hold null change nothing, neither what is read nor what is
complained about. The options of a property may not be null, and the entries of a configuration are
kept in their order, which equality does not heed.
-/

namespace ScmPlugins.Response

namespace Members

def look (nulls : Nulls) (ms : Members) (name : String) : Option Json :=
  match nulls with
  | .absent => ms.given? name
  | .value => ms.get? name

variable {nulls : Nulls} {ms ns : Members} {name : String} {j : Json}

theorem look_eq_some_iff (distinct : ms.names.Nodup) :
    ms.look nulls name = some j ↔ (name, j) ∈ ms ∧ (nulls = .absent → j ≠ .null) := by
  cases nulls with
  | absent => simpa [look] using given?_eq_some_iff distinct
  | value => simpa [look] using get?_eq_some_iff distinct

theorem look_congr (hm : ms.names.Nodup) (hn : ns.names.Nodup)
    (h : ∀ j, (nulls = .absent → j ≠ .null) → ((name, j) ∈ ms ↔ (name, j) ∈ ns)) :
    ms.look nulls name = ns.look nulls name := by
  refine Option.ext fun j => ?_
  rw [look_eq_some_iff hm, look_eq_some_iff hn]
  exact and_congr_left (h j)

end Members

namespace Layout

/-- One change of a value that its reader does not notice: in an object whose names are distinct
before and after, or in a value further inside. -/
inductive Edit : Layout → Json → Json → Prop
  | order {nulls : Nulls} {fields : List (String × Layout)} {ms ns : Members} (perm : ms.Perm ns)
      (distinct : ms.names.Nodup) : Edit (.object nulls fields) (.map ms) (.map ns)
  | unread {nulls : Nulls} {fields : List (String × Layout)} {front rest : Members} {name : String}
      {j : Json} (unknown : fields.lookup name = none)
      (distinct : Members.names (front ++ (name, j) :: rest) |>.Nodup) :
      Edit (.object nulls fields) (.map (front ++ rest)) (.map (front ++ (name, j) :: rest))
  | null {fields : List (String × Layout)} {front rest : Members} {name : String}
      (distinct : Members.names (front ++ (name, .null) :: rest) |>.Nodup) :
      Edit (.object .absent fields) (.map (front ++ rest)) (.map (front ++ (name, .null) :: rest))
  | field {nulls : Nulls} {fields : List (String × Layout)} {front rest : Members} {name : String}
      {layout : Layout} {j k : Json} (known : fields.lookup name = some layout)
      (h : Edit layout j k) : Edit (.object nulls fields) (.map (front ++ (name, j) :: rest))
        (.map (front ++ (name, k) :: rest))
  | value {layout : Layout} {front rest : Members} {name : String} {j k : Json}
      (h : Edit layout j k) :
      Edit (.map layout) (.map (front ++ (name, j) :: rest)) (.map (front ++ (name, k) :: rest))
  | item {layout : Layout} {front rest : List Json} {j k : Json} (h : Edit layout j k) :
      Edit (.list layout) (.list (front ++ j :: rest)) (.list (front ++ k :: rest))

def Varies (layout : Layout) : Json → Json → Prop := Relation.EqvGen layout.Edit

def Agree (layout : Layout) (found found' : Option Json) : Prop :=
  found = found' ∨ ∃ j k, found = some j ∧ found' = some k ∧ layout.Edit j k

section Edit

variable {layout : Layout} {nulls : Nulls} {fields : List (String × Layout)} {ms ns : Members}
  {j k : Json}

theorem Edit.ne_null (h : layout.Edit j k) : j ≠ .null ∧ k ≠ .null := by
  cases h <;> exact ⟨nofun, nofun⟩

theorem not_edit_whole : ¬whole.Edit j k := nofun

theorem not_edit_texts : ¬texts.Edit j k := by
  intro edit
  cases edit with
  | value edit => exact not_edit_whole edit

theorem Agree.eq {found found' : Option Json} (h : layout.Agree found found')
    (rigid : ∀ {j k}, ¬layout.Edit j k) : found = found' := by
  obtain same | ⟨j, k, -, -, edit⟩ := h
  · exact same
  · exact absurd edit rigid

theorem Edit.agree (h : (object nulls fields).Edit (.map ms) (.map ns)) :
    (ms.names = ns.names ∧ ¬ms.names.Nodup) ∨
      ms.names.Nodup ∧ ns.names.Nodup ∧ ∀ name layout, fields.lookup name = some layout →
        layout.Agree (ms.look nulls name) (ns.look nulls name) := by
  cases h with
  | order perm distinct =>
    have distinct' : ns.names.Nodup := (perm.map _).nodup_iff.1 distinct
    refine .inr ⟨distinct, distinct', fun name layout _ => .inl ?_⟩
    exact Members.look_congr distinct distinct' fun j _ => perm.mem_iff
  | @unread _ _ front rest other j unknown distinct =>
    have fewer : Members.names (front ++ rest) |>.Nodup :=
      distinct.sublist ((List.Sublist.append_left (List.sublist_cons_self _ _) _).map _)
    refine .inr ⟨fewer, distinct, fun name layout known => .inl ?_⟩
    have ne : name ≠ other := by
      rintro rfl
      rw [unknown] at known
      cases known
    exact Members.look_congr fewer distinct fun k _ => by simp [ne]
  | @null _ front rest other distinct =>
    have fewer : Members.names (front ++ rest) |>.Nodup :=
      distinct.sublist ((List.Sublist.append_left (List.sublist_cons_self _ _) _).map _)
    refine .inr ⟨fewer, distinct, fun name layout _ => .inl ?_⟩
    exact Members.look_congr fewer distinct fun k present => by simp [present rfl]
  | @field _ _ front rest other inner j k known edit =>
    have names : Members.names (front ++ (other, j) :: rest) =
        Members.names (front ++ (other, k) :: rest) := by simp [Members.names]
    by_cases distinct : Members.names (front ++ (other, j) :: rest) |>.Nodup
    case neg => exact .inl ⟨names, distinct⟩
    have distinct' := names ▸ distinct
    refine .inr ⟨distinct, distinct', fun name layout known' => ?_⟩
    by_cases same : name = other
    · subst same
      obtain rfl : inner = layout := by simpa [known] using known'
      refine .inr ⟨j, k, ?_, ?_, edit⟩
      · exact (Members.look_eq_some_iff distinct).2 ⟨by simp, fun _ => edit.ne_null.1⟩
      · exact (Members.look_eq_some_iff distinct').2 ⟨by simp, fun _ => edit.ne_null.2⟩
    · exact .inl (Members.look_congr distinct distinct' fun l _ => by simp [same])

end Edit

def Respects (layout : Layout) {α : Type} (read : Json → α) : Prop :=
  ∀ j k, layout.Edit j k → read j = read k

section Respects

variable {layout : Layout} {nulls : Nulls} {fields : List (String × Layout)} {α : Type}
  {payload : Payload} {expected : Shape} {j k : Json}

theorem Respects.eq_of_varies {read : Json → α} (h : layout.Respects read)
    (varies : layout.Varies j k) : read j = read k := by
  induction varies with
  | rel j k edit => exact h j k edit
  | refl j => rfl
  | symm j k _ ih => exact ih.symm
  | trans i j k _ _ first second => exact first.trans second

theorem named_congr {ms ns : Members} (h : ms.names = ns.names) (repeated : ¬ms.names.Nodup)
    {f : Members → Except Error α} :
    (named payload expected (.map ms) >>= f) = (named payload expected (.map ns) >>= f) := by
  have same : checkNames payload ms = checkNames payload ns := by
    unfold checkNames
    rw [show ms.map (·.1) = ns.map (·.1) from h]
  cases checked : checkNames payload ms with
  | ok u => exact absurd (checkNames_eq_ok_iff.1 checked) repeated
  | error e =>
    rw [named, named, ← same, checked]
    rfl

theorem respects_object {read : Json → Except Error α} {f : Members → Except Error α}
    (read_map : ∀ ms, read (.map ms) = (named payload expected (.map ms) >>= f))
    (agree : ∀ ms ns : Members, (∀ name layout, fields.lookup name = some layout →
      layout.Agree (ms.look nulls name) (ns.look nulls name)) → f ms = f ns) :
    (object nulls fields).Respects read := by
  intro j k edit
  obtain ⟨ms, ns, rfl, rfl⟩ : ∃ ms ns, j = .map ms ∧ k = .map ns := by
    cases edit <;> exact ⟨_, _, rfl, rfl⟩
  rw [read_map, read_map]
  obtain ⟨names, repeated⟩ | ⟨distinct, distinct', looks⟩ := edit.agree
  · exact named_congr names repeated
  · rw [named_eq_ok_iff.2 ⟨rfl, distinct⟩, named_eq_ok_iff.2 ⟨rfl, distinct'⟩]
    exact agree ms ns looks

theorem mapM_congr {read : Json → Except Error α} (respects : layout.Respects read)
    {front rest : List Json} (edit : layout.Edit j k) :
    (front ++ j :: rest).mapM read = (front ++ k :: rest).mapM read := by
  rw [List.mapM_append, List.mapM_append, List.mapM_cons, List.mapM_cons, respects j k edit]

theorem respects_items {f : List Json → Except Error α}
    (same : ∀ {front rest j k}, layout.Edit j k → f (front ++ j :: rest) = f (front ++ k :: rest)) :
    (list layout).Respects fun j => items payload expected j >>= f := by
  intro j k edit
  cases edit with
  | item edit => exact same edit

end Respects

theorem Agree.whole {found found' : Option Json} (h : whole.Agree found found') : found = found' :=
  h.eq not_edit_whole

section Bodies

variable {layout : Layout} {α : Type} {payload : Payload}

def Steady (layout : Layout) (payload : Payload) (read : Option String → Except Error α) : Prop :=
  ∃ f : Option Json → Except Error α, (∀ body, read body = (document? payload body >>= f)) ∧
    layout.Respects fun j => f (some j)

theorem steady_document {f : Json → Except Error α} (h : layout.Respects f) :
    layout.Steady payload fun body => document payload body >>= f := by
  refine ⟨fun found => found.elim (.error { payload, rule := .bodyPresent }) f, fun body => ?_, h⟩
  change (document payload body >>= f) = _
  rw [document]
  cases document? payload body with
  | error e => rfl
  | ok found => cases found <;> rfl

theorem Steady.eq_of_varies {read : Option String → Except Error α}
    (h : layout.Steady payload read) {s t : String} {j k : Json} (hs : Json.parse s = .ok j)
    (ht : Json.parse t = .ok k) (varies : layout.Varies j k) : read (some s) = read (some t) := by
  obtain ⟨f, read_eq, respects⟩ := h
  have from_tree {u : String} {l : Json} (hu : Json.parse u = .ok l) :
      read (some u) = f (if l = .null then none else some l) := by
    rw [read_eq]
    split
    · subst l
      simp only [document?, content_of_parse hu, hu, Except.ok_bind]
    · rw [document?_of_parse hu ‹_›, Except.ok_bind]
  have steady : layout.Respects fun l => f (if l = .null then none else some l) := by
    intro l m edit
    simpa [edit.ne_null] using respects l m edit
  rw [from_tree hs, from_tree ht]
  exact steady.eq_of_varies varies

end Bodies

section Readers

theorem steady_view : view.Steady .view Response.view := by
  refine steady_document (respects_object (fun ms => rfl) fun ms ns agree => ?_)
  have displayValue := (agree "displayValue" .whole rfl).whole
  have template := (agree "template" .whole rfl).whole
  simp only [Members.look] at displayValue template
  simp only [Members.required, displayValue, template]

theorem respects_complaint : complaint.Respects validationError := by
  refine respects_object (fun ms => rfl) fun ms ns agree => ?_
  have key := (agree "key" .whole rfl).whole
  have message := (agree "message" .whole rfl).whole
  simp only [Members.look] at key message
  simp only [Members.text?, key, message]

theorem steady_validation : (list complaint).Steady .validation validation := by
  refine ⟨_, fun body => rfl, respects_items fun edit => ?_⟩
  rw [mapM_congr respects_complaint edit]

theorem steady_checkResult : checkResult.Steady .checkResult Response.checkResult := by
  refine steady_document (respects_object (fun ms => rfl) fun ms ns agree => ?_)
  have status := (agree "status" .whole rfl).whole
  have messages := (agree "messages" .whole rfl).whole
  simp only [Members.look] at status messages
  simp only [Response.status, Response.messages, status, messages]

theorem respects_file : file.Respects modifiedFile := by
  refine respects_object (fun ms => rfl) fun ms ns agree => ?_
  have fileName := (agree "fileName" .whole rfl).whole
  have action := (agree "action" .whole rfl).whole
  simp only [Members.look] at fileName action
  simp only [Members.required, fileAction, fileName, action]

theorem modifiedFiles_congr {ms ns : Members}
    (h : (list file).Agree (ms.given? "modifiedFiles") (ns.given? "modifiedFiles")) :
    modifiedFiles ms = modifiedFiles ns := by
  obtain same | ⟨j, k, hj, hk, edit⟩ := h
  · simp only [modifiedFiles, same]
  · cases edit with
    | item edit => simp only [modifiedFiles, hj, hk, mapM_congr respects_file edit]

theorem respects_revision : revision.Respects Response.revision := by
  refine respects_object (fun ms => rfl) fun ms ns agree => ?_
  have id := (agree "revision" .whole rfl).whole
  have time := (agree "timestamp" .whole rfl).whole
  have author := (agree "user" .whole rfl).whole
  have comment := (agree "revisionComment" .whole rfl).whole
  have data := (agree "data" .texts rfl).eq not_edit_texts
  have files := modifiedFiles_congr (agree "modifiedFiles" (.list .file) rfl)
  simp only [Members.look] at id time author comment data
  simp only [Members.required, timestamp, Members.text?, revisionData, id, time, author, comment,
    data, files]

theorem materialData_congr {ms ns : Members}
    (h : texts.Agree (ms.given? "scm-data") (ns.given? "scm-data")) :
    materialData ms = materialData ns := by
  rw [materialData, materialData, h.eq not_edit_texts]

theorem revisions_congr {ms ns : Members}
    (h : (list revision).Agree (ms.given? "revisions") (ns.given? "revisions")) :
    revisions ms = revisions ns := by
  obtain same | ⟨j, k, hj, hk, edit⟩ := h
  · simp only [revisions, same]
  · cases edit with
    | item edit => simp only [revisions, hj, hk, mapM_congr respects_revision edit]

theorem steady_latestRevision :
    latestRevision.Steady .latestRevision Response.latestRevision := by
  refine steady_document (respects_object (fun ms => rfl) fun ms ns agree => ?_)
  have data := materialData_congr (agree "scm-data" .texts rfl)
  obtain same | ⟨j, k, hj, hk, edit⟩ := agree "revision" .revision rfl
  · simp only [Members.look] at same
    simp only [same, data]
  · simp only [Members.look] at hj hk
    simp only [hj, hk, data, respects_revision j k edit]

theorem steady_revisionsSince :
    revisionsSince.Steady .revisionsSince Response.revisionsSince := by
  refine ⟨_, fun body => rfl, respects_object (fun ms => rfl) fun ms ns agree => ?_⟩
  have listed := revisions_congr (agree "revisions" (.list .revision) rfl)
  have data := materialData_congr (agree "scm-data" .texts rfl)
  simp only [listed, data]

theorem respects_property (key : String) : property.Respects (Response.property key) := by
  refine @respects_object _ _ _ .configuration .map _ _ (fun ms => rfl) fun ms ns agree => ?_
  have value := (agree "value" .whole rfl).whole
  have default := (agree "default-value" .whole rfl).whole
  have required := (agree "required" .whole rfl).whole
  have secure := (agree "secure" .whole rfl).whole
  have partOfIdentity := (agree "part-of-identity" .whole rfl).whole
  have displayName := (agree "display-name" .whole rfl).whole
  have displayOrder := (agree "display-order" .whole rfl).whole
  simp only [Members.look] at value default required secure partOfIdentity displayName displayOrder
  simp only [option, value, default, required, secure, partOfIdentity, displayName, displayOrder]

theorem properties_congr {before : Configuration} {front rest : Members} {key : String} {j k : Json}
    (edit : property.Edit j k) :
    properties before (front ++ (key, j) :: rest) =
      properties before (front ++ (key, k) :: rest) := by
  induction front generalizing before with
  | nil => simp only [List.nil_append, properties, respects_property key j k edit]
  | cons m front ih => simp only [List.cons_append, properties, ih]

theorem respects_configuration (payload : Payload) (expected : Shape) :
    configuration.Respects (configurationOf payload expected) := by
  intro j k edit
  cases edit with
  | value edit => exact properties_congr edit

theorem steady_configuration : configuration.Steady .configuration Response.configuration :=
  steady_document (respects_configuration _ _)

theorem steady_shouldUpdate : (list configuration).Steady .shouldUpdate shouldUpdate :=
  steady_document (respects_items fun edit => mapM_congr (respects_configuration _ _) edit)

end Readers

end Layout

theorem read_eq_of_varies (d : Document) {s t : String} {j k : Json} (hs : Json.parse s = .ok j)
    (ht : Json.parse t = .ok k) (varies : d.layout.Varies j k) :
    d.read (some s) = d.read (some t) := by
  cases d with
  | configuration => exact Layout.steady_configuration.eq_of_varies hs ht varies
  | view => exact Layout.steady_view.eq_of_varies hs ht varies
  | validation => exact Layout.steady_validation.eq_of_varies hs ht varies
  | checkResult => exact Layout.steady_checkResult.eq_of_varies hs ht varies
  | latestRevision => exact Layout.steady_latestRevision.eq_of_varies hs ht varies
  | revisionsSince => exact Layout.steady_revisionsSince.eq_of_varies hs ht varies
  | shouldUpdate => exact Layout.steady_shouldUpdate.eq_of_varies hs ht varies

section NullOptions

variable {os front back before after : Members} {key field : String} {shape : Shape}

/-- What is complained about when null is added for an option: the option, if it was not there
before, and otherwise that it is there twice. -/
def nullRefused (key field : String) (shape : Shape) (os : Members) : Error :=
  if field ∈ os.names then { payload := .configuration, rule := .declaredOnce, key := field }
  else { payload := .configuration, rule := .shape shape, key, field }

theorem names_insert_perm (front back : Members) (name : String) (j : Json) :
    (Members.names (front ++ (name, j) :: back)).Perm (name :: Members.names (front ++ back)) :=
  List.perm_middle.map _

theorem malformed_of_repeated (distinct : Members.names (front ++ back) |>.Nodup)
    (again : field ∈ Members.names (front ++ back)) :
    Malformed key (.map (front ++ (field, .null) :: back))
      { payload := .configuration, rule := .declaredOnce, key := field } := by
  have names := names_insert_perm front back field .null
  have repeated : ¬(Members.names (front ++ (field, .null) :: back)).Nodup := by
    rw [names.nodup_iff, List.nodup_cons]
    exact fun h => h.1 again
  obtain ⟨front', name, j, rest, split, first, again'⟩ := Members.exists_repeated repeated
  have same : name = field := by
    by_contra other
    have once := List.nodup_iff_count_le_one.1 distinct name
    have twice : 2 ≤ (Members.names (front ++ (field, .null) :: back)).count name := by
      have earlier : 0 < (front'.map (·.1)).count name := List.count_pos_iff.2 again'
      rw [split, Members.names, List.map_append, List.map_cons, List.count_append,
        List.count_cons_self]
      omega
    rw [names.count_eq, List.count_cons_of_ne (Ne.symm other)] at twice
    omega
  rw [split, ← same]
  exact .repeated first again'

theorem malformed_of_null (known : (field, shape) ∈ optionShapes)
    (wellFormed : WellFormed (front ++ back)) (fresh : field ∉ Members.names (front ++ back)) :
    Malformed key (.map (front ++ (field, .null) :: back))
      { payload := .configuration, rule := .shape shape, key, field } := by
  obtain ⟨earlier, later, order⟩ := List.append_of_mem known
  have distinct : (optionShapes.map (·.1)).Nodup := by decide
  rw [order, List.map_append, List.nodup_append] at distinct
  refine .misshapen ?_ order ?_ ?_
  · rw [(names_insert_perm front back field .null).nodup_iff, List.nodup_cons]
    exact ⟨fresh, wellFormed.distinct⟩
  · intro f hf j mem
    have other : f.1 ≠ field :=
      distinct.2.2 f.1 (List.mem_map_of_mem hf) field (by simp)
    have mem : (f.1, j) ∈ front ++ back := by simpa [other] using mem
    exact wellFormed.suits f (by simp [order, hf]) j mem
  · intro suits
    cases suits .null (by simp)

theorem malformed_of_added (known : (field, shape) ∈ optionShapes)
    (wellFormed : WellFormed (front ++ back)) :
    Malformed key (.map (front ++ (field, .null) :: back))
      (nullRefused key field shape (front ++ back)) := by
  unfold nullRefused
  split
  · exact malformed_of_repeated wellFormed.distinct ‹_›
  · exact malformed_of_null known wellFormed ‹_›

theorem configurationOf_of_added (payload : Payload) (expected : Shape) {c : Configuration}
    (known : (field, shape) ∈ optionShapes)
    (accepted : configurationOf payload expected
      (.map (before ++ (key, .map (front ++ back)) :: after)) = .ok c) :
    configurationOf payload expected
        (.map (before ++ (key, .map (front ++ (field, .null) :: back)) :: after)) =
      .error (nullRefused key field shape (front ++ back)) := by
  obtain ⟨ms, ⟨⟩, distinct, entries⟩ := isDeclaration_of_configurationOf accepted
  obtain ⟨present, os, ⟨⟩, wellFormed⟩ := entries (key, .map (front ++ back)) (by simp)
  rw [Members.names, List.map_append, List.nodup_append] at distinct
  have declaration : IsDeclaration (.map before) :=
    ⟨before, rfl, distinct.1, fun m hm => entries m (List.mem_append_left _ hm)⟩
  have fresh : key ∉ before.names := fun mem => distinct.2.2 key mem key (by simp) rfl
  exact configurationOf_of_complaint payload expected declaration
    (.malformed present fresh (malformed_of_added known wellFormed))

end NullOptions

section Entries

variable {before c : Configuration} {ms ns : Members}

theorem properties_entries (h : properties before ms = .ok c) :
    c.size = before.size + ms.length ∧
      ∀ e, e ∈ c.entries ↔ e ∈ before.entries ∨ ∃ j, (e.1, j) ∈ ms ∧ property e.1 j = .ok e.2 := by
  induction ms generalizing before with
  | nil =>
    cases h
    simp
  | cons m ms ih =>
    obtain ⟨key, j⟩ := m
    unfold properties at h
    split at h
    · cases h
    · split at h
      · cases h
      · rename_i fresh
        split at h
        · cases h
        · rename_i p read
          obtain ⟨size, entries⟩ := ih h
          have added := entries_insert_of_fresh (p := p) (mt contains_eq_true_iff.2 fresh)
          refine ⟨?_, fun e => ?_⟩
          · rw [size, OrderedMap.size, added, OrderedMap.size]
            simp only [List.length_append, List.length_cons, List.length_nil]
            omega
          · have here : e = (key, p) ↔ e.1 = key ∧ property e.1 j = .ok e.2 := by
              constructor
              · rintro rfl
                exact ⟨rfl, read⟩
              · rintro ⟨same, read'⟩
                rw [same, read] at read'
                exact Prod.ext same (Except.ok.inj read').symm
            rw [entries e, added, List.mem_append, List.mem_singleton, here]
            grind

theorem configurationOf_entries {payload : Payload} {expected : Shape}
    (h : configurationOf payload expected (.map ms) = .ok c) :
    c.size = ms.length ∧
      ∀ k p, (k, p) ∈ c.entries ↔ ∃ j, (k, j) ∈ ms ∧ property k j = .ok p := by
  obtain ⟨size, entries⟩ := properties_entries h
  refine ⟨by simpa [OrderedMap.size] using size, fun k p => ?_⟩
  simpa using entries (k, p)

theorem isDeclaration_of_perm (perm : ms.Perm ns) (h : IsDeclaration (.map ms)) :
    IsDeclaration (.map ns) := by
  obtain ⟨ms, ⟨⟩, distinct, entries⟩ := h
  exact ⟨ns, rfl, (perm.map _).nodup_iff.1 distinct, fun m hm => entries m (perm.mem_iff.2 hm)⟩

theorem configurationOf_of_perm (payload : Payload) (expected : Shape) (perm : ms.Perm ns)
    (accepted : configurationOf payload expected (.map ms) = .ok c) :
    ∃ c', configurationOf payload expected (.map ns) = .ok c' ∧ c.same c' = true := by
  have declaration := isDeclaration_of_perm perm (isDeclaration_of_configurationOf accepted)
  obtain ⟨_, c', ⟨⟩, read, -⟩ := configurationOf_of_isDeclaration payload expected declaration
  obtain ⟨size, entries⟩ := configurationOf_entries accepted
  obtain ⟨size', entries'⟩ := configurationOf_entries read
  refine ⟨c', read, ?_⟩
  rw [Configuration.same, Bool.and_eq_true, beq_iff_eq, size, size', List.all_eq_true]
  refine ⟨perm.length_eq, ?_⟩
  rintro ⟨k, p⟩ member
  obtain ⟨j, written, property⟩ := (entries k p).1 member
  have member' : (k, p) ∈ c'.entries := (entries' k p).2 ⟨j, perm.mem_iff.1 written, property⟩
  simpa using OrderedMap.get?_eq_some_iff.2 member'

end Entries

section Bodies

variable {s t : String} {j k : Json} {js ks : List Json} {os : Members} {key field : String}
  {shape : Shape}

/-- Null is added for an option of a property, which had other options. -/
inductive AddsNull (key field : String) (os : Members) : Json → Json → Prop
  | entry {before after front back : Members} (split : os = front ++ back) :
      AddsNull key field os (.map (before ++ (key, .map os) :: after))
        (.map (before ++ (key, .map (front ++ (field, .null) :: back)) :: after))
  | item {front rest : List Json} {j k : Json} (h : AddsNull key field os j k) :
      AddsNull key field os (.list (front ++ j :: rest)) (.list (front ++ k :: rest))

def SameEntries (j k : Json) : Prop := ∃ ms ns : Members, j = .map ms ∧ k = .map ns ∧ ms.Perm ns

theorem configurationOf_of_addsNull {payload : Payload} {expected : Shape} {c : Configuration}
    (known : (field, shape) ∈ optionShapes) (added : AddsNull key field os j k)
    (accepted : configurationOf payload expected j = .ok c) :
    configurationOf payload expected k = .error (nullRefused key field shape os) := by
  cases added with
  | entry split =>
    subst split
    exact configurationOf_of_added payload expected known accepted
  | item _ => cases accepted

theorem read_of_addsNull (d : Document) (hd : d ∈ [.configuration, .shouldUpdate])
    (hs : Json.parse s = .ok j) (ht : Json.parse t = .ok k)
    (known : (field, shape) ∈ optionShapes) (added : AddsNull key field os j k) {a : d.Content}
    (accepted : d.read (some s) = .ok a) :
    d.read (some t) = .error (nullRefused key field shape os) := by
  have present : j ≠ .null ∧ k ≠ .null := by cases added <;> exact ⟨nofun, nofun⟩
  simp only [List.mem_cons, List.not_mem_nil, or_false] at hd
  obtain rfl | rfl := hd
  · have read : configuration (some s) = .ok a := accepted
    rw [configuration, document_of_parse hs present.1, Except.ok_bind] at read
    rw [Document.read, configuration, document_of_parse ht present.2, Except.ok_bind]
    exact configurationOf_of_addsNull known added read
  · have read : shouldUpdate (some s) = .ok a := accepted
    rw [shouldUpdate, document_of_parse hs present.1, Except.ok_bind] at read
    rw [Document.read, shouldUpdate, document_of_parse ht present.2, Except.ok_bind]
    cases added with
    | entry split => cases read
    | item added =>
      obtain ⟨cs, c, before, here⟩ := Except.mapM_before_of_eq_ok read
      exact Except.mapM_eq_error before (configurationOf_of_addsNull known added here)

theorem configuration_of_sameEntries (hs : Json.parse s = .ok j) (ht : Json.parse t = .ok k)
    (same : SameEntries j k) {c : Configuration} (accepted : configuration (some s) = .ok c) :
    ∃ c', configuration (some t) = .ok c' ∧ c.same c' = true := by
  obtain ⟨ms, ns, rfl, rfl, perm⟩ := same
  rw [configuration, document_of_parse hs (by simp), Except.ok_bind] at accepted
  rw [configuration, document_of_parse ht (by simp)]
  exact configurationOf_of_perm _ _ perm accepted

theorem mapM_configurationOf_of_sameEntries (payload : Payload) (expected : Shape)
    (same : List.Forall₂ SameEntries js ks) {cs : List Configuration}
    (accepted : js.mapM (configurationOf payload expected) = .ok cs) :
    ∃ cs', ks.mapM (configurationOf payload expected) = .ok cs' ∧
      List.Forall₂ (fun c c' => c.same c' = true) cs cs' := by
  simp only [Except.mapM_eq_ok_iff] at accepted ⊢
  induction same generalizing cs with
  | nil =>
    cases accepted
    exact ⟨[], .nil, .nil⟩
  | cons first _ ih =>
    cases accepted with
    | cons read accepted =>
      obtain ⟨ms, ns, rfl, rfl, perm⟩ := first
      obtain ⟨c', read', equal⟩ := configurationOf_of_perm payload expected perm read
      obtain ⟨cs', reads', equals⟩ := ih accepted
      exact ⟨c' :: cs', .cons read' reads', .cons equal equals⟩

theorem shouldUpdate_of_sameEntries (hs : Json.parse s = .ok (.list js))
    (ht : Json.parse t = .ok (.list ks)) (same : List.Forall₂ SameEntries js ks)
    {cs : List Configuration} (accepted : shouldUpdate (some s) = .ok cs) :
    ∃ cs', shouldUpdate (some t) = .ok cs' ∧
      List.Forall₂ (fun c c' => c.same c' = true) cs cs' := by
  rw [shouldUpdate, document_of_parse hs (by simp), Except.ok_bind] at accepted
  rw [shouldUpdate, document_of_parse ht (by simp)]
  exact mapM_configurationOf_of_sameEntries _ _ same accepted

end Bodies

/-- Documents that vary in what is not read, in order or in nulls are read alike, or refused alike.
An option that is null is refused in a configuration that is accepted without it, and entries in
another order make an equal configuration. -/
theorem variations_unnoticed :
    (∀ (d : Document) (s t : String) (j k : Json), Json.parse s = .ok j → Json.parse t = .ok k →
      d.layout.Varies j k → d.read (some s) = d.read (some t)) ∧
    (∀ d ∈ [Document.configuration, .shouldUpdate], ∀ (s t : String) (j k : Json)
      (key field : String) (shape : Shape) (os : Members), Json.parse s = .ok j →
      Json.parse t = .ok k → (field, shape) ∈ optionShapes → AddsNull key field os j k →
      ∀ a, d.read (some s) = .ok a →
        d.read (some t) = .error (nullRefused key field shape os)) ∧
    (∀ (s t : String) (j k : Json) (c : Configuration), Json.parse s = .ok j →
      Json.parse t = .ok k → SameEntries j k → configuration (some s) = .ok c →
      ∃ c', configuration (some t) = .ok c' ∧ c.same c' = true) ∧
    ∀ (s t : String) (js ks : List Json) (cs : List Configuration), Json.parse s = .ok (.list js) →
      Json.parse t = .ok (.list ks) → List.Forall₂ SameEntries js ks →
      shouldUpdate (some s) = .ok cs →
      ∃ cs', shouldUpdate (some t) = .ok cs' ∧
        List.Forall₂ (fun c c' => c.same c' = true) cs cs' := by
  refine ⟨?_, ?_, ?_, ?_⟩
  · intro d s t j k hs ht varies
    exact read_eq_of_varies d hs ht varies
  · intro d hd s t j k key field shape os hs ht known added a accepted
    exact read_of_addsNull d hd hs ht known added accepted
  · intro s t j k c hs ht same accepted
    exact configuration_of_sameEntries hs ht same accepted
  · intro s t js ks cs hs ht same accepted
    exact shouldUpdate_of_sameEntries hs ht same accepted

theorem variations_unnoticed_revision :
    let file := "\"modifiedFiles\":[\x7b\"fileName\":\"f\",\"action\":\"added\"\x7d]"
    let swapped := "\"modifiedFiles\":[\x7b\"action\":\"added\",\"fileName\":\"f\"\x7d]"
    let s := "\x7b\"revision\":\x7b" ++ file ++ "\x7d\x7d"
    let t := "\x7b\"x\":0,\"revision\":\x7b" ++ swapped ++ ",\"user\":null\x7d\x7d"
    let url := "\"url\":\x7b\"value\":\"u\"\x7d"
    let branch := "\"branch\":\x7b\x7d"
    latestRevision (some s) = latestRevision (some t) ∧
      latestRevision (some s) =
        .error { payload := .revision, rule := .required, field := "revision" } ∧
      configuration (some ("\x7b\"url\":\x7b\"value\":\"u\",\"secure\":null\x7d\x7d")) =
        .error { payload := .configuration, rule := .shape .boolean, key := "url",
                 field := "secure" } ∧
      (∃ c', configuration (some ("\x7b" ++ branch ++ "," ++ url ++ "\x7d")) = .ok c' ∧
        Configuration.same (.ofList [("url", { value := "u" }), ("branch", {})]) c' = true) ∧
      ∃ cs', shouldUpdate (some ("[\x7b" ++ branch ++ "," ++ url ++ "\x7d]")) = .ok cs' ∧
        List.Forall₂ (fun c c' => Configuration.same c c' = true)
          [.ofList [("url", { value := "u" }), ("branch", {})]] cs' := by
  intro file swapped s t url branch
  obtain ⟨varied, nulled, reordered, listed⟩ := variations_unnoticed
  let fileName : String × Json := ("fileName", .str "f")
  let action : String × Json := ("action", .str "added")
  let files (ms : Members) : String × Json := ("modifiedFiles", .list [.map ms])
  let first : String × Json := ("url", .map [("value", .str "u")])
  let second : String × Json := ("branch", .map [])
  refine ⟨?_, by decide +kernel, ?_, ?_, ?_⟩
  · refine varied .latestRevision s t
      (.map [("revision", .map [files [fileName, action]])])
      (.map [("x", .int 0), ("revision", .map [files [action, fileName], ("user", .null)])])
      (by decide +kernel) (by decide +kernel) ?_
    have swap : Layout.revision.Edit (.map [files [fileName, action]])
        (.map [files [action, fileName]]) :=
      @Layout.Edit.field _ _ [] [] "modifiedFiles" _ _ _ rfl
        (@Layout.Edit.item _ [] [] _ _ (.order (List.Perm.swap _ _ _) (by decide)))
    have null : Layout.revision.Edit (.map [files [action, fileName]])
        (.map [files [action, fileName], ("user", .null)]) :=
      @Layout.Edit.null _ [files [action, fileName]] [] "user" (by decide)
    have inside {j k : Json} (h : Layout.revision.Edit j k) :
        Layout.latestRevision.Varies (.map [("revision", j)]) (.map [("revision", k)]) :=
      .rel _ _ (@Layout.Edit.field _ _ [] [] "revision" _ _ _ rfl h)
    have outside (j : Json) : Layout.latestRevision.Varies (.map [("revision", j)])
        (.map [("x", .int 0), ("revision", j)]) :=
      .rel _ _ (@Layout.Edit.unread _ _ [] [("revision", j)] "x" (.int 0) rfl (by simp))
    exact ((inside swap).trans _ _ _ (inside null)).trans _ _ _ (outside _)
  · have accepted : configuration (some ("\x7b" ++ url ++ "\x7d")) =
        .ok (.ofList [("url", { value := "u" })]) := by decide +kernel
    exact nulled .configuration (by decide) _ _ (.map [first])
      (.map [("url", .map [("value", .str "u"), ("secure", .null)])]) "url" "secure" .boolean
      [("value", .str "u")] (by decide +kernel) (by decide +kernel) (by decide)
      (@AddsNull.entry _ _ _ [] [] [("value", .str "u")] [] rfl) _ accepted
  · exact reordered ("\x7b" ++ url ++ "," ++ branch ++ "\x7d") _ (.map [first, second])
      (.map [second, first]) _ (by decide +kernel) (by decide +kernel)
      ⟨_, _, rfl, rfl, List.Perm.swap _ _ _⟩ (by decide +kernel)
  · exact listed ("[\x7b" ++ url ++ "," ++ branch ++ "\x7d]") _ [.map [first, second]]
      [.map [second, first]] _ (by decide +kernel) (by decide +kernel)
      (.cons ⟨_, _, rfl, rfl, List.Perm.swap _ _ _⟩ .nil) (by decide +kernel)

end ScmPlugins.Response
