import ScmPlugins.Proofs.Response.Capabilities
import ScmPlugins.Proofs.Response.Variation

namespace ScmPlugins.Response

open Json (Spaces)

def Error.Inside (e : Error) : Prop :=
  e.rule ≠ .bodyPresent ∧ ∀ detail, e.rule ≠ .validJson detail

def Rule.isOfBody : Rule → Bool
  | .bodyPresent | .validJson _ => true
  | _ => false

theorem Error.inside_iff {e : Error} : e.Inside ↔ e.rule.isOfBody = false := by
  unfold Error.Inside
  cases e.rule <;> simp [Rule.isOfBody]

def Inside {α : Type} (x : Except Error α) : Prop := ∀ e, x = .error e → e.Inside

section Inside

variable {α β : Type} {x : Except Error α} {payload : Payload} {expected : Shape} {ms : Members}
  {field key : String} {j : Json}

theorem inside_ok (a : α) : Inside (.ok a : Except Error α) := by
  rintro _ ⟨⟩

theorem inside_error {e : Error} (h : e.Inside) : Inside (.error e : Except Error α) := by
  rintro _ ⟨⟩
  exact h

theorem inside_refused {e : Error} (h : e.rule.isOfBody = false) :
    Inside (.error e : Except Error α) :=
  inside_error (Error.inside_iff.2 h)

theorem Inside.bind {f : α → Except Error β} (hx : Inside x) (hf : ∀ a, Inside (f a)) :
    Inside (x >>= f) := by
  cases x with
  | error e => exact inside_error (hx e rfl)
  | ok a => exact hf a

theorem Inside.map (hx : Inside x) (f : α → β) : Inside (x.map f) := by
  cases x with
  | error e => exact inside_error (hx e rfl)
  | ok a => exact inside_ok _

theorem inside_mapM {f : α → Except Error β} (hf : ∀ a, Inside (f a)) (as : List α) :
    Inside (as.mapM f) := by
  rintro e h
  obtain ⟨_, a, _, _, _, failed⟩ := Except.mapM_eq_error_iff.1 h
  exact hf a e failed

theorem inside_misshapen : Inside (misshapen payload expected : Except Error α) :=
  inside_refused rfl

theorem inside_named : Inside (named payload expected j) := by
  unfold named
  split
  · refine Inside.map ?_ _
    unfold checkNames
    split
    · exact inside_refused rfl
    · exact inside_ok _
  · exact inside_misshapen

theorem inside_items : Inside (items payload expected j) := by
  unfold items
  split
  · exact inside_ok _
  · exact inside_misshapen

theorem inside_required : Inside (ms.required payload field) := by
  unfold Members.required
  split
  · exact inside_refused rfl
  · split
    · exact inside_refused rfl
    · exact inside_ok _
  · exact inside_refused rfl

theorem inside_text? : Inside (ms.text? payload field) := by
  unfold Members.text?
  split
  · exact inside_ok _
  · exact inside_ok _
  · exact inside_refused rfl

theorem inside_texts : Inside (texts payload j) := by
  unfold texts
  refine inside_named.bind fun ms => (inside_mapM ?_ ms).bind fun es => inside_ok _
  rintro ⟨key, j⟩
  cases j with
  | str s => exact inside_ok _
  | _ => exact inside_refused rfl

theorem inside_option {convert : Json → Option α} :
    Inside (option ms key field convert expected) := by
  unfold option
  split
  · exact inside_ok _
  · split
    · exact inside_ok _
    · exact inside_refused rfl

theorem inside_property : Inside (property key j) := by
  unfold property
  split
  · exact inside_named.bind fun _ => inside_option.bind fun _ => inside_option.bind fun _ =>
      inside_option.bind fun _ => inside_option.bind fun _ => inside_option.bind fun _ =>
      inside_option.bind fun _ => inside_option.bind fun _ => inside_ok _
  · exact inside_refused rfl

theorem inside_properties (before : Configuration) (ms : Members) :
    Inside (properties before ms) := by
  induction ms generalizing before with
  | nil => exact inside_ok _
  | cons m ms ih =>
    obtain ⟨key, j⟩ := m
    unfold properties
    split
    · exact inside_refused rfl
    · split
      · exact inside_refused rfl
      · split
        · rename_i e failed
          exact inside_error (inside_property e failed)
        · exact ih _

theorem inside_configurationOf : Inside (configurationOf payload expected j) := by
  unfold configurationOf
  split
  · exact inside_properties _ _
  · exact inside_misshapen

theorem inside_validationError : Inside (validationError j) := by
  refine inside_named.bind fun _ => inside_text?.bind fun _ => inside_text?.bind fun message => ?_
  cases message with
  | some message => exact inside_ok _
  | none => exact inside_refused rfl

theorem inside_status : Inside (status ms) := by
  unfold status
  split
  · exact inside_refused rfl
  · split
    · exact inside_ok _
    · exact inside_refused rfl
  · exact inside_refused rfl

theorem inside_messages : Inside (messages ms) := by
  unfold messages
  split
  · exact inside_ok _
  · refine inside_mapM (fun j => ?_) _
    split
    · exact inside_ok _
    · exact inside_refused rfl
  · exact inside_refused rfl

theorem inside_modifiedFile : Inside (modifiedFile j) := by
  refine inside_named.bind fun ms => inside_required.bind fun path => Inside.bind ?_ fun _ =>
    inside_ok _
  unfold fileAction
  split
  · exact inside_refused rfl
  · split
    · exact inside_ok _
    · exact inside_refused rfl
  · exact inside_refused rfl

theorem inside_timestamp : Inside (timestamp ms) := by
  unfold timestamp
  split
  · split
    · exact inside_ok _
    · exact inside_refused rfl
  · exact inside_refused rfl

theorem inside_revisionData : Inside (revisionData ms) := by
  unfold revisionData
  split
  · exact inside_ok _
  · exact inside_texts
  · exact inside_refused rfl

theorem inside_modifiedFiles : Inside (modifiedFiles ms) := by
  unfold modifiedFiles
  split
  · exact inside_ok _
  · exact inside_mapM (fun _ => inside_modifiedFile) _
  · exact inside_refused rfl

theorem inside_revision : Inside (revision j) :=
  inside_named.bind fun _ => inside_required.bind fun _ => inside_timestamp.bind fun _ =>
    inside_text?.bind fun _ => inside_text?.bind fun _ => inside_revisionData.bind fun _ =>
    inside_modifiedFiles.bind fun _ => inside_ok _

theorem inside_materialData : Inside (materialData ms) := by
  unfold materialData
  split
  · exact inside_ok _
  · exact inside_texts.map _

theorem inside_revisions : Inside (revisions ms) := by
  unfold revisions
  split
  · exact inside_ok _
  · exact (inside_mapM (fun _ => inside_revision) _).map _
  · exact inside_refused rfl

end Inside

/-- The text says something but is not a document. -/
inductive HasFault : Option String → Prop
  | text {s : String} (visible : Text.isBlank s = false) (h : ¬IsDocument s) : HasFault (some s)

section Bodies

variable {α : Type} {payload : Payload} {body : Option String} {s w x : String} {e : Error}
  {d : Document}

theorem exists_document_reader {f : Json → Except Error α} (inside : ∀ j, Inside (f j)) :
    ∃ g : Option Json → Except Error α,
      (∀ body, (document payload body >>= f) = document? payload body >>= g) ∧
        ∀ j, Inside (g (some j)) := by
  refine ⟨fun found => found.elim (.error { payload, rule := .bodyPresent }) f, fun body => ?_,
    inside⟩
  rw [document]
  cases document? payload body with
  | error e => rfl
  | ok found => cases found <;> rfl

theorem Document.exists_reader (d : Document) :
    ∃ f : Option Json → Except Error d.Content,
      (∀ body, d.read body = document? d.payload body >>= f) ∧ ∀ j, Inside (f (some j)) := by
  cases d with
  | configuration => exact exists_document_reader fun _ => inside_configurationOf
  | view =>
    exact exists_document_reader fun _ => inside_named.bind fun _ => inside_required.bind fun _ =>
      inside_required.bind fun _ => inside_ok _
  | validation =>
    exact ⟨_, fun _ => rfl, fun _ => inside_items.bind fun _ =>
      (inside_mapM (fun _ => inside_validationError) _).bind fun _ => inside_ok _⟩
  | checkResult =>
    exact exists_document_reader fun _ => inside_named.bind fun _ => inside_status.bind fun _ =>
      inside_messages.bind fun _ => inside_ok _
  | latestRevision =>
    refine exists_document_reader fun _ => inside_named.bind fun ms => ?_
    split
    · exact inside_refused rfl
    · exact inside_revision.bind fun _ => inside_materialData.bind fun _ => inside_ok _
  | revisionsSince =>
    exact ⟨_, fun _ => rfl, fun _ => inside_named.bind fun _ => inside_revisions.bind fun _ =>
      inside_materialData.bind fun _ => inside_ok _⟩
  | shouldUpdate =>
    exact exists_document_reader fun _ => inside_items.bind fun _ =>
      inside_mapM (fun _ => inside_configurationOf) _

theorem Document.read_of_saysNothing (h : SaysNothing body) : d.read body = d.read none := by
  obtain ⟨f, read, -⟩ := d.exists_reader
  rw [read, read, document?_eq_ok_none_iff.2 h, document?_eq_ok_none_iff.2 .absent]

theorem Document.read_of_fault (visible : Text.isBlank s = false) {f : Json.Fault}
    (h : Json.parse s = .error f) :
    d.read (some s) = .error { payload := d.payload, rule := .validJson f.message } := by
  obtain ⟨g, read, -⟩ := d.exists_reader
  rw [read, document?_of_fault visible h, Except.error_bind]

theorem Document.read_eq_error (h : d.read body = .error e) :
    SaysNothing body ∧ d.read none = .error e ∨
      HasFault body ∧ (∃ detail, e = { payload := d.payload, rule := .validJson detail }) ∨
      ¬SaysNothing body ∧ e.Inside := by
  obtain ⟨f, read, inside⟩ := d.exists_reader
  cases found : document? d.payload body with
  | error e' =>
    rw [read, found, Except.error_bind] at h
    obtain ⟨s, fault, rfl, visible, refused, rfl⟩ := document?_eq_error_iff.1 found
    cases h
    have broken : ¬IsDocument s := by simp [isDocument_iff, refused]
    exact .inr (.inl ⟨.text visible broken, _, rfl⟩)
  | ok found' =>
    cases found' with
    | none =>
      have nothing := document?_eq_ok_none_iff.1 found
      exact .inl ⟨nothing, d.read_of_saysNothing nothing ▸ h⟩
    | some j =>
      rw [read, found, Except.ok_bind] at h
      have something : ¬SaysNothing body := by
        intro nothing
        cases (document?_eq_ok_none_iff.2 nothing).symm.trans found
      exact .inr (.inr ⟨something, inside j e h⟩)

theorem HasFault.not_saysNothing (h : HasFault body) : ¬SaysNothing body := by
  obtain ⟨visible, broken⟩ := h
  obtain ⟨f, refused⟩ := exists_fault broken
  intro nothing
  have empty : document? .view (some _) = .ok none := document?_eq_ok_none_iff.2 nothing
  cases (document?_of_fault visible refused).symm.trans empty

theorem Document.read_none (h : d ∉ [.validation, .revisionsSince]) :
    d.read none = .error { payload := d.payload, rule := .bodyPresent } := by
  cases d <;> first | rfl | simp at h

theorem Document.rule_of_read_none (h : d.read none = .error e) : e.rule = .bodyPresent := by
  by_cases lenient : d ∈ [.validation, .revisionsSince]
  · simp only [List.mem_cons, List.not_mem_nil, or_false] at lenient
    obtain rfl | rfl := lenient <;> cases h
  · rw [read_none lenient] at h
    cases h
    rfl

theorem Document.bodyPresent_iff (h : d.read body = .error e) :
    e.rule = .bodyPresent ↔ SaysNothing body := by
  obtain ⟨nothing, refused⟩ | ⟨fault, detail, rfl⟩ | ⟨something, inside⟩ := read_eq_error h
  · exact iff_of_true (rule_of_read_none refused) nothing
  · exact iff_of_false nofun fault.not_saysNothing
  · exact iff_of_false inside.1 something

theorem Document.validJson_iff (h : d.read body = .error e) :
    (∃ detail, e.rule = .validJson detail) ↔ HasFault body := by
  constructor
  · rintro ⟨detail, broken⟩
    obtain ⟨-, refused⟩ | ⟨fault, -⟩ | ⟨-, inside⟩ := read_eq_error h
    · cases (rule_of_read_none refused).symm.trans broken
    · exact fault
    · exact absurd broken (inside.2 detail)
  · rintro ⟨visible, broken⟩
    obtain ⟨f, refused⟩ := exists_fault broken
    rw [read_of_fault visible refused] at h
    cases h
    exact ⟨f.message, rfl⟩

theorem HasFault.exists_detail (h : HasFault body) :
    ∃ detail, ∀ d : Document,
      d.read body = .error { payload := d.payload, rule := .validJson detail } := by
  obtain ⟨visible, broken⟩ := h
  obtain ⟨f, refused⟩ := exists_fault broken
  exact ⟨f.message, fun d => d.read_of_fault visible refused⟩

theorem capabilities_of_saysNothing (h : SaysNothing body) : capabilities body = .ok .empty :=
  capabilities_eq_ok_iff.2 (.inl ⟨h, rfl⟩)

theorem inside_capabilities : Inside (capabilities body) := by
  intro e refused
  obtain ⟨detail, rfl⟩ := capabilities_error refused
  exact Error.inside_iff.2 rfl

end Bodies

section Surroundings

variable {w s x : String} (hw : Spaces w.toList) (hx : Spaces x.toList)

include hw hx

theorem saysNothing_surrounded_iff : SaysNothing (some (w ++ s ++ x)) ↔ SaysNothing (some s) := by
  simp only [← vacant_iff_saysNothing, Vacant, Option.some.injEq, forall_eq',
    isBlank_surrounded hw hx, parse_surrounded_iff hw hx]

theorem Document.read_surrounded_iff {d : Document} {a : d.Content} :
    d.read (some (w ++ s ++ x)) = .ok a ↔ d.read (some s) = .ok a := by
  obtain ⟨f, read, -⟩ := d.exists_reader
  simp only [read, Except.bind_eq_ok_iff, document?_surrounded_iff hw hx]

theorem capabilities_surrounded_iff {c : Capabilities} :
    capabilities (some (w ++ s ++ x)) = .ok c ↔ capabilities (some s) = .ok c := by
  simp only [capabilities_eq_ok_iff, saysNothing_surrounded_iff hw hx, Option.some.injEq,
    exists_and_left, exists_eq_left', wraps_surrounded_iff hw hx]

end Surroundings

/-- A body that says nothing is read like an absent one. A fault in its text comes before all else,
with one detail for all documents. No other complaint is mistaken for these two. Spaces around a
text change nothing that is read. -/
theorem bodies_classified (body : Option String) :
    (SaysNothing body → capabilities body = capabilities none ∧
        ∀ d : Document, d.read body = d.read none) ∧
      (capabilities none = .ok .empty ∧ validation none = .ok .success ∧
        revisionsSince none = .ok {} ∧ ∀ d : Document, d ∉ [.validation, .revisionsSince] →
          d.read none = .error { payload := d.payload, rule := .bodyPresent }) ∧
      (HasFault body → ∃ detail, ∀ d : Document,
        d.read body = .error { payload := d.payload, rule := .validJson detail }) ∧
      (∀ (d : Document) (e : Error), d.read body = .error e →
        (e.rule = .bodyPresent ↔ SaysNothing body) ∧
          ((∃ detail, e.rule = .validJson detail) ↔ HasFault body)) ∧
      Inside (capabilities body) ∧
      ∀ s w x : String, body = some s → Spaces w.toList → Spaces x.toList →
        (∀ (d : Document) (a : d.Content),
          d.read (some (w ++ s ++ x)) = .ok a ↔ d.read body = .ok a) ∧
        ∀ c, capabilities (some (w ++ s ++ x)) = .ok c ↔ capabilities body = .ok c := by
  refine ⟨?_, ⟨rfl, rfl, rfl, fun d => d.read_none⟩, HasFault.exists_detail, ?_,
    inside_capabilities, ?_⟩
  · intro nothing
    refine ⟨?_, fun d => d.read_of_saysNothing nothing⟩
    rw [capabilities_of_saysNothing nothing, capabilities_of_saysNothing .absent]
  · intro d e refused
    exact ⟨d.bodyPresent_iff refused, d.validJson_iff refused⟩
  · rintro s w x rfl hw hx
    exact ⟨fun d a => d.read_surrounded_iff hw hx, fun c => capabilities_surrounded_iff hw hx⟩

theorem bodies_classified_broken_off :
    let null := " null\n"
    let broken := "[\x7b\"key\":\"a\",\"key\":\"b\"\x7d,"
    let unnamed : Error := { payload := .validation, rule := .required, field := "message" }
    let named := "[\x7b\"message\":\"m\"\x7d]"
    (SaysNothing (some null) ∧
        view (some null) = .error { payload := .view, rule := .bodyPresent }) ∧
      (HasFault (some broken) ∧ ∃ detail,
        validation (some broken) = .error { payload := .validation, rule := .validJson detail }) ∧
      (validation (some "[\x7b\x7d]") = .error unnamed ∧ ¬SaysNothing (some "[\x7b\x7d]") ∧
        ¬HasFault (some "[\x7b\x7d]")) ∧
      validation (some ("\t" ++ named ++ "\n")) = .ok ⟨[{ key := "", message := "m" }]⟩ := by
  intro null broken unnamed named
  have nothing : SaysNothing (some null) := vacant_iff_saysNothing.1 fun s h => by
    cases h
    exact .inr (by decide +kernel)
  have fault : HasFault (some broken) := by
    refine .text (by decide +kernel) fun document => ?_
    obtain ⟨j, parsed⟩ := isDocument_iff.1 document
    have refused : (Json.parse broken).isOk = false := by decide +kernel
    rw [parsed] at refused
    cases refused
  have missing : validation (some "[\x7b\x7d]") = .error unnamed := by decide +kernel
  have found : validation (some named) = .ok ⟨[{ key := "", message := "m" }]⟩ := by decide +kernel
  refine ⟨⟨nothing, ?_⟩, ⟨fault, ?_⟩, ⟨missing, ?_, ?_⟩, ?_⟩
  · obtain ⟨alike, ⟨-, -, -, empty⟩, -⟩ := bodies_classified (some null)
    exact ((alike nothing).2 .view).trans (empty .view (by decide))
  · obtain ⟨detail, refused⟩ := (bodies_classified (some broken)).2.2.1 fault
    exact ⟨detail, refused .validation⟩
  · exact fun h => nomatch ((bodies_classified _).2.2.2.1 .validation unnamed missing).1.2 h
  · exact fun h => nomatch ((bodies_classified _).2.2.2.1 .validation unnamed missing).2.2 h
  · have spaced := (bodies_classified (some named)).2.2.2.2.2 named "\t" "\n" rfl
      (by simp [Spaces, Json.isSpace]) (by simp [Spaces, Json.isSpace])
    exact (spaced.1 .validation _).2 found

end ScmPlugins.Response
