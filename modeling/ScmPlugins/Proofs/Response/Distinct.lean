import ScmPlugins.Proofs.Json.Passing
import ScmPlugins.Proofs.Response.Layout
import ScmPlugins.Proofs.Response.Polls
import ScmPlugins.Response.Capabilities

namespace ScmPlugins.Response

open Json

namespace Layout

def Distinct (layout : Layout) (j : Json) : Prop := ∀ ms, layout.Reads j ms → ms.names.Nodup

section Intro

variable {layout : Layout} {ms : Members} {js : List Json}

theorem distinct_whole (j : Json) : whole.Distinct j := nofun

theorem distinct_null : layout.Distinct .null := nofun

theorem distinct_list (items : ∀ j ∈ js, layout.Distinct j) :
    (list layout).Distinct (.list js) := by
  intro ns reads
  cases reads with
  | item mem reads => exact items _ mem ns reads

theorem distinct_map (distinct : ms.names.Nodup) (values : ∀ m ∈ ms, layout.Distinct m.2) :
    (map layout).Distinct (.map ms) := by
  intro ns reads
  cases reads with
  | map => exact distinct
  | value mem reads => exact values _ mem ns reads

theorem distinct_object {nulls : Nulls} {fields : List (String × Layout)}
    (distinct : ms.names.Nodup)
    (values : ∀ f ∈ fields, ∀ j, (f.1, j) ∈ ms → f.2.Distinct j) :
    (object nulls fields).Distinct (.map ms) := by
  intro ns reads
  cases reads with
  | object => exact distinct
  | @field _ _ _ name layout j _ known mem reads =>
    obtain ⟨front, rest, rfl, -⟩ := List.lookup_eq_some_iff.1 known
    exact values (name, layout) (by simp) j mem ns reads

theorem distinct_flat {nulls : Nulls} {fields : List (String × Layout)}
    (distinct : ms.names.Nodup) (flat : ∀ f ∈ fields, f.2 = .whole) :
    (object nulls fields).Distinct (.map ms) := by
  refine distinct_object distinct fun f hf j _ => ?_
  rw [flat f hf]
  exact distinct_whole j

end Intro

theorem distinct_texts {es : List (String × String)} (h : (es.map (·.1)).Nodup) :
    texts.Distinct (Request.textsJson es) := by
  refine distinct_map (by simpa [Members.names, Function.comp_def] using h) fun m _ => ?_
  exact distinct_whole m.2

theorem distinct_configuration {j : Json} (h : IsDeclaration j) : configuration.Distinct j := by
  obtain ⟨ms, rfl, distinct, entries⟩ := h
  refine distinct_map distinct fun m hm => ?_
  obtain ⟨os, found, wellFormed⟩ := (entries m hm).options
  rw [found]
  exact distinct_flat wellFormed.distinct (List.forall_mem_map.2 fun _ _ => rfl)

theorem distinct_file {j : Json} {f : ModifiedFile} (h : IsFile j f) : file.Distinct j := by
  obtain ⟨ms, rfl, distinct, -⟩ := h
  exact distinct_flat distinct (by simp)

section Poll

variable {ms : Members} {name : String} {j : Json}

theorem distinct_of_lacks (lacks : ms.Lacks name) {layout : Layout} (mem : (name, j) ∈ ms) :
    layout.Distinct j := by
  rw [lacks j mem]
  exact distinct_null

theorem distinct_of_mem {layout : Layout} {k : Json} (distinct : ms.names.Nodup)
    (written : (name, k) ∈ ms) (h : layout.Distinct k) (mem : (name, j) ∈ ms) :
    layout.Distinct j := by
  have same : some k = some j := by
    rw [← (Members.get?_eq_some_iff distinct).2 written, (Members.get?_eq_some_iff distinct).2 mem]
  rwa [Option.some.inj same] at h

theorem distinct_keeps {d : Option MaterialData} (distinct : ms.names.Nodup)
    (keeps : ms.Keeps name d) (mem : (name, j) ∈ ms) : texts.Distinct j := by
  cases d with
  | none => exact distinct_of_lacks keeps mem
  | some d => exact distinct_of_mem distinct keeps (distinct_texts d.nodup) mem

theorem distinct_revision {r : Revision} (h : IsRevision j r) : revision.Distinct j := by
  obtain ⟨ms, rfl, reports⟩ := h
  have distinct := reports.distinct
  refine distinct_object distinct ?_
  simp only [List.forall_mem_cons, List.not_mem_nil, false_imp_iff, implies_true, and_true]
  refine ⟨fun j _ => distinct_whole j, fun j _ => distinct_whole j, fun j _ => distinct_whole j,
    fun j _ => distinct_whole j, fun j mem => ?_, fun j mem => ?_⟩
  · obtain keeps | ⟨lacks, -⟩ := reports.data
    · exact distinct_keeps distinct keeps mem
    · exact distinct_of_lacks lacks mem
  · obtain ⟨js, written, files⟩ | ⟨lacks, -⟩ := reports.files
    · refine distinct_of_mem distinct written (distinct_list ?_) mem
      exact forall_mem_of_forall₂ files.flip fun _ _ isFile => distinct_file isFile
    · exact distinct_of_lacks lacks mem

theorem distinct_latestRevision {p : PollResult} (h : ReportsLatest ms p) :
    latestRevision.Distinct (.map ms) := by
  refine distinct_object h.distinct ?_
  simp only [List.forall_mem_cons, List.not_mem_nil, false_imp_iff, implies_true, and_true]
  refine ⟨fun j mem => ?_, fun j mem => distinct_keeps h.distinct h.data mem⟩
  obtain ⟨k, r, written, isRevision, -⟩ := h.latest
  exact distinct_of_mem h.distinct written (distinct_revision isRevision) mem

theorem distinct_revisionsSince {p : PollResult} (h : ReportsSince ms p) :
    revisionsSince.Distinct (.map ms) := by
  refine distinct_object h.distinct ?_
  simp only [List.forall_mem_cons, List.not_mem_nil, false_imp_iff, implies_true, and_true]
  refine ⟨fun j mem => ?_, fun j mem => distinct_keeps h.distinct h.data mem⟩
  obtain ⟨js, rs, written, revisions, -⟩ | ⟨lacks, -⟩ := h.revisions
  · refine distinct_of_mem h.distinct written (distinct_list ?_) mem
    exact forall_mem_of_forall₂ revisions.flip fun _ _ isRevision => distinct_revision isRevision
  · exact distinct_of_lacks lacks mem

end Poll

end Layout

section Trees

variable {s : String} {j : Json} {ms : Members}

theorem items_eq_ok_iff {payload : Payload} {expected : Shape} {js : List Json} :
    items payload expected j = .ok js ↔ j = .list js := by
  cases j <;> simp [items, misshapen]

theorem nodup_of_named_bind {α : Type} {payload : Payload} {expected : Shape}
    {f : Members → Except Error α} {a : α} (h : (named payload expected j >>= f) = .ok a) :
    ∃ ms : Members, j = .map ms ∧ ms.names.Nodup := by
  obtain ⟨ms, members, -⟩ := Except.bind_eq_ok_iff.1 h
  exact ⟨ms, named_eq_ok_iff.1 members⟩

section Accepted

variable (parsed : Json.parse s = .ok j) (null : j ≠ .null)
include parsed null

theorem distinct_of_configuration {c : Configuration} (h : configuration (some s) = .ok c) :
    Layout.configuration.Distinct j := by
  rw [configuration, document_of_parse parsed null, Except.ok_bind] at h
  exact Layout.distinct_configuration (isDeclaration_of_configurationOf h)

theorem distinct_of_view {v : View} (h : view (some s) = .ok v) : Layout.view.Distinct j := by
  rw [view, document_of_parse parsed null, Except.ok_bind] at h
  obtain ⟨ms, rfl, distinct⟩ := nodup_of_named_bind h
  exact Layout.distinct_flat distinct (by simp)

theorem distinct_of_validation {v : Validation} (h : validation (some s) = .ok v) :
    (Layout.list .complaint).Distinct j := by
  rw [validation, document?_of_parse parsed null, Except.ok_bind] at h
  simp only [Except.bind_eq_ok_iff, Except.mapM_eq_ok_iff, items_eq_ok_iff] at h
  obtain ⟨js, rfl, es, complaints, -⟩ := h
  refine Layout.distinct_list (forall_mem_of_forall₂ complaints.flip fun _ _ complaint => ?_)
  obtain ⟨ms, rfl, distinct⟩ := nodup_of_named_bind complaint
  exact Layout.distinct_flat distinct (by simp)

theorem distinct_of_checkResult {c : CheckResult} (h : checkResult (some s) = .ok c) :
    Layout.checkResult.Distinct j := by
  rw [checkResult, document_of_parse parsed null, Except.ok_bind] at h
  obtain ⟨ms, rfl, distinct⟩ := nodup_of_named_bind h
  exact Layout.distinct_flat distinct (by simp)

theorem distinct_of_latestRevision {p : PollResult} (h : latestRevision (some s) = .ok p) :
    Layout.latestRevision.Distinct j := by
  obtain ⟨_, ms, ⟨⟩, parsed', reports⟩ := latestRevision_eq_ok_iff.1 h
  obtain rfl : Json.map ms = j := by simpa [parsed'] using parsed
  exact Layout.distinct_latestRevision reports

theorem distinct_of_revisionsSince {p : PollResult} (h : revisionsSince (some s) = .ok p) :
    Layout.revisionsSince.Distinct j := by
  obtain ⟨vacant, -⟩ | ⟨_, ms, ⟨⟩, parsed', reports⟩ := revisionsSince_eq_ok_iff.1 h
  · have absent : document? .revisionsSince (some s) = .ok none := document?_eq_none_iff.2 vacant
    rw [document?_of_parse parsed null] at absent
    cases absent
  · obtain rfl : Json.map ms = j := by simpa [parsed'] using parsed
    exact Layout.distinct_revisionsSince reports

theorem distinct_of_shouldUpdate {cs : List Configuration} (h : shouldUpdate (some s) = .ok cs) :
    (Layout.list .configuration).Distinct j := by
  rw [shouldUpdate, document_of_parse parsed null, Except.ok_bind] at h
  simp only [Except.bind_eq_ok_iff, Except.mapM_eq_ok_iff, items_eq_ok_iff] at h
  obtain ⟨js, rfl, configurations⟩ := h
  refine Layout.distinct_list (forall_mem_of_forall₂ configurations.flip fun _ _ read => ?_)
  exact Layout.distinct_configuration (isDeclaration_of_configurationOf read)

end Accepted

theorem distinct_of_read (d : Document) {a : d.Content} (h : d.read (some s) = .ok a)
    (parsed : Json.parse s = .ok j) : d.layout.Distinct j := by
  by_cases null : j = .null
  · rw [null]
    exact Layout.distinct_null
  cases d with
  | configuration => exact distinct_of_configuration parsed null h
  | view => exact distinct_of_view parsed null h
  | validation => exact distinct_of_validation parsed null h
  | checkResult => exact distinct_of_checkResult parsed null h
  | latestRevision => exact distinct_of_latestRevision parsed null h
  | revisionsSince => exact distinct_of_revisionsSince parsed null h
  | shouldUpdate => exact distinct_of_shouldUpdate parsed null h

theorem error_of_repeated (d : Document)
    (byName : d ∈ [.view, .checkResult, .latestRevision, .revisionsSince])
    (parsed : Json.parse s = .ok (.map ms)) (h : ¬ms.names.Nodup) :
    ∃ (front : Members) (name : String) (j : Json) (rest : Members),
      ms = front ++ (name, j) :: rest ∧ front.names.Nodup ∧ name ∈ front.names ∧
        d.read (some s) = .error { payload := d.payload, rule := .declaredOnce, key := name } := by
  obtain ⟨front, name, j, rest, rfl, first, again⟩ := Members.exists_repeated h
  refine ⟨front, name, j, rest, rfl, first, again, ?_⟩
  have refused {payload : Payload} : named payload .map (.map (front ++ (name, j) :: rest)) =
      .error { payload, rule := .declaredOnce, key := name } := named_of_repeated first again
  simp only [List.mem_cons, List.not_mem_nil, or_false] at byName
  obtain rfl | rfl | rfl | rfl := byName
  · rw [Document.read, view, document_of_parse parsed nofun, Except.ok_bind, refused]
    rfl
  · rw [Document.read, checkResult, document_of_parse parsed nofun, Except.ok_bind, refused]
    rfl
  · rw [Document.read, latestRevision, document_of_parse parsed nofun, Except.ok_bind, refused]
    rfl
  · rw [Document.read, revisionsSince, document?_of_parse parsed nofun, Except.ok_bind]
    simp only [refused]
    rfl

end Trees

section Capabilities

variable {s v : List Char}

inductive WebhooksAt (s v : List Char) : Prop
  | member {ms : List (String × List Char)} (found : writtenMembers? s = some ms)
      (mem : ("supported_webhooks", v) ∈ ms) : WebhooksAt s v
  | item {vs : List (List Char)} (found : writtenItems? s = some (v :: vs)) : WebhooksAt s v

theorem WebhooksAt.opened (h : WebhooksAt s v) :
    ∃ b t, skipSpace s = b :: t ∧ (b = '[' ∨ b = '\x7b') := by
  cases h with
  | member found _ =>
    obtain ⟨t, opened⟩ := opened_of_writtenMembers? found
    exact ⟨_, t, opened, .inr rfl⟩
  | item found =>
    obtain ⟨t, opened⟩ := opened_of_writtenItems? found
    exact ⟨_, t, opened, .inl rfl⟩

/-- What is read as a record of capabilities, with the names that are known there if it is an
object. -/
inductive CapabilityRecord (s : List Char) : (known : List String) → (record : List Char) → Prop
  | body : CapabilityRecord s ["supported_webhooks"] s
  | webhook {v w : List Char} {ws : List (List Char)} (webhooks : WebhooksAt s v)
      (listed : writtenItems? v = some ws) (mem : w ∈ ws) :
      CapabilityRecord s ["provider", "events"] w

theorem webhookRecord_passes : ∀ f ∈ webhookRecord.fields, f.read.Passes := by
  refine List.forall_mem_cons.2 ⟨?_, List.forall_mem_cons.2 ⟨?_, by simp⟩⟩
  · exact Reader.passes_map Reader.passes_text _
  · exact Reader.passes_map (Reader.passes_listOf Reader.passes_text) _

theorem capabilitiesRecord_passes : ∀ f ∈ capabilitiesRecord.fields, f.read.Passes := by
  refine List.forall_mem_cons.2 ⟨?_, by simp⟩
  exact Reader.passes_map (Reader.passes_listOf (Record.passes_reader webhookRecord_passes)) _

theorem webhooks_read {c : Capabilities} {r : List Char}
    (h : capabilitiesRecord.run s = .ok (c, r)) (webhooks : WebhooksAt s v) :
    ∃ ws t, (Reader.listOf webhookRecord.reader).run v = .ok (ws, t) := by
  have read : ∃ put t, (capabilitiesRecord.fields.head (by simp [capabilitiesRecord])).read.run v =
      .ok (put, t) := by
    cases webhooks with
    | member found mem =>
      obtain ⟨t, opened⟩ := opened_of_writtenMembers? found
      obtain ⟨ms, found', -, reads⟩ := Record.members_of_run capabilitiesRecord_passes h opened
      obtain rfl := Option.some.inj (found.symm.trans found')
      exact reads _ mem _ rfl
    | item found =>
      obtain ⟨t, opened⟩ := opened_of_writtenItems? found
      obtain ⟨vs, found', reads⟩ := Record.items_of_run capabilitiesRecord_passes h opened
      obtain rfl := Option.some.inj (found.symm.trans found')
      exact reads _ _ (by simp [capabilitiesRecord])
  obtain ⟨put, t, read⟩ := read
  obtain ⟨ws, read, -⟩ := mapResult_eq_ok read
  exact ⟨ws, t, read⟩

theorem webhooks_listed {c : Capabilities} {r : List Char}
    (h : capabilitiesRecord.run s = .ok (c, r)) (webhooks : WebhooksAt s v) :
    ∃ ws, writtenItems? v = some ws ∧ ∀ w ∈ ws, ∃ a t, webhookRecord.run w = .ok (a, t) := by
  obtain ⟨ws, t, read⟩ := webhooks_read h webhooks
  exact Reader.items_of_listOf (Record.passes_reader webhookRecord_passes) read

theorem known_names_once {c : Capabilities} {r t : List Char}
    (h : capabilitiesRecord.run s = .ok (c, r)) {known : List String}
    (record : CapabilityRecord s known v) (opened : skipSpace v = '\x7b' :: t) :
    ∃ ms, writtenMembers? v = some ms ∧ ∀ name ∈ known, (ms.map (·.1)).count name ≤ 1 := by
  cases record with
  | body =>
    obtain ⟨ms, found, once, -⟩ := Record.members_of_run capabilitiesRecord_passes h opened
    exact ⟨ms, found, by simpa [capabilitiesRecord] using once⟩
  | webhook webhooks listed mem =>
    obtain ⟨ws, listed', reads⟩ := webhooks_listed h webhooks
    obtain rfl := Option.some.inj (listed.symm.trans listed')
    obtain ⟨w, r, read⟩ := reads _ mem
    obtain ⟨ms, found, once, -⟩ := Record.members_of_run webhookRecord_passes read opened
    exact ⟨ms, found, by simpa [webhookRecord] using once⟩

theorem run_of_capabilities {s : String} {c : Capabilities} (h : capabilities (some s) = .ok c)
    {b : Char} {u : List Char} (first : skipSpace s.toList = b :: u)
    (opens : b = '[' ∨ b = '\x7b') : ∃ a r, capabilitiesRecord.run s.toList = .ok (a, r) := by
  have mem : b ∈ s.toList := (List.dropWhile_sublist _).subset (first ▸ List.mem_cons_self)
  have blank : Text.isBlankChar b = false := by
    obtain rfl | rfl := opens <;> decide
  have present : content (some s) = some s := by simp [content, not_isBlank_of_mem mem blank]
  simp only [capabilities, present] at h
  split at h
  · rename_i o accepted
    unfold Reader.readAll at accepted
    split at accepted
    · cases accepted
    · rename_i a r read
      have null : b ≠ 'n' := by
        obtain rfl | rfl := opens <;> decide
      obtain ⟨a, read⟩ := Reader.run_of_optional read first null
      have same := Record.run_skipSpace capabilitiesRecord s.toList
      exact ⟨a, r, same.symm.trans read⟩
  · cases h

section Accepted

variable {s : String} {c : Capabilities} (h : capabilities (some s) = .ok c) {v : List Char}
include h

theorem listed_of_accepted (webhooks : WebhooksAt s.toList v) :
    ∃ ws, writtenItems? v = some ws := by
  obtain ⟨b, t, first, opens⟩ := webhooks.opened
  obtain ⟨a, r, read⟩ := run_of_capabilities h first opens
  obtain ⟨ws, listed, -⟩ := webhooks_listed read webhooks
  exact ⟨ws, listed⟩

theorem known_names_once_of_accepted {known : List String}
    (record : CapabilityRecord s.toList known v) {t : List Char}
    (opened : skipSpace v = '\x7b' :: t) :
    ∃ ms, writtenMembers? v = some ms ∧ ∀ name ∈ known, (ms.map (·.1)).count name ≤ 1 := by
  obtain ⟨b, u, first, opens⟩ : ∃ b u, skipSpace s.toList = b :: u ∧ (b = '[' ∨ b = '\x7b') := by
    cases record with
    | body => exact ⟨_, _, opened, .inr rfl⟩
    | webhook webhooks _ _ => exact webhooks.opened
  obtain ⟨a, r, read⟩ := run_of_capabilities h first opens
  exact known_names_once read record opened

end Accepted

end Capabilities

/-- In an answer that is accepted no object that is read repeats a name, and no object that is read
in capabilities one that is known there. Where a whole answer is read by name it is refused for the
first name that is met again, whatever else is wrong with it. -/
theorem no_name_read_twice :
    (∀ (d : Document) (s : String) (a : d.Content) (j : Json), d.read (some s) = .ok a →
      Json.parse s = .ok j → ∀ ms, d.layout.Reads j ms → ms.names.Nodup) ∧
    (∀ (s : String) (c : Capabilities), capabilities (some s) = .ok c →
      (∀ v, WebhooksAt s.toList v → ∃ ws, writtenItems? v = some ws) ∧
        ∀ known v t, CapabilityRecord s.toList known v → skipSpace v = '\x7b' :: t →
          ∃ ms, writtenMembers? v = some ms ∧
            ∀ name ∈ known, (ms.map (·.1)).count name ≤ 1) ∧
    ∀ d ∈ [Document.view, .checkResult, .latestRevision, .revisionsSince], ∀ (s : String)
      (ms : Members), Json.parse s = .ok (.map ms) → ¬ms.names.Nodup →
      ∃ (front : Members) (name : String) (j : Json) (rest : Members),
        ms = front ++ (name, j) :: rest ∧ front.names.Nodup ∧ name ∈ front.names ∧
          d.read (some s) =
            .error { payload := d.payload, rule := .declaredOnce, key := name } := by
  refine ⟨?_, ?_, ?_⟩
  · intro d s a j accepted parsed
    exact distinct_of_read d accepted parsed
  · intro s c accepted
    refine ⟨fun v webhooks => listed_of_accepted accepted webhooks, ?_⟩
    intro known v t record opened
    exact known_names_once_of_accepted accepted record opened
  · intro d byName s ms parsed repeated
    exact error_of_repeated d byName parsed repeated

theorem no_name_read_twice_nested :
    let configured := "\x7b\"url\":\x7b\"value\":\"u\",\"note\":1\x7d\x7d"
    let options : Members := [("value", .str "u"), ("note", .int 1)]
    let webhook := "\x7b\"provider\":\"p\",\"y\":\"\\ud800\",\"y\":1\x7d]\x7d"
    let declared := "\x7b\"supported_webhooks\":[" ++ webhook
    let shown := "\x7b\"template\":\"\",\"x\":1,\"x\":2\x7d"
    configuration (some configured) = .ok (.ofList [("url", { value := "u" })]) ∧
      options.names.Nodup ∧
      CapabilityRecord declared.toList ["provider", "events"] webhook.toList ∧
      (∃ ms, writtenMembers? webhook.toList = some ms ∧ ms.map (·.1) = ["provider", "y", "y"] ∧
        ∀ name ∈ ["provider", "events"], (ms.map (·.1)).count name ≤ 1) ∧
      view (some shown) = .error { payload := .view, rule := .declaredOnce, key := "x" } := by
  intro configured options webhook declared shown
  obtain ⟨trees, texts, repeated⟩ := no_name_read_twice
  have record : CapabilityRecord declared.toList ["provider", "events"] webhook.toList := by
    have body : writtenMembers? declared.toList =
        some [("supported_webhooks", ("[" ++ webhook).toList)] := by decide +kernel
    have listed : writtenItems? ("[" ++ webhook).toList = some [webhook.toList] := by decide +kernel
    exact .webhook (.member body (by simp)) listed (by simp)
  have read : configuration (some configured) = .ok (.ofList [("url", { value := "u" })]) := by
    decide +kernel
  refine ⟨read, ?_, record, ?_, ?_⟩
  · exact trees .configuration configured _ (.map [("url", .map options)]) read (by decide +kernel)
      options (.value List.mem_cons_self .object)
  · obtain ⟨-, once⟩ := texts declared ⟨[⟨"p", []⟩]⟩ (by decide +kernel)
    obtain ⟨ms, found, once⟩ := once _ _ webhook.toList.tail record (by decide +kernel)
    refine ⟨ms, found, ?_, once⟩
    have names : (writtenMembers? webhook.toList).map (·.map (·.1)) =
        some ["provider", "y", "y"] := by decide +kernel
    simpa [found] using names
  · obtain ⟨front, name, j, rest, split, distinct, again, refused⟩ := repeated .view (by decide)
      shown [("template", .str ""), ("x", .int 1), ("x", .int 2)] (by decide +kernel) (by decide)
    have same : name = "x" := by
      obtain _ | ⟨a, _ | ⟨b, _ | ⟨c, front⟩⟩⟩ := front <;> simp_all
    rw [same] at refused
    exact refused

end ScmPlugins.Response
