import ScmPlugins.Proofs.Response.Bodies
import ScmPlugins.Proofs.Time.Stamp
import ScmPlugins.Response.Poll

namespace ScmPlugins

/-- What is sure of every revision that a plugin reports: it has an id, a time in whole milliseconds
within the calendar, and paths for its files. -/
structure Revision.Regular (r : Revision) : Prop where
  id : Text.isBlank r.id = false
  millis : r.time = .ofMillis r.time.millis
  dated : r.time.utc?.isSome
  paths : ∀ f ∈ r.files, Text.isBlank f.path = false

theorem Revision.Regular.parse_timestamp {r : Revision} (h : r.Regular) :
    Stamp.parse (Request.timestamp r.time.utc) = some r.time := by
  rw [Request.parse_timestamp h.dated, ← h.millis]

def PollResult.reported (p : PollResult) : List Revision := p.latest.toList ++ p.revisions.getD []

namespace Response

open Request (textsJson)

def Members.Keeps (ms : Members) (name : String) : Option MaterialData → Prop
  | none => ms.Lacks name
  | some d => (name, textsJson d.entries) ∈ ms

def IsFile (j : Json) (f : ModifiedFile) : Prop :=
  ∃ ms : Members, j = .map ms ∧ ms.names.Nodup ∧ ("fileName", .str f.path) ∈ ms ∧
    Text.isBlank f.path = false ∧ ("action", .str f.action.name) ∈ ms

/-- The members of a revision. Data and files may be left out when there are none. -/
structure Reports (ms : Members) (r : Revision) : Prop where
  distinct : ms.names.Nodup
  id : ("revision", .str r.id) ∈ ms
  present : Text.isBlank r.id = false
  time : ∃ s, ("timestamp", .str s) ∈ ms ∧ Stamp.parse s = some r.time
  author : ms.Tells "user" r.author
  comment : ms.Tells "revisionComment" r.comment
  data : ms.Keeps "data" (some r.data) ∨ ms.Lacks "data" ∧ r.data = ∅
  files : (∃ js, ("modifiedFiles", .list js) ∈ ms ∧ List.Forall₂ IsFile js r.files) ∨
    ms.Lacks "modifiedFiles" ∧ r.files = []

def IsRevision (j : Json) (r : Revision) : Prop := ∃ ms, j = .map ms ∧ Reports ms r

structure ReportsLatest (ms : Members) (p : PollResult) : Prop where
  distinct : ms.names.Nodup
  latest : ∃ j r, ("revision", j) ∈ ms ∧ IsRevision j r ∧ p.latest = some r
  revisions : p.revisions = none
  data : ms.Keeps "scm-data" p.materialData

structure ReportsSince (ms : Members) (p : PollResult) : Prop where
  distinct : ms.names.Nodup
  latest : p.latest = none
  revisions : (∃ js rs, ("revisions", .list js) ∈ ms ∧ List.Forall₂ IsRevision js rs ∧
    p.revisions = some rs) ∨ ms.Lacks "revisions" ∧ p.revisions = none
  data : ms.Keeps "scm-data" p.materialData

section Reading

variable {ms : Members}

theorem Members.mem_iff_given? (distinct : ms.names.Nodup) {name : String} {j : Json}
    (null : j ≠ .null) : (name, j) ∈ ms ↔ ms.given? name = some j := by
  rw [given?_eq_some_iff distinct, and_iff_left null]

theorem named?_eq_some_iff {s : String} {a : FileAction} :
    FileAction.named? s = some a ↔ s = a.name := by
  constructor
  · intro h
    have same : a.name = s := by simpa using List.find?_some h
    exact same.symm
  · rintro rfl
    exact FileAction.named?_name a

theorem fileAction_eq_ok_iff (distinct : ms.names.Nodup) {a : FileAction} :
    fileAction ms = .ok a ↔ ("action", .str a.name) ∈ ms := by
  rw [Members.mem_iff_given? (j := .str a.name) distinct nofun, fileAction]
  cases ms.given? "action" with
  | none => simp
  | some j =>
    cases j with
    | str s =>
      simp only [Option.some.injEq, Json.str.injEq, ← named?_eq_some_iff]
      cases FileAction.named? s <;> simp
    | _ => simp

theorem modifiedFile_eq_ok_iff {j : Json} {f : ModifiedFile} :
    modifiedFile j = .ok f ↔ IsFile j f := by
  simp only [modifiedFile, Except.bind_eq_ok_iff, Except.pure_eq_ok_iff, named_eq_ok_iff]
  constructor
  · rintro ⟨ms, ⟨rfl, distinct⟩, path, read, action, act, rfl⟩
    obtain ⟨written, present⟩ := (Members.required_eq_ok_iff distinct).1 read
    exact ⟨ms, rfl, distinct, written, present, (fileAction_eq_ok_iff distinct).1 act⟩
  · rintro ⟨ms, rfl, distinct, written, present, act⟩
    exact ⟨ms, ⟨rfl, distinct⟩, f.path,
      (Members.required_eq_ok_iff distinct).2 ⟨written, present⟩, f.action,
      (fileAction_eq_ok_iff distinct).2 act, rfl⟩

theorem timestamp_eq_ok_iff (distinct : ms.names.Nodup) {t : Instant} :
    timestamp ms = .ok t ↔ ∃ s, ("timestamp", .str s) ∈ ms ∧ Stamp.parse s = some t := by
  have given (s : String) :
      ("timestamp", .str s) ∈ ms ↔ ms.given? "timestamp" = some (.str s) :=
    Members.mem_iff_given? distinct nofun
  simp only [given, timestamp]
  cases ms.given? "timestamp" with
  | none => simp
  | some j =>
    cases j with
    | str s => cases read : Stamp.parse s <;> simp [read]
    | _ => simp

theorem keeps_iff_given? (distinct : ms.names.Nodup) {name : String} {d : Option MaterialData} :
    ms.Keeps name d ↔ ms.given? name = d.map fun d => textsJson d.entries := by
  cases d with
  | none => exact (Members.given?_eq_none_iff distinct).symm
  | some d => exact Members.mem_iff_given? distinct nofun

theorem revisionData_eq_ok_iff (distinct : ms.names.Nodup) {d : MaterialData} :
    revisionData ms = .ok d ↔ ms.Keeps "data" (some d) ∨ ms.Lacks "data" ∧ d = ∅ := by
  rw [keeps_iff_given? distinct, ← Members.given?_eq_none_iff distinct, revisionData]
  cases ms.given? "data" with
  | none => simp [eq_comm]
  | some j =>
    cases j with
    | map data => simp [texts_eq_ok_iff]
    | _ => simp [textsJson]

theorem materialData_eq_ok_iff (distinct : ms.names.Nodup) {d : Option MaterialData} :
    materialData ms = .ok d ↔ ms.Keeps "scm-data" d := by
  rw [keeps_iff_given? distinct, materialData]
  cases ms.given? "scm-data" with
  | none => cases d <;> simp
  | some j => cases d <;> simp [Except.map_eq_ok_iff, texts_eq_ok_iff]

theorem modifiedFiles_eq_ok_iff (distinct : ms.names.Nodup) {fs : List ModifiedFile} :
    modifiedFiles ms = .ok fs ↔
      (∃ js, ("modifiedFiles", .list js) ∈ ms ∧ List.Forall₂ IsFile js fs) ∨
        ms.Lacks "modifiedFiles" ∧ fs = [] := by
  have given (js : List Json) :
      ("modifiedFiles", .list js) ∈ ms ↔ ms.given? "modifiedFiles" = some (.list js) :=
    Members.mem_iff_given? distinct nofun
  simp only [given, ← Members.given?_eq_none_iff distinct, modifiedFiles]
  cases ms.given? "modifiedFiles" with
  | none => simp [eq_comm]
  | some j => cases j <;> simp [Except.mapM_eq_ok_iff, modifiedFile_eq_ok_iff]

theorem revision_eq_ok_iff {j : Json} {r : Revision} : revision j = .ok r ↔ IsRevision j r := by
  simp only [revision, Except.bind_eq_ok_iff, Except.pure_eq_ok_iff, named_eq_ok_iff]
  constructor
  · rintro ⟨ms, ⟨rfl, distinct⟩, id, identified, time, timed, author, authored, comment, commented,
      data, kept, files, filed, rfl⟩
    obtain ⟨id, present⟩ := (Members.required_eq_ok_iff distinct).1 identified
    exact ⟨ms, rfl, {
      distinct, id, present
      time := (timestamp_eq_ok_iff distinct).1 timed
      author := (Members.text?_eq_ok_iff distinct).1 authored
      comment := (Members.text?_eq_ok_iff distinct).1 commented
      data := (revisionData_eq_ok_iff distinct).1 kept
      files := (modifiedFiles_eq_ok_iff distinct).1 filed }⟩
  · rintro ⟨ms, rfl, h⟩
    exact ⟨ms, ⟨rfl, h.distinct⟩,
      _, (Members.required_eq_ok_iff h.distinct).2 ⟨h.id, h.present⟩,
      _, (timestamp_eq_ok_iff h.distinct).2 h.time,
      _, (Members.text?_eq_ok_iff h.distinct).2 h.author,
      _, (Members.text?_eq_ok_iff h.distinct).2 h.comment,
      _, (revisionData_eq_ok_iff h.distinct).2 h.data,
      _, (modifiedFiles_eq_ok_iff h.distinct).2 h.files, rfl⟩

theorem revisions_eq_ok_iff (distinct : ms.names.Nodup) {found : Option (List Revision)} :
    revisions ms = .ok found ↔
      (∃ js rs, ("revisions", .list js) ∈ ms ∧ List.Forall₂ IsRevision js rs ∧ found = some rs) ∨
        ms.Lacks "revisions" ∧ found = none := by
  have given (js : List Json) :
      ("revisions", .list js) ∈ ms ↔ ms.given? "revisions" = some (.list js) :=
    Members.mem_iff_given? distinct nofun
  simp only [given, ← Members.given?_eq_none_iff distinct, revisions]
  cases ms.given? "revisions" with
  | none => simp [eq_comm]
  | some j =>
    cases j with
    | list js =>
      simp [Except.map_eq_ok_iff, Except.mapM_eq_ok_iff, revision_eq_ok_iff, @eq_comm _ found]
    | _ => simp

end Reading

section Bodies

variable {body : Option String} {p : PollResult}

theorem latestRevision_eq_ok_iff :
    latestRevision body = .ok p ↔
      ∃ s ms, body = some s ∧ Json.parse s = .ok (.map ms) ∧ ReportsLatest ms p := by
  simp only [latestRevision, Except.bind_eq_ok_iff, document_eq_ok_iff, named_eq_ok_iff]
  constructor
  · rintro ⟨_, ⟨s, rfl, parsed, -⟩, ms, ⟨rfl, distinct⟩, h⟩
    cases given : ms.given? "revision" with
    | none =>
      rw [given] at h
      cases h
    | some j =>
      simp only [given, Except.bind_eq_ok_iff, Except.pure_eq_ok_iff, revision_eq_ok_iff] at h
      obtain ⟨r, isRevision, d, kept, rfl⟩ := h
      exact ⟨s, ms, rfl, parsed, {
        distinct
        latest := ⟨j, r, ((Members.given?_eq_some_iff distinct).1 given).1, isRevision, rfl⟩
        revisions := rfl
        data := (materialData_eq_ok_iff distinct).1 kept }⟩
  · rintro ⟨s, ms, rfl, parsed, distinct, ⟨j, r, member, isRevision, latest⟩, revisions, data⟩
    have null : j ≠ .null := by
      rintro rfl
      obtain ⟨_, ⟨⟩, -⟩ := isRevision
    refine ⟨_, ⟨s, rfl, parsed, nofun⟩, ms, ⟨rfl, distinct⟩, ?_⟩
    obtain ⟨_, _, d⟩ := p
    obtain rfl := latest
    obtain rfl := revisions
    simp only [(Members.mem_iff_given? distinct null).1 member, revision_eq_ok_iff.2 isRevision,
      (materialData_eq_ok_iff distinct).2 data, Except.ok_bind]
    rfl

def Vacant (body : Option String) : Prop :=
  ∀ s, body = some s → Text.isBlank s = true ∨ Json.parse s = .ok .null

theorem document?_eq_none_iff {payload : Payload} :
    document? payload body = .ok none ↔ Vacant body := by
  cases body with
  | none => exact ⟨fun _ => nofun, fun _ => rfl⟩
  | some s =>
    have vacant : Vacant (some s) ↔ Text.isBlank s = true ∨ Json.parse s = .ok .null := by
      simp [Vacant]
    rw [vacant]
    cases blank : Text.isBlank s with
    | true =>
      have absent : content (some s) = none := by simp [content, blank]
      simp [document?, absent]
    | false =>
      have present : content (some s) = some s := by simp [content, blank]
      simp only [document?, present]
      split <;> simp_all

theorem revisionsSince_eq_ok_iff :
    revisionsSince body = .ok p ↔
      Vacant body ∧ p = {} ∨
        ∃ s ms, body = some s ∧ Json.parse s = .ok (.map ms) ∧ ReportsSince ms p := by
  rw [revisionsSince, Except.bind_eq_ok_iff]
  constructor
  · rintro ⟨none | j, found, h⟩
    · exact .inl ⟨document?_eq_none_iff.1 found, (Except.pure_eq_ok_iff.1 h).symm⟩
    · right
      obtain ⟨s, rfl, parsed, -⟩ := document?_eq_some_iff.1 found
      simp only [Except.bind_eq_ok_iff, Except.pure_eq_ok_iff, named_eq_ok_iff] at h
      obtain ⟨ms, ⟨rfl, distinct⟩, rs, listed, d, kept, rfl⟩ := h
      exact ⟨s, ms, rfl, parsed, {
        distinct
        latest := rfl
        revisions := (revisions_eq_ok_iff distinct).1 listed
        data := (materialData_eq_ok_iff distinct).1 kept }⟩
  · rintro (⟨vacant, rfl⟩ | ⟨s, ms, rfl, parsed, distinct, latest, listed, data⟩)
    · exact ⟨none, document?_eq_none_iff.2 vacant, rfl⟩
    · refine ⟨_, document?_of_parse parsed nofun, ?_⟩
      simp only [Except.bind_eq_ok_iff, Except.pure_eq_ok_iff, named_eq_ok_iff]
      refine ⟨ms, ⟨rfl, distinct⟩, _, (revisions_eq_ok_iff distinct).2 listed, _,
        (materialData_eq_ok_iff distinct).2 data, ?_⟩
      obtain ⟨_, rs, d⟩ := p
      obtain rfl := latest
      rfl

theorem IsRevision.regular {j : Json} {r : Revision} (h : IsRevision j r) : r.Regular := by
  obtain ⟨ms, rfl, h⟩ := h
  obtain ⟨s, -, read⟩ := h.time
  obtain ⟨millis, dated⟩ := Stamp.parse_eq_some read
  refine ⟨h.present, millis, dated, ?_⟩
  obtain ⟨js, -, files⟩ | ⟨-, none⟩ := h.files
  · refine forall_mem_of_forall₂ files ?_
    rintro _ f ⟨_, -, -, -, present, -⟩
    exact present
  · simp [none]

theorem regular_of_reported (h : latestRevision body = .ok p ∨ revisionsSince body = .ok p) :
    ∀ r ∈ p.reported, r.Regular := by
  intro r hr
  obtain h | h := h
  · obtain ⟨s, ms, -, -, reports⟩ := latestRevision_eq_ok_iff.1 h
    obtain ⟨j, r', -, isRevision, latest⟩ := reports.latest
    obtain rfl : r = r' := by simpa [PollResult.reported, latest, reports.revisions] using hr
    exact isRevision.regular
  · obtain ⟨-, rfl⟩ | ⟨s, ms, -, -, reports⟩ := revisionsSince_eq_ok_iff.1 h
    · cases hr
    · obtain ⟨js, rs, -, revisions, found⟩ | ⟨-, none⟩ := reports.revisions
      · have hr : r ∈ rs := by simpa [PollResult.reported, reports.latest, found] using hr
        exact forall_mem_of_forall₂ revisions (fun _ _ isRevision => isRevision.regular) r hr
      · simp [PollResult.reported, reports.latest, none] at hr

end Bodies

section Writing

variable {r : Revision} {rs : List Revision} {data : Option MaterialData}

def fileJson (f : ModifiedFile) : Json :=
  .map [("fileName", .str f.path), ("action", .str f.action.name)]

def report (r : Revision) : Members :=
  [("revision", .str r.id), ("timestamp", .str (Request.timestamp r.time.utc))] ++
    (r.author.toList.map fun s => ("user", .str s)) ++
    (r.comment.toList.map fun s => ("revisionComment", .str s)) ++
    [("data", textsJson r.data.entries), ("modifiedFiles", .list (r.files.map fileJson))]

def revisionJson (r : Revision) : Json := .map (report r)

def dataMember (data : Option MaterialData) : Members :=
  data.toList.map fun d => ("scm-data", textsJson d.entries)

def latestJson (r : Revision) (data : Option MaterialData) : Json :=
  .map (("revision", revisionJson r) :: dataMember data)

def sinceJson (rs : List Revision) (data : Option MaterialData) : Json :=
  .map (("revisions", .list (rs.map revisionJson)) :: dataMember data)

theorem isFile_fileJson {f : ModifiedFile} (present : Text.isBlank f.path = false) :
    IsFile (fileJson f) f :=
  ⟨_, rfl, by simp, by simp, present, by simp⟩

theorem reports_report (h : r.Regular) : Reports (report r) r where
  distinct := by cases author : r.author <;> cases comment : r.comment <;> simp [report, *]
  id := by simp [report]
  present := h.id
  time := ⟨_, by simp [report], h.parse_timestamp⟩
  author := by cases author : r.author <;> simp [report, Members.Tells, Members.Lacks, *]
  comment := by cases comment : r.comment <;> simp [report, Members.Tells, Members.Lacks, *]
  data := .inl (by simp [report, Members.Keeps])
  files := by
    refine .inl ⟨r.files.map fileJson, by simp [report], ?_⟩
    rw [List.forall₂_map_left_iff, List.forall₂_same]
    exact fun f hf => isFile_fileJson (h.paths f hf)

theorem isRevision_revisionJson (h : r.Regular) : IsRevision (revisionJson r) r :=
  ⟨report r, rfl, reports_report h⟩

theorem keeps_dataMember {name : String} {j : Json} (other : name ≠ "scm-data") :
    Members.Keeps ((name, j) :: dataMember data) "scm-data" data := by
  cases data with
  | none =>
    rintro k (_ | ⟨_, ⟨⟩⟩)
    exact absurd rfl other
  | some d => exact List.mem_cons_of_mem _ List.mem_cons_self

theorem nodup_dataMember {name : String} {j : Json} (other : name ≠ "scm-data") :
    Members.names ((name, j) :: dataMember data) |>.Nodup := by
  cases data <;> simp [dataMember, other]

theorem reportsLatest (h : r.Regular) :
    ReportsLatest (("revision", revisionJson r) :: dataMember data) (.ofLatest r data) where
  distinct := nodup_dataMember (by decide)
  latest := ⟨_, r, List.mem_cons_self, isRevision_revisionJson h, rfl⟩
  revisions := rfl
  data := keeps_dataMember (by decide)

theorem reportsSince (h : ∀ r ∈ rs, r.Regular) :
    ReportsSince (("revisions", .list (rs.map revisionJson)) :: dataMember data)
      (.ofSince (some rs) data) where
  distinct := nodup_dataMember (by decide)
  latest := rfl
  revisions := by
    refine .inl ⟨rs.map revisionJson, rs, List.mem_cons_self, ?_, rfl⟩
    rw [List.forall₂_map_left_iff, List.forall₂_same]
    exact fun r hr => isRevision_revisionJson (h r hr)
  data := keeps_dataMember (by decide)

theorem plain_revisionJson (r : Revision) : (revisionJson r).Plain := by
  have files : (Json.list (r.files.map fileJson)).Plain := by
    refine .list (List.forall_mem_map.2 fun f _ => ?_)
    exact .map (by simp [Json.Plain.str])
  refine .map ?_
  cases author : r.author <;> cases comment : r.comment <;>
    simp [report, author, comment, Json.Plain.str, Request.plain_textsJson, files]

theorem depth_revisionJson_le (r : Revision) : (revisionJson r).depth ≤ 3 := by
  have files : (Json.list (r.files.map fileJson)).depth ≤ 2 := by
    refine Json.depth_list_le (List.forall_mem_map.2 fun f _ => ?_)
    exact Json.depth_map_le (by simp)
  have texts : (textsJson r.data.entries).depth ≤ 2 :=
    Nat.le_succ_of_le (Request.depth_textsJson_le _)
  refine Json.depth_map_le ?_
  cases author : r.author <;> cases comment : r.comment <;>
    simp [report, author, comment, texts, files]

theorem parse_beside_dataMember {name : String} {j : Json} (plain : j.Plain) (depth : j.depth ≤ 4) :
    Json.parse (Json.map ((name, j) :: dataMember data)).text =
      .ok (.map ((name, j) :: dataMember data)) := by
  refine Json.parse_text (.map ?_) (Nat.le_trans (Json.depth_map_le (n := 4) ?_) (by decide))
  · cases data <;> simp [dataMember, plain, Request.plain_textsJson]
  · have texts (d : MaterialData) : (textsJson d.entries).depth ≤ 4 :=
      Nat.le_trans (Request.depth_textsJson_le _) (by decide)
    cases data <;> simp [dataMember, depth, texts]

theorem parse_latestJson : Json.parse (latestJson r data).text = .ok (latestJson r data) :=
  parse_beside_dataMember (plain_revisionJson r) (Nat.le_succ_of_le (depth_revisionJson_le r))

theorem parse_sinceJson : Json.parse (sinceJson rs data).text = .ok (sinceJson rs data) :=
  parse_beside_dataMember (.list (List.forall_mem_map.2 fun r _ => plain_revisionJson r))
    (Json.depth_list_le (List.forall_mem_map.2 fun r _ => depth_revisionJson_le r))

end Writing

section Standing

variable {ms front back : Members} {s t v : String} {j : Json}

/-- One revision or one error, in an answer to a full poll and alone in one to an incremental
poll. -/
def Alike (latest since : Except Error PollResult) : Prop :=
  ∃ x : Except Error (Revision × Option MaterialData),
    latest = x.map (fun (r, d) => .ofLatest r d) ∧ since = x.map fun (r, d) => .ofSince (some [r]) d

def revisionAndData (j : Json) (ms : Members) : Except Error (Revision × Option MaterialData) := do
  let r ← revision j
  return (r, ← materialData ms)

theorem latestRevision_eq (parsed : Json.parse s = .ok (.map ms)) (distinct : ms.names.Nodup)
    (null : j ≠ .null) (member : ("revision", j) ∈ ms) :
    latestRevision (some s) = (revisionAndData j ms).map fun (r, d) => .ofLatest r d := by
  have members : named .latestRevision .map (.map ms) = .ok ms :=
    named_eq_ok_iff.2 ⟨rfl, distinct⟩
  have given : ms.given? "revision" = some j := (Members.mem_iff_given? distinct null).1 member
  rw [latestRevision, document_of_parse parsed nofun, Except.ok_bind, members, Except.ok_bind]
  simp only [given, revisionAndData]
  cases revision j with
  | error e => rfl
  | ok r => cases materialData ms <;> rfl

theorem revisionsSince_eq (parsed : Json.parse s = .ok (.map ms)) (distinct : ms.names.Nodup)
    (member : ("revisions", .list [j]) ∈ ms) :
    revisionsSince (some s) =
      (revisionAndData j ms).map fun (r, d) => .ofSince (some [r]) d := by
  have members : named .revisionsSince .map (.map ms) = .ok ms :=
    named_eq_ok_iff.2 ⟨rfl, distinct⟩
  have given : ms.given? "revisions" = some (.list [j]) :=
    (Members.mem_iff_given? (j := .list [j]) distinct nofun).1 member
  rw [revisionsSince, document?_of_parse parsed nofun, Except.ok_bind]
  simp only [members, revisions, given, revisionAndData, Except.ok_bind, List.mapM_cons,
    List.mapM_nil]
  cases revision j with
  | error e => rfl
  | ok r => cases materialData ms <;> rfl

theorem given?_append_cons {name other : String} (ne : other ≠ name) :
    Members.given? (front ++ (other, j) :: back) name = Members.given? (front ++ back) name := by
  have find : OrderedMap.find name (front ++ (other, j) :: back) =
      OrderedMap.find name (front ++ back) := by
    induction front with
    | nil => simp [OrderedMap.find, ne]
    | cons m front ih => simp [OrderedMap.find, ih]
  rw [Members.given?, Members.get?, find]
  rfl

theorem alike (front back : Members) (null : j ≠ .null)
    (latest : Json.parse s = .ok (.map (front ++ ("revision", j) :: back)))
    (distinct : (front ++ ("revision", j) :: back).map (·.1) |>.Nodup)
    (since : Json.parse t = .ok (.map (front ++ ("revisions", .list [j]) :: back)))
    (distinct' : (front ++ ("revisions", .list [j]) :: back).map (·.1) |>.Nodup) :
    Alike (latestRevision (some s)) (revisionsSince (some t)) := by
  have data : materialData (front ++ ("revision", j) :: back) =
      materialData (front ++ ("revisions", .list [j]) :: back) := by
    rw [materialData, materialData, given?_append_cons (by decide), given?_append_cons (by decide)]
  refine ⟨_, latestRevision_eq latest distinct null (by simp), ?_⟩
  rw [revisionsSince_eq (j := j) since distinct' (by simp), revisionAndData, revisionAndData, data]

theorem alike_alone (null : j ≠ .null) (parsed : Json.parse v = .ok j)
    (depth : j.depth + 2 ≤ Json.maxDepth) :
    Alike (latestRevision (some ("\x7b\"revision\":" ++ v ++ "\x7d")))
      (revisionsSince (some ("\x7b\"revisions\":[" ++ v ++ "]\x7d"))) := by
  have key : (Json.str "revision").text = "\"revision\"" := rfl
  have keys : (Json.str "revisions").text = "\"revisions\"" := rfl
  have one : (Json.list [j]).depth < Json.maxDepth := by
    simp only [Json.depth, Json.depthItems]
    omega
  have latest := Json.parse_map_one "revision" parsed (by omega)
  have since := Json.parse_map_one "revisions" (Json.parse_list_one parsed (by omega)) one
  refine alike [] [] null ?_ (by simp) ?_ (by simp)
  · rw [key] at latest
    exact latest
  · have text : "\x7b\"revisions\":[" ++ v ++ "]\x7d" =
        "\x7b" ++ (Json.str "revisions").text ++ ":" ++ ("[" ++ v ++ "]") ++ "\x7d" := by
      apply String.toList_injective
      simp [keys]
    rw [text]
    exact since

end Standing

/-- A body is read as the poll that it reports, and not at all if it reports none; every revision in
it is regular. Regular revisions and data that are written out are read as they were. A revision is
read alike wherever it stands. -/
theorem polls_read_as_reported :
    (∀ body p, latestRevision body = .ok p ↔
      ∃ s ms, body = some s ∧ Json.parse s = .ok (.map ms) ∧ ReportsLatest ms p) ∧
    (∀ body p, revisionsSince body = .ok p ↔
      Vacant body ∧ p = {} ∨
        ∃ s ms, body = some s ∧ Json.parse s = .ok (.map ms) ∧ ReportsSince ms p) ∧
    (∀ body p, latestRevision body = .ok p ∨ revisionsSince body = .ok p →
      ∀ r ∈ p.reported, r.Regular) ∧
    (∀ r data, r.Regular →
      latestRevision (some (latestJson r data).text) = .ok (.ofLatest r data)) ∧
    (∀ rs data, (∀ r ∈ rs, r.Regular) →
      revisionsSince (some (sinceJson rs data).text) = .ok (.ofSince (some rs) data)) ∧
    (∀ (front back : Members) (j : Json) (s t : String), j ≠ .null →
      Json.parse s = .ok (.map (front ++ ("revision", j) :: back)) →
      ((front ++ ("revision", j) :: back).map (·.1)).Nodup →
      Json.parse t = .ok (.map (front ++ ("revisions", .list [j]) :: back)) →
      ((front ++ ("revisions", .list [j]) :: back).map (·.1)).Nodup →
      Alike (latestRevision (some s)) (revisionsSince (some t))) ∧
    ∀ (v : String) (j : Json), j ≠ .null → Json.parse v = .ok j → j.depth + 2 ≤ Json.maxDepth →
      Alike (latestRevision (some ("\x7b\"revision\":" ++ v ++ "\x7d")))
        (revisionsSince (some ("\x7b\"revisions\":[" ++ v ++ "]\x7d"))) := by
  refine ⟨fun body p => latestRevision_eq_ok_iff, fun body p => revisionsSince_eq_ok_iff,
    fun body p => regular_of_reported, ?_, ?_, ?_, ?_⟩
  · intro r data regular
    exact latestRevision_eq_ok_iff.2 ⟨_, _, rfl, parse_latestJson, reportsLatest regular⟩
  · intro rs data regular
    exact revisionsSince_eq_ok_iff.2 (.inr ⟨_, _, rfl, parse_sinceJson, reportsSince regular⟩)
  · intro front back j s t null latest distinct since distinct'
    exact alike front back null latest distinct since distinct'
  · intro v j null parsed depth
    exact alike_alone null parsed depth

theorem polls_read_as_reported_deleted :
    let r : Revision :=
      { id := "r1", time := ⟨-1000000⟩, author := some "", data := .ofList [("k", "v")],
        files := [⟨"a", .added⟩, ⟨"m", .modified⟩, ⟨"d", .deleted⟩] }
    let written := "\x7b\"revision\":\"r1\",\"timestamp\":\"1969-12-31T23:59:59.999Z\"," ++
      "\"user\":\"\",\"data\":\x7b\"k\":\"v\"\x7d,\"modifiedFiles\":[" ++
      "\x7b\"fileName\":\"a\",\"action\":\"added\"\x7d," ++
      "\x7b\"fileName\":\"m\",\"action\":\"modified\"\x7d," ++
      "\x7b\"fileName\":\"d\",\"action\":\"deleted\"\x7d]\x7d"
    let p : PollResult := .ofSince (some [r, r]) (some ∅)
    (revisionJson r).text = written ∧
      r.Regular ∧ latestRevision (some (latestJson r none).text) = .ok (.ofLatest r none) ∧
      revisionsSince (some (sinceJson [r, r] (some ∅)).text) = .ok p ∧
      (∀ r ∈ p.reported, r.Regular) ∧
      Alike (latestRevision (some (latestJson r (some ∅)).text))
        (revisionsSince (some (sinceJson [r] (some ∅)).text)) ∧
      Alike (latestRevision (some ("\x7b\"revision\":" ++ written ++ "\x7d")))
        (revisionsSince (some ("\x7b\"revisions\":[" ++ written ++ "]\x7d"))) := by
  intro r written p
  have regular : r.Regular := ⟨by decide, by decide, by decide, by decide⟩
  have text : (revisionJson r).text = written := by decide +kernel
  have parsed : Json.parse (revisionJson r).text = .ok (revisionJson r) :=
    Json.parse_text (plain_revisionJson r) (Nat.le_trans (depth_revisionJson_le r) (by decide))
  obtain ⟨-, -, sound, latest, since, beside, alone⟩ := polls_read_as_reported
  have read : revisionsSince (some (sinceJson [r, r] (some ∅)).text) = .ok p :=
    since [r, r] (some ∅) (by simpa using regular)
  refine ⟨text, regular, latest r none regular, read, sound _ p (.inr read), ?_, ?_⟩
  · exact beside [] (dataMember (some ∅)) (revisionJson r) _ _ nofun parse_latestJson (by decide)
      parse_sinceJson (by decide)
  · refine alone _ (revisionJson r) nofun (text ▸ parsed) ?_
    exact Nat.le_trans (Nat.add_le_add_right (depth_revisionJson_le r) 2) (by decide)

end Response

end ScmPlugins
