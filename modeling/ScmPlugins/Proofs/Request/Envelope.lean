import ScmPlugins.Proofs.Configuration.Values
import ScmPlugins.Proofs.Json.RoundTrip
import ScmPlugins.Proofs.Time.Stamp
import ScmPlugins.Request

namespace ScmPlugins

namespace Request

def SecretFree (c : Configuration) : Prop :=
  ∀ e ∈ c.pairs, ¬secretMark.toList <:+: e.2.toList

theorem unresolved?_eq (c : Configuration) :
    unresolved? c = (c.pairs.find? fun e => holdsSecret e.2).map (·.1) := by
  simp [unresolved?, Configuration.pairs, List.find?_map, Function.comp_def]

theorem unresolved?_eq_none_iff {c : Configuration} : unresolved? c = none ↔ SecretFree c := by
  simp [unresolved?_eq, SecretFree, holdsSecret, ← Text.occurs_iff]

instance (c : Configuration) : Decidable (SecretFree c) :=
  decidable_of_iff (unresolved? c = none) unresolved?_eq_none_iff

@[simp] theorem unresolved?_bare (c : Configuration) : unresolved? c.bare = unresolved? c := by
  rw [unresolved?_eq, unresolved?_eq, Configuration.pairs_bare]

theorem resolvedAll_eq (cs : List Configuration) :
    resolvedAll cs =
      match cs.findSome? unresolved? with
      | some key => .error (.unresolvedSecret key)
      | none => .ok (cs.map configurationJson) := by
  induction cs with
  | nil => rfl
  | cons c cs ih =>
    rw [resolvedAll, ih, resolved, List.findSome?_cons]
    cases unresolved? c with
    | some key => rfl
    | none => cases cs.findSome? unresolved? <;> rfl

theorem text?_of_utc? {t : Instant} {u : DateTime} (h : t.utc? = some u) :
    Stamp.text? u = some (String.ofList (Stamp.chars u)) := by
  obtain ⟨rfl, year⟩ := Instant.utc?_eq_some h
  exact if_pos year

theorem stamp_eq (t : Instant) :
    stamp t =
      match t.utc? with
      | none => .stopped
      | some u => .ok (String.ofList (Stamp.chars u)) := by
  unfold stamp
  cases h : t.utc? with
  | none => rfl
  | some u => simp only [text?_of_utc? h]

inductive Draft where
  | configuration (c : Configuration)
  | latestRevision (c : Configuration) (data : MaterialData) (folder : String)
  | revisionsSince (c : Configuration) (data : MaterialData) (folder : String) (r : Revision)
  | checkout (c : Configuration) (folder : String) (r : Revision)
  | shouldUpdate (event : WebhookEvent) (cs : List Configuration)

structure Checkpoint where
  id : String
  timestamp : String
  data : List (String × String)

inductive Content where
  | configuration (c : List (String × String))
  | latestRevision (c data : List (String × String)) (folder : String)
  | revisionsSince (c data : List (String × String)) (folder : String) (r : Checkpoint)
  | checkout (c : List (String × String)) (folder : String) (r : Checkpoint)
  | shouldUpdate (event : WebhookEvent) (cs : List (List (String × String)))

def decimal (width n : Nat) : String := .ofList ((Nat.toDigits 10 n).leftpad width '0')

def timestamp (t : DateTime) : String :=
  (if t.date.year < 0 then "-" else "") ++ decimal 4 t.date.year.natAbs ++ "-" ++
    decimal 2 t.date.month ++ "-" ++ decimal 2 t.date.day ++ "T" ++ decimal 2 t.hour ++ ":" ++
    decimal 2 t.minute ++ ":" ++ decimal 2 t.second ++ "." ++ decimal 3 (t.nano / 1000000) ++ "Z"

def checkpoint (r : Revision) : Checkpoint where
  id := r.id
  timestamp := timestamp r.time.utc
  data := r.data.entries

section Timestamps

variable {x y : Instant}

theorem toList_decimal {width n : Nat} (pos : 0 < width) (h : n < 10 ^ width) :
    (decimal width n).toList = Stamp.padded width n := by
  rw [decimal, String.toList_ofList, Stamp.padded_eq_leftpad pos h]

theorem timestamp_eq {t : DateTime} (valid : t.isValid = true) (year : t.date.year.natAbs < 10000) :
    timestamp t = String.ofList (Stamp.chars t) := by
  obtain ⟨date, hour, minute, second, nano⟩ := DateTime.isValid_iff.1 valid
  obtain ⟨-, month, -, day⟩ := Date.isValid_iff.1 date
  have length := Stamp.monthLength_le (Date.isLeap t.date.year) month
  have two {n : Nat} (h : n < 100) : (decimal 2 n).toList = Stamp.two n :=
    toList_decimal (by decide) h
  have three {n : Nat} (h : n < 1000) : (decimal 3 n).toList = Stamp.three n := by
    rw [toList_decimal (by decide) h, Stamp.three_eq]
  have four {n : Nat} (h : n < 10000) : (decimal 4 n).toList = Stamp.four n := by
    rw [toList_decimal (by decide) h, Stamp.four_eq]
  apply String.toList_injective
  unfold timestamp
  simp only [String.toList_append, four year, two (show t.date.month < 100 by omega),
    two (show t.date.day < 100 by omega), two (show t.hour < 100 by omega),
    two (show t.minute < 100 by omega), two (show t.second < 100 by omega),
    three (show t.nano / 1000000 < 1000 by omega), String.toList_ofList, Stamp.chars, Stamp.year]
  split <;> simp

theorem timestamp_utc (h : x.utc?.isSome) :
    timestamp x.utc = String.ofList (Stamp.chars x.utc) :=
  timestamp_eq x.isValid_utc (Instant.utc?_of_isSome h).2

theorem stamp_of_isSome (h : x.utc?.isSome) : stamp x = .ok (timestamp x.utc) := by
  rw [stamp_eq, (Instant.utc?_of_isSome h).1, timestamp_utc h]

theorem parse_timestamp (h : x.utc?.isSome) :
    Stamp.parse (timestamp x.utc) = some (.ofMillis x.millis) := by
  rw [timestamp_utc h, Stamp.parse_chars h]

theorem timestamp_eq_timestamp_iff (hx : x.utc?.isSome) (hy : y.utc?.isSome) :
    timestamp x.utc = timestamp y.utc ↔ x.millis = y.millis := by
  constructor
  · intro same
    have read := parse_timestamp hx
    rw [same, parse_timestamp hy, Option.some.injEq] at read
    have millis := congrArg Instant.millis read
    rwa [Instant.millis_ofMillis, Instant.millis_ofMillis, eq_comm] at millis
  · intro same
    rw [timestamp_utc hx, timestamp_utc hy, Stamp.chars_utc_congr same]

theorem checkpoint_inj {r s : Revision} (hr : r.time.utc?.isSome) (hs : s.time.utc?.isSome) :
    checkpoint r = checkpoint s ↔
      r.id = s.id ∧ r.time.millis = s.time.millis ∧ r.data.entries = s.data.entries := by
  simp only [checkpoint, Checkpoint.mk.injEq, timestamp_eq_timestamp_iff hr hs]

end Timestamps

namespace Draft

def body : Draft → Attempt Error Json
  | .configuration c => Request.configuration c
  | .latestRevision c data folder => Request.latestRevision c data folder
  | .revisionsSince c data folder r => Request.revisionsSince c data folder r
  | .checkout c folder r => Request.checkout c folder r
  | .shouldUpdate event cs => Request.shouldUpdate event cs

def configurations : Draft → List Configuration
  | .configuration c | .latestRevision c _ _ | .revisionsSince c _ _ _ | .checkout c _ _ => [c]
  | .shouldUpdate _ cs => cs

def revision? : Draft → Option Revision
  | .revisionsSince _ _ _ r | .checkout _ _ r => some r
  | _ => none

def Dated (d : Draft) : Prop := ∀ r ∈ d.revision?, r.time.utc?.isSome

instance (d : Draft) : Decidable d.Dated :=
  match h : d.revision? with
  | none => .isTrue fun r hr => by simp [h] at hr
  | some r => decidable_of_iff (r.time.utc?.isSome = true) (by simp [Dated, h])

structure Complete (d : Draft) : Prop where
  secretFree : ∀ c ∈ d.configurations, SecretFree c
  dated : d.Dated

theorem complete_iff {d : Draft} :
    d.Complete ↔ (∀ c ∈ d.configurations, SecretFree c) ∧ d.Dated :=
  ⟨fun h => ⟨h.secretFree, h.dated⟩, fun h => ⟨h.1, h.2⟩⟩

instance (d : Draft) : Decidable d.Complete := decidable_of_iff _ complete_iff.symm

def content : Draft → Content
  | .configuration c => .configuration c.pairs
  | .latestRevision c data folder => .latestRevision c.pairs data.entries folder
  | .revisionsSince c data folder r =>
    .revisionsSince c.pairs data.entries folder (checkpoint r)
  | .checkout c folder r => .checkout c.pairs folder (checkpoint r)
  | .shouldUpdate event cs => .shouldUpdate event (cs.map Configuration.pairs)

/-- The same request without what is known about properties, and without the author, the comment and
the files of the revision. -/
def bare : Draft → Draft
  | .configuration c => .configuration c.bare
  | .latestRevision c data folder => .latestRevision c.bare data folder
  | .revisionsSince c data folder r =>
    .revisionsSince c.bare data folder { id := r.id, time := r.time, data := r.data }
  | .checkout c folder r => .checkout c.bare folder { id := r.id, time := r.time, data := r.data }
  | .shouldUpdate event cs => .shouldUpdate event (cs.map Configuration.bare)

end Draft

def valuesJson (c : List (String × String)) : Json :=
  .map (c.map fun (k, v) => (k, .map [("value", .str v)]))

def textsJson (data : List (String × String)) : Json := .map (data.map fun (k, v) => (k, .str v))

def Checkpoint.json (r : Checkpoint) : Json :=
  .map [("revision", .str r.id), ("timestamp", .str r.timestamp), ("data", textsJson r.data)]

def Content.envelope : Content → Json
  | .configuration c => .map [("scm-configuration", valuesJson c)]
  | .latestRevision c data folder => .map [
    ("scm-configuration", valuesJson c), ("scm-data", textsJson data),
    ("flyweight-folder", .str folder)]
  | .revisionsSince c data folder r => .map [
    ("scm-configuration", valuesJson c), ("scm-data", textsJson data),
    ("flyweight-folder", .str folder), ("previous-revision", r.json)]
  | .checkout c folder r => .map [
    ("scm-configuration", valuesJson c), ("destination-folder", .str folder), ("revision", r.json)]
  | .shouldUpdate event cs => .map [
    ("provider", .str event.provider), ("event_type", .str event.eventType),
    ("event_payload", .str event.payload), ("scm-configurations", .list (cs.map valuesJson))]

theorem configurationJson_eq (c : Configuration) : configurationJson c = valuesJson c.pairs := by
  simp [configurationJson, valuesJson, Configuration.pairs, Function.comp_def]

theorem revisionJson_eq (r : Revision) :
    revisionJson r = if r.time.utc?.isSome then .ok (checkpoint r).json else .stopped := by
  rw [revisionJson]
  split
  next dated =>
    rw [stamp_of_isSome dated]
    rfl
  next undated =>
    rw [stamp_eq, Option.not_isSome_iff_eq_none.1 undated]
    rfl

theorem Draft.body_eq (d : Draft) :
    d.body =
      match d.configurations.findSome? unresolved? with
      | some key => .error (.unresolvedSecret key)
      | none => if d.Dated then .ok d.content.envelope else .stopped := by
  have single (c : Configuration) : [c].findSome? unresolved? = unresolved? c := by
    cases h : unresolved? c <;> simp [h]
  have undated {d : Draft} (h : d.revision? = none) : d.Dated := by simp [Dated, h]
  -- The two drafts with a revision are the only ones that can stop.
  cases d with
  | configuration c =>
    rw [configurations, single, if_pos (undated rfl), body, Request.configuration, resolved,
      configurationJson_eq]
    cases unresolved? c <;> rfl
  | latestRevision c data folder =>
    rw [configurations, single, if_pos (undated rfl), body, Request.latestRevision, resolved,
      configurationJson_eq]
    cases unresolved? c <;> rfl
  | revisionsSince c data folder r =>
    have dated : (revisionsSince c data folder r).Dated ↔ r.time.utc?.isSome = true := by
      simp [Dated, revision?]
    simp only [configurations, single, dated, body, Request.revisionsSince, resolved,
      configurationJson_eq, revisionJson_eq]
    cases unresolved? c <;> cases r.time.utc?.isSome <;> rfl
  | checkout c folder r =>
    have dated : (checkout c folder r).Dated ↔ r.time.utc?.isSome = true := by
      simp [Dated, revision?]
    simp only [configurations, single, dated, body, Request.checkout, resolved,
      configurationJson_eq, revisionJson_eq]
    cases unresolved? c <;> cases r.time.utc?.isSome <;> rfl
  | shouldUpdate event cs =>
    have objects : cs.map configurationJson = (cs.map Configuration.pairs).map valuesJson := by
      simp [configurationJson_eq]
    rw [configurations, if_pos (undated rfl), body, Request.shouldUpdate, resolvedAll_eq, objects]
    cases cs.findSome? unresolved? <;> rfl

theorem Draft.body_bare (d : Draft) : d.bare.body = d.body := by
  have secrets : d.bare.configurations.findSome? unresolved? =
      d.configurations.findSome? unresolved? := by
    cases d <;> simp [bare, configurations, List.findSome?_map, Function.comp_def]
  have dated : d.bare.Dated ↔ d.Dated := by
    cases d <;> simp [bare, Dated, revision?]
  have content : d.bare.content = d.content := by
    cases d <;> simp [bare, Draft.content, checkpoint, Function.comp_def]
  rw [body_eq, body_eq, secrets, content]
  simp only [dated]

theorem findSome?_unresolved?_eq_none_iff {cs : List Configuration} :
    cs.findSome? unresolved? = none ↔ ∀ c ∈ cs, SecretFree c := by
  simp [List.findSome?_eq_none_iff, unresolved?_eq_none_iff]

theorem Draft.Complete.body_eq {d : Draft} (h : d.Complete) : d.body = .ok d.content.envelope := by
  rw [Draft.body_eq, findSome?_unresolved?_eq_none_iff.2 h.secretFree]
  exact if_pos h.dated

theorem Draft.body_eq_stopped_iff {d : Draft} :
    d.body = .stopped ↔ (∀ c ∈ d.configurations, SecretFree c) ∧ ¬d.Dated := by
  rw [Draft.body_eq, ← findSome?_unresolved?_eq_none_iff]
  cases d.configurations.findSome? unresolved? with
  | some key => simp
  | none => by_cases h : d.Dated <;> simp [h]

theorem Draft.body_eq_ok_iff {d : Draft} {j : Json} :
    d.body = .ok j ↔ d.Complete ∧ d.content.envelope = j := by
  rw [Draft.body_eq, complete_iff, ← findSome?_unresolved?_eq_none_iff]
  cases d.configurations.findSome? unresolved? with
  | some key => simp
  | none => by_cases h : d.Dated <;> simp [h]

theorem plain_valuesJson (c : List (String × String)) : (valuesJson c).Plain := by
  refine .map fun m hm => ?_
  obtain ⟨e, -, rfl⟩ := List.mem_map.1 hm
  exact .map (by simpa using .str e.2)

theorem plain_textsJson (data : List (String × String)) : (textsJson data).Plain := by
  refine .map fun m hm => ?_
  obtain ⟨e, -, rfl⟩ := List.mem_map.1 hm
  exact .str e.2

theorem Checkpoint.plain_json (r : Checkpoint) : r.json.Plain :=
  .map (by simp [Json.Plain.str, plain_textsJson])

theorem Content.plain_envelope (c : Content) : c.envelope.Plain := by
  cases c with
  | shouldUpdate event cs =>
    have objects : (Json.list (cs.map valuesJson)).Plain :=
      .list (by simp [plain_valuesJson])
    exact .map (by simp [Json.Plain.str, objects])
  | _ =>
    exact .map (by
      simp [Json.Plain.str, plain_valuesJson, plain_textsJson, Checkpoint.plain_json])

theorem depth_valuesJson_le (c : List (String × String)) : (valuesJson c).depth ≤ 2 := by
  refine Json.depth_map_le fun m hm => ?_
  obtain ⟨e, -, rfl⟩ := List.mem_map.1 hm
  exact Nat.le_refl 1

theorem depth_textsJson_le (data : List (String × String)) : (textsJson data).depth ≤ 1 := by
  refine Json.depth_map_le fun m hm => ?_
  obtain ⟨e, -, rfl⟩ := List.mem_map.1 hm
  exact Nat.le_refl 0

theorem Checkpoint.depth_json_le (r : Checkpoint) : r.json.depth ≤ 2 :=
  Json.depth_map_le (by simp [depth_textsJson_le])

theorem Content.depth_envelope_le (c : Content) : c.envelope.depth ≤ 4 := by
  have values (c : List (String × String)) : (valuesJson c).depth ≤ 3 :=
    Nat.le_succ_of_le (depth_valuesJson_le c)
  have texts (data : List (String × String)) : (textsJson data).depth ≤ 3 :=
    Nat.le_trans (depth_textsJson_le data) (by decide)
  have checkpoint (r : Checkpoint) : r.json.depth ≤ 3 := Nat.le_succ_of_le r.depth_json_le
  have objects (cs : List (List (String × String))) : (Json.list (cs.map valuesJson)).depth ≤ 3 :=
    Json.depth_list_le (by simp [depth_valuesJson_le])
  cases c <;> exact Json.depth_map_le (by simp [values, texts, checkpoint, objects])

theorem Draft.Complete.text_eq {d : Draft} (h : d.Complete) :
    text d.body = .ok d.content.envelope.text := by
  rw [h.body_eq]
  rfl

theorem Content.depth_envelope (c : Content) : c.envelope.depth ≤ Json.maxDepth :=
  Nat.le_trans c.depth_envelope_le (by decide)

theorem Content.parse_text (c : Content) : Json.parse c.envelope.text = .ok c.envelope :=
  Json.parse_text c.plain_envelope c.depth_envelope

theorem valuesJson_injective : Function.Injective valuesJson := by
  intro a b h
  have members := Json.map.inj h
  exact (List.map_inj_right fun x y => by simp +contextual [Prod.ext_iff]).1 members

theorem textsJson_injective : Function.Injective textsJson := by
  intro a b h
  have members := Json.map.inj h
  exact (List.map_inj_right fun x y => by simp +contextual [Prod.ext_iff]).1 members

theorem Checkpoint.json_injective : Function.Injective Checkpoint.json := by
  rintro ⟨id, timestamp, data⟩ ⟨id', timestamp', data'⟩ h
  simpa [json, textsJson_injective.eq_iff] using h

theorem Content.envelope_injective : Function.Injective Content.envelope := by
  intro a b h
  have values (c c' : List (String × String)) : valuesJson c = valuesJson c' ↔ c = c' :=
    valuesJson_injective.eq_iff
  have texts (d d' : List (String × String)) : textsJson d = textsJson d' ↔ d = d' :=
    textsJson_injective.eq_iff
  have checkpoints (r r' : Checkpoint) : r.json = r'.json ↔ r = r' :=
    Checkpoint.json_injective.eq_iff
  have objects (cs cs' : List (List (String × String))) :
      cs.map valuesJson = cs'.map valuesJson ↔ cs = cs' :=
    List.map_inj_right fun c c' => (values c c').1
  cases a <;> cases b <;> simp [envelope, values, texts, checkpoints, objects] at h
  case shouldUpdate.shouldUpdate event cs event' cs' =>
    cases event
    cases event'
    simpa [and_assoc] using h
  all_goals simp [h]

theorem Content.text_envelope_inj {a b : Content} :
    a.envelope.text = b.envelope.text ↔ a = b := by
  constructor
  · intro h
    apply Content.envelope_injective
    exact Json.text_injective_of_plain a.plain_envelope b.plain_envelope a.depth_envelope
      b.depth_envelope h
  · rintro rfl
    rfl

/-- The body of every request with its secrets filled in and a date for its revision is a text that
is read as the envelope of the request's content, and two such bodies are equal exactly when the
contents are. Of a revision the content has the id, the millisecond and the data, and what else is
known about properties and revisions never shows. -/
theorem bodies_faithful :
    (∀ d : Draft, d.Complete →
      ∃ body, text d.body = .ok body ∧ Json.parse body = .ok d.content.envelope) ∧
    (∀ d e : Draft, d.Complete → e.Complete →
      (text d.body = text e.body ↔ d.content = e.content)) ∧
    (∀ r s : Revision, r.time.utc?.isSome → s.time.utc?.isSome →
      (checkpoint r = checkpoint s ↔
        r.id = s.id ∧ r.time.millis = s.time.millis ∧ r.data.entries = s.data.entries)) ∧
    ∀ d : Draft, text d.bare.body = text d.body := by
  refine ⟨?_, ?_, ?_, ?_⟩
  · intro d hd
    exact ⟨d.content.envelope.text, hd.text_eq, d.content.parse_text⟩
  · intro d e hd he
    rw [hd.text_eq, he.text_eq, Attempt.ok.injEq, Content.text_envelope_inj]
  · intro r s hr hs
    exact checkpoint_inj hr hs
  · intro d
    rw [d.body_bare]

theorem bodies_faithful_checkout :
    let c : Configuration := .ofList [("\"é\\", { value := "\u0001" }), (" ", {})]
    let c' : Configuration :=
      .ofList [("\"é\\", { value := "\u0001", secure := true }), (" ", { displayOrder := 1 })]
    let r : Revision := { id := "r", time := ⟨-1⟩, data := .ofList [("k", "v")] }
    let s : Revision := { r with time := ⟨-1000000⟩, author := some "a" }
    let t : Revision := { r with time := ⟨0⟩ }
    let checkout (c : Configuration) (r : Revision) : Draft := .checkout c "/x" r
    text (checkout c r).body = text (checkout c' s).body ∧
      text (checkout c r).body ≠ text (checkout c t).body ∧
      ∃ body, text (checkout c r).body = .ok body ∧ Json.parse body = .ok (.map [
        ("scm-configuration", .map [
          ("\"é\\", .map [("value", .str "\u0001")]), (" ", .map [("value", .str "")])]),
        ("destination-folder", .str "/x"),
        ("revision", .map [
          ("revision", .str "r"), ("timestamp", .str "1969-12-31T23:59:59.999Z"),
          ("data", .map [("k", .str "v")])])]) := by
  intro c c' r s t checkout
  obtain ⟨read, same, moments, -⟩ := bodies_faithful
  have written : (checkout c r).Complete := by decide
  have alike : checkpoint r = checkpoint s :=
    (moments r s (by decide) (by decide)).2 ⟨rfl, by decide, rfl⟩
  have later : checkpoint r ≠ checkpoint t :=
    mt (moments r t (by decide) (by decide)).1 (by decide)
  have spelt : (checkpoint r).timestamp = "1969-12-31T23:59:59.999Z" := by decide +kernel
  obtain ⟨body, sent, parsed⟩ := read _ written
  refine ⟨(same _ (checkout c' s) written (by decide)).2 ?_,
    mt (same _ (checkout c t) written (by decide)).1 ?_, body, sent, ?_⟩
  · exact congrArg (Content.checkout c.pairs "/x") alike
  · exact fun h => later (Content.checkout.inj h).2.2
  · rw [parsed, ← spelt]
    rfl

end Request

end ScmPlugins
