import ScmPlugins.Proofs.Response.Polls

namespace ScmPlugins.Response

open Request (textsJson SecretFree Draft checkpoint)

/-- A request goes out as the text of an object in which the value stands, verbatim, under the
name. -/
def Carries (sent : Attempt Request.Error Json) (name : String) (o : Json) : Prop :=
  ∃ body ms, Request.text sent = .ok body ∧ Json.parse body = .ok (.map ms) ∧
    (ms.map (·.1)).Nodup ∧ (name, o) ∈ ms ∧ o.text.toList <:+: body.toList

theorem carries_of_complete {d : Draft} {name : String} {ms : Members} {o : Json}
    (complete : d.Complete) (envelope : d.content.envelope = .map ms)
    (distinct : (ms.map (·.1)).Nodup) (member : (name, o) ∈ ms) : Carries d.body name o := by
  refine ⟨_, ms, complete.text_eq, ?_, distinct, member, ?_⟩
  · rw [d.content.parse_text, envelope]
  · rw [envelope]
    exact Json.infix_text_of_mem member

section Resuming

variable {r : Revision} {c : Configuration} {ms : Members} {s : String}

theorem complete_of_regular {d : Draft} (configuration : d.configurations = [c])
    (revision : d.revision? = some r) (regular : r.Regular) (secretFree : SecretFree c) :
    d.Complete where
  secretFree := by simpa [configuration] using secretFree
  dated := by simpa [Draft.Dated, revision] using regular.dated

theorem carries_revisionsSince (regular : r.Regular) (secretFree : SecretFree c)
    (data : MaterialData) (folder : String) :
    Carries (Request.revisionsSince c data folder r) "previous-revision" (checkpoint r).json :=
  carries_of_complete (d := .revisionsSince c data folder r)
    (complete_of_regular rfl rfl regular secretFree) rfl (by simp) (by simp)

theorem carries_checkout (regular : r.Regular) (secretFree : SecretFree c) (folder : String) :
    Carries (Request.checkout c folder r) "revision" (checkpoint r).json :=
  carries_of_complete (d := .checkout c folder r)
    (complete_of_regular rfl rfl regular secretFree) rfl (by simp) (by simp)

theorem isRevision_checkpoint (regular : r.Regular) :
    IsRevision (checkpoint r).json { id := r.id, time := r.time, data := r.data } := by
  refine ⟨_, rfl, {
    distinct := by simp
    id := by simp [checkpoint]
    present := regular.id
    time := ⟨_, by simp [checkpoint], regular.parse_timestamp⟩
    author := by simp [Members.Tells, Members.Lacks]
    comment := by simp [Members.Tells, Members.Lacks]
    data := .inl (by simp [Members.Keeps, checkpoint])
    files := .inr ⟨by simp [Members.Lacks], rfl⟩ }⟩

theorem latestRevision_checkpoint (regular : r.Regular) {d : Option MaterialData}
    (parsed : Json.parse s = .ok (.map ms)) (distinct : (ms.map (·.1)).Nodup)
    (member : ("revision", (checkpoint r).json) ∈ ms) (data : ms.Keeps "scm-data" d) :
    latestRevision (some s) = .ok (.ofLatest { id := r.id, time := r.time, data := r.data } d) :=
  latestRevision_eq_ok_iff.2 ⟨s, ms, rfl, parsed, {
    distinct, data
    latest := ⟨_, _, member, isRevision_checkpoint regular, rfl⟩
    revisions := rfl }⟩

theorem parse_checkpoint_alone (r : Request.Checkpoint) :
    Json.parse ("\x7b\"revision\":" ++ r.json.text ++ "\x7d") =
      .ok (.map [("revision", r.json)]) := by
  have key : (Json.str "revision").text = "\"revision\"" := rfl
  have read : Json.parse r.json.text = .ok r.json :=
    Json.parse_text r.plain_json (Nat.le_trans r.depth_json_le (by decide))
  have alone := Json.parse_map_one "revision" read (Nat.lt_of_le_of_lt r.depth_json_le (by decide))
  rw [key] at alone
  exact alone

end Resuming

/-- Every revision that was read can be sent, to poll from there on and to check it out. What stands
for it in the request, sent back in an answer, is the same revision without its author, its comment
and its files. -/
theorem checkpoints_resume {body : Option String} {p : PollResult} {r : Revision}
    {c : Configuration} (read : latestRevision body = .ok p ∨ revisionsSince body = .ok p)
    (reported : r ∈ p.reported) (secretFree : SecretFree c) (data : MaterialData)
    (folder : String) :
    ∃ o : Json,
      Carries (Request.revisionsSince c data folder r) "previous-revision" o ∧
      Carries (Request.checkout c folder r) "revision" o ∧
      latestRevision (some ("\x7b\"revision\":" ++ o.text ++ "\x7d")) =
        .ok (.ofLatest { id := r.id, time := r.time, data := r.data } none) ∧
      ∀ (s : String) (ms : Members) (d : Option MaterialData), Json.parse s = .ok (.map ms) →
        (ms.map (·.1)).Nodup → ("revision", o) ∈ ms → ms.Keeps "scm-data" d →
        latestRevision (some s) =
          .ok (.ofLatest { id := r.id, time := r.time, data := r.data } d) := by
  have regular := regular_of_reported read r reported
  refine ⟨(checkpoint r).json, carries_revisionsSince regular secretFree data folder,
    carries_checkout regular secretFree folder, ?_, ?_⟩
  · exact latestRevision_checkpoint regular (parse_checkpoint_alone (checkpoint r)) (by simp)
      (by simp) (by simp [Members.Keeps, Members.Lacks])
  · intro s ms d parsed distinct member data
    exact latestRevision_checkpoint regular parsed distinct member data

theorem checkpoints_resume_leap_day :
    let body := some ("\x7b\"revision\":\x7b\"revision\":\"r\",\"user\":\"u\",\"timestamp\":" ++
      "\"-0004-02-29T23:59:59.999Z\",\"data\":\x7b\"b\":\"1\",\"a\":\"\"\x7d\x7d\x7d")
    let time := DateTime.instant ⟨⟨-4, 2, 29⟩, 23, 59, 59, 999000000⟩
    let data : MaterialData := .ofList [("b", "1"), ("a", "")]
    let r : Revision := { id := "r", time, author := some "u", data }
    let c : Configuration := .ofList [("url", { value := "x" })]
    latestRevision body = .ok (.ofLatest r none) ∧ SecretFree c ∧
      ∃ o, Carries (Request.checkout c "/f" r) "revision" o ∧
        latestRevision (some ("\x7b\"revision\":" ++ o.text ++ "\x7d")) =
          .ok (.ofLatest { id := "r", time, data } none) := by
  intro body time data r c
  have read : latestRevision body = .ok (.ofLatest r none) := by decide +kernel
  have secretFree : SecretFree c := by decide
  obtain ⟨o, -, carries, resumed, -⟩ :=
    checkpoints_resume (.inl read) List.mem_cons_self secretFree ∅ "/f"
  exact ⟨read, secretFree, o, carries, resumed⟩

end ScmPlugins.Response
