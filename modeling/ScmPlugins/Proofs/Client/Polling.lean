import ScmPlugins.Client.Poller
import ScmPlugins.Proofs.Client.Law
import ScmPlugins.Proofs.Response.Polls

namespace ScmPlugins

variable {α β σ : Type} {w : World σ}

namespace Client

variable {s : Settings} {plugin : String} {q : Query} {x : σ}

theorem exchange_answered {e : Edition} {op : Operation}
    {body : Option (Attempt Request.Error Json)} {decode : Option String → Except Response.Error α}
    {text : Option String} {r : Transport.Request} (has : op ∈ e.operations)
    (hb : bodyText plugin body = .ok text)
    (hr : r = ⟨plugin, s.extension, e.version, op.name, text⟩) :
    (exchange s plugin e op body decode).exchanges w x =
      [(r, (w.submit r (w.note (submittingEvent plugin op.name e.version) x)).1)] := by
  subst hr
  rw [exchange, nameOf?_of_mem has, hb]
  rw [(Call.yields_ofAttempt w _ x).exchanges_bind, (Call.yields_note w _ x).exchanges_bind]
  rw [Call.exchanges_bind_quiet]
  · simp only [Call.exchanges, Call.submit, Task.exchanges]
    split <;> rfl
  · intro reply t
    cases decode reply.body <;> rfl

theorem Query.call_eq (asks : q.operation ≠ .capabilities) :
    q.call s plugin = (edition s plugin >>= q.ask s plugin) := by
  cases q with
  | capabilities => exact absurd rfl asks
  | _ => rfl

theorem Query.withheld_ne_ok (asks : q.operation ≠ .capabilities) (v : Version) (a : q.Answer) :
    q.withheld plugin v ≠ .ok a := by
  cases q with
  | capabilities => exact absurd rfl asks
  | _ => nofun

inductive Answered (s : Settings) (plugin : String) (q : Query)
    (decode : Option String → Except Response.Error α) :
    List (Transport.Request × Transport.Answer) → Attempt Failure α → Prop
  | unasked {a : Attempt Failure α} (failed : ∀ b, a ≠ .ok b) : Answered s plugin q decode [] a
  | asked {e : Edition} {body : Option String} (text : q.text = .ok body)
      (answer : Transport.Answer) :
    Answered s plugin q decode [(request s plugin e q body, answer)]
      (outcome plugin decode answer)

theorem answered (w : World σ) (s : Settings) (plugin : String) (x : σ)
    (asks : q.operation ≠ .capabilities) :
    Answered s plugin q q.read ((q.call s plugin).exchanges w x)
      ((q.call s plugin).run w x).1 := by
  have unasked {a : Attempt Failure q.Answer} (h : Comes w s plugin q x [] a)
      (failed : ∀ b, a ≠ .ok b) :
      Answered s plugin q q.read ((q.call s plugin).exchanges w x)
        ((q.call s plugin).run w x).1 := by
    rw [h.yields.exchanges_eq_nil, h.2]
    exact .unasked failed
  obtain stops | ⟨rs, a, goes⟩ := stops_or_goes w s plugin q x
  · exact unasked stops.comes nofun
  · have comes := goes.comes
    cases goes with
    | withheld speaks lacks => exact unasked comes (Query.withheld_ne_ok asks _)
    | sent speaks has text =>
      rw [comes.2]
      obtain ⟨declared, known, agrees⟩ := speaks
      rw [Query.call_eq asks, (edition_agrees known agrees).exchanges_bind, Query.ask,
        exchange_answered has _ rfl]
      · exact .asked text _
      · rw [Query.bodyText_draft?, text]
        rfl
    | _ => exact unasked comes nofun

variable {decode : Option String → Except Response.Error α}
  {es : List (Transport.Request × Transport.Answer)} {a : Attempt Failure α}

theorem outcome_map (f : α → β) (plugin : String)
    (decode : Option String → Except Response.Error α) (answer : Transport.Answer) :
    outcome plugin (fun body => (decode body).map f) answer =
      f <$> outcome plugin decode answer := by
  cases answer with
  | error e => rfl
  | ok reply => cases read : decode reply.body <;> simp only [outcome, read] <;> rfl

theorem Answered.map (f : α → β) (h : Answered s plugin q decode es a) :
    Answered s plugin q (fun body => (decode body).map f) es (f <$> a) := by
  cases h with
  | unasked failed =>
    refine .unasked fun b => ?_
    cases a with
    | ok a => exact absurd rfl (failed a)
    | _ => nofun
  | asked text answer =>
    rw [← outcome_map]
    exact .asked text answer

theorem outcome_eq_ok_iff {answer : Transport.Answer} {b : α} :
    outcome plugin decode answer = .ok b ↔
      ∃ reply, answer = .ok reply ∧ decode reply.body = .ok b := by
  cases answer with
  | error e => simp [outcome]
  | ok reply => cases read : decode reply.body <;> simp [outcome, read]

theorem Answered.length_le (h : Answered s plugin q decode es a) : es.length ≤ 1 := by
  cases h with
  | unasked failed => exact Nat.zero_le 1
  | asked text answer => exact Nat.le_refl 1

theorem Answered.exists_of_mem {r : Transport.Request × Transport.Answer}
    (h : Answered s plugin q decode es a) (hr : r ∈ es) :
    a = outcome plugin decode r.2 ∧
      ∃ e body, q.text = .ok body ∧ r.1 = request s plugin e q body := by
  cases h with
  | unasked failed => cases hr
  | asked text answer =>
    obtain rfl := List.mem_singleton.1 hr
    exact ⟨rfl, _, _, text, rfl⟩

theorem Answered.exists_reply {b : α} (h : Answered s plugin q decode es (.ok b)) :
    ∃ r reply, es = [(r, .ok reply)] ∧ decode reply.body = .ok b := by
  generalize came : Attempt.ok b = a at h
  cases h with
  | unasked failed => exact absurd came.symm (failed b)
  | asked text answer =>
    obtain ⟨reply, rfl, read⟩ := outcome_eq_ok_iff.1 came.symm
    exact ⟨_, reply, rfl, read⟩

end Client

namespace PollRequest

open Request (Draft Content textsJson valuesJson)
open Response (Members)

structure StandsIn (r : PollRequest) (ms : Members) : Prop where
  distinct : ms.names.Nodup
  configuration : ("scm-configuration", valuesJson r.configuration.pairs) ∈ ms
  data : ("scm-data", textsJson r.materialData.entries) ∈ ms
  folder : ("flyweight-folder", .str r.folder) ∈ ms
  complete : r.checkpoint = none → "previous-revision" ∉ ms.names
  incremental : ∀ c, r.checkpoint = some c → ∃ timestamp,
    ("previous-revision", .map [("revision", .str c.id), ("timestamp", .str timestamp),
      ("data", textsJson c.data.entries)]) ∈ ms ∧
    Stamp.parse timestamp = some (.ofMillis c.time.millis)

structure Sends (s : Settings) (plugin : String) (r : PollRequest) (q : Transport.Request) :
    Prop where
  plugin : q.plugin = plugin
  extension : q.extension = s.extension
  operation : q.operation =
    if r.checkpoint.isSome then "latest-revisions-since" else "latest-revision"
  body : ∃ text ms, q.body = some text ∧ Json.parse text = .ok (.map ms) ∧ r.StandsIn ms

def query : PollRequest → Client.Query
  | ⟨c, data, folder, none⟩ => .latestRevision c data folder
  | ⟨c, data, folder, some r⟩ => .revisionsSince c data folder r

def read (r : PollRequest) (body : Option String) : Except Response.Error PollResult :=
  match r.checkpoint with
  | none => Response.latestRevision body
  | some _ => (Response.revisionsSince body).map (·.withRevisionList)

variable {s : Settings} {plugin : String}

theorem exists_standsIn {r : PollRequest} {d : Draft} (draft : r.query.draft? = some d)
    (dated : d.Dated) : ∃ ms, d.content.envelope = .map ms ∧ r.StandsIn ms := by
  obtain ⟨c, data, folder, none | r⟩ := r
  · cases draft
    exact ⟨_, rfl, by simp, by simp, by simp, by simp, by simp, nofun⟩
  · cases draft
    refine ⟨_, rfl, by simp, by simp, by simp, by simp, nofun, ?_⟩
    rintro _ ⟨⟩
    exact ⟨_, by simp [Request.Checkpoint.json, Request.checkpoint],
      Request.parse_timestamp (dated r rfl)⟩

theorem sends_of_text {r : PollRequest} {body : Option String} (text : r.query.text = .ok body)
    (e : Edition) : r.Sends s plugin (Client.request s plugin e r.query body) where
  plugin := rfl
  extension := rfl
  operation := by
    obtain ⟨c, data, folder, none | r⟩ := r <;> rfl
  body := by
    obtain ⟨absent, -⟩ | ⟨d, draft, complete, rfl⟩ := Client.Query.text_eq_ok text
    · obtain ⟨c, data, folder, none | r⟩ := r <;> cases absent
    · obtain ⟨ms, envelope, stands⟩ := exists_standsIn draft complete.dated
      exact ⟨_, ms, rfl, envelope ▸ d.content.parse_text, stands⟩

theorem answered_poll (w : World σ) (s : Settings) (plugin : String) (r : PollRequest) (x : σ) :
    Client.Answered s plugin r.query r.read ((Poller.poll s plugin r).exchanges w x)
      ((Poller.poll s plugin r).run w x).1 := by
  obtain ⟨c, data, folder, none | r⟩ := r
  · have latest := Client.answered (q := .latestRevision c data folder) w s plugin
      (w.note (Poller.pollEvent "full poll" plugin []) x) nofun
    exact latest
  · have since := Client.answered (q := .revisionsSince c data folder r) w s plugin
      (w.note (Poller.pollEvent "incremental poll" plugin [("checkpoint", .text r.id)]) x) nofun
    simp only [Poller.poll, Call.exchanges_note_bind, Call.run_note_bind, Call.exchanges_bind_pure,
      Call.fst_run_bind_pure]
    exact since.map PollResult.withRevisionList

theorem sends_of_mem_exchanges {r : PollRequest} {x : σ}
    {q : Transport.Request × Transport.Answer}
    (hq : q ∈ (Poller.poll s plugin r).exchanges w x) : r.Sends s plugin q.1 := by
  obtain ⟨-, e, body, text, same⟩ := (r.answered_poll w s plugin x).exists_of_mem hq
  exact same ▸ sends_of_text text e

end PollRequest

namespace Response

open Request (textsJson)

variable {body : Option String} {name s : String} {j : Json} {ms : Members} {p : PollResult}
  {d : Option MaterialData}

/-- The body is an object in which the value, not null, stands under the name and no name is
repeated. -/
def Holds (body : Option String) (name : String) (j : Json) : Prop :=
  ∃ (s : String) (ms : Members), body = some s ∧ Json.parse s = .ok (.map ms) ∧ ms.names.Nodup ∧
    (name, j) ∈ ms ∧ j ≠ .null

def Brings (body : Option String) : Option MaterialData → Prop
  | none => ∀ j, ¬Holds body "scm-data" j
  | some d => Holds body "scm-data" (textsJson d.entries)

theorem brings_of_keeps (parsed : Json.parse s = .ok (.map ms)) (distinct : ms.names.Nodup)
    (keeps : ms.Keeps "scm-data" d) : Brings (some s) d := by
  cases d with
  | none =>
    rintro j ⟨_, ns, ⟨⟩, parsed', -, member, null⟩
    obtain rfl : ms = ns := Json.map.inj (Except.ok.inj (parsed.symm.trans parsed'))
    exact null (keeps j member)
  | some d => exact ⟨s, ms, rfl, parsed, distinct, keeps, nofun⟩

theorem Vacant.brings_none (vacant : Vacant body) : Brings body none := by
  rintro j ⟨s, ms, rfl, parsed, -⟩
  obtain blank | null := vacant s rfl
  · obtain ⟨c, hc, visible⟩ := Json.exists_mem_of_parse parsed
    rw [not_isBlank_of_mem hc visible] at blank
    cases blank
  · rw [parsed] at null
    cases null

theorem latestRevision_eq_ok (h : latestRevision body = .ok p) :
    p.latest.isSome ∧ p.revisions = none ∧ Brings body p.materialData := by
  obtain ⟨s, ms, rfl, parsed, reports⟩ := latestRevision_eq_ok_iff.1 h
  obtain ⟨-, r, -, -, latest⟩ := reports.latest
  exact ⟨latest ▸ rfl, reports.revisions, brings_of_keeps parsed reports.distinct reports.data⟩

theorem revisionsSince_eq_ok (h : revisionsSince body = .ok p) :
    p.latest = none ∧ Brings body p.materialData := by
  obtain ⟨vacant, rfl⟩ | ⟨s, ms, rfl, parsed, reports⟩ := revisionsSince_eq_ok_iff.1 h
  · exact ⟨rfl, vacant.brings_none⟩
  · exact ⟨reports.latest, brings_of_keeps parsed reports.distinct reports.data⟩

end Response

namespace PollRequest

open Response (Brings)

/-- What a poll comes to, by the body of the answer that it has read. -/
def Finds (r : PollRequest) (body : Option String) (p : PollResult) : Prop :=
  match r.checkpoint with
  | none => Response.latestRevision body = .ok p ∧ p.latest.isSome ∧ p.revisions = none
  | some _ => ∃ found, Response.revisionsSince body = .ok found ∧ p.latest = none ∧
    p.revisions = some (found.revisions.getD []) ∧ p.materialData = found.materialData

theorem withRevisionList_eq {p : PollResult} (latest : p.latest = none) :
    p.withRevisionList = { p with revisions := some (p.revisions.getD []) } := by
  obtain ⟨_, revisions, data⟩ := p
  obtain rfl := latest
  cases revisions <;> rfl

variable {r : PollRequest} {body : Option String} {p : PollResult}

theorem read_eq_ok (h : r.read body = .ok p) : r.Finds body p ∧ Brings body p.materialData := by
  obtain ⟨c, data, folder, none | r⟩ := r
  · obtain ⟨latest, revisions, brings⟩ := Response.latestRevision_eq_ok h
    exact ⟨⟨h, latest, revisions⟩, brings⟩
  · obtain ⟨found, read, rfl⟩ := Except.map_eq_ok_iff.1 h
    obtain ⟨latest, brings⟩ := Response.revisionsSince_eq_ok read
    rw [withRevisionList_eq latest]
    exact ⟨⟨found, read, latest, rfl, rfl⟩, brings⟩

end PollRequest

namespace Poller

open Request (textsJson)
open Response (Brings Holds)

def kept (data : MaterialData) : Attempt Failure PollResult → MaterialData
  | .ok p => p.materialDataAfter data
  | .error _ | .stopped => data

structure Turn (σ : Type) where
  before : σ → σ
  settings : Settings
  plugin : String
  configuration : Configuration
  folder : String
  checkpoint : Option Revision

structure Round where
  exchanges : List (Transport.Request × Transport.Answer)
  result : Attempt Failure PollResult
  deriving DecidableEq

def Turn.request (t : Turn σ) (data : MaterialData) : PollRequest :=
  ⟨t.configuration, data, t.folder, t.checkpoint⟩

def Turn.call (t : Turn σ) (data : MaterialData) : Call PollResult :=
  poll t.settings t.plugin (t.request data)

def Turn.round (w : World σ) (t : Turn σ) (data : MaterialData) (x : σ) : Round where
  exchanges := (t.call data).exchanges w (t.before x)
  result := ((t.call data).run w (t.before x)).1

def rounds (w : World σ) : List (Turn σ) → MaterialData → σ → List Round
  | [], _, _ => []
  | t :: ts, data, x =>
    t.round w data x :: rounds w ts (kept data (t.round w data x).result)
      ((t.call data).run w (t.before x)).2

def Round.Brings (e : Round) (j : Json) : Prop :=
  ∃ p r reply, e.result = .ok p ∧ (r, .ok reply) ∈ e.exchanges ∧ Holds reply.body "scm-data" j

theorem Round.not_brings_of_failed {e : Round} (failed : ∀ p, e.result ≠ .ok p) (j : Json) :
    ¬e.Brings j := by
  rintro ⟨p, _, _, succeeded, -⟩
  exact failed p succeeded

/-- The value is what the last of the rounds to bring any brought, or what there was at first. -/
def LastBrought (first : Json) (rounds : List Round) (j : Json) : Prop :=
  (∃ front e back, rounds = front ++ e :: back ∧ e.Brings j ∧ ∀ e' ∈ back, ∀ j', ¬e'.Brings j') ∨
    (∀ e ∈ rounds, ∀ j', ¬e.Brings j') ∧ j = first

theorem LastBrought.cons {first next j : Json} {e : Round} {rounds : List Round}
    (h : LastBrought next rounds j)
    (here : e.Brings next ∨ (∀ j', ¬e.Brings j') ∧ next = first) :
    LastBrought first (e :: rounds) j := by
  obtain ⟨front, e', back, rfl, brings, after⟩ | ⟨nothing, rfl⟩ := h
  · exact .inl ⟨e :: front, e', back, rfl, brings, after⟩
  · obtain brings | ⟨silent, rfl⟩ := here
    · exact .inl ⟨[], e, rounds, rfl, brings, nothing⟩
    · exact .inr ⟨List.forall_mem_cons.2 ⟨silent, nothing⟩, rfl⟩

variable {t : Turn σ} {data : MaterialData} {x : σ}

theorem Turn.holds_of_mem_exchanges {q : Transport.Request × Transport.Answer}
    (hq : q ∈ (t.round w data x).exchanges) :
    Holds q.1.body "scm-data" (textsJson data.entries) := by
  obtain ⟨s, ms, written, parsed, stands⟩ := (PollRequest.sends_of_mem_exchanges hq).body
  exact ⟨s, ms, written, parsed, stands.distinct, stands.data, nofun⟩

theorem Turn.brings_kept (w : World σ) (t : Turn σ) (data : MaterialData) (x : σ) :
    (t.round w data x).Brings (textsJson (kept data (t.round w data x).result).entries) ∨
      (∀ j, ¬(t.round w data x).Brings j) ∧ kept data (t.round w data x).result = data := by
  have answered := (t.request data).answered_poll w t.settings t.plugin (t.before x)
  change Client.Answered _ _ _ _ (t.round w data x).exchanges (t.round w data x).result at answered
  generalize t.round w data x = e at answered ⊢
  obtain ⟨es, a⟩ := e
  cases a with
  | ok p =>
    obtain ⟨q, reply, rfl, read⟩ := answered.exists_reply
    obtain ⟨-, brings⟩ := PollRequest.read_eq_ok read
    obtain ⟨latest, revisions, none | d⟩ := p
    · right
      refine ⟨?_, rfl⟩
      rintro j ⟨_, _, reply', -, answer, holds⟩
      cases List.mem_singleton.1 answer
      exact brings j holds
    · exact .inl ⟨_, q, reply, rfl, List.mem_cons_self, brings⟩
  | error e => exact .inr ⟨Round.not_brings_of_failed nofun, rfl⟩
  | stopped => exact .inr ⟨Round.not_brings_of_failed nofun, rfl⟩

theorem exists_lastBrought {ts : List (Turn σ)} {front back : List Round} {e : Round}
    (split : rounds w ts data x = front ++ e :: back) :
    ∃ j, LastBrought (textsJson data.entries) front j ∧
      ∀ q ∈ e.exchanges, Holds q.1.body "scm-data" j := by
  -- The rest of a run is a run that begins with the data that the first poll leaves.
  induction ts generalizing front data x with
  | nil => simp [rounds] at split
  | cons t ts ih =>
    cases front with
    | nil =>
      obtain ⟨rfl, -⟩ := List.cons.inj split
      exact ⟨_, .inr ⟨List.forall_mem_nil _, rfl⟩, fun q hq => Turn.holds_of_mem_exchanges hq⟩
    | cons first front =>
      obtain ⟨rfl, rest⟩ := List.cons.inj split
      obtain ⟨j, last, holds⟩ := ih rest
      refine ⟨j, last.cons ?_, holds⟩
      obtain brings | ⟨silent, same⟩ := t.brings_kept w data x
      · exact .inl brings
      · exact .inr ⟨silent, by rw [same]⟩

/-- A poll sends at most one request, which says what is known of the material, and comes to what
the answer says: with a checkpoint to a list of revisions and without one to the latest. In a run of
polls, each request has the data of the last successful one whose answer had any, or what there was
at first. -/
theorem polls_lawful (w : World σ) :
    (∀ s plugin r x, ((poll s plugin r).exchanges w x).length ≤ 1 ∧
      ∀ q ∈ (poll s plugin r).exchanges w x, r.Sends s plugin q.1 ∧
        ((poll s plugin r).run w x).1 = Client.outcome plugin r.read q.2) ∧
    (∀ s plugin r x p, ((poll s plugin r).run w x).1 = .ok p →
      ∃ q reply, (poll s plugin r).exchanges w x = [(q, .ok reply)] ∧ r.Finds reply.body p) ∧
    ∀ ts data x front e back, rounds w ts data x = front ++ e :: back →
      ∃ j, LastBrought (textsJson data.entries) front j ∧
        ∀ q ∈ e.exchanges, Holds q.1.body "scm-data" j := by
  refine ⟨?_, ?_, ?_⟩
  · intro s plugin r x
    have answered := r.answered_poll w s plugin x
    refine ⟨answered.length_le, fun q hq => ?_⟩
    exact ⟨PollRequest.sends_of_mem_exchanges hq, (answered.exists_of_mem hq).1⟩
  · intro s plugin r x p succeeded
    have answered := r.answered_poll w s plugin x
    rw [succeeded] at answered
    obtain ⟨q, reply, exchanged, read⟩ := answered.exists_reply
    exact ⟨q, reply, exchanged, (PollRequest.read_eq_ok read).1⟩
  · intro ts data x front e back
    exact exists_lastBrought

theorem polls_lawful_emptied :
    let revision := "\x7b\"revision\":\x7b\"revision\":\"r\",\"timestamp\":" ++
      "\"2026-01-02T03:04:05.006Z\"\x7d,\"scm-data\":\x7b\"a\":\"1\"\x7d\x7d"
    let script : Transport.Script := .respond (.respond (.respond (.respond {}
      "latest-revision" revision)
      "latest-revisions-since" "\x7b\"revisions\":5,\"scm-data\":\x7b\"b\":\"2\"\x7d\x7d")
      "latest-revisions-since" " null")
      "latest-revisions-since" "\x7b\"revisions\":[],\"scm-data\":\x7b\x7d\x7d"
    let registry : Registry := ⟨.ofList [("git", { descriptor := ⟨"git", [.v2_0]⟩ })]⟩
    let git : Rehearsal := { registry, script }
    let quiet : Rehearsal := { registry, script := .respond {} "latest-revisions-since" " null" }
    let r : Revision := { id := "r", time := ⟨0⟩ }
    let turn (checkpoint : Option Revision) : Turn Rehearsal := ⟨id, {}, "git", ∅, "/f", checkpoint⟩
    let rs := rounds Rehearsal.world [turn none, turn r, turn r, turn r, turn r]
      (.ofList [("z", "0")]) git
    let body := "\x7b\"scm-configuration\":\x7b\x7d,\"scm-data\":\x7b\x7d,\"flyweight-folder\":" ++
      "\"/f\",\"previous-revision\":\x7b\"revision\":\"r\",\"timestamp\":" ++
      "\"1970-01-01T00:00:00.000Z\",\"data\":\x7b\x7d\x7d\x7d"
    (∃ q reply, (poll {} "git" ⟨∅, ∅, "/f", r⟩).exchanges Rehearsal.world quiet =
        [(q, .ok reply)] ∧
      PollRequest.Finds ⟨∅, ∅, "/f", r⟩ reply.body { revisions := some [] }) ∧
    ∃ e j, rs = rs.take 4 ++ [e] ∧ e.exchanges.map (·.1.body) = [some body] ∧
      LastBrought (.map [("z", .str "0")]) (rs.take 4) j ∧ Holds (some body) "scm-data" j := by
  intro revision script registry git quiet r turn rs body
  obtain ⟨-, found, kept⟩ := polls_lawful Rehearsal.world
  obtain ⟨e, last⟩ : ∃ e, rs.drop 4 = [e] := List.length_eq_one_iff.1 (by decide +kernel)
  have split : rs = rs.take 4 ++ [e] := by rw [← last, List.take_append_drop]
  have sent : (rs.drop 4).map (fun e => e.exchanges.map (·.1.body)) = [[some body]] := by
    decide +kernel
  rw [last] at sent
  have sent : e.exchanges.map (·.1.body) = [some body] := List.singleton_inj.1 sent
  obtain ⟨j, brought, holds⟩ := kept _ _ _ _ _ _ split
  refine ⟨found {} "git" _ quiet _ (by decide +kernel), e, j, split, sent, brought, ?_⟩
  obtain ⟨q, hq, same⟩ := List.mem_map.1 (sent ▸ List.mem_cons_self : some body ∈ _)
  exact same ▸ holds q hq

end Poller

end ScmPlugins
