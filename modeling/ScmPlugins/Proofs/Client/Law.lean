import ScmPlugins.Proofs.Client.Exchange
import ScmPlugins.Proofs.Request.Envelope
import ScmPlugins.Rehearsal

/-!
The law of calls to plugins. An unknown plugin comes before versions that do not meet, these before
an operation that the edition does not have, and this before a body that cannot be written; past all
of them one request is sent. Of a run of calls, between which anything may happen, the requests are
those of the calls in turn.
-/

namespace ScmPlugins.Client

open Request (Draft SecretFree)

inductive Query where
  | configuration
  | view
  | validate (c : Configuration)
  | checkConnection (c : Configuration)
  | latestRevision (c : Configuration) (data : MaterialData) (folder : String)
  | revisionsSince (c : Configuration) (data : MaterialData) (folder : String) (r : Revision)
  | checkout (c : Configuration) (folder : String) (r : Revision)
  | capabilities
  | shouldUpdate (event : WebhookEvent) (cs : List Configuration)

namespace Query

def Answer : Query → Type
  | configuration => Configuration
  | view => View
  | validate _ => Validation
  | checkConnection _ => CheckResult
  | latestRevision _ _ _ => PollResult
  | revisionsSince _ _ _ _ => PollResult
  | checkout _ _ _ => CheckResult
  | capabilities => Discovery
  | shouldUpdate _ _ => List Configuration

def call (s : Settings) (plugin : String) : (q : Query) → Call q.Answer
  | configuration => Client.configuration s plugin
  | view => Client.view s plugin
  | validate c => Client.validate s plugin c
  | checkConnection c => Client.checkConnection s plugin c
  | latestRevision c data folder => Client.latestRevision s plugin c data folder
  | revisionsSince c data folder r => Client.revisionsSince s plugin c data folder r
  | checkout c folder r => Client.checkout s plugin c folder r
  | capabilities => Client.capabilities s plugin
  | shouldUpdate event cs => Client.shouldUpdate s plugin event cs

def operation : Query → Operation
  | configuration => .configuration
  | view => .view
  | validate _ => .validate
  | checkConnection _ => .checkConnection
  | latestRevision _ _ _ => .latestRevision
  | revisionsSince _ _ _ _ => .revisionsSince
  | checkout _ _ _ => .checkout
  | capabilities => .capabilities
  | shouldUpdate _ _ => .shouldUpdate

def draft? : Query → Option Draft
  | configuration | view | capabilities => none
  | validate c | checkConnection c => some (.configuration c)
  | latestRevision c data folder => some (.latestRevision c data folder)
  | revisionsSince c data folder r => some (.revisionsSince c data folder r)
  | checkout c folder r => some (.checkout c folder r)
  | shouldUpdate event cs => some (.shouldUpdate event cs)

def read : (q : Query) → Option String → Except Response.Error q.Answer
  | configuration => Response.configuration
  | view => Response.view
  | validate _ => Response.validation
  | checkConnection _ => Response.checkResult
  | latestRevision _ _ _ => Response.latestRevision
  | revisionsSince _ _ _ _ => Response.revisionsSince
  | checkout _ _ _ => Response.checkResult
  | capabilities => fun body => (Response.capabilities body).map .declared
  | shouldUpdate _ _ => Response.shouldUpdate

def withheld (plugin : String) (v : Version) : (q : Query) → Attempt Failure q.Answer
  | capabilities => .ok (.unsupported v)
  | q => .error (.unsupportedOperation plugin q.operation v)

def text (q : Query) : Attempt Request.Error (Option String) :=
  match q.draft? with
  | none => .ok none
  | some d => Request.text d.body >>= fun s => .ok (some s)

def ask (s : Settings) (plugin : String) (q : Query) (e : Edition) : Call q.Answer :=
  exchange s plugin e q.operation (q.draft?.map Draft.body) q.read

theorem bodyText_draft? (plugin : String) (q : Query) :
    bodyText plugin (q.draft?.map Draft.body) = q.text.mapError (.encodeRequest plugin) := by
  unfold text bodyText
  cases q.draft? with
  | none => rfl
  | some d =>
    simp only [Option.map_some]
    cases Request.text d.body <;> rfl

theorem text_eq_stopped_iff {q : Query} :
    q.text = .stopped ↔
      ∃ d, q.draft? = some d ∧ (∀ c ∈ d.configurations, SecretFree c) ∧ ¬d.Dated := by
  unfold text
  cases q.draft? with
  | none => simp
  | some d =>
    simp only [Option.some.injEq, exists_eq_left', ← Draft.body_eq_stopped_iff, Request.text]
    cases d.body <;> simp

theorem text_eq_ok {q : Query} {body : Option String} (h : q.text = .ok body) :
    q.draft? = none ∧ body = none ∨
      ∃ d, q.draft? = some d ∧ d.Complete ∧ body = some d.content.envelope.text := by
  unfold text at h
  cases draft : q.draft? with
  | none =>
    simp only [draft, Attempt.ok.injEq] at h
    exact .inl ⟨rfl, h.symm⟩
  | some d =>
    right
    simp only [draft, Request.text] at h
    cases written : d.body with
    | ok j =>
      obtain ⟨complete, rfl⟩ := Draft.body_eq_ok_iff.1 written
      simp only [written, Attempt.ok_bind, Attempt.ok.injEq] at h
      exact ⟨d, rfl, complete, h.symm⟩
    | _ => simp [written] at h

end Query

variable {σ : Type}

def Comes (w : World σ) (s : Settings) (plugin : String) (q : Query) (x : σ)
    (rs : List Transport.Request) (a : Attempt Failure q.Answer) : Prop :=
  (q.call s plugin).requests w x = rs ∧ ((q.call s plugin).run w x).1 = a

def request (s : Settings) (plugin : String) (e : Edition) (q : Query) (body : Option String) :
    Transport.Request :=
  ⟨plugin, s.extension, e.version, q.operation.name, body⟩

/-- The state in which a request arrives: two events were told before. -/
def arrival (w : World σ) (plugin : String) (e : Edition) (q : Query) (x : σ) : σ :=
  w.note (submittingEvent plugin q.operation.name e.version)
    (w.note (resolvedEvent plugin e.version) x)

/-- How a query goes in a state, the first obstacle deciding: the requests that it sends and what it
comes to. -/
inductive Goes (w : World σ) (s : Settings) (plugin : String) (q : Query) (x : σ) :
    List Transport.Request → Attempt Failure q.Answer → Prop
  | unknown (unknown : w.declared plugin x = none) :
    Goes w s plugin q x [] (.error (.pluginNotFound plugin))
  | unshared {declared : List Version} (known : w.declared plugin x = some declared)
      (unshared : ∀ v ∈ serverVersions s, v ∉ declared) :
    Goes w s plugin q x [] (.error (.noCompatibleVersion plugin declared (serverVersions s)))
  | withheld {e : Edition} (speaks : Speaks w s plugin x e) (lacks : q.operation ∉ e.operations) :
    Goes w s plugin q x [] (q.withheld plugin e.version)
  | unwritten {e : Edition} {err : Request.Error} (speaks : Speaks w s plugin x e)
      (has : q.operation ∈ e.operations) (text : q.text = .error err) :
    Goes w s plugin q x [] (.error (.encodeRequest plugin err))
  | sent {e : Edition} {body : Option String} (speaks : Speaks w s plugin x e)
      (has : q.operation ∈ e.operations) (text : q.text = .ok body) :
    Goes w s plugin q x [request s plugin e q body]
      (outcome plugin q.read (w.submit (request s plugin e q body) (arrival w plugin e q x)).1)

/-- A revision without a date in UTC is all that is in the way. -/
def Stops (w : World σ) (s : Settings) (plugin : String) (q : Query) (x : σ) : Prop :=
  ∃ e d, Speaks w s plugin x e ∧ q.operation ∈ e.operations ∧ q.draft? = some d ∧
    (∀ c ∈ d.configurations, SecretFree c) ∧ ¬d.Dated

section Call

variable {w : World σ} {s : Settings} {plugin : String} {q : Query} {x : σ}

theorem comes_of_yields {rs : List Transport.Request} {a : Attempt Failure q.Answer} {y : σ}
    (h : (q.call s plugin).Yields w x rs a y) : Comes w s plugin q x rs a :=
  ⟨h.requests, congrArg Prod.fst h.run⟩

theorem Comes.yields {rs : List Transport.Request} {a : Attempt Failure q.Answer}
    (h : Comes w s plugin q x rs a) :
    (q.call s plugin).Yields w x rs a ((q.call s plugin).run w x).2 :=
  ⟨h.1, Prod.ext h.2 rfl⟩

theorem comes_of_edition_error {f : Failure}
    (h : (edition s plugin).Yields w x [] (.error f) x) : Comes w s plugin q x [] (.error f) := by
  cases q <;> exact comes_of_yields h.bind_error

theorem comes_of_ask {e : Edition} {rs : List Transport.Request} {a : Attempt Failure q.Answer}
    {y : σ} (speaks : Speaks w s plugin x e) (has : q.operation ∈ e.operations)
    (h : (q.ask s plugin e).Yields w (w.note (resolvedEvent plugin e.version) x) rs a y) :
    Comes w s plugin q x rs a := by
  obtain ⟨declared, known, agrees⟩ := speaks
  have settled := edition_agrees known agrees
  cases q with
  | capabilities =>
    -- Only here does the client look at the edition before it comes to an exchange.
    cases e with
    | v1 => exact absurd has (by decide)
    | v2 => exact comes_of_yields (settled.bind h)
  | _ => exact comes_of_yields (settled.bind h)

theorem comes_withheld {e : Edition} (speaks : Speaks w s plugin x e)
    (lacks : q.operation ∉ e.operations) :
    Comes w s plugin q x [] (q.withheld plugin e.version) := by
  obtain ⟨declared, known, agrees⟩ := speaks
  have settled := edition_agrees known agrees
  cases q with
  | capabilities =>
    cases e with
    | v1 =>
      apply comes_of_yields
      exact settled.bind ((Call.yields_note w _ _).bind (Call.yields_pure w _ _))
    | v2 => exact absurd (by decide) lacks
  | shouldUpdate event cs => exact comes_of_yields (settled.bind (exchange_withheld lacks))
  | _ => exact absurd (mem_operations_iff.2 (.inr (by simp [Query.operation]))) lacks

theorem Stops.comes (h : Stops w s plugin q x) : Comes w s plugin q x [] .stopped := by
  obtain ⟨e, d, speaks, has, hd, secretFree, undated⟩ := h
  have text : q.text = .stopped := Query.text_eq_stopped_iff.2 ⟨d, hd, secretFree, undated⟩
  refine comes_of_ask speaks has (exchange_stopped has ?_)
  rw [Query.bodyText_draft?, text]
  rfl

theorem Goes.comes {rs : List Transport.Request} {a : Attempt Failure q.Answer}
    (h : Goes w s plugin q x rs a) : Comes w s plugin q x rs a := by
  cases h with
  | unknown unknown => exact comes_of_edition_error (edition_unknown unknown)
  | unshared known unshared => exact comes_of_edition_error (edition_unshared known unshared)
  | withheld speaks lacks => exact comes_withheld speaks lacks
  | unwritten speaks has text =>
    refine comes_of_ask speaks has (exchange_unwritten has ?_)
    rw [Query.bodyText_draft?, text]
    rfl
  | sent speaks has text =>
    refine comes_of_ask speaks has (exchange_sent has ?_ rfl rfl)
    rw [Query.bodyText_draft?, text]
    rfl

theorem stops_or_goes (w : World σ) (s : Settings) (plugin : String) (q : Query) (x : σ) :
    Stops w s plugin q x ∨ ∃ rs a, Goes w s plugin q x rs a := by
  cases known : w.declared plugin x with
  | none => exact .inr ⟨_, _, .unknown known⟩
  | some declared =>
    obtain unshared | ⟨e, agrees⟩ := unshared_or_agrees s declared
    · exact .inr ⟨_, _, .unshared known unshared⟩
    · have speaks : Speaks w s plugin x e := ⟨declared, known, agrees⟩
      by_cases has : q.operation ∈ e.operations
      · cases text : q.text with
        | ok body => exact .inr ⟨_, _, .sent speaks has text⟩
        | error err => exact .inr ⟨_, _, .unwritten speaks has text⟩
        | stopped =>
          obtain ⟨d, hd, secretFree, undated⟩ := Query.text_eq_stopped_iff.1 text
          exact .inl ⟨e, d, speaks, has, hd, secretFree, undated⟩
      · exact .inr ⟨_, _, .withheld speaks has⟩

theorem Goes.ne_stopped {rs : List Transport.Request} {a : Attempt Failure q.Answer}
    (h : Goes w s plugin q x rs a) : a ≠ .stopped := by
  cases h with
  | withheld speaks lacks => cases q <;> nofun
  | @sent e body speaks has text =>
    unfold outcome
    split
    · nofun
    · split <;> nofun
  | _ => nofun

theorem goes_iff {rs : List Transport.Request} {a : Attempt Failure q.Answer} :
    Goes w s plugin q x rs a ↔ ¬Stops w s plugin q x ∧ Comes w s plugin q x rs a := by
  constructor
  · intro goes
    refine ⟨fun stops => goes.ne_stopped ?_, goes.comes⟩
    exact goes.comes.2.symm.trans stops.comes.2
  · rintro ⟨runs, rfl, rfl⟩
    obtain ⟨rs, a, goes⟩ := (stops_or_goes w s plugin q x).resolve_left runs
    obtain ⟨rfl, rfl⟩ := goes.comes
    exact goes

end Call

structure Turn (σ : Type) where
  before : σ → σ
  settings : Settings
  plugin : String
  query : Query

def Turn.call (t : Turn σ) : Call t.query.Answer := t.query.call t.settings t.plugin

def Turn.after (w : World σ) (t : Turn σ) (x : σ) : σ := (t.call.run w (t.before x)).2

def log (w : World σ) : List (Turn σ) → σ → List Transport.Request
  | [], _ => []
  | t :: ts, x => t.call.requests w (t.before x) ++ log w ts (t.after w x)

/-- What a run may send: the requests that the law allows each query in turn. -/
inductive Logged (w : World σ) : List (Turn σ) → σ → List Transport.Request → Prop
  | nil {x : σ} : Logged w [] x []
  | goes {t : Turn σ} {ts : List (Turn σ)} {x : σ} {rs rs' : List Transport.Request}
      {a : Attempt Failure t.query.Answer}
      (goes : Goes w t.settings t.plugin t.query (t.before x) rs a)
      (rest : Logged w ts (t.after w x) rs') : Logged w (t :: ts) x (rs ++ rs')
  | stops {t : Turn σ} {ts : List (Turn σ)} {x : σ} {rs : List Transport.Request}
      (stops : Stops w t.settings t.plugin t.query (t.before x))
      (rest : Logged w ts (t.after w x) rs) : Logged w (t :: ts) x rs

theorem logged_log (w : World σ) (ts : List (Turn σ)) (x : σ) : Logged w ts x (log w ts x) := by
  induction ts generalizing x with
  | nil => exact .nil
  | cons t ts ih =>
    obtain stops | ⟨rs, a, goes⟩ :=
      stops_or_goes w t.settings t.plugin t.query (t.before x)
    · have quiet : t.call.requests w (t.before x) = [] := stops.comes.1
      rw [log, quiet]
      exact .stops stops (ih _)
    · have sends : t.call.requests w (t.before x) = rs := goes.comes.1
      rw [log, sends]
      exact .goes goes (ih _)

/-- A query goes by the law exactly where it does not stop for a revision without a date in UTC, and
then nothing is sent. The log of every run, whatever happens in between, is that of its queries. -/
theorem calls_lawful (w : World σ) :
    (∀ s plugin q x rs a, Goes w s plugin q x rs a ↔
      ¬Stops w s plugin q x ∧ Comes w s plugin q x rs a) ∧
    (∀ s plugin q x, Stops w s plugin q x → Comes w s plugin q x [] .stopped) ∧
    ∀ ts x, Logged w ts x (log w ts x) := by
  refine ⟨?_, ?_, ?_⟩
  · intro s plugin q x rs a
    exact goes_iff
  · intro s plugin q x stops
    exact stops.comes
  · intro ts x
    exact logged_log w ts x

theorem checkout_stops :
    let git : Rehearsal := { registry := ⟨.ofList [("git", { descriptor := ⟨"git", [.v2_0]⟩ })]⟩ }
    let time : LocalTime := ⟨⟨⟨9999, 12, 31⟩, 23, 0, 0, 0⟩, -3600⟩
    let q : Query := .checkout ∅ "/x" { id := "r", time := time.instant }
    time.time.isValid = true ∧ Stops Rehearsal.world {} "git" q git ∧
      Comes Rehearsal.world {} "git" q git [] .stopped ∧
      ¬∃ rs a, Goes Rehearsal.world {} "git" q git rs a := by
  intro git time q
  have agrees : Agrees {} [.v2_0] .v2 := agrees_iff.2 (by decide)
  have stops : Stops Rehearsal.world {} "git" q git :=
    ⟨.v2, _, ⟨_, rfl, agrees⟩, by decide, rfl, by decide, by decide⟩
  refine ⟨by decide, stops, stops.comes, ?_⟩
  rintro ⟨rs, a, goes⟩
  exact (goes_iff.1 goes).1 stops

end ScmPlugins.Client
