import ScmPlugins.Client.Poller
import ScmPlugins.Client.Publisher
import ScmPlugins.Proofs.Client.Law
import ScmPlugins.Proofs.Request.Refusal

namespace ScmPlugins

namespace Request

def IsValueIn (o : Json) (v : String) : Prop :=
  ∃ es k ps, o = .map es ∧ (k, .map ps) ∈ es ∧ ("value", .str v) ∈ ps

def IsConfigurationValue (j : Json) (v : String) : Prop :=
  ∃ ms o, j = .map ms ∧ IsValueIn o v ∧
    (("scm-configuration", o) ∈ ms ∨ ∃ os, ("scm-configurations", .list os) ∈ ms ∧ o ∈ os)

theorem isValueIn_iff {c : List (String × String)} {v : String} :
    IsValueIn (valuesJson c) v ↔ ∃ e ∈ c, e.2 = v := by
  constructor
  · rintro ⟨_, k, ps, ⟨⟩, member, value⟩
    obtain ⟨⟨l, u⟩, hu, same⟩ := List.mem_map.1 member
    cases same
    have same : v = u := by simpa using value
    exact ⟨(k, u), hu, same.symm⟩
  · rintro ⟨⟨k, v⟩, hv, rfl⟩
    exact ⟨_, k, _, rfl, List.mem_map.2 ⟨(k, v), hv, rfl⟩, List.mem_cons_self⟩

theorem isConfigurationValue_iff {d : Draft} {v : String} :
    IsConfigurationValue d.content.envelope v ↔ ∃ c ∈ d.configurations, ∃ e ∈ c.pairs, e.2 = v := by
  cases d with
  | shouldUpdate event cs =>
    have found : IsConfigurationValue (Draft.shouldUpdate event cs).content.envelope v ↔
        ∃ o, IsValueIn o v ∧ ∃ c ∈ cs, valuesJson c.pairs = o := by
      simp [IsConfigurationValue, Draft.content, Content.envelope]
    rw [found, Draft.configurations]
    constructor
    · rintro ⟨_, value, c, hc, rfl⟩
      exact ⟨c, hc, isValueIn_iff.1 value⟩
    · rintro ⟨c, hc, value⟩
      exact ⟨_, isValueIn_iff.2 value, c, hc, rfl⟩
  | _ =>
    simp [IsConfigurationValue, Draft.content, Draft.configurations, Content.envelope,
      isValueIn_iff]

/-- If there is a body at all, it reads as a document in which no value of a configuration refers to
a secret. -/
def Discreet (body : Option String) : Prop :=
  ∀ s, body = some s → ∃ j, Json.parse s = .ok j ∧
    ∀ v, IsConfigurationValue j v → ¬secretMark.toList <:+: v.toList

theorem Draft.Complete.discreet {d : Draft} (h : d.Complete) :
    Discreet (some d.content.envelope.text) := by
  rintro s ⟨⟩
  refine ⟨_, d.content.parse_text, fun v value => ?_⟩
  obtain ⟨c, hc, e, he, rfl⟩ := isConfigurationValue_iff.1 value
  exact h.secretFree c hc e he

end Request

variable {α β : Type} {p : Transport.Request → Prop}

namespace Call

variable {x : Call α}

def SendsOnly (p : Transport.Request → Prop) (x : Call α) : Prop :=
  ∀ (σ : Type) (w : World σ) (s : σ), ∀ r ∈ x.requests w s, p r

theorem sendsOnly_pure (a : α) : (pure a : Call α).SendsOnly p := fun _ _ _ _ => nofun

theorem sendsOnly_note (e : Event) : (note e).SendsOnly p := fun _ _ _ _ => nofun

theorem sendsOnly_supports (plugin provider event : String) :
    (supports plugin provider event).SendsOnly p := fun _ _ _ _ => nofun

theorem sendsOnly_publish (info : PluginInfo) : (publish info).SendsOnly p := by
  intro σ w s r hr
  simp only [Call.requests, publish, Task.requests] at hr
  split at hr <;> cases hr

theorem SendsOnly.bind {f : α → Call β} (hx : x.SendsOnly p) (hf : ∀ a, (f a).SendsOnly p) :
    (x >>= f).SendsOnly p := by
  intro σ w s r hr
  rw [requests_bind, List.mem_append] at hr
  obtain hr | hr := hr
  · exact hx σ w s r hr
  · cases came : (x.run w s).1 with
    | ok a =>
      rw [came] at hr
      exact hf a σ w _ r hr
    | _ =>
      rw [came] at hr
      cases hr

end Call

namespace Client.Query

theorem sendsOnly {q : Query} (s : Settings) (plugin : String)
    (h : ∀ r : Transport.Request, q.text = .ok r.body → p r) : (q.call s plugin).SendsOnly p := by
  intro σ w x r hr
  obtain stops | ⟨rs, a, goes⟩ := stops_or_goes w s plugin q x
  · have quiet : (q.call s plugin).requests w x = [] := stops.comes.1
    rw [quiet] at hr
    cases hr
  · have sends : (q.call s plugin).requests w x = rs := goes.comes.1
    rw [sends] at hr
    cases goes with
    | sent speaks has text =>
      obtain rfl := List.mem_singleton.1 hr
      exact h _ text
    | _ => cases hr

end Client.Query

inductive Errand where
  | ask (q : Client.Query)
  | poll (r : PollRequest)
  | choose (event : WebhookEvent) (materials : List Material)
  | publish

namespace Errand

def Answer : Errand → Type
  | ask q => q.Answer
  | poll _ => PollResult
  | choose _ _ => List Material
  | publish => Unit

def call (s : Settings) (plugin : String) : (e : Errand) → Call e.Answer
  | ask q => q.call s plugin
  | poll r => Poller.poll s plugin r
  | choose event materials => Poller.materialsToUpdate s plugin event materials
  | publish => Publisher.publish s plugin

section

variable {s : Settings} {plugin : String}

theorem sendsOnly_poll (asked : ∀ q : Client.Query, (q.call s plugin).SendsOnly p)
    (r : PollRequest) : (Poller.poll s plugin r).SendsOnly p := by
  obtain ⟨c, data, folder, checkpoint⟩ := r
  cases checkpoint with
  | none =>
    have latest : (Client.latestRevision s plugin c data folder).SendsOnly p :=
      asked (.latestRevision c data folder)
    exact (Call.sendsOnly_note _).bind fun _ => latest
  | some r =>
    have since : (Client.revisionsSince s plugin c data folder r).SendsOnly p :=
      asked (.revisionsSince c data folder r)
    exact (Call.sendsOnly_note _).bind fun _ => since.bind fun _ => Call.sendsOnly_pure _

theorem sendsOnly_materialsToUpdate (asked : ∀ q : Client.Query, (q.call s plugin).SendsOnly p)
    (event : WebhookEvent) (materials : List Material) :
    (Poller.materialsToUpdate s plugin event materials).SendsOnly p := by
  have answered (cs : List Configuration) : (Client.shouldUpdate s plugin event cs).SendsOnly p :=
    asked (.shouldUpdate event cs)
  unfold Poller.materialsToUpdate
  split
  · exact Call.sendsOnly_pure _
  · refine (Call.sendsOnly_supports _ _ _).bind fun published => ?_
    split
    · exact (answered _).bind fun _ => (Call.sendsOnly_note _).bind fun _ => Call.sendsOnly_pure _
    · exact (Call.sendsOnly_note _).bind fun _ => Call.sendsOnly_pure _

theorem sendsOnly_publish (asked : ∀ q : Client.Query, (q.call s plugin).SendsOnly p) :
    (Publisher.publish s plugin).SendsOnly p := by
  have configuration : (Client.configuration s plugin).SendsOnly p := asked .configuration
  have view : (Client.view s plugin).SendsOnly p := asked .view
  have capabilities : (Client.capabilities s plugin).SendsOnly p := asked .capabilities
  have built : (Publisher.build s plugin).SendsOnly p := by
    unfold Publisher.build
    refine configuration.bind fun _ => view.bind fun _ => capabilities.bind fun _ => ?_
    exact (Call.sendsOnly_note _).bind fun _ => Call.sendsOnly_pure _
  unfold Publisher.publish
  exact built.bind Call.sendsOnly_publish

end

theorem sendsOnly {e : Errand} (s : Settings) (plugin : String)
    (h : ∀ (r : Transport.Request) (q : Client.Query), q.text = .ok r.body → p r) :
    (e.call s plugin).SendsOnly p := by
  have asked (q : Client.Query) : (q.call s plugin).SendsOnly p :=
    q.sendsOnly s plugin fun r text => h r q text
  cases e with
  | ask q => exact asked q
  | poll r => exact sendsOnly_poll asked r
  | choose event materials => exact sendsOnly_materialsToUpdate asked event materials
  | publish => exact sendsOnly_publish asked

structure Turn (σ : Type) where
  before : σ → σ
  settings : Settings
  plugin : String
  errand : Errand

variable {σ : Type}

def Turn.call (t : Turn σ) : Call t.errand.Answer := t.errand.call t.settings t.plugin

def log (w : World σ) : List (Turn σ) → σ → List Transport.Request
  | [], _ => []
  | t :: ts, x => t.call.requests w (t.before x) ++ log w ts (t.call.run w (t.before x)).2

theorem forall_mem_log (w : World σ) (ts : List (Turn σ)) (x : σ)
    (h : ∀ t ∈ ts, t.call.SendsOnly p) : ∀ r ∈ log w ts x, p r := by
  induction ts generalizing x with
  | nil => exact nofun
  | cons t ts ih =>
    obtain ⟨here, rest⟩ := List.forall_mem_cons.1 h
    intro r hr
    obtain hr | hr := List.mem_append.1 hr
    · exact here σ w _ r hr
    · exact ih _ rest r hr

end Errand

namespace Request

theorem discreet_of_text {q : Client.Query} {body : Option String} (h : q.text = .ok body) :
    Discreet body := by
  obtain ⟨-, rfl⟩ | ⟨d, -, complete, rfl⟩ := Client.Query.text_eq_ok h
  · exact nofun
  · exact complete.discreet

/-- A body is refused for a secret exactly if some configuration has a value that refers to one, and
for the first such value; no time of a revision changes that. And no request of any run of errands
has a value of a configuration in its body that refers to a secret. -/
theorem secrets_withheld :
    (∀ (d : Draft) (key : String),
      text d.body = .error (.unresolvedSecret key) ↔ FirstSecret d.configurations key) ∧
    (∀ d : Draft, (∃ key, text d.body = .error (.unresolvedSecret key)) ↔
      ∃ c ∈ d.configurations, ∃ e ∈ c.entries, secretMark.toList <:+: e.2.value.toList) ∧
    ∀ (σ : Type) (w : World σ) (ts : List (Errand.Turn σ)) (x : σ),
      ∀ r ∈ Errand.log w ts x, Discreet r.body := by
  have refused (d : Draft) (key : String) :
      text d.body = .error (.unresolvedSecret key) ↔ FirstSecret d.configurations key := by
    simp [Draft.text_eq_error_iff]
  refine ⟨refused, ?_, ?_⟩
  · intro d
    simp only [refused, exists_firstSecret_iff]
  · intro σ w ts x
    refine Errand.forall_mem_log w ts x fun t _ => ?_
    exact Errand.sendsOnly t.settings t.plugin fun r q text => discreet_of_text text

theorem secrets_withheld_second :
    let a : Configuration := .ofValues [("url", "\"\x7b\x7bSECRET:")]
    let b : Configuration := .ofValues [("user", "[x]"), ("pass", "a\x7b\x7bSECRET:[b"),
      ("key", "\x7b\x7bSECRET:[c]\x7d\x7d")]
    let late : Revision := { id := "r", time := ⟨1000000000000000000000⟩ }
    let git : Rehearsal := { registry := ⟨.ofList [("git", { descriptor := ⟨"git", [.v2_0]⟩ })]⟩ }
    let poll (c : Configuration) : Errand.Turn Rehearsal :=
      ⟨id, {}, "git", .poll ⟨c, ∅, "/f", none⟩⟩
    let r : Transport.Request := ⟨"git", "scm", .v2_0, "latest-revision", some
      ("\x7b\"scm-configuration\":\x7b\"url\":\x7b\"value\":\"\\\"\x7b\x7bSECRET:\"\x7d\x7d," ++
        "\"scm-data\":\x7b\x7d,\"flyweight-folder\":\"/f\"\x7d")⟩
    text (Draft.shouldUpdate ⟨"github", "push", ""⟩ [a, b]).body =
        .error (.unresolvedSecret "pass") ∧
      ¬(Draft.checkout b "/x" late).Dated ∧
      text (Draft.checkout b "/x" late).body = .error (.unresolvedSecret "pass") ∧
      Errand.log Rehearsal.world [poll a, poll b, poll a] git = [r, r] ∧ Discreet r.body := by
  intro a b late git poll r
  obtain ⟨refused, -, discreet⟩ := secrets_withheld
  have batch : FirstSecret [a, b] "pass" := findSome?_unresolved?_eq_some_iff.1 (by decide +kernel)
  have single : FirstSecret [b] "pass" := findSome?_unresolved?_eq_some_iff.1 (by decide +kernel)
  have sent : Errand.log Rehearsal.world [poll a, poll b, poll a] git = [r, r] := by decide +kernel
  refine ⟨(refused _ _).2 batch, by decide +kernel, (refused _ _).2 single, sent, ?_⟩
  refine discreet Rehearsal Rehearsal.world [poll a, poll b, poll a] git r ?_
  rw [sent]
  exact List.mem_cons_self

end Request

end ScmPlugins
