import ScmPlugins.Proofs.Client.Hosting

namespace ScmPlugins

def Registry.Publishes (g : Registry) (plugin provider event : String) : Prop :=
  ∃ record info, g.get? plugin = some record ∧ record.info = some info ∧
    ∃ hook ∈ info.capabilities.webhooks, hook.provider = provider ∧ event ∈ hook.events

theorem Registry.supports_iff_publishes {g : Registry} {plugin provider event : String} :
    g.supports plugin provider event = true ↔ g.Publishes plugin provider event := by
  simp only [supports_iff, Capabilities.supports_iff, Publishes]

variable {σ τ : Type}

def World.informedBy (w : World σ) (g : σ → Registry) : World σ :=
  { w with supports := fun plugin provider event x => (g x).supports plugin provider event }

theorem World.supports_informedBy_iff {w : World σ} {g : σ → Registry}
    {plugin provider event : String} {x : σ} :
    (w.informedBy g).supports plugin provider event x = true ↔
      (g x).Publishes plugin provider event := Registry.supports_iff_publishes

namespace Poller

open Client (Query)
open Request (Draft)

variable {materials : List Material} {cs ds : List Configuration}

/-- What is among `cs` has the values of one of `ds`, or those of no material. -/
def Covered (materials : List Material) (cs ds : List Configuration) : Prop :=
  ∀ c ∈ cs, (∃ d ∈ ds, d.SameValues c) ∨ ∀ m ∈ materials, ¬c.SameValues m.configuration

theorem Covered.matches (h : Covered materials cs ds) {m : Material} (hm : m ∈ materials)
    (found : ∃ c ∈ cs, c.SameValues m.configuration) :
    ∃ d ∈ ds, d.SameValues m.configuration := by
  obtain ⟨c, hc, same⟩ := found
  obtain ⟨d, hd, alike⟩ | stranger := h c hc
  · exact ⟨d, hd, alike.trans same⟩
  · exact absurd same (stranger m hm)

theorem matching_congr (h : Covered materials cs ds) (h' : Covered materials ds cs) :
    matching materials cs = matching materials ds := by
  apply List.filter_congr
  intro m hm
  exact decide_eq_decide.2 ⟨h.matches hm, h'.matches hm⟩

structure AsksAbout (plugin : String) (event : WebhookEvent) (materials : List Material)
    (r : Transport.Request) : Prop where
  plugin : r.plugin = plugin
  operation : r.operation = "should-update"
  body : ∃ body, r.body = some body ∧ Json.parse body = .ok (.map [
    ("provider", .str event.provider), ("event_type", .str event.eventType),
    ("event_payload", .str event.payload), ("scm-configurations", .list (materials.map object))])

section Asking

variable {w : World σ} {s : Settings} {plugin : String} {event : WebhookEvent} {x : σ}

theorem parse_of_text_eq_ok {body : Option String} (h : (query event materials).text = .ok body) :
    ∃ text, body = some text ∧ Json.parse text = .ok (.map [
      ("provider", .str event.provider), ("event_type", .str event.eventType),
      ("event_payload", .str event.payload),
      ("scm-configurations", .list (materials.map object))]) := by
  simp only [query, Query.text, Query.draft?, Request.text] at h
  cases written : (Draft.shouldUpdate event (materials.map (·.configuration))).body with
  | ok j =>
    obtain ⟨-, rfl⟩ := Draft.body_eq_ok_iff.1 written
    simp only [written, Attempt.ok_bind, Attempt.ok.injEq] at h
    refine ⟨_, h.symm, ?_⟩
    rw [Request.Content.parse_text, envelope_eq]
  | error e =>
    rw [written] at h
    cases h
  | stopped =>
    rw [written] at h
    cases h

theorem exists_goes (w : World σ) (s : Settings) (plugin : String) (event : WebhookEvent)
    (materials : List Material) (x : σ) :
    ∃ rs a, Client.Goes w s plugin (query event materials) x rs a := by
  refine (Client.stops_or_goes w s plugin (query event materials) x).resolve_left ?_
  rintro ⟨e, d, -, -, draft, -, undated⟩
  obtain rfl := Option.some.inj draft
  exact undated (by simp [Draft.Dated, Draft.revision?])

theorem sent_or_failed {rs : List Transport.Request}
    {a : Attempt Failure (query event materials).Answer}
    (goes : Client.Goes w s plugin (query event materials) x rs a) :
    (∃ r, rs = [r] ∧ AsksAbout plugin event materials r) ∨ rs = [] ∧ ∃ f, a = .error f := by
  cases goes with
  | sent speaks has text => exact .inl ⟨_, rfl, rfl, rfl, parse_of_text_eq_ok text⟩
  | _ => exact .inr ⟨rfl, _, rfl⟩

theorem materialsToUpdate_quiet
    (h : materials = [] ∨ w.supports plugin event.provider event.eventType x = false) :
    ∃ y, (materialsToUpdate s plugin event materials).Yields w x [] (.ok []) y := by
  obtain rfl | unpublished := h
  · exact ⟨x, Call.yields_pure w _ x⟩
  · exact materialsToUpdate_unpublished s materials unpublished

theorem materialsToUpdate_of_goes {rs : List Transport.Request}
    {a : Attempt Failure (List Configuration)} (nonempty : materials ≠ [])
    (published : w.supports plugin event.provider event.eventType x = true)
    (goes : Client.Goes w s plugin (query event materials) x rs a) :
    (materialsToUpdate s plugin event materials).requests w x = rs ∧
      ((materialsToUpdate s plugin event materials).run w x).1 =
        a >>= fun cs => .ok (matching materials cs) := by
  obtain ⟨y, yields⟩ := materialsToUpdate_asked nonempty published goes.comes.yields
  refine ⟨yields.requests, ?_⟩
  rw [yields.run]
  simp only [select_eq_matching]

theorem materialsToUpdate_of_answer
    (published : w.supports plugin event.provider event.eventType x = true)
    (answered : ((Client.shouldUpdate s plugin event (materials.map (·.configuration))).run w x).1 =
      .ok cs) :
    ((materialsToUpdate s plugin event materials).run w x).1 = .ok (matching materials cs) := by
  by_cases nonempty : materials = []
  · subst nonempty
    rfl
  · obtain ⟨rs, a, goes⟩ := exists_goes w s plugin event materials x
    obtain rfl : a = .ok cs := goes.comes.2.symm.trans answered
    exact (materialsToUpdate_of_goes nonempty published goes).2

end Asking

/-- Nothing is asked and nothing chosen without materials or a published reaction to the event.
Otherwise one call with all materials decides: its error is passed on, and of its answer those
materials are chosen that have the values of a configuration in it. So two answers with the same
values in them, apart from such as no material has, choose the same materials. -/
theorem webhook_selection (w : World σ) (g : σ → Registry) (w' : World τ) (g' : τ → Registry) :
    let v := w.informedBy g
    let v' := w'.informedBy g'
    (∀ s plugin event materials x,
      materials = [] ∨ ¬(g x).Publishes plugin event.provider event.eventType →
      (materialsToUpdate s plugin event materials).requests v x = [] ∧
        ((materialsToUpdate s plugin event materials).run v x).1 = .ok []) ∧
    (∀ s plugin event materials x,
      let asked := Client.shouldUpdate s plugin event (materials.map (·.configuration))
      let chosen := materialsToUpdate s plugin event materials
      materials ≠ [] → (g x).Publishes plugin event.provider event.eventType →
        chosen.requests v x = asked.requests v x ∧
        ((∃ r, asked.requests v x = [r] ∧ AsksAbout plugin event materials r) ∨
          asked.requests v x = [] ∧ ∃ f, (asked.run v x).1 = .error f) ∧
        (asked.run v x).1 ≠ .stopped ∧
        (∀ f, (asked.run v x).1 = .error f → (chosen.run v x).1 = .error f) ∧
        ∀ cs, (asked.run v x).1 = .ok cs → (chosen.run v x).1 = .ok (matching materials cs)) ∧
    ∀ s s' plugin plugin' event event' materials x y cs ds,
      (g x).Publishes plugin event.provider event.eventType →
      (g' y).Publishes plugin' event'.provider event'.eventType →
      ((Client.shouldUpdate s plugin event (materials.map (·.configuration))).run v x).1 = .ok cs →
      ((Client.shouldUpdate s' plugin' event' (materials.map (·.configuration))).run v' y).1 =
        .ok ds →
      Covered materials cs ds → Covered materials ds cs →
      ((materialsToUpdate s plugin event materials).run v x).1 =
        ((materialsToUpdate s' plugin' event' materials).run v' y).1 := by
  intro v v'
  refine ⟨?_, ?_, ?_⟩
  · intro s plugin event materials x h
    have quiet : materials = [] ∨ v.supports plugin event.provider event.eventType x = false := by
      rwa [← Bool.not_eq_true, World.supports_informedBy_iff]
    obtain ⟨y, yields⟩ := materialsToUpdate_quiet quiet
    exact ⟨yields.requests, congrArg Prod.fst yields.run⟩
  · intro s plugin event materials x asked chosen nonempty publishes
    obtain ⟨rs, a, goes⟩ := exists_goes v s plugin event materials x
    have requests : asked.requests v x = rs := goes.comes.1
    have run : (asked.run v x).1 = a := goes.comes.2
    obtain ⟨sent, chose⟩ :=
      materialsToUpdate_of_goes nonempty (World.supports_informedBy_iff.2 publishes) goes
    rw [requests, run]
    refine ⟨sent, sent_or_failed goes, goes.ne_stopped, ?_, ?_⟩
    · rintro f rfl
      exact chose
    · rintro cs rfl
      exact chose
  · intro s s' plugin plugin' event event' materials x y cs ds publishes publishes' answered
      answered' covered covered'
    rw [materialsToUpdate_of_answer (World.supports_informedBy_iff.2 publishes) answered,
      materialsToUpdate_of_answer (World.supports_informedBy_iff.2 publishes') answered',
      matching_congr covered covered']

theorem webhook_selection_repeated :
    let a : Material := ⟨"a", .ofValues [("url", "x"), ("branch", "m")]⟩
    let b : Material := ⟨"b", .ofValues [("url", "y")]⟩
    let c : Material := ⟨"c", .ofValues [("branch", "m"), ("url", "x")]⟩
    let info : PluginInfo := ⟨"git", "", "", ∅, ⟨[⟨"github", ["push"]⟩]⟩⟩
    let git (answer : String) : Rehearsal := {
      registry := ⟨.ofList [("git", { descriptor := ⟨"git", [.v2_0]⟩, info := some info })]⟩
      script := .respond {} "should-update" answer }
    let x := git ("[\x7b\"url\":\x7b\"value\":\"x\",\"secure\":true\x7d," ++
      "\"branch\":\x7b\"value\":\"m\"\x7d\x7d,\x7b\"url\":\x7b\x7d\x7d]")
    let y := git ("[\x7b\"branch\":\x7b\"default-value\":\"m\"\x7d," ++
      "\"url\":\x7b\"value\":\"x\"\x7d\x7d,\x7b\"url\":\x7b\"value\":\"x\"\x7d," ++
      "\"branch\":\x7b\"value\":\"m\"\x7d\x7d]")
    let choose (type : String) := materialsToUpdate {} "git" ⟨"github", type, ""⟩ [a, b, c, a]
    ((choose "push").run Rehearsal.world x).1 = .ok [a, c, a] ∧
      ((choose "push").run Rehearsal.world x).1 = ((choose "push").run Rehearsal.world y).1 ∧
      (choose "pull").requests Rehearsal.world x = [] := by
  intro a b c info git x y choose
  obtain ⟨quiet, asking, alike⟩ :=
    webhook_selection Rehearsal.world Rehearsal.registry Rehearsal.world Rehearsal.registry
  have publishes : x.registry.Publishes "git" "github" "push" :=
    Registry.supports_iff_publishes.1 (by decide)
  have silent : ¬x.registry.Publishes "git" "github" "pull" :=
    mt Registry.supports_iff_publishes.2 (by decide)
  let cs : List Configuration := [
    .ofList [("url", { value := "x", secure := true }), ("branch", { value := "m" })],
    .ofValues [("url", "")]]
  let ds : List Configuration := [c.configuration, a.configuration]
  have answered : ((Client.shouldUpdate {} "git" ⟨"github", "push", ""⟩
      ([a, b, c, a].map (·.configuration))).run Rehearsal.world x).1 = .ok cs := by decide +kernel
  have answered' : ((Client.shouldUpdate {} "git" ⟨"github", "push", ""⟩
      ([a, b, c, a].map (·.configuration))).run Rehearsal.world y).1 = .ok ds := by decide +kernel
  have covered : Covered [a, b, c, a] cs ds := by unfold Covered; decide +kernel
  have covered' : Covered [a, b, c, a] ds cs := by unfold Covered; decide +kernel
  refine ⟨?_, ?_, ?_⟩
  · have chosen := (asking {} "git" ⟨"github", "push", ""⟩ [a, b, c, a] x nofun publishes).2.2.2.2
    refine (chosen cs answered).trans ?_
    decide +kernel
  · exact alike {} {} "git" "git" _ _ _ x y cs ds publishes publishes answered answered' covered
      covered'
  · exact (quiet {} "git" ⟨"github", "pull", ""⟩ [a, b, c, a] x (.inr silent)).1

end Poller

end ScmPlugins
