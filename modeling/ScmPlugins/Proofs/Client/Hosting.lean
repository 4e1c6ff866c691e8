import ScmPlugins.Client.Publisher
import ScmPlugins.Proofs.Client.Webhook
import ScmPlugins.Proofs.Plugin.Registry

namespace ScmPlugins

structure Host (τ : Type) where
  registry : Registry := {}
  rest : τ

/-- How requests are answered and what is made of events. Neither changes the registry. -/
structure Outside (τ : Type) where
  submit : Transport.Request → Host τ → Transport.Answer × τ
  hear : Event → Host τ → τ

def Outside.world {τ : Type} (o : Outside τ) : World (Host τ) where
  note e h := { h with rest := o.hear e h }
  declared plugin h := h.registry.declared plugin
  submit r h := ((o.submit r h).1, { h with rest := (o.submit r h).2 })
  supports plugin provider event h := h.registry.supports plugin provider event
  publish info h :=
    match h.registry.publish info with
    | some registry => (true, { h with registry })
    | none => (false, h)

inductive Action (τ : Type) where
  | register (d : Descriptor)
  | deregister (id : String)
  | publish (plugin : String)
  | elsewhere (change : Host τ → τ)

variable {τ α β : Type} {o : Outside τ} {s : Settings} {g : Registry} {h : Host τ} {plugin : String}

def Action.apply (o : Outside τ) (s : Settings) : Action τ → Host τ → Host τ
  | register d, h =>
    match h.registry.register d with
    | .ok registry => o.world.note (h.registry.registered d) { h with registry }
    | .error _ => h
  | deregister id, h => { h with registry := (h.registry.deregister id).2 }
  | publish plugin, h => ((Publisher.publish s plugin).run o.world h).2
  | elsewhere change, h => { h with rest := change h }

def Host.after (o : Outside τ) (s : Settings) (as : List (Action τ)) (h : Host τ) : Host τ :=
  as.foldl (fun h a => a.apply o s h) h

/-- What was found out about a plugin that declares the versions: in an edition that it speaks, and
nothing about its capabilities in the first. -/
def FoundOut (s : Settings) (versions : List Version) (info : PluginInfo) : Prop :=
  ∃ e, Client.Agrees s versions e ∧ (info.capabilities ≠ .empty → e = .v2)

/-- Info stands under the id that it names and was found out in what the record declares. -/
def Registry.Sound (s : Settings) (g : Registry) : Prop :=
  ∀ id record info, g.get? id = some record → record.info = some info →
    info.plugin = id ∧ FoundOut s record.descriptor.versions info

namespace Call

def Finds (o : Outside τ) (g : Registry) (x : Call α) (p : α → Prop) : Prop :=
  ∀ h : Host τ, h.registry = g →
    (x.run o.world h).2.registry = g ∧ ∀ a, (x.run o.world h).1 = .ok a → p a

theorem finds_pure {a : α} {p : α → Prop} (ha : p a) : (pure a : Call α).Finds o g p := by
  intro h hg
  exact ⟨hg, fun b hb => Attempt.ok.inj hb ▸ ha⟩

theorem finds_note (e : Event) : (note e).Finds o g fun _ => True := by
  intro h hg
  exact ⟨hg, fun _ _ => trivial⟩

theorem Finds.mono {x : Call α} {p q : α → Prop} (hx : x.Finds o g p) (imp : ∀ a, p a → q a) :
    x.Finds o g q := by
  intro h hg
  obtain ⟨kept, found⟩ := hx h hg
  exact ⟨kept, fun a ha => imp a (found a ha)⟩

theorem Finds.bind {x : Call α} {f : α → Call β} {p : α → Prop} {q : β → Prop}
    (hx : x.Finds o g p) (hf : ∀ a, p a → (f a).Finds o g q) : (x >>= f).Finds o g q := by
  intro h hg
  obtain ⟨kept, found⟩ := hx h hg
  rw [run_bind]
  rcases ran : x.run o.world h with ⟨a, h'⟩
  rw [ran] at kept found
  cases a with
  | ok a => exact hf a (found a rfl) h' kept
  | error e => exact ⟨kept, nofun⟩
  | stopped => exact ⟨kept, nofun⟩

end Call

namespace Client

open Call (Finds)

theorem finds_edition (o : Outside τ) (g : Registry) (s : Settings) (plugin : String) :
    (edition s plugin).Finds o g fun e =>
      ∃ versions, g.declared plugin = some versions ∧ Agrees s versions e := by
  rintro h rfl
  cases known : h.registry.declared plugin with
  | none =>
    rw [(edition_unknown (w := o.world) known).run]
    exact ⟨rfl, nofun⟩
  | some versions =>
    obtain unshared | ⟨e, agrees⟩ := unshared_or_agrees s versions
    · rw [(edition_unshared (w := o.world) known unshared).run]
      exact ⟨rfl, nofun⟩
    · rw [(edition_agrees (w := o.world) known agrees).run]
      exact ⟨rfl, fun e' he => ⟨versions, rfl, Attempt.ok.inj he ▸ agrees⟩⟩

theorem finds_exchange (o : Outside τ) (g : Registry) (s : Settings) (plugin : String) (e : Edition)
    (op : Operation) (body : Option (Attempt Request.Error Json))
    (decode : Option String → Except Response.Error α) :
    (exchange s plugin e op body decode).Finds o g fun _ => True := by
  intro h hg
  refine ⟨?_, fun _ _ => trivial⟩
  by_cases has : op ∈ e.operations
  · cases written : bodyText plugin body with
    | ok text => rw [(exchange_sent (w := o.world) has written rfl rfl).run]; exact hg
    | error f => rw [(exchange_unwritten (w := o.world) has written).run]; exact hg
    | stopped => rw [(exchange_stopped (w := o.world) has written).run]; exact hg
  · rw [(exchange_withheld (w := o.world) has).run]
    exact hg

theorem finds_capabilities (o : Outside τ) (g : Registry) (s : Settings) (plugin : String) :
    (capabilities s plugin).Finds o g fun d => ∃ versions e,
      g.declared plugin = some versions ∧ Agrees s versions e ∧
        (d.capabilities ≠ .empty → e = .v2) := by
  refine (finds_edition o g s plugin).bind ?_
  rintro e ⟨versions, known, agrees⟩
  cases e with
  | v1 =>
    refine (Call.finds_note _).bind fun _ _ => Call.finds_pure ⟨versions, .v1, known, agrees, ?_⟩
    exact fun nonempty => absurd rfl nonempty
  | v2 =>
    exact (finds_exchange o g s plugin .v2 .capabilities none _).mono fun _ _ =>
      ⟨versions, .v2, known, agrees, fun _ => rfl⟩

end Client

theorem Publisher.finds_build (o : Outside τ) (g : Registry) (s : Settings) (plugin : String) :
    (build s plugin).Finds o g fun info => info.plugin = plugin ∧
      ∃ versions, g.declared plugin = some versions ∧ FoundOut s versions info := by
  have asked {α : Type} (op : Operation) (decode : Option String → Except Response.Error α) :
      (do Client.exchange s plugin (← Client.edition s plugin) op none decode).Finds o g
        fun _ => True :=
    (Client.finds_edition o g s plugin).bind fun e _ => Client.finds_exchange o g s plugin e op _ _
  refine (asked .configuration Response.configuration).bind fun configuration _ => ?_
  refine (asked .view Response.view).bind fun view _ => ?_
  refine (Client.finds_capabilities o g s plugin).bind ?_
  rintro discovery ⟨versions, e, known, agrees, second⟩
  exact (Call.finds_note _).bind fun _ _ =>
    Call.finds_pure ⟨rfl, versions, known, e, agrees, second⟩

theorem Call.registry_publish (o : Outside τ) (info : PluginInfo) (h : Host τ) :
    ((publish info).run o.world h).2.registry =
      (h.registry.publish info).getD h.registry := by
  cases published : h.registry.publish info <;>
    simp [publish, run, Task.run, Outside.world, published]

theorem Publisher.registry_publish (o : Outside τ) (s : Settings) (plugin : String) (h : Host τ) :
    ((publish s plugin).run o.world h).2.registry = h.registry ∨
      ∃ info versions, h.registry.declared info.plugin = some versions ∧ FoundOut s versions info ∧
        h.registry.publish info = some ((publish s plugin).run o.world h).2.registry := by
  obtain ⟨kept, found⟩ := finds_build o h.registry s plugin h rfl
  rw [publish, Call.run_bind]
  rcases ran : (build s plugin).run o.world h with ⟨a, h'⟩
  rw [ran] at kept found
  cases a with
  | error e => exact .inl kept
  | stopped => exact .inl kept
  | ok info =>
    obtain ⟨rfl, versions, known, foundOut⟩ := found info rfl
    dsimp only
    rw [Call.registry_publish, kept]
    cases published : h.registry.publish info with
    | none => exact .inl rfl
    | some registry => exact .inr ⟨info, versions, known, foundOut, published⟩

namespace Registry

theorem sound_empty (s : Settings) : Sound s {} := nofun

variable {g' : Registry}

theorem Sound.register {d : Descriptor} (sound : g.Sound s) (h : g.register d = .ok g') :
    g'.Sound s := by
  intro id record info found published
  rw [get?_of_register h] at found
  split at found
  · cases found
    cases published
  · exact sound id record info found published

theorem Sound.deregister (sound : g.Sound s) (id : String) : (g.deregister id).2.Sound s := by
  intro id' record info found published
  rw [get?_deregister] at found
  split at found
  · cases found
  · exact sound id' record info found published

theorem Sound.publish {info : PluginInfo} {versions : List Version} (sound : g.Sound s)
    (known : g.declared info.plugin = some versions) (foundOut : FoundOut s versions info)
    (h : g.publish info = some g') : g'.Sound s := by
  obtain ⟨record, recorded, after⟩ := get?_of_publish h
  obtain ⟨_, recorded', rfl⟩ := declared_eq_some_iff.1 known
  obtain rfl := Option.some.inj (recorded.symm.trans recorded')
  intro id record' info' found published
  rw [after] at found
  split at found
  · rename_i same
    cases found
    cases published
    exact ⟨same.symm, foundOut⟩
  · exact sound id record' info' found published

end Registry

theorem Action.sound_apply (o : Outside τ) (a : Action τ) (sound : h.registry.Sound s) :
    (a.apply o s h).registry.Sound s := by
  cases a with
  | register d =>
    cases registered : h.registry.register d with
    | error e =>
      rw [apply, registered]
      exact sound
    | ok registry =>
      rw [apply, registered]
      exact sound.register registered
  | deregister id => exact sound.deregister id
  | publish plugin =>
    obtain kept | ⟨info, versions, known, foundOut, published⟩ :=
      Publisher.registry_publish o s plugin h
    · rw [apply, kept]
      exact sound
    · exact sound.publish known foundOut published
  | elsewhere change => exact sound

theorem Host.sound_after (o : Outside τ) (as : List (Action τ)) (sound : h.registry.Sound s) :
    (h.after o s as).registry.Sound s := by
  induction as generalizing h with
  | nil => exact sound
  | cons a as ih => exact ih (a.sound_apply o sound)

/-- The plugin cannot be asked: it is not known, shares no version with the server, or shares none
that has the operation. -/
inductive Failure.CannotAsk : Failure → Prop
  | pluginNotFound (plugin : String) : CannotAsk (.pluginNotFound plugin)
  | noCompatibleVersion (plugin : String) (declared offered : List Version) :
      CannotAsk (.noCompatibleVersion plugin declared offered)
  | unsupportedOperation (plugin : String) (op : Operation) (v : Version) :
      CannotAsk (.unsupportedOperation plugin op v)

section Asking

variable {σ : Type} {w : World σ} {x : σ} {event : WebhookEvent} {materials : List Material}
  {f : Failure}

open Client (Speaks)

theorem Client.resolve_speaks {e : Edition} (h : Speaks w s plugin x e) :
    ((resolve s plugin).run w x).1 = .ok e.version := by
  obtain ⟨versions, known, agrees⟩ := h
  have settled : (resolve s plugin).Yields w x [] (.ok e.version) _ :=
    (edition_agrees known agrees).bind (Call.yields_pure w _ _)
  rw [settled.run]

theorem Client.outcome_ne_cannotAsk {decode : Option String → Except Response.Error α}
    {answer : Transport.Answer} (h : outcome plugin decode answer = .error f) : ¬f.CannotAsk := by
  unfold outcome at h
  split at h
  · cases h
    nofun
  · split at h
    · cases h
    · cases h
      nofun

theorem Client.Goes.not_cannotAsk {q : Client.Query} {rs : List Transport.Request}
    {a : Attempt Failure q.Answer} (goes : Client.Goes w s plugin q x rs a)
    (speaks : Speaks w s plugin x .v2) (h : a = .error f) : ¬f.CannotAsk := by
  obtain ⟨versions, known, agrees⟩ := id speaks
  cases goes with
  | unknown unknown =>
    rw [unknown] at known
    cases known
  | unshared known' unshared =>
    obtain rfl := Option.some.inj (known'.symm.trans known)
    exact absurd agrees.understood (unshared _ agrees.offered)
  | withheld speaks' lacks =>
    obtain rfl := speaks.unique speaks'
    exact absurd (Client.mem_operations_iff.2 (.inl rfl)) lacks
  | unwritten speaks' has text =>
    cases h
    nofun
  | sent speaks' has text => exact Client.outcome_ne_cannotAsk h

theorem Poller.materialsToUpdate_unpublished (s : Settings) (materials : List Material)
    (unpublished : w.supports plugin event.provider event.eventType x = false) :
    ∃ y, (materialsToUpdate s plugin event materials).Yields w x [] (.ok []) y := by
  by_cases none : materials.isEmpty = true
  · rw [materialsToUpdate, if_pos none]
    exact ⟨x, Call.yields_pure w _ x⟩
  · rw [materialsToUpdate, if_neg none]
    have supported := Call.yields_supports w plugin event.provider event.eventType x
    rw [unpublished] at supported
    exact ⟨_, supported.bind ((Call.yields_note w _ x).bind (Call.yields_pure w _ _))⟩

theorem Poller.materialsToUpdate_not_cannotAsk
    (speaks : w.supports plugin event.provider event.eventType x = true → Speaks w s plugin x .v2)
    (h : ((materialsToUpdate s plugin event materials).run w x).1 = .error f) : ¬f.CannotAsk := by
  cases published : w.supports plugin event.provider event.eventType x with
  | false =>
    obtain ⟨y, yields⟩ := materialsToUpdate_unpublished s materials published
    rw [yields.run] at h
    cases h
  | true =>
    by_cases nonempty : materials = []
    · subst nonempty
      cases h
    obtain stops | ⟨rs, a, goes⟩ :=
      Client.stops_or_goes w s plugin (query event materials) x
    · obtain ⟨y, yields⟩ := materialsToUpdate_asked nonempty published stops.comes.yields
      rw [yields.run] at h
      cases h
    · obtain ⟨y, yields⟩ := materialsToUpdate_asked nonempty published goes.comes.yields
      rw [yields.run] at h
      refine goes.not_cannotAsk (speaks published) ?_
      cases a with
      | error e =>
        cases h
        rfl
      | _ => cases h

end Asking

theorem Registry.Sound.speaks (sound : h.registry.Sound s) {id : String} {record : PluginRecord}
    {info : PluginInfo} (found : h.registry.get? id = some record)
    (published : record.info = some info) :
    info.plugin = id ∧ ∃ e, Client.Speaks o.world s id h e ∧
      (info.capabilities ≠ .empty → e = .v2) := by
  obtain ⟨rfl, e, agrees, second⟩ := sound id record info found published
  exact ⟨rfl, e, ⟨_, declared_eq_some_iff.2 ⟨record, found, rfl⟩, agrees⟩, second⟩

theorem Registry.Sound.speaks_of_supports (sound : h.registry.Sound s) {provider event : String}
    (supported : o.world.supports plugin provider event h = true) :
    Client.Speaks o.world s plugin h .v2 := by
  obtain ⟨record, info, found, published, reacts⟩ := supports_iff.1 supported
  obtain ⟨-, e, speaks, second⟩ := sound.speaks (o := o) found published
  have nonempty : info.capabilities ≠ .empty := by
    intro empty
    rw [empty] at reacts
    cases reacts
  exact second nonempty ▸ speaks

/-- After every run of registrations, deregistrations and publications, finished or not, whatever
plugins answer: info stands under the id it names, its plugin can still be resolved, and only to the
second edition where it has capabilities. So choosing the materials of an event never finds a plugin
that cannot be asked. -/
theorem published_plugins_answerable (o : Outside τ) (s : Settings) (as : List (Action τ))
    (rest : τ) :
    let h := Host.after o s as { rest }
    (∀ id record info, h.registry.get? id = some record → record.info = some info →
      info.plugin = id ∧ ∃ v, ((Client.resolve s id).run o.world h).1 = .ok v ∧
        (info.capabilities ≠ .empty → v = .v2_0)) ∧
    ∀ plugin event materials f,
      ((Poller.materialsToUpdate s plugin event materials).run o.world h).1 = .error f →
        ¬f.CannotAsk := by
  intro h
  have sound : h.registry.Sound s := Host.sound_after o as (Registry.sound_empty s)
  refine ⟨?_, ?_⟩
  · intro id record info found published
    obtain ⟨named, e, speaks, second⟩ := sound.speaks (o := o) found published
    refine ⟨named, e.version, Client.resolve_speaks speaks, fun nonempty => ?_⟩
    rw [second nonempty]
    rfl
  · intro plugin event materials f failed
    exact Poller.materialsToUpdate_not_cannotAsk sound.speaks_of_supports failed

def Outside.scripted : Outside Transport.Script where
  submit r h := h.rest.submit r
  hear _ h := h.rest

theorem published_plugins_answerable_github :
    let script : Transport.Script := .fail (.respond (.respond (.respond {}
      "scm-configuration" "\x7b\x7d")
      "scm-view" "\x7b\"displayValue\":\"Git\",\"template\":\"t\"\x7d")
      "get-capabilities"
        "\x7b\"supported_webhooks\":[\x7b\"provider\":\"github\",\"events\":[\"push\"]\x7d]\x7d")
      "should-update" (.unavailable "git")
    let actions := [.register ⟨"git", [.v1_0]⟩, .publish "git",
      .register ⟨"git", [.v1_0, .v2_0]⟩, .publish "git", .register ⟨"git", []⟩]
    let h := Host.after .scripted {} actions { rest := script }
    let info : PluginInfo := ⟨"git", "Git", "t", ∅, ⟨[⟨"github", ["push"]⟩]⟩⟩
    let f : Failure := .transport (.unavailable "git")
    h.registry.get? "git" = some { descriptor := ⟨"git", [.v1_0, .v2_0]⟩, info := some info } ∧
      (∃ v, ((Client.resolve {} "git").run Outside.scripted.world h).1 = .ok v ∧
        (info.capabilities ≠ .empty → v = .v2_0)) ∧
      ((Poller.materialsToUpdate {} "git" ⟨"github", "push", ""⟩ [⟨"m", ∅⟩]).run
        Outside.scripted.world h).1 = .error f ∧ ¬f.CannotAsk := by
  intro script actions h info f
  obtain ⟨resolves, asking⟩ := published_plugins_answerable .scripted {} actions script
  have found : h.registry.get? "git" =
      some { descriptor := ⟨"git", [.v1_0, .v2_0]⟩, info := some info } := by decide +kernel
  have failed : ((Poller.materialsToUpdate {} "git" ⟨"github", "push", ""⟩ [⟨"m", ∅⟩]).run
      Outside.scripted.world h).1 = .error f := by decide +kernel
  exact ⟨found, (resolves "git" _ info found rfl).2, failed, asking _ _ _ f failed⟩

end ScmPlugins
