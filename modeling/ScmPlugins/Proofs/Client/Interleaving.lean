import ScmPlugins.Proofs.Client.Hosting
import ScmPlugins.Proofs.Plugin.History

/-!
A client that publishes a plugin while others register and deregister. Each of its queries settles
on an edition of its own, and the info joins whatever record there is in the end.
-/

namespace ScmPlugins

variable {α β σ τ : Type}

structure World.Keeps (w : World σ) (p : σ → Prop) : Prop where
  note : ∀ e x, p x → p (w.note e x)
  submit : ∀ r x, p x → p (w.submit r x).2
  publish : ∀ info x, p x → p (w.publish info x).2

theorem Task.keeps_run {w : World σ} {p : σ → Prop} (keeps : w.Keeps p) (t : Task α) {x : σ}
    (hx : p x) : p (t.run w x).2 := by
  induction t generalizing x with
  | done a => exact hx
  | note e next ih => exact ih (keeps.note e x hx)
  | declared plugin next ih => exact ih _ hx
  | submit r next ih => exact ih _ (keeps.submit r x hx)
  | supports plugin provider event next ih => exact ih _ hx
  | publish info next ih => exact ih _ (keeps.publish info x hx)

theorem Call.run_bind_eq_ok_iff {w : World σ} {x : Call α} {f : α → Call β} {s t : σ} {b : β} :
    (x >>= f).run w s = (.ok b, t) ↔
      ∃ a u, x.run w s = (.ok a, u) ∧ (f a).run w u = (.ok b, t) := by
  rw [run_bind]
  rcases x.run w s with ⟨a, u⟩
  cases a <;> simp

theorem Call.run_publish_eq_ok_iff {w : World σ} {info : PluginInfo} {x y : σ} {u : Unit} :
    (publish info).run w x = (.ok u, y) ↔ w.publish info x = (true, y) := by
  unfold publish run Task.run
  rcases w.publish info x with ⟨b, z⟩
  cases b <;> simp [Task.run]

namespace Publisher

/-- The course of the queries that the info is put together from: they begin in `x₁`, `x₂` and `x₃`,
and in `y` it is ready. -/
structure Asked (w : World σ) (s : Settings) (plugin : String) (info : PluginInfo)
    (x₁ x₂ x₃ y : σ) : Prop where
  configuration : (Client.configuration s plugin).run w x₁ = (.ok info.configuration, x₂)
  view : (Client.view s plugin).run w x₂ = (.ok ⟨info.displayName, info.template⟩, x₃)
  capabilities : ∃ d z, (Client.capabilities s plugin).run w x₃ = (.ok d, z) ∧
    d.capabilities = info.capabilities ∧ y = w.note (builtEvent info) z
  about : info.plugin = plugin

variable {w : World σ} {s : Settings} {plugin : String} {info : PluginInfo} {x y z : σ}

theorem run_build_eq_ok_iff :
    (build s plugin).run w x = (.ok info, y) ↔ ∃ x₂ x₃, Asked w s plugin info x x₂ x₃ y := by
  unfold build
  simp only [Call.run_bind_eq_ok_iff]
  constructor
  · rintro ⟨c, x₂, configuration, view, x₃, viewed, d, z, capabilities, ⟨⟩, _, ⟨⟩, ⟨⟩⟩
    exact ⟨x₂, x₃, configuration, viewed, ⟨d, z, capabilities, rfl, rfl⟩, rfl⟩
  · rintro ⟨x₂, x₃, configuration, viewed, ⟨d, z, capabilities, same, rfl⟩, rfl⟩
    refine ⟨_, x₂, configuration, _, x₃, viewed, d, z, capabilities, ?_⟩
    rw [same]
    exact ⟨(), _, Prod.ext rfl rfl, rfl⟩

theorem run_publish_eq_ok_iff {u : Unit} :
    (publish s plugin).run w x = (.ok u, z) ↔
      ∃ info x₂ x₃ y, Asked w s plugin info x x₂ x₃ y ∧ w.publish info y = (true, z) := by
  unfold publish
  simp only [Call.run_bind_eq_ok_iff, Call.run_publish_eq_ok_iff, run_build_eq_ok_iff]
  constructor
  · rintro ⟨info, y, ⟨x₂, x₃, asked⟩, published⟩
    exact ⟨info, x₂, x₃, y, asked, published⟩
  · rintro ⟨info, x₂, x₃, y, asked, published⟩
    exact ⟨info, y, ⟨x₂, x₃, asked⟩, published⟩

end Publisher

namespace Client

variable {w : World σ} {s : Settings} {plugin : String} {x : σ}

theorem Query.speaks_of_run_eq_ok {q : Query} {a : q.Answer} {y : σ}
    (h : (q.call s plugin).run w x = (.ok a, y)) :
    ∃ e, Speaks w s plugin x e ∧
      (q.operation ∉ e.operations → q.withheld plugin e.version = .ok a) := by
  have came : ((q.call s plugin).run w x).1 = .ok a := congrArg Prod.fst h
  obtain stops | ⟨rs, b, goes⟩ := stops_or_goes w s plugin q x
  · cases stops.comes.2.symm.trans came
  · have same := goes.comes.2.symm.trans came
    cases goes with
    | withheld speaks lacks => exact ⟨_, speaks, fun _ => same⟩
    | sent speaks has text => exact ⟨_, speaks, fun lacks => absurd has lacks⟩
    | _ => cases same

theorem speaks_of_capabilities {d : Discovery} {y : σ}
    (h : (capabilities s plugin).run w x = (.ok d, y)) :
    ∃ e, Speaks w s plugin x e ∧ (d.capabilities ≠ .empty → e = .v2) := by
  obtain ⟨e, speaks, withheld⟩ := Query.speaks_of_run_eq_ok (q := .capabilities) h
  refine ⟨e, speaks, fun nonempty => ?_⟩
  cases e with
  | v1 =>
    obtain rfl := Attempt.ok.inj (withheld (by decide))
    exact absurd rfl nonempty
  | v2 => rfl

end Client

/-- A host that others use as well. What they are about to do to the registry is done bit by bit,
whenever the client tells or sends something. -/
structure Crowd (τ : Type) extends Host τ where
  due : List (List Registry.Change) := []

def Crowd.elapse (x : Crowd τ) (rest : τ) : Crowd τ where
  registry := x.registry.performAll (x.due.headD [])
  rest := rest
  due := x.due.tail

def Outside.crowded (o : Outside τ) : World (Crowd τ) where
  note e x := x.elapse (o.hear e x.toHost)
  declared plugin x := x.registry.declared plugin
  submit r x := ((o.submit r x.toHost).1, x.elapse (o.submit r x.toHost).2)
  supports plugin provider event x := x.registry.supports plugin provider event
  publish info x :=
    match x.registry.publish info with
    | some registry => (true, { x with registry })
    | none => (false, x)

namespace Crowd

open Registry (Change)

variable {o : Outside τ} {s : Settings} {plugin : String} {x y z : Crowd τ}
  {passed passed' : List (List Change)}

/-- From `x` to `y` the others did what `passed`, and unless that concerned the plugin its
descriptor is the same. -/
structure Passes (plugin : String) (x y : Crowd τ) (passed : List (List Change)) : Prop where
  due : x.due = passed ++ y.due
  same : (∀ cs ∈ passed, ∀ c ∈ cs, c.Spares plugin) →
    y.registry.descriptor? plugin = x.registry.descriptor? plugin

theorem Passes.trans (h : Passes plugin x y passed) (h' : Passes plugin y z passed') :
    Passes plugin x z (passed ++ passed') where
  due := by rw [h.due, h'.due, List.append_assoc]
  same := by
    intro spare
    obtain ⟨before, after⟩ := List.forall_mem_append.1 spare
    exact (h'.same after).trans (h.same before)

theorem passes_elapse (plugin : String) (x : Crowd τ) (rest : τ) :
    ∃ passed, Passes plugin x (x.elapse rest) passed := by
  cases due : x.due with
  | nil =>
    refine ⟨[], by simp [elapse, due], fun _ => ?_⟩
    simp [elapse, due, Registry.performAll]
  | cons cs later =>
    refine ⟨[cs], by simp [elapse, due], fun spare => ?_⟩
    simp only [elapse, due, List.headD_cons]
    exact Registry.descriptor?_performAll (spare cs List.mem_cons_self)

theorem keeps_passes (o : Outside τ) (plugin : String) (x : Crowd τ) :
    o.crowded.Keeps fun y => ∃ passed, Passes plugin x y passed where
  note e y := by
    rintro ⟨passed, h⟩
    obtain ⟨passed', h'⟩ := passes_elapse plugin y (o.hear e y.toHost)
    exact ⟨_, h.trans h'⟩
  submit r y := by
    rintro ⟨passed, h⟩
    obtain ⟨passed', h'⟩ := passes_elapse plugin y (o.submit r y.toHost).2
    exact ⟨_, h.trans h'⟩
  publish info y := by
    rintro ⟨passed, h⟩
    have perform : (y.registry.perform (.publish info)).2.descriptor? plugin =
        y.registry.descriptor? plugin := Registry.descriptor?_perform trivial
    cases published : y.registry.publish info with
    | none =>
      simp only [Outside.crowded, published]
      exact ⟨passed, h⟩
    | some registry =>
      simp only [Registry.perform, published] at perform
      simp only [Outside.crowded, published]
      exact ⟨passed, h.due, fun spare => perform.trans (h.same spare)⟩

theorem exists_passes_run (o : Outside τ) (plugin : String) (q : Call α) (x : Crowd τ) :
    ∃ passed, Passes plugin x (q.run o.crowded x).2 passed :=
  q.task.keeps_run (keeps_passes o plugin x) ⟨[], rfl, fun _ => rfl⟩

end Crowd

namespace Publisher

open Crowd (Passes)
open Client (Speaks)

variable {o : Outside τ} {s : Settings} {plugin : String} {info : PluginInfo}
  {record : PluginRecord} {x₁ x₂ x₃ y z : Crowd τ}

/-- How the plugin is published among others: what it answers is asked for one query after the
other, and joins the record that is there when it is all known. -/
structure Publishes (o : Outside τ) (s : Settings) (plugin : String) (info : PluginInfo)
    (record : PluginRecord) (x₁ x₂ x₃ y z : Crowd τ) : Prop extends
    Asked o.crowded s plugin info x₁ x₂ x₃ y where
  present : y.registry.get? plugin = some record
  left : z = { y with registry := ⟨y.registry.records.insert plugin { record with info }⟩ }

theorem Asked.exists_passes (h : Asked o.crowded s plugin info x₁ x₂ x₃ y) :
    ∃ a b c, Passes plugin x₁ x₂ a ∧ Passes plugin x₂ x₃ b ∧ Passes plugin x₃ y c := by
  obtain ⟨d, u, capabilities, -, rfl⟩ := h.capabilities
  obtain ⟨a, first⟩ := Crowd.exists_passes_run o plugin (Client.configuration s plugin) x₁
  obtain ⟨b, second⟩ := Crowd.exists_passes_run o plugin (Client.view s plugin) x₂
  obtain ⟨c, third⟩ := Crowd.exists_passes_run o plugin (Client.capabilities s plugin) x₃
  rw [h.configuration] at first
  rw [h.view] at second
  rw [capabilities] at third
  obtain ⟨c', last⟩ := (Crowd.keeps_passes o plugin x₃).note (builtEvent info) u ⟨c, third⟩
  exact ⟨a, b, c', first, second, last⟩

theorem Publishes.get? (h : Publishes o s plugin info record x₁ x₂ x₃ y z) (id : String) :
    z.registry.get? id =
      if id = plugin then some { record with info := some info } else y.registry.get? id := by
  rw [h.left]
  exact OrderedMap.get?_insert y.registry.records plugin id _

theorem Asked.speaks (h : Asked o.crowded s plugin info x₁ x₂ x₃ y) :
    ∃ e₁ e₂ e₃, Speaks o.crowded s plugin x₁ e₁ ∧ Speaks o.crowded s plugin x₂ e₂ ∧
      Speaks o.crowded s plugin x₃ e₃ ∧ (info.capabilities ≠ .empty → e₃ = .v2) := by
  obtain ⟨d, u, capabilities, same, -⟩ := h.capabilities
  obtain ⟨e₁, first, -⟩ := Client.Query.speaks_of_run_eq_ok (q := .configuration) h.configuration
  obtain ⟨e₂, second, -⟩ := Client.Query.speaks_of_run_eq_ok (q := .view) h.view
  obtain ⟨e₃, third, nonempty⟩ := Client.speaks_of_capabilities capabilities
  exact ⟨e₁, e₂, e₃, first, second, third, same ▸ nonempty⟩

theorem Publishes.exists_passed (h : Publishes o s plugin info record x₁ x₂ x₃ y z) :
    ∃ passed, x₁.due = passed ++ y.due ∧ ((∀ cs ∈ passed, ∀ c ∈ cs, c.Spares plugin) →
      ∀ x ∈ [x₁, x₂, x₃, y], x.registry.descriptor? plugin = some record.descriptor) := by
  obtain ⟨a, b, c, first, second, third⟩ := h.exists_passes
  refine ⟨a ++ b ++ c, ((first.trans second).trans third).due, fun spare => ?_⟩
  obtain ⟨spare, spare₃⟩ := List.forall_mem_append.1 spare
  obtain ⟨spare₁, spare₂⟩ := List.forall_mem_append.1 spare
  have atEnd : y.registry.descriptor? plugin = some record.descriptor := by
    rw [Registry.descriptor?, h.present]
    rfl
  have atThird := (third.same spare₃).symm.trans atEnd
  have atSecond := (second.same spare₂).symm.trans atThird
  have atFirst := (first.same spare₁).symm.trans atSecond
  simp [atFirst, atSecond, atThird, atEnd]

theorem crowded_publish_eq_true_iff :
    o.crowded.publish info y = (true, z) ↔ ∃ record, y.registry.get? info.plugin = some record ∧
      z = { y with registry := ⟨y.registry.records.insert info.plugin { record with info }⟩ } := by
  cases found : y.registry.get? info.plugin <;>
    simp [Outside.crowded, Registry.publish, found, eq_comm]

theorem run_publish_crowded_iff :
    (publish s plugin).run o.crowded x₁ = (.ok (), z) ↔
      ∃ info record x₂ x₃ y, Publishes o s plugin info record x₁ x₂ x₃ y z := by
  simp only [run_publish_eq_ok_iff, crowded_publish_eq_true_iff]
  constructor
  · rintro ⟨info, x₂, x₃, y, asked, record, present, left⟩
    obtain rfl := asked.about
    exact ⟨info, record, x₂, x₃, y, asked, present, left⟩
  · rintro ⟨info, record, x₂, x₃, y, asked, present, left⟩
    obtain rfl := asked.about
    exact ⟨info, x₂, x₃, y, asked, record, present, left⟩

theorem Asked.run_publish_of_absent (h : Asked o.crowded s plugin info x₁ x₂ x₃ y)
    (absent : y.registry.get? plugin = none) :
    (publish s plugin).run o.crowded x₁ = (.error (.pluginNotFound plugin), y) := by
  have built := run_build_eq_ok_iff.2 ⟨x₂, x₃, h⟩
  obtain rfl := h.about
  rw [publish, Call.run_bind, built]
  simp [Call.run, Call.publish, Task.run, Outside.crowded, Registry.publish, absent]

/-- A plugin is published exactly if its three queries are answered and it is registered in the end,
whatever others do meanwhile. Each query goes by the descriptor of its own time, and what they
found out joins the descriptor of the end, which is theirs if the others leave the plugin alone. -/
theorem publish_joins_last :
    (∀ (o : Outside τ) s plugin x₁ z, (publish s plugin).run o.crowded x₁ = (.ok (), z) ↔
      ∃ info record x₂ x₃ y, Publishes o s plugin info record x₁ x₂ x₃ y z) ∧
    (∀ (o : Outside τ) s plugin info x₁ x₂ x₃ y, Asked o.crowded s plugin info x₁ x₂ x₃ y →
      y.registry.get? plugin = none →
      (publish s plugin).run o.crowded x₁ = (.error (.pluginNotFound plugin), y)) ∧
    ∀ (o : Outside τ) s plugin info record x₁ x₂ x₃ y z,
      Publishes o s plugin info record x₁ x₂ x₃ y z →
      (∀ id, z.registry.get? id =
        if id = plugin then some { record with info := some info } else y.registry.get? id) ∧
      (∃ e₁ e₂ e₃, Speaks o.crowded s plugin x₁ e₁ ∧ Speaks o.crowded s plugin x₂ e₂ ∧
        Speaks o.crowded s plugin x₃ e₃ ∧ (info.capabilities ≠ .empty → e₃ = .v2)) ∧
      ∃ passed, x₁.due = passed ++ y.due ∧ ((∀ cs ∈ passed, ∀ c ∈ cs, c.Spares plugin) →
        ∀ x ∈ [x₁, x₂, x₃, y], x.registry.descriptor? plugin = some record.descriptor) := by
  refine ⟨?_, ?_, ?_⟩
  · intro o s plugin x₁ z
    exact run_publish_crowded_iff
  · intro o s plugin info x₁ x₂ x₃ y asked absent
    exact asked.run_publish_of_absent absent
  · intro o s plugin info record x₁ x₂ x₃ y z published
    exact ⟨published.get?, published.speaks, published.exists_passed⟩

def capable : Transport.Script :=
  .respond (.respond (.respond {}
    "scm-configuration" "\x7b\x7d")
    "scm-view" "\x7b\"displayValue\":\"Git\",\"template\":\"t\"\x7d")
    "get-capabilities"
      "\x7b\"supported_webhooks\":[\x7b\"provider\":\"github\",\"events\":[\"push\"]\x7d]\x7d"

theorem publish_joins_last_spared :
    let git : Descriptor := ⟨"git", [.v2_0]⟩
    let others : List (List Registry.Change) := List.replicate 10
      [.register ⟨"hg", [.v1_0]⟩, .publish ⟨"git", "", "", ∅, .empty⟩, .deregister "svn"]
    let x : Crowd Transport.Script :=
      { registry := ⟨.ofList [("git", { descriptor := git })]⟩, rest := capable, due := others }
    ∃ info record x₂ x₃ y z, Publishes .scripted {} "git" info record x x₂ x₃ y z ∧
      z.registry.get? "git" = some { record with info := some info } ∧
      ∀ u ∈ [x, x₂, x₃, y], u.registry.descriptor? "git" = some record.descriptor := by
  intro git others x
  obtain ⟨published_iff, -, law⟩ := publish_joins_last (τ := Transport.Script)
  have succeeds : ((publish {} "git").run Outside.scripted.crowded x).1 = .ok () := by
    decide +kernel
  obtain ⟨info, record, x₂, x₃, y, published⟩ :=
    (published_iff _ _ _ _ _).1 (Prod.ext succeeds rfl)
  obtain ⟨stands, -, passed, due, same⟩ := law _ _ _ _ _ _ _ _ _ _ published
  refine ⟨info, record, x₂, x₃, y, _, published, (stands "git").trans (if_pos rfl), same ?_⟩
  have spare : ∀ cs ∈ x.due, ∀ c ∈ cs, c.Spares "git" := by decide
  exact fun cs hcs => spare cs (due ▸ List.mem_append_left _ hcs)

/-- While the plugin is asked for its capabilities it leaves and comes back with the first edition,
which has none. It is published all the same, with the capabilities of the second. -/
theorem publish_mixes :
    let before : Descriptor := ⟨"git", [.v2_0]⟩
    let after : Descriptor := ⟨"git", [.v1_0]⟩
    let x : Crowd Transport.Script :=
      { registry := ⟨.ofList [("git", { descriptor := before })]⟩, rest := capable
        due := List.replicate 7 [] ++ [[.deregister "git", .register after]] }
    ∃ info record x₂ x₃ y z, Publishes .scripted {} "git" info record x x₂ x₃ y z ∧
      x₃.registry.descriptor? "git" = some before ∧
      z.registry.get? "git" = some { descriptor := after, info := some info } ∧
      info.capabilities = ⟨[⟨"github", ["push"]⟩]⟩ ∧
      ¬∀ u ∈ [x, x₂, x₃, y], u.registry.descriptor? "git" = some record.descriptor := by
  intro before after x
  let w := (Outside.scripted).crowded
  have succeeds : ((publish {} "git").run w x).1 = .ok () := by decide +kernel
  obtain ⟨info, record, x₂, x₃, y, published⟩ := run_publish_crowded_iff.1 (Prod.ext succeeds rfl)
  have found : ((publish {} "git").run w x).2.registry.get? "git" = some ⟨after,
      some ⟨"git", "Git", "t", ∅, ⟨[⟨"github", ["push"]⟩]⟩⟩⟩ := by decide +kernel
  have atThird : Registry.descriptor?
      ((Client.view {} "git").run w ((Client.configuration {} "git").run w x).2).2.registry "git" =
        some before := by decide +kernel
  rw [published.configuration, published.view] at atThird
  have stands := (published.get? "git").symm.trans found
  rw [if_pos rfl, Option.some.injEq, PluginRecord.mk.injEq, Option.some.injEq] at stands
  obtain ⟨descriptor, rfl⟩ := stands
  refine ⟨_, record, x₂, x₃, y, _, published, atThird, found, rfl, fun same => ?_⟩
  have clash := atThird.symm.trans (same x₃ (by simp))
  rw [descriptor] at clash
  exact absurd clash (by decide)

end Publisher

end ScmPlugins
