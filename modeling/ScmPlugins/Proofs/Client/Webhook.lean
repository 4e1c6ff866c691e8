import ScmPlugins.Client.Poller
import ScmPlugins.Proofs.Client.Law
import ScmPlugins.Proofs.Configuration.Identity
import ScmPlugins.Proofs.Response.Echo

namespace ScmPlugins.Poller

open Request (SecretFree Draft valuesJson)
open Client (Query)

def object (m : Material) : Json := valuesJson m.configuration.pairs

def array (js : List Json) : String := "[" ++ ",".intercalate (js.map Json.text) ++ "]"

def query (event : WebhookEvent) (materials : List Material) : Query :=
  .shouldUpdate event (materials.map (·.configuration))

theorem array_eq (js : List Json) : array js = (Json.list js).text := (Json.text_list js).symm

theorem sameValues_of_object_eq {m n : Material} (h : object m = object n) :
    m.configuration.SameValues n.configuration :=
  .of_pairs_eq (Request.valuesJson_injective h)

theorem exists_eq_map_of_subset {α β : Type} {f : α → β} {as : List α} {bs : List β}
    (h : ∀ b ∈ bs, b ∈ as.map f) : ∃ cs : List α, bs = cs.map f ∧ ∀ c ∈ cs, c ∈ as := by
  induction bs with
  | nil => exact ⟨[], rfl, nofun⟩
  | cons b bs ih =>
    obtain ⟨cs, rfl, hcs⟩ := ih fun b hb => h b (List.mem_cons_of_mem _ hb)
    obtain ⟨c, hc, rfl⟩ := List.mem_map.1 (h b List.mem_cons_self)
    exact ⟨c :: cs, rfl, List.forall_mem_cons.2 ⟨hc, hcs⟩⟩

def matching (materials : List Material) (cs : List Configuration) : List Material :=
  materials.filter fun m => ∃ c ∈ cs, c.SameValues m.configuration

theorem select_eq_matching (materials : List Material) (cs : List Configuration) :
    select materials cs = matching materials cs := by
  unfold select matching
  congr 1
  funext m
  rw [Bool.eq_iff_iff, decide_eq_true_iff, List.contains_iff_mem, List.mem_map]
  simp only [Configuration.identity_eq_iff_sameValues]

/-- The materials with the same values under the same keys, in whatever order, as one whose object
is among `js`. -/
def chosen (materials : List Material) (js : List Json) : List Material :=
  materials.filter fun m => ∃ n ∈ materials, object n ∈ js ∧
    n.configuration.SameValues m.configuration

theorem chosen_all (materials : List Material) :
    chosen materials (materials.map object) = materials := by
  rw [chosen, List.filter_eq_self]
  intro m hm
  exact decide_eq_true ⟨m, hm, List.mem_map_of_mem hm, .refl m.configuration⟩

theorem chosen_nil (materials : List Material) : chosen materials [] = [] := by
  simp [chosen]

theorem select_bare {materials returned : List Material} (h : ∀ m ∈ returned, m ∈ materials) :
    select materials (returned.map fun m => m.configuration.bare) =
      chosen materials (returned.map object) := by
  have bare (m : Material) : m.configuration.bare.SameValues m.configuration :=
    .of_pairs_eq m.configuration.pairs_bare
  rw [select_eq_matching]
  apply List.filter_congr
  intro m _
  refine decide_eq_decide.2 ⟨?_, ?_⟩
  · rintro ⟨_, member, same⟩
    obtain ⟨n, hn, rfl⟩ := List.mem_map.1 member
    exact ⟨n, h n hn, List.mem_map_of_mem hn, (bare n).symm.trans same⟩
  · rintro ⟨n, -, member, same⟩
    obtain ⟨n', hn', echoed⟩ := List.mem_map.1 member
    have alike := (bare n').trans (sameValues_of_object_eq echoed)
    exact ⟨_, List.mem_map_of_mem hn', alike.trans same⟩

theorem shouldUpdate_array {materials : List Material}
    (nonblank : ∀ m ∈ materials, ∀ k ∈ m.configuration.keys, Text.isBlank k = false) :
    Response.shouldUpdate (some (array (materials.map object))) =
      .ok (materials.map fun m => m.configuration.bare) := by
  have read := Response.shouldUpdate_text_values (materials.map (·.configuration))
    (by simpa using nonblank)
  rw [List.map_map, List.map_map] at read
  rw [array_eq]
  exact read

theorem outcome_array {plugin : String} {event : WebhookEvent} {materials returned : List Material}
    {headers : OrderedMap String}
    (nonblank : ∀ m ∈ returned, ∀ k ∈ m.configuration.keys, Text.isBlank k = false) :
    Client.outcome plugin (query event materials).read
        (.ok { body := some (array (returned.map object)), headers }) =
      .ok (returned.map fun m => m.configuration.bare) := by
  simp only [Client.outcome, query, Query.read, shouldUpdate_array nonblank]

variable {σ : Type} {w : World σ} {s : Settings} {plugin : String} {event : WebhookEvent}
  {materials : List Material} {x y : σ}

theorem materialsToUpdate_asked {rs : List Transport.Request}
    {a : Attempt Failure (List Configuration)} (nonempty : materials ≠ [])
    (published : w.supports plugin event.provider event.eventType x = true)
    (asked : ((query event materials).call s plugin).Yields w x rs a y) :
    ∃ z, (materialsToUpdate s plugin event materials).Yields w x rs
      (a >>= fun cs => .ok (select materials cs)) z := by
  have some_material : ¬materials.isEmpty = true := by simpa using nonempty
  rw [materialsToUpdate, if_neg some_material]
  have supported := Call.yields_supports w plugin event.provider event.eventType x
  rw [published] at supported
  cases a with
  | ok cs =>
    have told := Call.yields_note w (pollEvent "webhook selected materials" plugin
      [("returned", .count cs.length), ("matched", .count (select materials cs).length)]) y
    exact ⟨_, supported.bind (asked.bind_quiet (told.bind (Call.yields_pure w _ _)))⟩
  | error e => exact ⟨y, supported.bind asked.bind_error⟩
  | stopped => exact ⟨y, supported.bind asked.bind_stopped⟩

theorem envelope_eq (event : WebhookEvent) (materials : List Material) :
    (Draft.shouldUpdate event (materials.map (·.configuration))).content.envelope = .map [
      ("provider", .str event.provider), ("event_type", .str event.eventType),
      ("event_payload", .str event.payload),
      ("scm-configurations", .list (materials.map object))] := by
  rw [Draft.content, Request.Content.envelope, List.map_map, List.map_map]
  rfl

theorem text_envelope_eq (event : WebhookEvent) (materials : List Material) :
    ∃ front, (Draft.shouldUpdate event (materials.map (·.configuration))).content.envelope.text =
      front ++ array (materials.map object) ++ "\x7d" := by
  have key : (Json.str "scm-configurations").text = "\"scm-configurations\"" := rfl
  refine ⟨"\x7b" ++ Json.memberText ("provider", .str event.provider) ++ "," ++
    Json.memberText ("event_type", .str event.eventType) ++ "," ++
    Json.memberText ("event_payload", .str event.payload) ++ ",\"scm-configurations\":", ?_⟩
  rw [envelope_eq, array_eq]
  apply String.toList_injective
  simp [Json.text_map, Json.memberText, key]

/-- Whichever objects of the one request about an event come back, in whatever order and however
often, the materials with the values of theirs are chosen: all of them if all come back, and none if
none does. -/
theorem webhook_echo (w : World σ) (s : Settings) (plugin : String) (event : WebhookEvent)
    (materials : List Material) (x : σ)
    (published : w.supports plugin event.provider event.eventType x = true)
    (resolved : ((Client.resolve s plugin).run w x).1 = .ok .v2_0)
    (nonempty : materials ≠ [])
    (nonblank : ∀ m ∈ materials, ∀ k ∈ m.configuration.keys, Text.isBlank k = false)
    (secretFree : ∀ m ∈ materials, SecretFree m.configuration) :
    ∃ r body front ms,
      (materialsToUpdate s plugin event materials).requests w x = [r] ∧
      r = Client.request s plugin .v2 (query event materials) (some body) ∧
      Json.parse body = .ok (.map ms) ∧
      Response.Members.get? ms "scm-configurations" = some (.list (materials.map object)) ∧
      body = front ++ array (materials.map object) ++ "\x7d" ∧
      (∀ js headers, (∀ j ∈ js, j ∈ materials.map object) →
        (w.submit r (Client.arrival w plugin .v2 (query event materials) x)).1 =
          .ok { body := some (array js), headers } →
        ((materialsToUpdate s plugin event materials).run w x).1 = .ok (chosen materials js)) ∧
      chosen materials (materials.map object) = materials ∧ chosen materials [] = [] := by
  obtain ⟨e, version, speaks⟩ := Client.speaks_of_resolve resolved
  obtain rfl : e = .v2 := by
    cases e with
    | v1 => exact absurd version (by decide)
    | v2 => rfl
  have complete : (Draft.shouldUpdate event (materials.map (·.configuration))).Complete :=
    ⟨by simpa [Draft.configurations] using secretFree, by simp [Draft.Dated, Draft.revision?]⟩
  obtain ⟨front, written⟩ := text_envelope_eq event materials
  have text : (query event materials).text =
      .ok (some (front ++ array (materials.map object) ++ "\x7d")) := by
    simp only [query, Query.text, Query.draft?, complete.text_eq, written, Attempt.ok_bind]
  have read := Request.Content.parse_text
    (Draft.shouldUpdate event (materials.map (·.configuration))).content
  rw [written, envelope_eq] at read
  have has : (query event materials).operation ∈ Edition.v2.operations :=
    Client.mem_operations_iff.2 (.inl rfl)
  have goes := (Client.Goes.sent speaks has text).comes
  obtain ⟨z, yields⟩ := materialsToUpdate_asked nonempty published goes.yields
  refine ⟨_, _, front, _, yields.requests, rfl, read, rfl, rfl, ?_, chosen_all materials,
    chosen_nil materials⟩
  intro js headers taken answered
  obtain ⟨returned, rfl, known⟩ := exists_eq_map_of_subset taken
  rw [yields.run, answered, outcome_array fun m hm => nonblank m (known m hm)]
  exact congrArg Attempt.ok (select_bare known)

theorem webhook_echo_one :
    let a : Material := ⟨"a", .ofValues [("url", "\"é\\"), ("branch", "\u0001")]⟩
    let b : Material := ⟨"b", .ofList
      [("branch", { value := "\u0001", secure := true }), ("url", { value := "\"é\\" })]⟩
    let c : Material := ⟨"c", .ofValues [("url", "\u0001"), ("branch", "\"é\\")]⟩
    let info : PluginInfo := ⟨"git", "", "", ∅, ⟨[⟨"github", ["push"]⟩]⟩⟩
    let git : Rehearsal := {
      registry := ⟨.ofList [("git", { descriptor := ⟨"git", [.v1_0, .v2_0]⟩, info := some info })]⟩
      script := .respond {} "should-update" (array [object b, object b]) }
    object a ≠ object b ∧
      ((materialsToUpdate {} "git" ⟨"github", "push", ""⟩ [a, c, b, a]).run Rehearsal.world git).1 =
        .ok [a, b, a] := by
  intro a b c info git
  have resolved : ((Client.resolve {} "git").run Rehearsal.world git).1 = .ok .v2_0 := by decide
  obtain ⟨r, body, front, ms, -, rfl, -, -, -, echo, -⟩ :=
    webhook_echo Rehearsal.world {} "git" ⟨"github", "push", ""⟩ [a, c, b, a] git (by decide)
      resolved (by decide) (by decide) (by decide)
  have chosen_b : chosen [a, c, b, a] [object b, object b] = [a, b, a] := by decide +kernel
  refine ⟨by decide, ?_⟩
  rw [echo [object b, object b] ∅ (by decide) rfl, chosen_b]

end ScmPlugins.Poller
