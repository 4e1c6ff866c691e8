import ScmPlugins.Proofs.Except
import ScmPlugins.Proofs.Request.Envelope
import ScmPlugins.Response.Configuration

namespace ScmPlugins.Response

open Request (valuesJson plain_valuesJson depth_valuesJson_le SecretFree Draft)

theorem not_isBlank_of_mem {s : String} {c : Char} (hc : c ∈ s.toList)
    (h : Text.isBlankChar c = false) : Text.isBlank s = false := by
  rw [Bool.eq_false_iff]
  intro blank
  rw [Text.isBlank_iff.1 blank c hc] at h
  exact absurd h (by decide)

theorem document_text {payload : Payload} {j : Json} (plain : j.Plain)
    (depth : j.depth ≤ Json.maxDepth) (null : j ≠ .null)
    {c : Char} (hc : c ∈ j.render) (blank : Text.isBlankChar c = false) :
    document payload (some j.text) = .ok j := by
  have present : content (some j.text) = some j.text := by
    simp [content, not_isBlank_of_mem (s := j.text) (by simpa using hc) blank]
  have found : document? payload (some j.text) = .ok (some j) := by
    simp only [document?, present, Json.parse_text plain depth]
  simp only [document, found]

theorem document_text_map {payload : Payload} {ms : Members} (plain : (Json.map ms).Plain)
    (depth : (Json.map ms).depth ≤ Json.maxDepth) :
    document payload (some (Json.map ms).text) = .ok (.map ms) :=
  document_text plain depth nofun (c := '\x7b') (by simp [Json.render_map]) (by decide)

theorem document_text_list {payload : Payload} {js : List Json} (plain : (Json.list js).Plain)
    (depth : (Json.list js).depth ≤ Json.maxDepth) :
    document payload (some (Json.list js).text) = .ok (.list js) :=
  document_text plain depth nofun (c := '[') (by simp [Json.render_list]) (by decide)

theorem property_value (key value : String) :
    property key (.map [("value", .str value)]) = .ok { value } := by
  rfl

theorem properties_values (before : Configuration) (es : List (String × String))
    (fresh : (before.keys ++ es.map (·.1)).Nodup) :
    properties before (es.map fun (k, v) => (k, .map [("value", .str v)])) =
      if es.any fun e => Text.isBlank e.1 then
        .error { payload := .configuration, rule := .keyPresent }
      else .ok (es.foldl (fun c e => c.insert e.1 { value := e.2 }) before) := by
  induction es generalizing before with
  | nil => rfl
  | cons e es ih =>
    have absent : e.1 ∉ before.keys := by
      intro member
      rw [List.nodup_append] at fresh
      exact fresh.2.2 _ member _ (by simp) rfl
    have contains : before.contains e.1 = false := by
      rw [OrderedMap.contains, Bool.eq_false_iff, Ne, OrderedMap.get?_isSome_iff]
      exact absent
    have keys : (before.insert e.1 { value := e.2 }).keys = before.keys ++ [e.1] := by
      rw [OrderedMap.keys_insert, if_neg absent]
    have next := ih (before.insert e.1 { value := e.2 }) (by rw [keys]; simpa using fresh)
    cases blank : Text.isBlank e.1 with
    | true => simp [properties, blank]
    | false =>
      rw [List.any_cons, blank, Bool.false_or, List.foldl_cons, ← next]
      simp only [List.map_cons, properties, blank, contains, property_value, Bool.false_eq_true,
        if_false]

theorem configurationOf_values (payload : Payload) (expected : Shape) (c : Configuration) :
    configurationOf payload expected (valuesJson c.pairs) =
      if c.keys.any Text.isBlank then .error { payload := .configuration, rule := .keyPresent }
      else .ok c.bare := by
  have fresh : ((∅ : Configuration).keys ++ c.pairs.map (·.1)).Nodup := by
    rw [Configuration.map_fst_pairs]
    exact c.nodup
  have keys : c.keys = c.pairs.map (·.1) := (Configuration.map_fst_pairs c).symm
  rw [valuesJson, configurationOf, properties_values ∅ c.pairs fresh, keys, List.any_map]
  simp [Configuration.bare, Configuration.ofValues, OrderedMap.ofList, List.foldl_map,
    Function.comp_def]

theorem configuration_text_values (c : Configuration) :
    configuration (some (valuesJson c.pairs).text) =
      if c.keys.any Text.isBlank then .error { payload := .configuration, rule := .keyPresent }
      else .ok c.bare := by
  have read : document .configuration (some (valuesJson c.pairs).text) =
      .ok (valuesJson c.pairs) :=
    document_text_map (plain_valuesJson c.pairs)
      (Nat.le_trans (depth_valuesJson_le c.pairs) (by decide))
  rw [configuration, read]
  exact configurationOf_values .configuration .map c

theorem configuration_text_values_eq_ok_iff {c d : Configuration} :
    configuration (some (valuesJson c.pairs).text) = .ok d ↔
      (∀ k ∈ c.keys, Text.isBlank k = false) ∧ d = c.bare := by
  rw [configuration_text_values]
  split
  · rename_i blank
    obtain ⟨k, hk, blank⟩ := List.any_eq_true.1 blank
    constructor
    · nofun
    · rintro ⟨nonblank, -⟩
      rw [nonblank k hk] at blank
      cases blank
  · rename_i nonblank
    rw [Except.ok.injEq, eq_comm]
    exact (and_iff_right (by simpa using nonblank)).symm

theorem configuration_text_values_of_blank {c : Configuration}
    (h : ∃ k ∈ c.keys, Text.isBlank k = true) :
    configuration (some (valuesJson c.pairs).text) =
      .error { payload := .configuration, rule := .keyPresent } := by
  rw [configuration_text_values, if_pos (List.any_eq_true.2 h)]

theorem text_envelope_eq (c : Configuration) :
    (Draft.configuration c).content.envelope.text =
      "\x7b\"scm-configuration\":" ++ (valuesJson c.pairs).text ++ "\x7d" := by
  have key : (Json.str "scm-configuration").text = "\"scm-configuration\"" := rfl
  apply String.toList_injective
  simp [Draft.content, Request.Content.envelope, Json.text_map, Json.memberText, key]

theorem shouldUpdate_text_values (cs : List Configuration)
    (nonblank : ∀ c ∈ cs, ∀ k ∈ c.keys, Text.isBlank k = false) :
    shouldUpdate (some (Json.list (cs.map fun c => valuesJson c.pairs)).text) =
      .ok (cs.map Configuration.bare) := by
  have plain : (Json.list (cs.map fun c => valuesJson c.pairs)).Plain :=
    .list (by simp [plain_valuesJson])
  have depth : (Json.list (cs.map fun c => valuesJson c.pairs)).depth ≤ 3 :=
    Json.depth_list_le (by simp [depth_valuesJson_le])
  have read : document .shouldUpdate (some (Json.list (cs.map fun c => valuesJson c.pairs)).text) =
      .ok (.list (cs.map fun c => valuesJson c.pairs)) :=
    document_text_list plain (Nat.le_trans depth (by decide))
  rw [shouldUpdate, read]
  show (cs.map fun c => valuesJson c.pairs).mapM _ = _
  rw [List.mapM_map]
  apply Except.mapM_eq_ok_map
  intro c hc
  rw [Function.comp_apply, configurationOf_values, if_neg]
  simpa using nonblank c hc

/-- The object in the body of a request for a configuration, sent back verbatim, is accepted unless
a key is blank, and then only what is known about the properties is lost. -/
theorem configuration_echo (c : Configuration) (h : SecretFree c) :
    ∃ body ms o, Request.text (Request.configuration c) = .ok body ∧
      Json.parse body = .ok (.map ms) ∧ Members.get? ms "scm-configuration" = some o ∧
      body = "\x7b\"scm-configuration\":" ++ o.text ++ "\x7d" ∧
      ((∃ d, configuration (some o.text) = .ok d) ↔ ∀ k ∈ c.keys, Text.isBlank k = false) ∧
      (∀ d, configuration (some o.text) = .ok d →
        d.pairs = c.pairs ∧ d.IsBare ∧ d.identity = c.identity ∧ (d.same c = true ↔ c.IsBare)) ∧
      ((∃ k ∈ c.keys, Text.isBlank k = true) → configuration (some o.text) =
        .error { payload := .configuration, rule := .keyPresent }) := by
  have complete : (Draft.configuration c).Complete :=
    ⟨by simpa [Draft.configurations] using h, by simp [Draft.Dated, Draft.revision?]⟩
  refine ⟨_, _, valuesJson c.pairs, complete.text_eq, Request.Content.parse_text _, rfl,
    text_envelope_eq c, ?_, ?_, configuration_text_values_of_blank⟩
  · simp only [configuration_text_values_eq_ok_iff]
    constructor
    · rintro ⟨d, nonblank, -⟩
      exact nonblank
    · intro nonblank
      exact ⟨c.bare, nonblank, rfl⟩
  · intro d hd
    obtain ⟨-, rfl⟩ := configuration_text_values_eq_ok_iff.1 hd
    exact ⟨c.pairs_bare, c.isBare_bare, c.identity_bare, c.same_bare_iff⟩

theorem configuration_echo_secure :
    let c : Configuration := .ofList [("\"é\\", { value := "\u0001", secure := true }), ("k", {})]
    let blank : Configuration := .ofList [("\u3000", {})]
    SecretFree c ∧ SecretFree blank ∧
      (∃ o d, configuration (some (Json.text o)) = .ok d ∧ d.pairs = c.pairs ∧
        d.identity = c.identity ∧ d.same c = false) ∧
      ∃ o, configuration (some (Json.text o)) =
        .error { payload := .configuration, rule := .keyPresent } := by
  intro c blank
  have hc : SecretFree c := by decide
  have hblank : SecretFree blank := by decide
  obtain ⟨body, ms, o, -, -, -, -, accepted, kept, -⟩ := configuration_echo c hc
  obtain ⟨d, hd⟩ := accepted.2 (by decide)
  obtain ⟨pairs, -, identity, same⟩ := kept d hd
  obtain ⟨body', ms', o', -, -, -, -, -, -, refused⟩ := configuration_echo blank hblank
  refine ⟨hc, hblank, ⟨o, d, hd, pairs, identity, ?_⟩, o', refused (by decide)⟩
  rw [Bool.eq_false_iff, Ne, same]
  decide

end ScmPlugins.Response
