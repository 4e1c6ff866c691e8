import ScmPlugins.Proofs.Json.Fields
import ScmPlugins.Proofs.Response.Texts
import ScmPlugins.Response.Capabilities

namespace ScmPlugins.Response

open Json

def under (ms : List (String × List Char)) (name : String) : List (List Char) :=
  (ms.filter (·.1 == name)).map (·.2)

/-- A list that may be left out, but is not given twice. -/
inductive Given {α : Type} (P : List Char → List α → Prop) : List (List Char) → List α → Prop
  | no : Given P [] []
  | once {v : List Char} {as : List α} (h : P v as) : Given P [v] as

def IsTexts (v : List Char) (ss : List String) : Prop :=
  ∃ vs, IsList v vs ∧ List.Forall₂ Spells vs ss

/-- An entry names a provider and may list events, by name or in this order. -/
inductive IsWebhook : List Char → WebhookSupport → Prop
  | map {v p : List Char} {ms : List (String × List Char)} {w : WebhookSupport} (map : IsMap v ms)
      (one : under ms "provider" = [p]) (provider : Spells p w.provider)
      (events : Given IsTexts (under ms "events") w.events) : IsWebhook v w
  | list {v p : List Char} {rest : List (List Char)} {w : WebhookSupport}
      (list : IsList v (p :: rest)) (provider : Spells p w.provider)
      (events : Given IsTexts rest w.events) : IsWebhook v w

/-- The entries that a text lists. -/
inductive HasEntries : List Char → List (List Char) → Prop
  | map {v : List Char} {ms : List (String × List Char)} {entries : List (List Char)}
      (map : IsMap v ms) (listed : Given IsList (under ms "supported_webhooks") entries) :
      HasEntries v entries
  | list {v : List Char} {vs entries : List (List Char)} (list : IsList v vs)
      (listed : Given IsList vs entries) : HasEntries v entries

def DeclaresAll (v : List Char) (c : Capabilities) : Prop :=
  ∃ entries, HasEntries v entries ∧ List.Forall₂ IsWebhook entries c.webhooks

def Offers (entry : List Char) (provider event : String) : Prop :=
  ∃ w, IsWebhook entry w ∧ w.provider = provider ∧ event ∈ w.events

inductive Adds (known : List String) : List Char → List Char → Prop
  | member {v v' n x : List Char} {k : String} {front back : List (List Char × List Char)}
      (before : IsObject v (front ++ back)) (after : IsObject v' (front ++ (n, x) :: back))
      (spells : Spells n k) (unknown : k ∉ known) : Adds known v v'

inductive AddsToEntry : List Char → List Char → Prop
  | entry {v v' e e' : List Char} {front back : List (List Char)}
      (before : IsList v (front ++ e :: back)) (after : IsList v' (front ++ e' :: back))
      (h : Adds ["provider", "events"] e e') : AddsToEntry v v'

/-- Such a member is added to capabilities, or to an entry that they list. -/
inductive AddsToAny : List Char → List Char → Prop
  | outside {v v' : List Char} (h : Adds ["supported_webhooks"] v v') : AddsToAny v v'
  | map {v v' n x x' : List Char} {front back : List (List Char × List Char)}
      (before : IsObject v (front ++ (n, x) :: back))
      (after : IsObject v' (front ++ (n, x') :: back)) (spells : Spells n "supported_webhooks")
      (h : AddsToEntry x x') : AddsToAny v v'
  | list {v v' x x' : List Char} {rest : List (List Char)} (before : IsList v (x :: rest))
      (after : IsList v' (x' :: rest)) (h : AddsToEntry x x') : AddsToAny v v'

def webhookJson (w : WebhookSupport) : Json :=
  .map [("provider", .str w.provider), ("events", .list (w.events.map .str))]

def capabilitiesJson (c : Capabilities) : Json :=
  .map [("supported_webhooks", .list (c.webhooks.map webhookJson))]

section Members

variable {v : List Char} {ms : List (String × List Char)} {vs : List (List Char)} {k name : String}

theorem under_cons_self (ms : List (String × List Char)) (name : String) (v : List Char) :
    under ((name, v) :: ms) name = v :: under ms name := by
  simp [under]

theorem under_cons_of_ne (ms : List (String × List Char)) (v : List Char) (h : k ≠ name) :
    under ((k, v) :: ms) name = under ms name := by
  simp [under, h]

theorem run_text_eq_ok_iff (h : IsValue v) {s : String} :
    Reader.text.run v = .ok (s, []) ↔ Spells v s := by
  simpa using Reader.run_text_iff (t := []) h

theorem run_texts_eq_ok_iff (h : IsValue v) {ss : List String} :
    (Reader.listOf Reader.text).run v = .ok (ss, []) ↔ IsTexts v ss :=
  Reader.run_listOf_of_iff Reader.exact_text (fun value => run_text_eq_ok_iff value) h

end Members

section Webhooks

variable {v : List Char} {ms : List (String × List Char)} {vs : List (List Char)}
  {seen : List String} {acc w : WebhookSupport} {k : String}

theorem exact_webhookRecord : ∀ f ∈ webhookRecord.fields, f.read.Exact := by
  simp [webhookRecord, Reader.exact_text.map, Reader.exact_text.listOf.map]

theorem missing?_webhookRecord : webhookRecord.missing? seen = none ↔ "provider" ∈ seen := by
  simp [Record.missing?, webhookRecord]

theorem find?_webhookRecord_eq_none (provider : k ≠ "provider") (events : k ≠ "events") :
    webhookRecord.fields.find? (·.name == k) = none := by
  simp [webhookRecord, provider.symm, events.symm]

theorem run_provider_iff (value : IsValue v) {put : WebhookSupport → WebhookSupport} :
    (webhookRecord.fields[0]).read.run v = .ok (put, []) ↔
      ∃ s, Spells v s ∧ put = fun w => { w with provider := s } := by
  refine Reader.run_map_iff.trans (exists_congr fun s => ?_)
  rw [run_text_eq_ok_iff value, eq_comm]

theorem run_events_iff (value : IsValue v) {put : WebhookSupport → WebhookSupport} :
    (webhookRecord.fields[1]).read.run v = .ok (put, []) ↔
      ∃ ss, IsTexts v ss ∧ put = fun w => { w with events := ss } := by
  refine Reader.run_map_iff.trans (exists_congr fun ss => ?_)
  rw [run_texts_eq_ok_iff value, eq_comm]

theorem takes_webhook_iff (values : ∀ m ∈ ms, IsValue m.2) :
    webhookRecord.Takes seen acc ms w ↔
      (if "provider" ∈ seen then under ms "provider" = [] ∧ acc.provider = w.provider
        else ∃ p, under ms "provider" = [p] ∧ Spells p w.provider) ∧
      (if "events" ∈ seen then under ms "events" = [] ∧ acc.events = w.events
        else under ms "events" = [] ∧ acc.events = w.events ∨
          ∃ v, under ms "events" = [v] ∧ IsTexts v w.events) := by
  induction ms generalizing seen acc with
  | nil =>
    rw [Record.takes_nil_iff, missing?_webhookRecord]
    obtain ⟨p, es⟩ := acc
    obtain ⟨p', es'⟩ := w
    simp [under, and_assoc]
  | cons m ms ih =>
    obtain ⟨k, v⟩ := m
    obtain ⟨value, others⟩ := List.forall_mem_cons.1 values
    by_cases provider : k = "provider"
    · subst provider
      rw [Record.takes_cons_iff (f := webhookRecord.fields[0]) rfl, under_cons_self,
        under_cons_of_ne _ _ (by decide)]
      simp only [run_provider_iff value, ih others,
        show (webhookRecord.fields[0]).name = "provider" from rfl]
      by_cases met : "provider" ∈ seen <;> simp [met, and_comm, and_left_comm, and_assoc]
    · by_cases events : k = "events"
      · subst events
        rw [Record.takes_cons_iff (f := webhookRecord.fields[1]) rfl, under_cons_self,
          under_cons_of_ne _ _ (by decide)]
        simp only [run_events_iff value, ih others,
          show (webhookRecord.fields[1]).name = "events" from rfl]
        by_cases met : "events" ∈ seen <;> simp [met, and_comm, and_left_comm, and_assoc]
      · rw [Record.takes_cons_unknown_iff (find?_webhookRecord_eq_none provider events),
          under_cons_of_ne _ _ provider, under_cons_of_ne _ _ events, ih others]

theorem given_iff {α : Type} {P : List Char → List α → Prop} {given : List (List Char)}
    {as : List α} :
    Given P given as ↔ given = [] ∧ as = [] ∨ ∃ v, given = [v] ∧ P v as := by
  constructor
  · rintro (_ | h)
    · exact .inl ⟨rfl, rfl⟩
    · exact .inr ⟨_, rfl, h⟩
  · rintro (⟨rfl, rfl⟩ | ⟨v, rfl, h⟩)
    · exact .no
    · exact .once h

theorem webhook_of_map_iff (map : IsMap v ms) :
    webhookRecord.Takes [] webhookRecord.start ms w ↔
      (∃ p, under ms "provider" = [p] ∧ Spells p w.provider) ∧
        Given IsTexts (under ms "events") w.events := by
  have nothing : webhookRecord.start.events = w.events ↔ w.events = [] := eq_comm
  rw [takes_webhook_iff map.values, given_iff, nothing]
  simp

theorem webhook_of_list_iff (values : ∀ v ∈ vs, IsValue v) :
    Record.Fills webhookRecord.fields webhookRecord.start vs w ↔
      ∃ p rest, vs = p :: rest ∧ Spells p w.provider ∧ Given IsTexts rest w.events := by
  change Record.Fills [webhookRecord.fields[0], webhookRecord.fields[1]] ⟨"", []⟩ vs w ↔ _
  match vs, values with
  | [], _ =>
    simp [Record.fills_nil_iff, show (webhookRecord.fields[0]).presence = .required from rfl]
  | [p], values =>
    have value := values p (by simp)
    simp only [Record.fills_cons_iff, Record.fills_nil_iff, run_provider_iff value, given_iff]
    constructor
    · rintro ⟨_, ⟨s, spells, rfl⟩, -, rfl⟩
      exact ⟨p, [], rfl, spells, .inl ⟨rfl, rfl⟩⟩
    · obtain ⟨s, ss⟩ := w
      rintro ⟨_, _, ⟨⟩, spells, ⟨-, rfl⟩ | ⟨_, ⟨⟩, -⟩⟩
      exact ⟨_, ⟨s, spells, rfl⟩, by simp [webhookRecord], rfl⟩
  | [p, es], values =>
    have provider := values p (by simp)
    have events := values es (by simp)
    simp only [Record.fills_cons_iff, Record.fills_nil_iff, run_provider_iff provider,
      run_events_iff events, given_iff]
    constructor
    · rintro ⟨_, ⟨s, spells, rfl⟩, _, ⟨ss, texts, rfl⟩, -, rfl⟩
      exact ⟨p, [es], rfl, spells, .inr ⟨es, rfl, texts⟩⟩
    · obtain ⟨s, ss⟩ := w
      rintro ⟨_, _, ⟨⟩, spells, ⟨⟨⟩, -⟩ | ⟨_, ⟨⟩, texts⟩⟩
      exact ⟨_, ⟨s, spells, rfl⟩, _, ⟨ss, texts, rfl⟩, nofun, rfl⟩
  | p :: es :: v :: rest, _ =>
    simp [Record.fills_cons_iff, given_iff, Record.not_fills_nil_cons]

theorem run_webhook_iff (value : IsValue v) :
    webhookRecord.reader.run v = .ok (w, []) ↔ IsWebhook v w := by
  have read := Record.run_append_iff exact_webhookRecord value (a := w) (t := [])
  rw [List.append_nil] at read
  refine read.trans ⟨?_, ?_⟩
  · rintro (⟨ms, map, takes⟩ | ⟨vs, list, fills⟩)
    · obtain ⟨⟨p, one, provider⟩, events⟩ := (webhook_of_map_iff map).1 takes
      exact .map map one provider events
    · obtain ⟨p, rest, rfl, provider, events⟩ := (webhook_of_list_iff list.values).1 fills
      exact .list list provider events
  · rintro (⟨map, one, provider, events⟩ | ⟨list, provider, events⟩)
    · exact .inl ⟨_, map, (webhook_of_map_iff map).2 ⟨⟨_, one, provider⟩, events⟩⟩
    · exact .inr ⟨_, list, (webhook_of_list_iff list.values).2 ⟨_, _, rfl, provider, events⟩⟩

end Webhooks

section Listings

variable {v : List Char} {ms : List (String × List Char)} {vs : List (List Char)}
  {seen : List String} {acc c : Capabilities} {k : String}

theorem exact_webhooks : (Reader.listOf webhookRecord.reader).Exact :=
  (Record.exact_reader exact_webhookRecord).listOf

theorem exact_capabilitiesRecord : ∀ f ∈ capabilitiesRecord.fields, f.read.Exact := by
  simp [capabilitiesRecord, exact_webhooks.map]

theorem find?_capabilitiesRecord_eq_none (h : k ≠ "supported_webhooks") :
    capabilitiesRecord.fields.find? (·.name == k) = none := by
  simp [capabilitiesRecord, h.symm]

def IsWebhooks (v : List Char) (ws : List WebhookSupport) : Prop :=
  ∃ vs, IsList v vs ∧ List.Forall₂ IsWebhook vs ws

theorem run_webhooks_iff (value : IsValue v) {put : Capabilities → Capabilities} :
    (capabilitiesRecord.fields[0]).read.run v = .ok (put, []) ↔
      ∃ ws, IsWebhooks v ws ∧ put = fun c => { c with webhooks := ws } := by
  have read {ws : List WebhookSupport} :
      (Reader.listOf webhookRecord.reader).run v = .ok (ws, []) ↔ IsWebhooks v ws :=
    Reader.run_listOf_of_iff (Record.exact_reader exact_webhookRecord)
      (fun value => run_webhook_iff value) value
  refine Reader.run_map_iff.trans (exists_congr fun ws => ?_)
  rw [read, eq_comm]

theorem takes_capabilities_iff (values : ∀ m ∈ ms, IsValue m.2) :
    capabilitiesRecord.Takes seen acc ms c ↔
      if "supported_webhooks" ∈ seen then under ms "supported_webhooks" = [] ∧ acc = c
        else under ms "supported_webhooks" = [] ∧ acc = c ∨
          ∃ v, under ms "supported_webhooks" = [v] ∧ IsWebhooks v c.webhooks := by
  induction ms generalizing seen acc with
  | nil =>
    rw [Record.takes_nil_iff]
    simp [Record.missing?, capabilitiesRecord, under]
  | cons m ms ih =>
    obtain ⟨k, v⟩ := m
    obtain ⟨value, others⟩ := List.forall_mem_cons.1 values
    by_cases listed : k = "supported_webhooks"
    · subst listed
      rw [Record.takes_cons_iff (f := capabilitiesRecord.fields[0]) rfl, under_cons_self]
      simp only [run_webhooks_iff value, ih others,
        show (capabilitiesRecord.fields[0]).name = "supported_webhooks" from rfl]
      obtain ⟨ws⟩ := c
      by_cases met : "supported_webhooks" ∈ seen <;> simp [met, and_comm]
    · rw [Record.takes_cons_unknown_iff (find?_capabilitiesRecord_eq_none listed),
        under_cons_of_ne _ _ listed, ih others]

theorem exists_entries_iff {given : List (List Char)} :
    (∃ entries, Given IsList given entries ∧ List.Forall₂ IsWebhook entries c.webhooks) ↔
      given = [] ∧ Capabilities.empty = c ∨ ∃ v, given = [v] ∧ IsWebhooks v c.webhooks := by
  constructor
  · rintro ⟨entries, ⟨⟩ | ⟨list⟩, each⟩
    · obtain ⟨ws⟩ := c
      cases each
      exact .inl ⟨rfl, rfl⟩
    · exact .inr ⟨_, rfl, entries, list, each⟩
  · rintro (⟨rfl, rfl⟩ | ⟨v, rfl, entries, list, each⟩)
    · exact ⟨[], .no, .nil⟩
    · exact ⟨entries, .once list, each⟩

theorem fills_capabilities_iff (values : ∀ v ∈ vs, IsValue v) :
    Record.Fills capabilitiesRecord.fields capabilitiesRecord.start vs c ↔
      vs = [] ∧ Capabilities.empty = c ∨ ∃ v, vs = [v] ∧ IsWebhooks v c.webhooks := by
  change Record.Fills [capabilitiesRecord.fields[0]] .empty vs c ↔ _
  match vs, values with
  | [], _ =>
    simp [Record.fills_nil_iff, show (capabilitiesRecord.fields[0]).presence = .optional from rfl]
  | [v], values =>
    have value := values v (by simp)
    simp only [Record.fills_cons_iff, Record.fills_nil_iff, run_webhooks_iff value]
    constructor
    · rintro ⟨_, ⟨ws, webhooks, rfl⟩, -, rfl⟩
      exact .inr ⟨v, rfl, webhooks⟩
    · rintro (⟨⟨⟩, -⟩ | ⟨_, ⟨⟩, webhooks⟩)
      exact ⟨_, ⟨c.webhooks, webhooks, rfl⟩, nofun, rfl⟩
  | v :: u :: rest, _ => simp [Record.fills_cons_iff, Record.not_fills_nil_cons]

theorem takes_capabilities_map_iff (map : IsMap v ms) :
    capabilitiesRecord.Takes [] capabilitiesRecord.start ms c ↔
      ∃ entries, Given IsList (under ms "supported_webhooks") entries ∧
        List.Forall₂ IsWebhook entries c.webhooks := by
  rw [takes_capabilities_iff map.values, exists_entries_iff]
  rfl

theorem run_capabilities_iff (value : IsValue v) :
    capabilitiesRecord.reader.run v = .ok (c, []) ↔ DeclaresAll v c := by
  have read := Record.run_append_iff exact_capabilitiesRecord value (a := c) (t := [])
  rw [List.append_nil] at read
  refine read.trans ⟨?_, ?_⟩
  · rintro (⟨ms, map, takes⟩ | ⟨vs, list, fills⟩)
    · obtain ⟨entries, listed, each⟩ := (takes_capabilities_map_iff map).1 takes
      exact ⟨entries, .map map listed, each⟩
    · obtain ⟨entries, listed, each⟩ :=
        exists_entries_iff.2 ((fills_capabilities_iff list.values).1 fills)
      exact ⟨entries, .list list listed, each⟩
  · rintro ⟨entries, ⟨map, listed⟩ | ⟨list, listed⟩, each⟩
    · exact .inl ⟨_, map, (takes_capabilities_map_iff map).2 ⟨entries, listed, each⟩⟩
    · exact .inr ⟨_, list,
        (fills_capabilities_iff list.values).2 (exists_entries_iff.1 ⟨entries, listed, each⟩)⟩

end Listings

section Additions

variable {v v' : List Char} {w : WebhookSupport} {ws : List WebhookSupport} {c : Capabilities}

theorem run_webhook_added_iff (h : Adds ["provider", "events"] v v') :
    webhookRecord.reader.run v' = .ok (w, []) ↔ webhookRecord.reader.run v = .ok (w, []) := by
  obtain ⟨before, after, spells, unknown⟩ := h
  simp only [List.mem_cons, List.not_mem_nil, or_false, not_or] at unknown
  exact Record.run_added_iff exact_webhookRecord before after spells
    (find?_webhookRecord_eq_none unknown.1 unknown.2)

theorem run_webhooks_added_iff (h : AddsToEntry v v') :
    (Reader.listOf webhookRecord.reader).run v' = .ok (ws, []) ↔
      (Reader.listOf webhookRecord.reader).run v = .ok (ws, []) := by
  obtain ⟨before, after, added⟩ := h
  have exact := Record.exact_reader exact_webhookRecord
  rw [Reader.run_listOf_of_isList exact before, Reader.run_listOf_of_isList exact after]
  simp only [forall₂_append_cons_iff, run_webhook_added_iff added]

theorem run_listed_added_iff (h : AddsToEntry v v') {put : Capabilities → Capabilities} :
    (capabilitiesRecord.fields[0]).read.run v' = .ok (put, []) ↔
      (capabilitiesRecord.fields[0]).read.run v = .ok (put, []) := by
  refine Reader.run_map_iff.trans ((exists_congr fun ws => ?_).trans Reader.run_map_iff.symm)
  rw [run_webhooks_added_iff h]

theorem run_capabilities_added_iff (h : AddsToAny v v') :
    capabilitiesRecord.reader.run v' = .ok (c, []) ↔
      capabilitiesRecord.reader.run v = .ok (c, []) := by
  cases h with
  | outside h =>
    obtain ⟨before, after, spells, unknown⟩ := h
    exact Record.run_added_iff exact_capabilitiesRecord before after spells
      (find?_capabilitiesRecord_eq_none (by simpa using unknown))
  | map before after spells h =>
    refine Record.run_replaced_iff exact_capabilitiesRecord before after spells
      fun f known put => ?_
    cases known
    exact run_listed_added_iff h
  | list before after h =>
    rw [Record.run_list_iff exact_capabilitiesRecord before,
      Record.run_list_iff exact_capabilitiesRecord after]
    change Record.Fills [capabilitiesRecord.fields[0]] .empty _ c ↔
      Record.Fills [capabilitiesRecord.fields[0]] .empty _ c
    simp only [Record.fills_cons_iff, run_listed_added_iff h]

end Additions

section Bodies

variable {body : Option String} {s : String} {c : Capabilities} {v : List Char}

theorem HasEntries.ne_null {entries : List (List Char)} (h : HasEntries v entries) :
    v ≠ ['n', 'u', 'l', 'l'] := by
  rintro rfl
  cases h with
  | map map =>
    obtain ⟨_, ⟨_, ⟨⟩, -⟩, -⟩ := map
  | list list =>
    obtain ⟨_, ⟨⟩, -⟩ := list

theorem HasEntries.isValue {entries : List (List Char)} (h : HasEntries v entries) :
    IsValue v := by
  cases h with
  | map map => exact map.isValue
  | list list => exact list.isValue

theorem readAll_capabilities_iff {o : Option Capabilities} :
    capabilitiesRecord.reader.optional.readAll s = .ok o ↔
      Wraps s.toList ['n', 'u', 'l', 'l'] ∧ o = none ∨
        ∃ v c, Wraps s.toList v ∧ DeclaresAll v c ∧ o = some c := by
  have exact := Record.exact_reader exact_capabilitiesRecord
  rw [exact.optional.readAll_eq_ok_iff]
  have run {v : List Char} (wraps : Wraps s.toList v) :
      capabilitiesRecord.reader.optional.run v = .ok (o, []) ↔
        v = ['n', 'u', 'l', 'l'] ∧ o = none ∨
          v ≠ ['n', 'u', 'l', 'l'] ∧ ∃ c, o = some c ∧ DeclaresAll v c := by
    obtain ⟨_, _, -, -, -, value⟩ := wraps
    have read := Reader.run_optional_iff exact value Json.endsNumber_nil (o := o)
    simpa only [List.append_nil, run_capabilities_iff value] using read
  constructor
  · rintro ⟨v, wraps, read⟩
    obtain ⟨rfl, rfl⟩ | ⟨-, c, rfl, declares⟩ := (run wraps).1 read
    · exact .inl ⟨wraps, rfl⟩
    · exact .inr ⟨v, c, wraps, declares, rfl⟩
  · rintro (⟨wraps, rfl⟩ | ⟨v, c, wraps, declares, rfl⟩)
    · exact ⟨_, wraps, (run wraps).2 (.inl ⟨rfl, rfl⟩)⟩
    · obtain ⟨_, entries, -⟩ := id declares
      exact ⟨v, wraps, (run wraps).2 (.inr ⟨entries.ne_null, c, rfl, declares⟩)⟩

theorem capabilities_eq_ok_iff :
    capabilities body = .ok c ↔
      SaysNothing body ∧ c = .empty ∨
        ∃ s v, body = some s ∧ Wraps s.toList v ∧ DeclaresAll v c := by
  cases body with
  | none =>
    constructor
    · rintro ⟨⟩
      exact .inl ⟨.absent, rfl⟩
    · rintro (⟨-, rfl⟩ | ⟨_, _, ⟨⟩, -⟩)
      rfl
  | some s =>
    cases visible : Text.isBlank s with
    | true =>
      have absent : content (some s) = none := by simp [content, visible]
      simp only [capabilities, absent]
      constructor
      · rintro ⟨⟩
        exact .inl ⟨.blank (Text.isBlank_iff.1 visible), rfl⟩
      · rintro (⟨-, rfl⟩ | ⟨_, v, ⟨⟩, wraps, -⟩)
        · rfl
        · rw [isBlank_of_wraps wraps] at visible
          cases visible
    | false =>
      have present : content (some s) = some s := by simp [content, visible]
      have read : capabilities (some s) = .ok c ↔
          ∃ o, capabilitiesRecord.reader.optional.readAll s = .ok o ∧ o.getD .empty = c := by
        simp only [capabilities, present]
        cases capabilitiesRecord.reader.optional.readAll s <;> simp
      rw [read]
      simp only [readAll_capabilities_iff]
      constructor
      · rintro ⟨_, ⟨wraps, rfl⟩ | ⟨v, c, wraps, declares, rfl⟩, rfl⟩
        · exact .inl ⟨.null wraps, rfl⟩
        · exact .inr ⟨s, v, rfl, wraps, declares⟩
      · rintro (⟨nothing, rfl⟩ | ⟨_, v, ⟨⟩, wraps, declares⟩)
        · cases nothing with
          | blank blank =>
            rw [Text.isBlank_iff.2 blank] at visible
            cases visible
          | null wraps => exact ⟨none, .inl ⟨wraps, rfl⟩, rfl⟩
        · exact ⟨some c, .inr ⟨v, c, wraps, declares, rfl⟩, rfl⟩

theorem capabilities_of_wraps (wraps : Wraps s.toList v) (null : v ≠ ['n', 'u', 'l', 'l']) :
    capabilities (some s) = .ok c ↔ capabilitiesRecord.reader.run v = .ok (c, []) := by
  obtain ⟨_, _, -, -, -, value⟩ := id wraps
  rw [capabilities_eq_ok_iff, run_capabilities_iff value]
  constructor
  · rintro (⟨nothing, -⟩ | ⟨_, u, ⟨⟩, wraps', declares⟩)
    · cases nothing with
      | blank blank =>
        have visible := isBlank_of_wraps wraps
        rw [Text.isBlank_iff.2 blank] at visible
        cases visible
      | null wraps' => exact absurd (wraps.unique wraps') null
    · rwa [wraps.unique wraps']
  · exact fun declares => .inr ⟨s, v, rfl, wraps, declares⟩

theorem IsWebhook.isValue {w : WebhookSupport} (h : IsWebhook v w) : IsValue v := by
  cases h with
  | map map => exact map.isValue
  | list list => exact list.isValue

theorem IsWebhook.unique {w w' : WebhookSupport} (h : IsWebhook v w) (h' : IsWebhook v w') :
    w = w' := by
  have read := (run_webhook_iff h.isValue).2 h
  rw [(run_webhook_iff h.isValue).2 h'] at read
  exact (Prod.mk.inj (Except.ok.inj read)).1.symm

theorem Given.unique {α : Type} {P : List Char → List α → Prop} {given : List (List Char)}
    {as as' : List α} (one : ∀ v as as', P v as → P v as' → as = as') (h : Given P given as)
    (h' : Given P given as') : as = as' := by
  cases h with
  | no =>
    cases h'
    rfl
  | once h =>
    cases h' with
    | once h' => exact one _ _ _ h h'

theorem HasEntries.unique {es es' : List (List Char)} (h : HasEntries v es)
    (h' : HasEntries v es') : es = es' := by
  cases h with
  | map map listed =>
    cases h' with
    | map map' listed' =>
      rw [map.unique map'] at listed
      exact Given.unique (P := IsList) (fun _ _ _ => IsList.unique) listed listed'
    | list list' =>
      obtain ⟨_, ⟨_, rfl, -⟩, -⟩ := map
      obtain ⟨_, ⟨⟩, -⟩ := list'
  | list list listed =>
    cases h' with
    | map map' =>
      obtain ⟨_, ⟨_, rfl, -⟩, -⟩ := map'
      obtain ⟨_, ⟨⟩, -⟩ := list
    | list list' listed' =>
      rw [list.unique list'] at listed
      exact Given.unique (P := IsList) (fun _ _ _ => IsList.unique) listed listed'

theorem offers_iff {w : WebhookSupport} (h : IsWebhook v w) {provider event : String} :
    Offers v provider event ↔ w.provider = provider ∧ event ∈ w.events := by
  constructor
  · rintro ⟨w', h', same, mem⟩
    rw [h.unique h']
    exact ⟨same, mem⟩
  · exact fun offered => ⟨w, h, offered⟩

theorem supports_iff_offers {entries : List (List Char)}
    (each : List.Forall₂ IsWebhook entries c.webhooks) {provider event : String} :
    c.supports provider event = true ↔ ∃ entry ∈ entries, Offers entry provider event := by
  rw [Capabilities.supports_iff]
  generalize c.webhooks = ws at each
  induction each with
  | nil => simp
  | cons here _ ih => simp only [List.exists_mem_cons_iff, ih, offers_iff here]

end Bodies

section Writing

variable {c : Capabilities} {w : WebhookSupport}

theorem isTexts_render (ss : List String) : IsTexts (Json.list (ss.map .str)).render ss := by
  have values : ∀ j ∈ ss.map Json.str, IsValue j.render := by
    simp only [List.forall_mem_map]
    exact fun s _ => (spells_renderString s).isValue
  refine ⟨_, isList_render values, ?_⟩
  rw [List.map_map, List.forall₂_map_left_iff, List.forall₂_same]
  exact fun s _ => spells_renderString s

theorem isValue_texts (ss : List String) : IsValue (Json.list (ss.map .str)).render := by
  obtain ⟨_, list, -⟩ := isTexts_render ss
  exact list.isValue

theorem isWebhook_render (w : WebhookSupport) : IsWebhook (webhookJson w).render w := by
  refine .map (isMap_render ?_) (p := renderString w.provider) rfl (spells_renderString _)
    (.once (isTexts_render w.events))
  simp only [List.forall_mem_cons, List.not_mem_nil, false_imp_iff, implies_true, and_true]
  exact ⟨(spells_renderString _).isValue, isValue_texts _⟩

theorem isList_webhooks (ws : List WebhookSupport) :
    IsList (Json.list (ws.map webhookJson)).render ((ws.map webhookJson).map render) := by
  refine isList_render ?_
  simp only [List.forall_mem_map]
  exact fun w _ => (isWebhook_render w).isValue

theorem hasEntries_render (c : Capabilities) :
    HasEntries (capabilitiesJson c).render ((c.webhooks.map webhookJson).map render) := by
  have list := isList_webhooks c.webhooks
  refine .map (isMap_render ?_) (.once list)
  simpa using list.isValue

theorem declaresAll_render (c : Capabilities) : DeclaresAll (capabilitiesJson c).render c := by
  refine ⟨_, hasEntries_render c, ?_⟩
  rw [List.map_map, List.forall₂_map_left_iff, List.forall₂_same]
  exact fun w _ => isWebhook_render w

theorem capabilities_text (c : Capabilities) :
    capabilities (some (capabilitiesJson c).text) = .ok c := by
  obtain ⟨entries, listed, each⟩ := declaresAll_render c
  exact capabilities_eq_ok_iff.2
    (.inr ⟨_, _, rfl, wraps_text listed.isValue, entries, listed, each⟩)

end Writing

section Declaring

variable {body : Option String} {s t : String} {v v' : List Char} {c : Capabilities}

theorem capabilities_error {e : Error} (h : capabilities body = .error e) :
    ∃ detail, e = { payload := .capabilities, rule := .schema detail } := by
  unfold capabilities at h
  split at h
  · cases h
  · split at h
    · cases h
    · cases h
      exact ⟨_, rfl⟩

theorem AddsToAny.ne_null (h : AddsToAny v v') :
    v ≠ ['n', 'u', 'l', 'l'] ∧ v' ≠ ['n', 'u', 'l', 'l'] := by
  have object {v : List Char} {raw : List (List Char × List Char)} (h : IsObject v raw) :
      v ≠ ['n', 'u', 'l', 'l'] := by
    obtain ⟨_, rfl, -⟩ := h
    exact nofun
  have list {v : List Char} {vs : List (List Char)} (h : IsList v vs) :
      v ≠ ['n', 'u', 'l', 'l'] := by
    obtain ⟨_, rfl, -⟩ := h
    exact nofun
  cases h with
  | outside h =>
    obtain ⟨before, after, -, -⟩ := h
    exact ⟨object before, object after⟩
  | map before after => exact ⟨object before, object after⟩
  | list before after => exact ⟨list before, list after⟩

theorem capabilities_added_iff (wraps : Wraps s.toList v) (wraps' : Wraps t.toList v')
    (h : AddsToAny v v') : capabilities (some t) = .ok c ↔ capabilities (some s) = .ok c := by
  rw [capabilities_of_wraps wraps h.ne_null.1, capabilities_of_wraps wraps' h.ne_null.2,
    run_capabilities_added_iff h]

/-- Capabilities are read as they were written, and from other bodies as their entries declare
them. Entries for one provider add up. Members of names that are not known may stand anywhere. No
complaint says where in the body it arose. -/
theorem capabilities_read_as_declared (body : Option String) :
    (∀ c, capabilities (some (capabilitiesJson c).text) = .ok c) ∧
      (∀ c, capabilities body = .ok c ↔ SaysNothing body ∧ c = .empty ∨
        ∃ s v, body = some s ∧ Wraps s.toList v ∧ DeclaresAll v c) ∧
      (∀ c s v entries, capabilities body = .ok c → body = some s → Wraps s.toList v →
        HasEntries v entries → ∀ provider event, c.supports provider event = true ↔
          ∃ entry ∈ entries, Offers entry provider event) ∧
      (∀ c s t v v', Wraps s.toList v → Wraps t.toList v' → AddsToAny v v' →
        (capabilities (some t) = .ok c ↔ capabilities (some s) = .ok c)) ∧
      ∀ e, capabilities body = .error e →
        ∃ detail, e = { payload := .capabilities, rule := .schema detail } := by
  refine ⟨capabilities_text, fun c => capabilities_eq_ok_iff, ?_,
    fun c s t v v' wraps wraps' h => capabilities_added_iff wraps wraps' h,
    fun e => capabilities_error⟩
  rintro c s v entries accepted rfl wraps listed provider event
  have read := (capabilities_of_wraps wraps listed.ne_null).1 accepted
  obtain ⟨entries', listed', each⟩ := (run_capabilities_iff listed.isValue).1 read
  rw [listed.unique listed']
  exact supports_iff_offers each

theorem adds_render {known : List String} {k : String} {j : Json}
    {front back : List (String × Json)} (values : ∀ m ∈ front ++ (k, j) :: back, IsValue m.2.render)
    (unknown : k ∉ known) :
    Adds known (Json.map (front ++ back)).render (Json.map (front ++ (k, j) :: back)).render := by
  have before :
      IsObject (Json.map (front ++ back)).render (rawMembers front ++ rawMembers back) := by
    have others : ∀ m ∈ front ++ back, IsValue m.2.render := by
      intro m hm
      refine values m (List.mem_append.2 ?_)
      exact (List.mem_append.1 hm).imp_right (List.mem_cons_of_mem _)
    have object := isObject_render others
    rwa [rawMembers, List.map_append] at object
  have after : IsObject (Json.map (front ++ (k, j) :: back)).render
      (rawMembers front ++ (renderString k, j.render) :: rawMembers back) := by
    have object := isObject_render values
    rwa [rawMembers, List.map_append, List.map_cons] at object
  exact .member before after (spells_renderString k) unknown

theorem capabilities_read_beside_unknown :
    let c : Capabilities := ⟨[⟨"a", ["push"]⟩, ⟨"a", ["pull"]⟩]⟩
    let text := (Json.map [("x", .list [.list [.map []]]),
      ("supported_webhooks", .list (c.webhooks.map webhookJson))]).text
    let entries := (c.webhooks.map webhookJson).map render
    capabilities (some text) = .ok c ∧
      (c.supports "a" "pull" = true ↔ ∃ entry ∈ entries, Offers entry "a" "pull") := by
  intro c text entries
  have listed : HasEntries (capabilitiesJson c).render entries := hasEntries_render c
  have deep : IsValue (Json.list [.list [.map []]]).render := by
    have empty : IsValue (Json.map []).render := (isMap_render (by simp)).isValue
    have inner : IsValue (Json.list [.map []]).render := (isList_render (by simpa)).isValue
    exact (isList_render (by simpa)).isValue
  have values : ∀ m ∈ [] ++ ("x", Json.list [.list [.map []]]) ::
      [("supported_webhooks", Json.list (c.webhooks.map webhookJson))], IsValue m.2.render := by
    simpa using ⟨deep, (isList_webhooks c.webhooks).isValue⟩
  obtain ⟨written, -, supported, added, -⟩ :=
    capabilities_read_as_declared (some (capabilitiesJson c).text)
  constructor
  · exact (added c _ _ _ _ (wraps_text listed.isValue) (wraps_text (isMap_render values).isValue)
      (.outside (adds_render values (by decide)))).2 (written c)
  · exact supported c _ _ entries (written c) rfl (wraps_text listed.isValue) listed "a" "pull"

end Declaring

end ScmPlugins.Response
