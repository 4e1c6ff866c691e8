import ScmPlugins.Proofs.Json.Embedding
import ScmPlugins.Proofs.Response.Echo

namespace ScmPlugins.Response

open Request (textsJson)

section Bodies

variable {payload : Payload} {body : Option String} {s : String} {j : Json}

theorem content_of_parse (h : Json.parse s = .ok j) : content (some s) = some s := by
  obtain ⟨c, hc, blank⟩ := Json.exists_mem_of_parse h
  simp [content, not_isBlank_of_mem hc blank]

theorem document?_of_parse (h : Json.parse s = .ok j) (null : j ≠ .null) :
    document? payload (some s) = .ok (some j) := by
  simp only [document?, content_of_parse h, h]

theorem document_of_parse (h : Json.parse s = .ok j) (null : j ≠ .null) :
    document payload (some s) = .ok j := by
  simp only [document, document?_of_parse h null]

theorem document_of_parse_null (h : Json.parse s = .ok .null) :
    document payload (some s) = .error { payload, rule := .bodyPresent } := by
  simp only [document, document?, content_of_parse h, h]

theorem document?_eq_some_iff :
    document? payload body = .ok (some j) ↔
      ∃ s, body = some s ∧ Json.parse s = .ok j ∧ j ≠ .null := by
  constructor
  · intro h
    unfold document? at h
    split at h
    · cases h
    · rename_i s present
      obtain ⟨rfl, -⟩ := Option.filter_eq_some_iff.1 present
      split at h
      · cases h
      · cases h
      · rename_i k null read
        cases h
        exact ⟨s, rfl, read, null⟩
  · rintro ⟨s, rfl, read, null⟩
    exact document?_of_parse read null

theorem document_eq_ok_iff :
    document payload body = .ok j ↔ ∃ s, body = some s ∧ Json.parse s = .ok j ∧ j ≠ .null := by
  rw [← @document?_eq_some_iff payload, document]
  cases document? payload body with
  | error e => simp
  | ok found => cases found <;> simp

end Bodies

namespace Members

variable {ms : Members} {name : String} {j : Json}

abbrev names (ms : Members) : List String := ms.map (·.1)

/-- Nothing but null stands under the name. -/
def Lacks (ms : Members) (name : String) : Prop := ∀ j, (name, j) ∈ ms → j = .null

/-- A text stands under the name, or nothing but null. -/
def Tells (ms : Members) (name : String) : Option String → Prop
  | none => ms.Lacks name
  | some s => (name, .str s) ∈ ms

theorem get?_eq_some_iff (h : ms.names.Nodup) : ms.get? name = some j ↔ (name, j) ∈ ms :=
  OrderedMap.find_eq_some_iff h

theorem get?_eq_none_iff : ms.get? name = none ↔ name ∉ ms.names := by
  rw [← Option.not_isSome_iff_eq_none, get?, OrderedMap.find_isSome_iff]

theorem given?_eq_some_iff (h : ms.names.Nodup) :
    ms.given? name = some j ↔ (name, j) ∈ ms ∧ j ≠ .null := by
  rw [← get?_eq_some_iff h, given?]
  split
  · simp_all
  · rename_i other
    constructor
    · intro found
      refine ⟨found, ?_⟩
      rintro rfl
      exact other found
    · exact And.left

theorem given?_eq_none_iff (h : ms.names.Nodup) : ms.given? name = none ↔ ms.Lacks name := by
  constructor
  · intro none_given j hj
    by_contra null
    have found := (given?_eq_some_iff h).2 ⟨hj, null⟩
    rw [none_given] at found
    cases found
  · intro lacks
    rw [Option.eq_none_iff_forall_ne_some]
    intro j found
    obtain ⟨hj, null⟩ := (given?_eq_some_iff h).1 found
    exact null (lacks j hj)

theorem given?_eq_str_iff (h : ms.names.Nodup) {s : String} :
    ms.given? name = some (.str s) ↔ (name, .str s) ∈ ms := by
  rw [given?_eq_some_iff h, and_iff_left nofun]

theorem required_eq_ok_iff (h : ms.names.Nodup) {payload : Payload} {s : String} :
    ms.required payload name = .ok s ↔ (name, .str s) ∈ ms ∧ Text.isBlank s = false := by
  rw [← given?_eq_str_iff h, required]
  cases ms.given? name with
  | none => simp
  | some j =>
    cases j with
    | str t =>
      cases blank : Text.isBlank t with
      | true =>
        simp only [blank, if_true, reduceCtorEq, Option.some.injEq, Json.str.injEq, false_iff]
        rintro ⟨rfl, present⟩
        rw [blank] at present
        cases present
      | false =>
        simp only [blank, Bool.false_eq_true, if_false, Except.ok.injEq, Option.some.injEq,
          Json.str.injEq]
        constructor
        · rintro rfl
          exact ⟨rfl, blank⟩
        · exact And.left
    | _ => simp

theorem text?_eq_ok_iff (h : ms.names.Nodup) {payload : Payload} {a : Option String} :
    ms.text? payload name = .ok a ↔ ms.Tells name a := by
  have tells : ms.Tells name a ↔ ms.given? name = a.map .str := by
    cases a with
    | none => exact (given?_eq_none_iff h).symm
    | some s => exact (given?_eq_str_iff h).symm
  rw [tells, text?]
  cases ms.given? name with
  | none => cases a <;> simp
  | some j => cases j <;> cases a <;> simp

end Members

theorem checkNames_eq_ok_iff {payload : Payload} {ms : Members} :
    checkNames payload ms = .ok () ↔ ms.names.Nodup := by
  have distinct : repeated? [] ms.names = none ↔ ms.names.Nodup := by
    rw [repeated?_eq_none_iff]
    simp
  rw [← distinct, checkNames]
  cases repeated? [] ms.names <;> simp

theorem named_eq_ok_iff {payload : Payload} {expected : Shape} {j : Json} {ms : Members} :
    named payload expected j = .ok ms ↔ j = .map ms ∧ ms.names.Nodup := by
  cases j with
  | map ns =>
    rw [named, Except.map_eq_ok_iff]
    constructor
    · rintro ⟨⟨⟩, distinct, rfl⟩
      exact ⟨rfl, checkNames_eq_ok_iff.1 distinct⟩
    · rintro ⟨⟨⟩, distinct⟩
      exact ⟨(), checkNames_eq_ok_iff.2 distinct, rfl⟩
  | _ => simp [named, misshapen]

theorem forall₂_eq_map_iff {α β : Type} {f : β → α} {as : List α} {bs : List β} :
    List.Forall₂ (fun a b => a = f b) as bs ↔ as = bs.map f := by
  rw [← List.forall₂_map_right_iff, List.forall₂_eq_eq_eq]

theorem forall_mem_of_forall₂ {α β : Type} {R : α → β → Prop} {p : β → Prop} {as : List α}
    {bs : List β} (h : List.Forall₂ R as bs) (imp : ∀ a b, R a b → p b) : ∀ b ∈ bs, p b := by
  induction h with
  | nil => simp
  | cons r _ ih => exact List.forall_mem_cons.2 ⟨imp _ _ r, ih⟩

theorem texts_eq_ok_iff {payload : Payload} {j : Json} {d : OrderedMap String} :
    texts payload j = .ok d ↔ j = textsJson d.entries := by
  simp only [texts, Except.bind_eq_ok_iff, Except.pure_eq_ok_iff, named_eq_ok_iff,
    Except.mapM_eq_ok_iff]
  constructor
  · rintro ⟨ms, ⟨rfl, distinct⟩, es, converted, rfl⟩
    have same : ms = es.map fun e => (e.1, .str e.2) := by
      refine forall₂_eq_map_iff.1 (converted.imp ?_)
      rintro ⟨k, j⟩ ⟨l, s⟩ h
      cases j <;> simp_all
    subst same
    have fresh : (es.map (·.1)).Nodup := by simpa [Members.names, Function.comp_def] using distinct
    rw [OrderedMap.entries_ofList fresh, textsJson]
  · rintro rfl
    refine ⟨_, ⟨rfl, ?_⟩, d.entries, forall₂_eq_map_iff.2 rfl |>.imp ?_, ?_⟩
    · simpa [Members.names, Function.comp_def] using d.nodup
    · rintro m e rfl
      rfl
    · ext1
      exact OrderedMap.entries_ofList d.nodup

end ScmPlugins.Response
