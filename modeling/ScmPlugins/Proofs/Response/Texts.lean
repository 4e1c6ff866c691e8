import ScmPlugins.Proofs.Json.Limits
import ScmPlugins.Proofs.Response.Polls

namespace ScmPlugins.Response

open Json (Wraps Within Spaces)

/-- The body is absent, blank, or null with spaces around it. -/
inductive SaysNothing : Option String → Prop
  | absent : SaysNothing none
  | blank {s : String} (h : ∀ c ∈ s.toList, Text.isBlankChar c = true) : SaysNothing (some s)
  | null {s : String} (h : Wraps s.toList ['n', 'u', 'l', 'l']) : SaysNothing (some s)

def IsDocument (s : String) : Prop := ∃ v, Wraps s.toList v ∧ Within Json.maxDepth v

section Texts

variable {payload : Payload} {body : Option String} {s w x : String} {v : List Char} {j : Json}
  {f : Json.Fault}

theorem vacant_iff_saysNothing : Vacant body ↔ SaysNothing body := by
  constructor
  · intro vacant
    cases body with
    | none => exact .absent
    | some s =>
      obtain blank | null := vacant s rfl
      · exact .blank (Text.isBlank_iff.1 blank)
      · exact .null (Json.parse_eq_null_iff.1 null)
  · rintro (_ | blank | null) s ⟨⟩
    · exact .inl (Text.isBlank_iff.2 blank)
    · exact .inr (Json.parse_eq_null_iff.2 null)

theorem document?_eq_ok_none_iff : document? payload body = .ok none ↔ SaysNothing body :=
  document?_eq_none_iff.trans vacant_iff_saysNothing

theorem isDocument_iff : IsDocument s ↔ ∃ j, Json.parse s = .ok j := Json.exists_parse_iff.symm

theorem exists_fault (h : ¬IsDocument s) : ∃ f, Json.parse s = .error f := by
  cases parsed : Json.parse s with
  | error f => exact ⟨f, rfl⟩
  | ok j => exact absurd (isDocument_iff.2 ⟨j, parsed⟩) h

theorem document?_of_fault (visible : Text.isBlank s = false) (h : Json.parse s = .error f) :
    document? payload (some s) = .error { payload, rule := .validJson f.message } := by
  have present : content (some s) = some s := by simp [content, visible]
  simp only [document?, present, h]

theorem document?_eq_error_iff {e : Error} :
    document? payload body = .error e ↔
      ∃ s f, body = some s ∧ Text.isBlank s = false ∧ Json.parse s = .error f ∧
        e = { payload, rule := .validJson f.message } := by
  constructor
  · intro h
    unfold document? at h
    split at h
    · cases h
    · rename_i s present
      obtain ⟨rfl, visible⟩ := Option.filter_eq_some_iff.1 present
      split at h
      · rename_i f fault
        cases h
        exact ⟨s, f, rfl, by simpa using visible, fault, rfl⟩
      · cases h
      · cases h
  · rintro ⟨s, f, rfl, visible, fault, rfl⟩
    exact document?_of_fault visible fault

theorem isBlankChar_of_isSpace {c : Char} (h : Json.isSpace c = true) :
    Text.isBlankChar c = true := by
  obtain rfl | rfl | rfl | rfl := Json.eq_of_isSpace h <;> decide

theorem wraps_surrounded_iff (hw : Spaces w.toList) (hx : Spaces x.toList) :
    Wraps (w ++ s ++ x).toList v ↔ Wraps s.toList v := by
  rw [String.toList_append, String.toList_append, List.append_assoc,
    Json.wraps_surrounded_iff hw hx]

theorem isBlank_surrounded (hw : Spaces w.toList) (hx : Spaces x.toList) :
    Text.isBlank (w ++ s ++ x) = Text.isBlank s := by
  have blank {u : String} (h : Spaces u.toList) : u.toList.all Text.isBlankChar = true :=
    List.all_eq_true.2 fun c hc => isBlankChar_of_isSpace (h c hc)
  rw [Text.isBlank, Text.isBlank, String.toList_append, String.toList_append, List.all_append,
    List.all_append, blank hw, blank hx, Bool.true_and, Bool.and_true]

theorem parse_surrounded_iff (hw : Spaces w.toList) (hx : Spaces x.toList) :
    Json.parse (w ++ s ++ x) = .ok j ↔ Json.parse s = .ok j := by
  simp only [Json.parse_eq_ok_iff_wraps, wraps_surrounded_iff hw hx]

theorem document?_surrounded_iff (hw : Spaces w.toList) (hx : Spaces x.toList)
    {found : Option Json} :
    document? payload (some (w ++ s ++ x)) = .ok found ↔
      document? payload (some s) = .ok found := by
  cases found with
  | none =>
    rw [document?_eq_none_iff, document?_eq_none_iff]
    simp [Vacant, isBlank_surrounded hw hx, parse_surrounded_iff hw hx]
  | some j =>
    rw [document?_eq_some_iff, document?_eq_some_iff]
    simp [parse_surrounded_iff hw hx]

theorem isBlank_of_wraps (h : Wraps s.toList v) : Text.isBlank s = false := by
  obtain ⟨w, x, split, -, -, value⟩ := h
  obtain ⟨c, u, rfl⟩ := value.exists_cons
  refine not_isBlank_of_mem (c := c) ?_ (Json.isBlankChar_of_startsValue value.startsValue)
  rw [split]
  simp

end Texts

end ScmPlugins.Response
