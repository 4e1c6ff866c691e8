import ScmPlugins.Json.Reader
import ScmPlugins.OrderedMap
import ScmPlugins.Response.Error
import ScmPlugins.Text.Blank

namespace ScmPlugins.Response

def content (body : Option String) : Option String := body.filter fun s => !Text.isBlank s

def document? (payload : Payload) (body : Option String) : Except Error (Option Json) :=
  match content body with
  | none => .ok none
  | some s =>
    match Json.parse s with
    | .error fault => .error { payload, rule := .validJson fault.message }
    | .ok .null => .ok none
    | .ok j => .ok (some j)

def document (payload : Payload) (body : Option String) : Except Error Json :=
  match document? payload body with
  | .error e => .error e
  | .ok none => .error { payload, rule := .bodyPresent }
  | .ok (some j) => .ok j

def misshapen {α : Type} (payload : Payload) (expected : Shape) : Except Error α :=
  .error { payload, rule := .shape expected }

abbrev Members := List (String × Json)

def repeated? (seen : List String) : List String → Option String
  | [] => none
  | k :: r => if k ∈ seen then some k else repeated? (k :: seen) r

theorem repeated?_eq_none_iff {seen names : List String} :
    repeated? seen names = none ↔ names.Nodup ∧ ∀ k ∈ names, k ∉ seen := by
  induction names generalizing seen with
  | nil => simp [repeated?]
  | cons k r ih =>
    by_cases h : k ∈ seen
    · simp [repeated?, h]
    · simp only [repeated?, h, if_false, ih, List.mem_cons, List.nodup_cons]
      constructor
      · rintro ⟨h₁, h₂⟩
        exact ⟨⟨fun hk => h₂ k hk (.inl rfl), h₁⟩, fun l hl => hl.elim (fun e => e ▸ h)
          fun hl hs => h₂ l hl (.inr hs)⟩
      · rintro ⟨⟨h₁, h₂⟩, h₃⟩
        exact ⟨h₂, fun l hl hs => hs.elim (fun e => h₁ (e ▸ hl)) fun hs => h₃ l (.inr hl) hs⟩

def checkNames (payload : Payload) (ms : Members) : Except Error Unit :=
  match repeated? [] (ms.map (·.1)) with
  | some key => .error { payload, rule := .declaredOnce, key }
  | none => .ok ()

/-- The members of an object that is read by name. `expected` is the shape to ask for otherwise. -/
def named (payload : Payload) (expected : Shape) (j : Json) : Except Error Members :=
  match j with
  | .map ms => (checkNames payload ms).map fun _ => ms
  | _ => misshapen payload expected

def items (payload : Payload) (expected : Shape) (j : Json) : Except Error (List Json) :=
  match j with
  | .list js => .ok js
  | _ => misshapen payload expected

namespace Members

def get? (ms : Members) (name : String) : Option Json := OrderedMap.find name ms

def given? (ms : Members) (name : String) : Option Json :=
  match ms.get? name with
  | some .null => none
  | found => found

def required (ms : Members) (payload : Payload) (field : String) : Except Error String :=
  match ms.given? field with
  | none => .error { payload, rule := .required, field }
  | some (.str s) =>
    if Text.isBlank s then .error { payload, rule := .required, field } else .ok s
  | some _ => .error { payload, rule := .shape .string, field }

def text? (ms : Members) (payload : Payload) (field : String) : Except Error (Option String) :=
  match ms.given? field with
  | none => .ok none
  | some (.str s) => .ok (some s)
  | some _ => .error { payload, rule := .shape .string, field }

end Members

def texts (payload : Payload) (j : Json) : Except Error (OrderedMap String) := do
  let ms ← named payload .map j
  let es ← ms.mapM fun (key, j) =>
    match j with
    | .str s => .ok (key, s)
    | _ => .error { payload, rule := .shape .string, key }
  return .ofList es

end ScmPlugins.Response
