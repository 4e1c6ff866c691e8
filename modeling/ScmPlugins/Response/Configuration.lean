import ScmPlugins.Configuration
import ScmPlugins.Response.Members

namespace ScmPlugins.Response

def option {α : Type} (ms : Members) (key field : String) (convert : Json → Option α)
    (expected : Shape) : Except Error (Option α) :=
  match ms.get? field with
  | none => .ok none
  | some j =>
    match convert j with
    | some a => .ok (some a)
    | none => .error { payload := .configuration, rule := .shape expected, key, field }

def str? : Json → Option String
  | .str s => some s
  | _ => none

def bool? : Json → Option Bool
  | .bool b => some b
  | _ => none

def int32? : Json → Option Int
  | .int n => if -0x80000000 ≤ n ∧ n < 0x80000000 then some n else none
  | _ => none

def property (key : String) (j : Json) : Except Error Property :=
  match j with
  | .map _ => do
    let ms ← named .configuration .map j
    let value ← option ms key "value" str? .string
    let default ← option ms key "default-value" str? .string
    let required ← option ms key "required" bool? .boolean
    let secure ← option ms key "secure" bool? .boolean
    let partOfIdentity ← option ms key "part-of-identity" bool? .boolean
    let displayName ← option ms key "display-name" str? .string
    let displayOrder ← option ms key "display-order" int32? .integer
    return {
      value := (value <|> default).getD ""
      required := required.getD false
      secure := secure.getD false
      partOfIdentity := partOfIdentity.getD false
      displayName := displayName.getD ""
      displayOrder := displayOrder.getD 0 }
  | _ => .error { payload := .configuration, rule := .shape .map, key }

def properties (before : Configuration) : Members → Except Error Configuration
  | [] => .ok before
  | (key, j) :: ms =>
    if Text.isBlank key then .error { payload := .configuration, rule := .keyPresent }
    else if before.contains key then
      .error { payload := .configuration, rule := .declaredOnce, key }
    else
      match property key j with
      | .error e => .error e
      | .ok p => properties (before.insert key p) ms

def configurationOf (payload : Payload) (expected : Shape) (j : Json) :
    Except Error Configuration :=
  match j with
  | .map ms => properties ∅ ms
  | _ => misshapen payload expected

def configuration (body : Option String) : Except Error Configuration := do
  configurationOf .configuration .map (← document .configuration body)

def shouldUpdate (body : Option String) : Except Error (List Configuration) := do
  let js ← items .shouldUpdate .listOfMaps (← document .shouldUpdate body)
  js.mapM (configurationOf .shouldUpdate .listOfMaps)

end ScmPlugins.Response
