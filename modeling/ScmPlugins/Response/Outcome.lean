import ScmPlugins.Outcome
import ScmPlugins.Response.Members

namespace ScmPlugins.Response

def view (body : Option String) : Except Error View := do
  let ms ← named .view .map (← document .view body)
  return {
    displayValue := ← ms.required .view "displayValue"
    template := ← ms.required .view "template" }

def validationError (j : Json) : Except Error ValidationError := do
  let ms ← named .validation .listOfMaps j
  let key ← ms.text? .validation "key"
  match ← ms.text? .validation "message" with
  | some message => return { key := key.getD "", message }
  | none => throw { payload := .validation, rule := .required, field := "message" }

def validation (body : Option String) : Except Error Validation := do
  match ← document? .validation body with
  | none => return .success
  | some j => return ⟨← (← items .validation .listOfMaps j).mapM validationError⟩

def status (ms : Members) : Except Error CheckStatus :=
  let missing : Error := { payload := .checkResult, rule := .required, field := "status" }
  match ms.given? "status" with
  | none => .error missing
  | some (.str s) =>
    match CheckStatus.named? s with
    | some status => .ok status
    | none => .error { missing with rule := .oneOf (CheckStatus.all.map (·.name)) }
  | some _ => .error { missing with rule := .shape .string }

def messages (ms : Members) : Except Error (List String) :=
  let e : Error :=
    { payload := .checkResult, rule := .shape .listOfStrings, field := "messages" }
  match ms.given? "messages" with
  | none => .ok []
  | some (.list items) =>
    items.mapM fun j =>
      match j with
      | .str s => .ok s
      | _ => .error e
  | some _ => .error e

def checkResult (body : Option String) : Except Error CheckResult := do
  let ms ← named .checkResult .map (← document .checkResult body)
  return { status := ← status ms, messages := ← messages ms }

end ScmPlugins.Response
