import ScmPlugins.Response.Members
import ScmPlugins.Revision

namespace ScmPlugins.Response

def fileAction (ms : Members) : Except Error FileAction :=
  let unknown : Error :=
    { payload := .modifiedFile, rule := .oneOf (FileAction.all.map (·.name)), field := "action" }
  match ms.given? "action" with
  | none => .error unknown
  | some (.str s) =>
    match FileAction.named? s with
    | some action => .ok action
    | none => .error unknown
  | some _ => .error { payload := .modifiedFile, rule := .shape .string, field := "action" }

def modifiedFile (j : Json) : Except Error ModifiedFile := do
  let ms ← named .modifiedFile .map j
  return { path := ← ms.required .modifiedFile "fileName", action := ← fileAction ms }

def timestamp (ms : Members) : Except Error Instant :=
  let e : Error := { payload := .revision, rule := .timestamp, field := "timestamp" }
  match ms.given? "timestamp" with
  | some (.str s) =>
    match Stamp.parse s with
    | some t => .ok t
    | none => .error e
  | _ => .error e

def revisionData (ms : Members) : Except Error MaterialData :=
  match ms.given? "data" with
  | none => .ok ∅
  | some (.map data) => texts .revisionData (.map data)
  | some _ => .error { payload := .revision, rule := .shape .map, field := "data" }

def modifiedFiles (ms : Members) : Except Error (List ModifiedFile) :=
  match ms.given? "modifiedFiles" with
  | none => .ok []
  | some (.list items) => items.mapM modifiedFile
  | some _ => .error { payload := .revision, rule := .shape .listOfMaps, field := "modifiedFiles" }

def revision (j : Json) : Except Error Revision := do
  let ms ← named .revision .map j
  return {
    id := ← ms.required .revision "revision"
    time := ← timestamp ms
    author := ← ms.text? .revision "user"
    comment := ← ms.text? .revision "revisionComment"
    data := ← revisionData ms
    files := ← modifiedFiles ms }

def materialData (ms : Members) : Except Error (Option MaterialData) :=
  match ms.given? "scm-data" with
  | none => .ok none
  | some j => (texts .materialData j).map some

def latestRevision (body : Option String) : Except Error PollResult := do
  let ms ← named .latestRevision .map (← document .latestRevision body)
  match ms.given? "revision" with
  | none => throw { payload := .latestRevision, rule := .required, field := "revision" }
  | some j =>
    let r ← revision j
    return .ofLatest r (← materialData ms)

def revisions (ms : Members) : Except Error (Option (List Revision)) :=
  match ms.given? "revisions" with
  | none => .ok none
  | some (.list js) => (js.mapM revision).map some
  | some _ =>
    .error { payload := .revisionsSince, rule := .shape .listOfMaps, field := "revisions" }

def revisionsSince (body : Option String) : Except Error PollResult := do
  match ← document? .revisionsSince body with
  | none => return {}
  | some j =>
    let ms ← named .revisionsSince .map j
    let rs ← revisions ms
    return .ofSince rs (← materialData ms)

end ScmPlugins.Response
