import ScmPlugins.Attempt
import ScmPlugins.Configuration
import ScmPlugins.Json.Writer
import ScmPlugins.Revision
import ScmPlugins.Text.Find
import ScmPlugins.Time.Stamp

/-!
Bodies of requests. A configuration is sent as keys and values alone, and only if no value refers to
a secret that was not filled in. Of a revision its id, its time and its data are sent.
-/

namespace ScmPlugins

structure WebhookEvent where
  provider : String
  eventType : String
  payload : String
  deriving DecidableEq, Repr

namespace Request

def secretMark : String := "\x7b\x7bSECRET:["

inductive Error where
  | unresolvedSecret (key : String)
  | timestamp (cause : String)
  | serialize (cause : String)
  deriving DecidableEq, Repr

def yearTooLong : String := "The year component cannot be formatted into the requested format."

def Error.message : Error → String
  | .unresolvedSecret key =>
    "configuration key '" ++ key ++ "' holds an unresolved secret reference"
  | .timestamp cause => "failed to format revision timestamp: " ++ cause
  | .serialize cause => "failed to serialise plugin request: " ++ cause

def holdsSecret (value : String) : Bool := Text.occurs secretMark.toList value.toList

def unresolved? (c : Configuration) : Option String :=
  (c.entries.find? fun (_, p) => holdsSecret p.value).map (·.1)

def configurationJson (c : Configuration) : Json :=
  .map (c.entries.map fun (k, p) => (k, .map [("value", .str p.value)]))

def dataJson (d : MaterialData) : Json := .map (d.entries.map fun (k, v) => (k, .str v))

def resolved (c : Configuration) : Attempt Error Json :=
  match unresolved? c with
  | some key => .error (.unresolvedSecret key)
  | none => .ok (configurationJson c)

def resolvedAll : List Configuration → Attempt Error (List Json)
  | [] => .ok []
  | c :: cs => do return (← resolved c) :: (← resolvedAll cs)

/-- Stops where the revision's time has no date in UTC. -/
def stamp (t : Instant) : Attempt Error String :=
  match t.utc? with
  | none => .stopped
  | some utc =>
    match Stamp.text? utc with
    | some s => .ok s
    | none => .error (.timestamp yearTooLong)

def revisionJson (r : Revision) : Attempt Error Json := do
  return .map [
    ("revision", .str r.id), ("timestamp", .str (← stamp r.time)), ("data", dataJson r.data)]

def configuration (c : Configuration) : Attempt Error Json := do
  return .map [("scm-configuration", ← resolved c)]

def latestRevision (c : Configuration) (data : MaterialData) (folder : String) :
    Attempt Error Json := do
  return .map [
    ("scm-configuration", ← resolved c), ("scm-data", dataJson data),
    ("flyweight-folder", .str folder)]

def revisionsSince (c : Configuration) (data : MaterialData) (folder : String) (r : Revision) :
    Attempt Error Json := do
  return .map [
    ("scm-configuration", ← resolved c), ("scm-data", dataJson data),
    ("flyweight-folder", .str folder), ("previous-revision", ← revisionJson r)]

def checkout (c : Configuration) (folder : String) (r : Revision) : Attempt Error Json := do
  return .map [
    ("scm-configuration", ← resolved c), ("destination-folder", .str folder),
    ("revision", ← revisionJson r)]

def shouldUpdate (event : WebhookEvent) (cs : List Configuration) : Attempt Error Json := do
  return .map [
    ("provider", .str event.provider), ("event_type", .str event.eventType),
    ("event_payload", .str event.payload), ("scm-configurations", .list (← resolvedAll cs))]

def text (body : Attempt Error Json) : Attempt Error String := body >>= fun j => .ok j.text

end Request

end ScmPlugins
