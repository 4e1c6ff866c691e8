import ScmPlugins.Client.Call
import ScmPlugins.Client.Settings
import ScmPlugins.Response.Capabilities
import ScmPlugins.Response.Configuration
import ScmPlugins.Response.Outcome
import ScmPlugins.Response.Poll

/-!
Calls to plugins. Every call first settles on the greatest version that the server and the plugin
share; nothing about it is kept for the next call. Then one request is sent and its answer read.
-/

namespace ScmPlugins.Client

def resolvedEvent (plugin : String) (v : Version) : Event where
  level := .debug
  target := "tether_scm::resolve"
  message := "resolved SCM protocol version"
  fields := [("plugin", .text plugin), ("version", .text v.text)]

def submittingEvent (plugin operation : String) (v : Version) : Event where
  level := .debug
  target := "tether_scm::extension"
  message := "submitting SCM plugin request"
  fields := [("plugin", .text plugin), ("operation", .text operation), ("version", .text v.text)]

def cannotDeclareEvent (plugin : String) (v : Version) : Event where
  level := .warn
  target := "tether_scm::extension"
  message := "SCM plugin protocol cannot declare capabilities; assuming none"
  fields := [("plugin", .text plugin), ("version", .text v.text)]

def serverVersions (s : Settings) : List Version := s.offered Version.supported

def edition (s : Settings) (plugin : String) : Call Edition := do
  match ← Call.declared plugin with
  | none => Call.fail (.pluginNotFound plugin)
  | some declared =>
    let mismatch := Failure.noCompatibleVersion plugin declared (serverVersions s)
    match Version.negotiate (serverVersions s) declared with
    | none => Call.fail mismatch
    | some v =>
      Call.note (resolvedEvent plugin v)
      match Edition.ofVersion? v with
      | none => Call.fail mismatch
      | some e => return e

def resolve (s : Settings) (plugin : String) : Call Version := do
  return (← edition s plugin).version

def bodyText (plugin : String) (body : Option (Attempt Request.Error Json)) :
    Attempt Failure (Option String) :=
  match body with
  | none => .ok none
  | some b => (Request.text b).mapError (.encodeRequest plugin) >>= fun s => .ok (some s)

/-- Sends one request and reads the body of the answer. The edition is asked for the operation
before the request's own body is looked at. -/
def exchange {α : Type} (s : Settings) (plugin : String) (e : Edition) (op : Operation)
    (body : Option (Attempt Request.Error Json))
    (decode : Option String → Except Response.Error α) : Call α :=
  match e.nameOf? op with
  | none => Call.fail (.unsupportedOperation plugin op e.version)
  | some operation => do
    let body ← Call.ofAttempt (bodyText plugin body)
    Call.note (submittingEvent plugin operation e.version)
    let reply ← Call.submit ⟨plugin, s.extension, e.version, operation, body⟩
    match decode reply.body with
    | .ok a => return a
    | .error err => Call.fail (.malformedResponse plugin err)

def configuration (s : Settings) (plugin : String) : Call Configuration := do
  exchange s plugin (← edition s plugin) .configuration none Response.configuration

def view (s : Settings) (plugin : String) : Call View := do
  exchange s plugin (← edition s plugin) .view none Response.view

def validate (s : Settings) (plugin : String) (c : Configuration) : Call Validation := do
  exchange s plugin (← edition s plugin) .validate (some (Request.configuration c))
    Response.validation

def checkConnection (s : Settings) (plugin : String) (c : Configuration) : Call CheckResult := do
  exchange s plugin (← edition s plugin) .checkConnection (some (Request.configuration c))
    Response.checkResult

def latestRevision (s : Settings) (plugin : String) (c : Configuration) (data : MaterialData)
    (folder : String) : Call PollResult := do
  exchange s plugin (← edition s plugin) .latestRevision
    (some (Request.latestRevision c data folder)) Response.latestRevision

def revisionsSince (s : Settings) (plugin : String) (c : Configuration) (data : MaterialData)
    (folder : String) (r : Revision) : Call PollResult := do
  exchange s plugin (← edition s plugin) .revisionsSince
    (some (Request.revisionsSince c data folder r)) Response.revisionsSince

def checkout (s : Settings) (plugin : String) (c : Configuration) (folder : String)
    (r : Revision) : Call CheckResult := do
  exchange s plugin (← edition s plugin) .checkout (some (Request.checkout c folder r))
    Response.checkResult

def capabilities (s : Settings) (plugin : String) : Call Discovery := do
  match ← edition s plugin with
  | .v1 =>
    Call.note (cannotDeclareEvent plugin Edition.v1.version)
    return .unsupported Edition.v1.version
  | .v2 =>
    exchange s plugin .v2 .capabilities none fun body =>
      (Response.capabilities body).map .declared

def shouldUpdate (s : Settings) (plugin : String) (event : WebhookEvent)
    (cs : List Configuration) : Call (List Configuration) := do
  exchange s plugin (← edition s plugin) .shouldUpdate (some (Request.shouldUpdate event cs))
    Response.shouldUpdate

end ScmPlugins.Client
