import ScmPlugins.Client.Poller
import ScmPlugins.Client.Publisher

/-!
A server's plugins in miniature: a registry and a scripted transport, in which the arrival of a
request may change what is registered before it is answered.
-/

namespace ScmPlugins

structure Hook where
  operation : String
  deregister : Option String := none
  register : Option Descriptor := none
  deriving DecidableEq, Repr

structure Rehearsal where
  registry : Registry := {}
  script : Transport.Script := {}
  hooks : List Hook := []
  settings : Settings := {}
  events : List Event := []
  hookErrors : List Failure := []

namespace Rehearsal

def log (r : Rehearsal) (e : Event) : Rehearsal := { r with events := r.events ++ [e] }

def register (r : Rehearsal) (d : Descriptor) : Except Failure Rehearsal :=
  match r.registry.register d with
  | .error e => .error (.invalidDescriptor e)
  | .ok registry => .ok ({ r with registry }.log (r.registry.registered d))

def deregister (r : Rehearsal) (id : String) : Option PluginRecord × Rehearsal :=
  let (record, registry) := r.registry.deregister id
  (record, { r with registry })

def publish (r : Rehearsal) (info : PluginInfo) : Bool × Rehearsal :=
  match r.registry.publish info with
  | some registry => (true, { r with registry })
  | none => (false, r)

def fire (r : Rehearsal) (h : Hook) : Rehearsal :=
  let r := match h.deregister with
    | some id => (r.deregister id).2
    | none => r
  match h.register with
  | none => r
  | some d =>
    match r.register d with
    | .ok r => r
    | .error e => { r with hookErrors := r.hookErrors ++ [e] }

def submit (q : Transport.Request) (r : Rehearsal) : Transport.Answer × Rehearsal :=
  let r := (r.hooks.filter (·.operation == q.operation)).foldl fire r
  let (a, script) := r.script.submit q
  (a, { r with script })

def world : World Rehearsal where
  note e r := r.log e
  declared plugin r := r.registry.declared plugin
  submit := submit
  supports plugin provider event r := r.registry.supports plugin provider event
  publish info r := r.publish info

def run {α : Type} (r : Rehearsal) (call : Settings → Call α) : Attempt Failure α × Rehearsal :=
  (call r.settings).run world r

end Rehearsal

end ScmPlugins
