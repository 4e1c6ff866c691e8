import ScmPlugins.Capability
import ScmPlugins.Configuration
import ScmPlugins.Event
import ScmPlugins.OrderedMap
import ScmPlugins.Text.Blank

/-!
The registered plugins. Registering a plugin replaces whatever was recorded under its id, so that
what was published about an earlier registration is gone.
-/

namespace ScmPlugins

structure Descriptor where
  id : String
  versions : List Version
  deriving DecidableEq, Repr

namespace Descriptor

inductive Invalid where
  | blankId
  | noVersions (id : String)
  deriving DecidableEq, Repr

def Invalid.message : Invalid → String
  | .blankId => "plugin id must not be empty"
  | .noVersions id => "plugin '" ++ id ++ "' declares no protocol versions"

def validate (d : Descriptor) : Except Invalid Unit :=
  if Text.isBlank d.id then .error .blankId
  else if d.versions.isEmpty then .error (.noVersions d.id)
  else .ok ()

end Descriptor

structure PluginInfo where
  plugin : String
  displayName : String
  template : String
  configuration : Configuration
  capabilities : Capabilities
  deriving DecidableEq

structure PluginRecord where
  descriptor : Descriptor
  info : Option PluginInfo := none
  deriving DecidableEq

structure Registry where
  records : OrderedMap PluginRecord := ∅
  deriving DecidableEq

namespace Registry

def get? (r : Registry) (id : String) : Option PluginRecord := r.records.get? id

def register (r : Registry) (d : Descriptor) : Except Descriptor.Invalid Registry :=
  match d.validate with
  | .error e => .error e
  | .ok () => .ok ⟨r.records.insert d.id { descriptor := d }⟩

def registered (r : Registry) (d : Descriptor) : Event where
  level := .debug
  target := "tether_scm::registry"
  message := "registered SCM plugin"
  fields := [("plugin", .text d.id), ("replaced", .flag (r.records.contains d.id))]

def publish (r : Registry) (info : PluginInfo) : Option Registry :=
  (r.get? info.plugin).map fun record =>
    ⟨r.records.insert info.plugin { record with info := some info }⟩

def deregister (r : Registry) (id : String) : Option PluginRecord × Registry :=
  (r.get? id, ⟨r.records.erase id⟩)

def size (r : Registry) : Nat := r.records.size

def isEmpty (r : Registry) : Bool := r.records.isEmpty

def declared (r : Registry) (id : String) : Option (List Version) :=
  (r.get? id).map (·.descriptor.versions)

def supports (r : Registry) (id provider event : String) : Bool :=
  match (r.get? id).bind (·.info) with
  | some info => info.capabilities.supports provider event
  | none => false

end Registry

end ScmPlugins
