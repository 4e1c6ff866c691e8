import ScmPlugins.Host.Environment
import ScmPlugins.Host.File
import ScmPlugins.Host.Flags

namespace ScmPlugins.Host

structure Sources where
  file : Option File := none
  environment : Environment := ∅
  arguments : List String := []
  deriving DecidableEq

inductive LoadError where
  | malformedFlags
  | missingFile
  | malformedFile
  | unfit (field : Field)
  deriving DecidableEq, Repr

namespace Sources

def pathVariable : String := "TETHER_CONFIG_PATH"

/-- The file to read. A flag has to lead to one; a variable that leads nowhere does not count. -/
def chosenFile (s : Sources) (flags : Flags) : Except LoadError (Option File) :=
  match flags.lookup .configPath with
  | some path =>
    match s.file.filter (·.isAt path) with
    | some f => .ok (some f)
    | none => .error .missingFile
  | none => .ok (s.file.filter fun f => (s.environment.get? pathVariable).any f.isAt)

def fileLayer (s : Sources) (flags : Flags) : Except LoadError Layer :=
  match s.chosenFile flags with
  | .error e => .error e
  | .ok none => .ok .empty
  | .ok (some f) =>
    match f.layer? with
    | some l => .ok l
    | none => .error .malformedFile

def layer (s : Sources) (environment : Layer) : Except LoadError Layer :=
  match Flags.parse? s.arguments with
  | none => .error .malformedFlags
  | some flags => (s.fileLayer flags).map fun file => flags.layer.onto (environment.onto file)

def load (s : Sources) : Attempt LoadError Config := do
  let environment ← s.environment.layer
  let l ← Attempt.ofExcept (s.layer environment)
  Attempt.ofExcept (l.config.mapError .unfit)

end Sources

end ScmPlugins.Host
