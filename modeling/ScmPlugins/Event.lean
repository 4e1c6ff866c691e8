namespace ScmPlugins

inductive Level where | error | warn | info | debug | trace
  deriving DecidableEq, Repr

def Level.name : Level → String
  | .error => "ERROR"
  | .warn => "WARN"
  | .info => "INFO"
  | .debug => "DEBUG"
  | .trace => "TRACE"

namespace Event

inductive Value where
  | text (s : String)
  | count (n : Nat)
  | flag (b : Bool)
  deriving DecidableEq, Repr

end Event

structure Event where
  level : Level
  target : String
  message : String
  fields : List (String × Event.Value)
  deriving DecidableEq, Repr

end ScmPlugins
