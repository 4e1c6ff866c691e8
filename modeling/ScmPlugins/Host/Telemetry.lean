import ScmPlugins.Host.Config
import ScmPlugins.Host.LogFilter

namespace ScmPlugins.Host

inductive Subscriber where
  | configured (config : Config)
  | foreign
  deriving DecidableEq, Repr

inductive TelemetryError where
  | filter (expression : String) (cause : LogFilter.Error)
  | subscriber
  deriving DecidableEq, Repr

def TelemetryError.message : TelemetryError → String
  | .filter expression cause =>
    "invalid log filter '" ++ expression ++ "': " ++ cause.message
  | .subscriber =>
    "failed to install telemetry subscriber: a global default trace dispatcher has already been set"

def Config.filter (c : Config) : Attempt TelemetryError LogFilter :=
  (LogFilter.parse c.logFilter).mapError (.filter c.logFilter)

structure Telemetry where
  subscriber : Option Subscriber := none
  settled : Bool := false
  deriving DecidableEq, Repr

namespace Telemetry

def installForeign (t : Telemetry) : Telemetry :=
  { t with subscriber := t.subscriber.or (some .foreign) }

def initialise (c : Config) (t : Telemetry) : Attempt TelemetryError Unit × Telemetry :=
  if t.settled then (.ok (), t)
  else
    match c.filter, t.subscriber with
    | .stopped, _ => (.stopped, t)
    | .error e, _ => (.error e, t)
    | .ok _, some _ => (.error .subscriber, t)
    | .ok _, none => (.ok (), ⟨some (.configured c), true⟩)

def initialiseAll : List Config → Telemetry → List (Attempt TelemetryError Unit)
  | [], _ => []
  | c :: cs, t => (t.initialise c).1 :: initialiseAll cs (t.initialise c).2

end Telemetry

end ScmPlugins.Host
