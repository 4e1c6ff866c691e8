import ScmPlugins.Attempt
import ScmPlugins.Number.Decimal
import ScmPlugins.Pattern.Check
import ScmPlugins.Text.Alphanumeric
import ScmPlugins.Text.Blank
import ScmPlugins.Text.Bytes
import ScmPlugins.Text.Case
import ScmPlugins.Text.Parts

namespace ScmPlugins.Host

inductive LogLevel where
  | off
  | error
  | warn
  | info
  | debug
  | trace
  deriving DecidableEq, Repr

namespace LogLevel

def all : List LogLevel := [.off, .error, .warn, .info, .debug, .trace]

def name : LogLevel → String
  | .off => "off"
  | .error => "error"
  | .warn => "warn"
  | .info => "info"
  | .debug => "debug"
  | .trace => "trace"

def ofChars? (s : List Char) : Option LogLevel :=
  let number := match s with
    | '+' :: r => Decimal.digits? r
    | s => Decimal.digits? s
  match number with
  | some n => all[n]?
  | none => all.find? fun l => Text.isName l.name (String.ofList s)

end LogLevel

inductive FieldValue where
  | flag (b : Bool)
  | number (s : String)
  | pattern (s : String)
  deriving DecidableEq, Repr

structure FieldMatch where
  name : String
  value : Option FieldValue := none
  deriving DecidableEq, Repr

structure Directive where
  target : Option String := none
  span : Option String := none
  field : Option FieldMatch := none
  level : LogLevel := .trace
  deriving DecidableEq, Repr

abbrev LogFilter := List Directive

namespace LogFilter

inductive Error where
  | directive
  | level
  | field (fault : Pattern.Fault)
  deriving DecidableEq, Repr

def Error.message : Error → String
  | .directive => "invalid filter directive"
  | .level =>
    "error parsing level filter: expected one of " ++
      ", ".intercalate (LogLevel.all.map fun l => "\"" ++ l.name ++ "\"") ++ ", or a number 0-5"
  | .field fault => "invalid field filter: " ++ fault.message

def level (s : List Char) : Except Error LogLevel :=
  if s.isEmpty then .ok .trace
  else
    match LogLevel.ofChars? s with
    | some l => .ok l
    | none => .error .level

def levelOrTarget (s : List Char) : Directive :=
  match LogLevel.ofChars? s with
  | some l => { level := l }
  | none => { target := some (String.ofList s) }

def fieldValue (s : List Char) : Except Error FieldValue :=
  if s == ['t', 'r', 'u', 'e'] then .ok (.flag true)
  else if s == ['f', 'a', 'l', 's', 'e'] then .ok (.flag false)
  else if Decimal.isReal s then .ok (.number (String.ofList s))
  else
    match Pattern.check s with
    | .ok () => .ok (.pattern (String.ofList s))
    | .error fault => .error (.field fault)

def fieldMatch (s : List Char) : Except Error FieldMatch :=
  match Text.parts '=' s with
  | name :: value :: _ => (fieldValue value).map fun v => ⟨String.ofList name, some v⟩
  | _ => .ok ⟨String.ofList s, none⟩

inductive Place where
  | start
  | levelOrTarget
  | span (first : Nat)
  | field (first : Nat)
  | behindField
  | behindSpan
  | level (first : Nat)
  deriving DecidableEq, Repr

/-- The part of a text between two positions. Nothing answers if one lies inside a character. -/
def cut (s : List Char) (first last : Nat) : Attempt Error (List Char) :=
  match Text.slice? first last s with
  | some part => .ok part
  | none => .stopped

def startsTarget (c : Char) : Bool := c == '-' || c == ':' || c == '_' || Text.isAlphanumeric c

def step (whole : List Char) (i : Nat) (c : Char) (d : Directive) :
    Place → Attempt Error (Place × Directive)
  | .start =>
    if c = '[' then .ok (.span (i + 1), d)
    else if startsTarget c then .ok (.levelOrTarget, d)
    else .error .directive
  | .levelOrTarget =>
    if c = '=' ∨ c = '[' then do
      let part ← cut whole 0 i
      let next := if c = '=' then .level (i + 1) else .span (i + 1)
      return (next, { d with target := some (String.ofList part) })
    else .ok (.levelOrTarget, d)
  | .span first =>
    if c = ']' then do
      let part ← cut whole first i
      return (.behindSpan, { d with span := some (String.ofList part) })
    else if c = '\x7b' then do
      let part ← cut whole first i
      let span := if part.isEmpty then none else some (String.ofList part)
      return (.field (i + 1), { d with span })
    else .ok (.span first, d)
  | .field first =>
    if c = '\x7d' then do
      let part ← cut whole first i
      if part.isEmpty then .error .directive
      else
        let field ← Attempt.ofExcept (fieldMatch part)
        return (.behindField, { d with field := some field })
    else .ok (.field first, d)
  | .behindField => if c = ']' then .ok (.behindSpan, d) else .error .directive
  | .behindSpan => if c = '=' then .ok (.level (i + 1), d) else .error .directive
  | .level first => .ok (.level first, d)

def run (whole : List Char) (i : Nat) (place : Place) (d : Directive) :
    List Char → Attempt Error (Place × Directive)
  | [] => .ok (place, d)
  | c :: r => do
    let (place, d) ← step whole i c d place
    run whole (i + c.utf8Size) place d r

def directive (s : List Char) : Attempt Error Directive := do
  let (place, d) ← run s 0 .start {} (Text.trim s)
  match place with
  | .levelOrTarget => return levelOrTarget s
  | .level first =>
    match Text.dropBytes? first s with
    | some part => Attempt.ofExcept ((level part).map fun l => { d with level := l })
    | none => .stopped
  | .behindSpan => return d
  | _ => .error .directive

def parse (expression : String) : Attempt Error LogFilter :=
  ((Text.parts ',' expression.toList).filter (!·.isEmpty)).mapM directive

end LogFilter

end ScmPlugins.Host
