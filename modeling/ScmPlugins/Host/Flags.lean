import ScmPlugins.Host.Layer

namespace ScmPlugins.Host

inductive Flag where
  | field (f : Field)
  | configPath
  deriving DecidableEq, Repr

namespace Flag

def all : List Flag := Field.all.map .field ++ [.configPath]

def name : Flag → String
  | .field .logFilter => "log-filter"
  | .field .logFormat => "log-format"
  | .field .extensionName => "extension-name"
  | .field .maxProtocolVersion => "max-protocol-version"
  | .configPath => "config-path"

def letter? : Flag → Option Char
  | .field .logFilter => some 'l'
  | .field .logFormat => some 'L'
  | .field .extensionName => some 'e'
  | .field .maxProtocolVersion => some 'm'
  | .configPath => none

def named? (s : List Char) : Option Flag := all.find? fun f => f.name.toList == s

def lettered? (c : Char) : Option Flag := all.find? fun f => f.letter? == some c

def accept? : Flag → String → Option String
  | .field .logFormat, value => (LogFormat.parse value).toOption.map LogFormat.name
  | .configPath, value => if value.isEmpty then none else some value
  | .field _, value => some value

def ofArgument? (argument : String) : Option (Flag × Option String) :=
  match argument.toList with
  | '-' :: '-' :: s =>
    (named? (s.takeWhile (· != '='))).map fun f =>
      match s.dropWhile (· != '=') with
      | [] => (f, none)
      | _ :: value => (f, some (String.ofList value))
  | '-' :: c :: s =>
    (lettered? c).map fun f =>
      match s with
      | [] => (f, none)
      | '=' :: value | value => (f, some (String.ofList value))
  | _ => none

def isValue (argument : String) : Bool :=
  match argument.toList with
  | '-' :: _ :: _ => false
  | _ => true

end Flag

abbrev Flags := List (Flag × String)

namespace Flags

def pairs? : List String → Option (List (Flag × String))
  | [] => some []
  | argument :: rest =>
    if argument = "--" then if rest.isEmpty then some [] else none
    else
      match Flag.ofArgument? argument, rest with
      | some (f, some value), rest => (pairs? rest).map ((f, value) :: ·)
      | some (f, none), value :: rest =>
        if Flag.isValue value then (pairs? rest).map ((f, value) :: ·) else none
      | _, _ => none

def parse? (arguments : List String) : Option Flags := do
  let pairs ← pairs? arguments
  if (pairs.map (·.1)).Nodup then
    pairs.mapM fun (f, value) => (f.accept? value).map (f, ·)
  else none

def spellOutDefaults (flags : Flags) : Bool :=
  (flags.lookup .configPath).isNone &&
    Field.all.all fun f => flags.lookup (.field f) == ({} : Config).text? f

/-- Flags that spell out the defaults say nothing. -/
def layer (flags : Flags) : Layer :=
  if flags.spellOutDefaults then .empty else fun f => (flags.lookup (.field f)).map .text

end Flags

end ScmPlugins.Host
