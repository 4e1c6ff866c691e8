import ScmPlugins.Text.Case

namespace ScmPlugins.Host

inductive LogFormat where
  | json
  | compact
  deriving DecidableEq, Repr

namespace LogFormat

def all : List LogFormat := [.json, .compact]

def name : LogFormat → String
  | .json => "json"
  | .compact => "compact"

def variants : List (String × LogFormat) := all.map fun f => (f.name, f)

def named? (s : String) : Option LogFormat := variants.lookup s

inductive Error where | noMatch
  deriving DecidableEq, Repr

def Error.message : Error → String
  | .noMatch => "Matching variant not found"

def parse (s : String) : Except Error LogFormat :=
  match all.find? fun f => Text.isName f.name s with
  | some f => .ok f
  | none => .error .noMatch

@[simp] theorem named?_name (f : LogFormat) : named? f.name = some f := by cases f <;> rfl

@[simp] theorem parse_name (f : LogFormat) : parse f.name = .ok f := by
  cases f <;> rfl

end LogFormat

end ScmPlugins.Host
