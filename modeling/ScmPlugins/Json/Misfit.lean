import ScmPlugins.Json.Basic
import ScmPlugins.Json.Fault
import ScmPlugins.Number.Shortest
import ScmPlugins.Text.Quoted

namespace ScmPlugins.Json

inductive Found where
  | null
  | bool (b : Bool)
  | int (n : Int)
  | real (x : Binary64)
  | str (s : String)
  | list
  | map
  deriving DecidableEq, Repr

def Found.of : Json → Found
  | .null => .null
  | .bool b => .bool b
  | .int n => .int n
  | .real x => .real x
  | .str s => .str s
  | .list _ => .list
  | .map _ => .map

def Found.message : Found → String
  | .null => "null"
  | .bool b => "boolean `" ++ (if b then "true" else "false") ++ "`"
  | .int n => "integer `" ++ toString n ++ "`"
  | .real x => "floating point `" ++ String.ofList x.text ++ "`"
  | .str s => "string " ++ Text.quoted s
  | .list => "sequence"
  | .map => "map"

inductive Misfit where
  | fault (f : Fault)
  | wrongType (found : Found) (expected : String)
  | missingField (name : String)
  | duplicateField (name : String)
  | tooShort (length : Nat) (expected : String)
  | unknownVariant (name : String) (expected : List String)
  | refused (message : String)
  deriving DecidableEq, Repr

def oneOf : List String → String
  | [] => "there are no variants"
  | [a] => "`" ++ a ++ "`"
  | [a, b] => "`" ++ a ++ "` or `" ++ b ++ "`"
  | names => "one of " ++ ", ".intercalate (names.map fun a => "`" ++ a ++ "`")

/-- What is wrong, without the line and the column at which it was found. -/
def Misfit.message : Misfit → String
  | .fault f => f.message
  | .wrongType found expected => "invalid type: " ++ found.message ++ ", expected " ++ expected
  | .missingField name => "missing field `" ++ name ++ "`"
  | .duplicateField name => "duplicate field `" ++ name ++ "`"
  | .tooShort length expected =>
    "invalid length " ++ toString length ++ ", expected " ++ expected
  | .unknownVariant name expected =>
    "unknown variant `" ++ name ++ "`, expected " ++ oneOf expected
  | .refused message => message

end ScmPlugins.Json
