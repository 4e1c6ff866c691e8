import ScmPlugins.Time.Stamp

namespace ScmPlugins.Response

inductive Payload where
  | configuration
  | view
  | validation
  | checkResult
  | latestRevision
  | revisionsSince
  | revision
  | revisionData
  | modifiedFile
  | materialData
  | capabilities
  | shouldUpdate
  deriving DecidableEq, Repr

def Payload.label : Payload → String
  | .configuration => "SCM configuration"
  | .view => "SCM view"
  | .validation => "validation result"
  | .checkResult => "check result"
  | .latestRevision => "latest revision response"
  | .revisionsSince => "revisions response"
  | .revision => "SCM revision"
  | .revisionData => "SCM revision data"
  | .modifiedFile => "modified file"
  | .materialData => "SCM data"
  | .capabilities => "capabilities"
  | .shouldUpdate => "should-update response"

inductive Shape where | map | list | listOfMaps | listOfStrings | boolean | string | integer
  deriving DecidableEq, Repr

def Shape.text : Shape → String
  | .map => "map"
  | .list => "list"
  | .listOfMaps => "list of map"
  | .listOfStrings => "list of string"
  | .boolean => "boolean"
  | .string => "string"
  | .integer => "integer"

inductive Rule where
  | bodyPresent
  | validJson (detail : String)
  | shape (expected : Shape)
  | required
  | keyPresent
  | declaredOnce
  | timestamp
  | oneOf (names : List String)
  | schema (detail : String)
  deriving DecidableEq, Repr

def Rule.text : Rule → String
  | .bodyPresent => "response body cannot be empty"
  | .validJson detail => "is not valid JSON (" ++ detail ++ ")"
  | .shape expected => "should be of type " ++ expected.text
  | .required => "is required and cannot be empty"
  | .keyPresent => "key cannot be empty"
  | .declaredOnce => "is declared more than once"
  | .timestamp => "should be of type string with format " ++ Stamp.pattern ++ " and cannot be empty"
  | .oneOf names => "can only be one of \x7b" ++ ", ".intercalate names ++ "\x7d"
  | .schema detail => "does not match the expected structure (" ++ detail ++ ")"

/-- A broken rule, with the key and the field it concerns where these are known. -/
structure Error where
  payload : Payload
  rule : Rule
  key : Option String := none
  field : Option String := none
  deriving DecidableEq, Repr

namespace Error

def place (e : Error) : String :=
  match e.key, e.field with
  | some key, some field => ": '" ++ field ++ "' property for key '" ++ key ++ "'"
  | some key, none => ": key '" ++ key ++ "'"
  | none, some field => ": '" ++ field ++ "'"
  | none, none => ""

def message (e : Error) : String := e.payload.label ++ e.place ++ " " ++ e.rule.text

end Error

end ScmPlugins.Response
