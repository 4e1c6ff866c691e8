namespace ScmPlugins

structure View where
  displayValue : String
  template : String
  deriving DecidableEq, Repr

/-- A complaint about the property of that key, or with an empty key about none in particular. -/
structure ValidationError where
  key : String
  message : String
  deriving DecidableEq, Repr

structure Validation where
  errors : List ValidationError
  deriving DecidableEq, Repr

def Validation.success : Validation := ⟨[]⟩

def Validation.isSuccess (v : Validation) : Bool := v.errors.isEmpty

inductive CheckStatus where | success | failure
  deriving DecidableEq, Repr

def CheckStatus.name : CheckStatus → String
  | .success => "success"
  | .failure => "failure"

def CheckStatus.all : List CheckStatus := [.success, .failure]

def CheckStatus.named? (name : String) : Option CheckStatus := all.find? (·.name == name)

structure CheckResult where
  status : CheckStatus
  messages : List String
  deriving DecidableEq, Repr

def CheckResult.isSuccess (r : CheckResult) : Bool := r.status == .success

def CheckResult.display (r : CheckResult) : String := ", ".intercalate r.messages

end ScmPlugins
