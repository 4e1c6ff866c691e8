import ScmPlugins.OrderedMap
import ScmPlugins.Version

namespace ScmPlugins.Transport

structure Request where
  plugin : String
  extension : String
  version : Version
  operation : String
  body : Option String
  deriving DecidableEq, Repr

structure Reply where
  body : Option String := none
  headers : OrderedMap String := ∅
  deriving DecidableEq

def Reply.sortedHeaders (r : Reply) : List (String × String) :=
  r.headers.entries.mergeSort fun a b => decide (a.1 ≤ b.1)

inductive Error where
  | unavailable (plugin : String)
  | status (plugin operation : String) (code : Nat)
  | failed (plugin message : String)
  | io (plugin cause : String)
  deriving DecidableEq, Repr

def Error.message : Error → String
  | .unavailable plugin => "plugin '" ++ plugin ++ "' is unavailable"
  | .status plugin operation code =>
    "plugin '" ++ plugin ++ "' answered '" ++ operation ++ "' with status " ++ toString code
  | .failed plugin message => "plugin '" ++ plugin ++ "' failed: " ++ message
  | .io plugin cause => "I/O error communicating with plugin '" ++ plugin ++ "': " ++ cause

def Error.cause? : Error → Option String
  | .io _ cause => some cause
  | _ => none

abbrev Answer := Except Error Reply

instance : DecidableEq Answer
  | .ok a, .ok b => if h : a = b then .isTrue (h ▸ rfl) else .isFalse fun e => h (Except.ok.inj e)
  | .error a, .error b =>
    if h : a = b then .isTrue (h ▸ rfl) else .isFalse fun e => h (Except.error.inj e)
  | .ok _, .error _ => .isFalse nofun
  | .error _, .ok _ => .isFalse nofun

/-- A transport that plays back answers. Those of one operation are used in order and the last of
them for ever. -/
structure Script where
  answers : String → List Answer := fun _ => []
  sent : List Request := []

namespace Script

def push (s : Script) (operation : String) (a : Answer) : Script :=
  { s with answers := fun op => if op = operation then s.answers op ++ [a] else s.answers op }

def respond (s : Script) (operation body : String) : Script :=
  s.push operation (.ok { body := some body })

def respondEmpty (s : Script) (operation : String) : Script := s.push operation (.ok {})

def fail (s : Script) (operation : String) (e : Error) : Script := s.push operation (.error e)

def silent (r : Request) : Answer :=
  .error (.failed r.plugin ("no scripted reply for '" ++ r.operation ++ "'"))

def submit (r : Request) (s : Script) : Answer × Script :=
  let queue := s.answers r.operation
  (queue.head?.getD (silent r),
    { answers := fun op =>
        if op = r.operation ∧ 1 < queue.length then queue.tail else s.answers op
      sent := s.sent ++ [r] })

def sentFor (s : Script) (operation : String) : List Request :=
  s.sent.filter (·.operation == operation)

end Script

end ScmPlugins.Transport
