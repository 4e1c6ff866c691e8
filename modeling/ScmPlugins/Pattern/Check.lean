import ScmPlugins.Pattern.Bracket
import ScmPlugins.Text.Alphanumeric

/-!
Which patterns can be matched. A pattern is given between braces and holds no closing one, so that
what needs one is never complete.
-/

namespace ScmPlugins.Pattern

inductive Fault where
  | malformed
  | wordEdge
  deriving DecidableEq, Repr

def Fault.message : Fault → String
  | .malformed => "error building NFA"
  | .wordEdge =>
    "unsupported regex feature for DFAs: cannot build DFAs for regexes with Unicode word " ++
      "boundaries; switch to ASCII word boundaries, or heuristically enable Unicode word " ++
      "boundaries or use a different regex engine"

inductive Part where
  | flags
  | nested (levels : Nat)
  deriving DecidableEq, Repr

def Part.levels : Part → Nat
  | .flags => 0
  | .nested n => n

structure Outer where
  mode : Mode
  parts : List Part
  alternatives : List Nat
  deriving DecidableEq, Repr

/-- How far a pattern has been read: the parts of the innermost sequence, last first, the levels of
the alternatives to it, and the groups around it. -/
structure Progress where
  mode : Mode := {}
  parts : List Part := []
  alternatives : List Nat := []
  outer : List Outer := []
  names : List (List Char) := []
  hasWordEdge : Bool := false
  deriving DecidableEq, Repr

namespace Progress

def push (p : Progress) (part : Part) : Progress := { p with parts := part :: p.parts }

def sequence (p : Progress) : Nat := levels (p.parts.map Part.levels)

def content (p : Progress) : Nat := levels (p.sequence :: p.alternatives)

def alternate (p : Progress) : Progress :=
  { p with parts := [], alternatives := p.sequence :: p.alternatives }

def repeated (p : Progress) : Option Progress :=
  match p.parts with
  | .nested n :: ps => some { p with parts := .nested (n + 1) :: ps }
  | _ => none

def openGroup (p : Progress) (mode : Mode) : Progress :=
  { p with
    mode
    parts := []
    alternatives := []
    outer := ⟨p.mode, p.parts, p.alternatives⟩ :: p.outer }

def closeGroup (p : Progress) : Option Progress :=
  match p.outer with
  | [] => none
  | o :: outer =>
    some { p with
      mode := o.mode
      parts := .nested (p.content + 1) :: o.parts
      alternatives := o.alternatives
      outer }

end Progress

def isName : List Char → Bool
  | [] => false
  | c :: r =>
    (c == '_' || Text.isAlphabetic c) &&
      r.all fun c => c == '_' || c == '.' || c == '[' || c == ']' || Text.isAlphanumeric c

def named (p : Progress) (s : List Char) : Option (Progress × List Char) :=
  let name := s.takeWhile (· != '>')
  match s.dropWhile (· != '>') with
  | '>' :: r =>
    if isName name && !p.names.contains name then
      some ({ p.openGroup p.mode with names := name :: p.names }, r)
    else none
  | _ => none

def group (p : Progress) : List Char → Option (Progress × List Char)
  | '?' :: 'P' :: '<' :: r | '?' :: '<' :: r => named p r
  | '?' :: ')' :: _ => none
  | '?' :: r =>
    match p.mode.change [] false false r with
    | some (mode, ')' :: t) => some ({ p.push .flags with mode }, t)
    | some (mode, _ :: t) => some (p.openGroup mode, t)
    | _ => none
  | r => some (p.openGroup p.mode, r)

def item (p : Progress) (s : List Char) : Option (Progress × List Char) := do
  let (i, r) ← match s with
    | '.' :: r => some (.anyChar, r)
    | '^' :: r | '$' :: r => some (.anchor, r)
    | s => Item.read p.mode s
  if i.isSupported p.mode then
    let isEdge := i == .wordEdge && p.mode.unicode
    some ({ p.push (.nested 0) with hasWordEdge := p.hasWordEdge || isEdge }, r)
  else none

def dropReluctance : List Char → List Char
  | '?' :: r => r
  | s => s

def step (p : Progress) : List Char → Option (Progress × List Char)
  | '(' :: r => group p (p.mode.skip r)
  | ')' :: r => p.closeGroup.map (·, r)
  | '|' :: r => some (p.alternate, r)
  | '[' :: r => (Bracket.read p.mode r).map fun (n, t) => (p.push (.nested n), t)
  | '?' :: r | '*' :: r | '+' :: r => p.repeated.map (·, dropReluctance r)
  | '\x7b' :: _ => none
  | s => item p s

def run (p : Progress) (s : List Char) : Option Progress :=
  let t := p.mode.skip s
  if t.isEmpty then some p
  else
    match step p t with
    | none => none
    | some (p, r) => if r.length < s.length then run p r else none
termination_by s.length

def mostLevels : Nat := 250

def read? (s : List Char) : Option Progress :=
  (run {} s).filter fun p => p.outer.isEmpty && p.content ≤ mostLevels

def check (s : List Char) : Except Fault Unit :=
  match read? s with
  | none => .error .malformed
  | some p => if p.hasWordEdge then .error .wordEdge else .ok ()

end ScmPlugins.Pattern
