import ScmPlugins.Pattern.Item

namespace ScmPlugins.Pattern

def levels : List Nat → Nat
  | [] => 0
  | [n] => n
  | ns => ns.foldl max 0 + 1

namespace Bracket

def classNames : List String := ["alnum", "alpha", "ascii", "blank", "cntrl", "digit", "graph",
  "lower", "print", "punct", "space", "upper", "word", "xdigit"]

def class? : List Char → Option (Bool × List Char)
  | ':' :: s =>
    let negated := s.head? == some '^'
    let s := if negated then s.tail else s
    match s.dropWhile (· != ':') with
    | ':' :: ']' :: r =>
      if classNames.contains (String.ofList (s.takeWhile (· != ':'))) then some (negated, r)
      else none
    | _ => none
  | _ => none

inductive Outer where
  | parts (levels : List Nat)
  | operand (levels : Nat)
  deriving DecidableEq, Repr

inductive Progress where
  | inside (outer : List Outer) (parts : List Nat)
  | closed (levels : Nat)
  deriving DecidableEq, Repr

def operation (n : Nat) : List Outer → Nat × List Outer
  | .operand l :: outer => (max l n + 1, outer)
  | outer => (n, outer)

def leading (m : Mode) (parts : List Nat) (s : List Char) : Option (List Nat × List Char) :=
  match _h : m.skip s with
  | [] => none
  | c :: r =>
    if c == '-' || c == ']' && parts.isEmpty then
      if !(Item.plain c).isMember m then none
      else if c == ']' then some ([0], r)
      else leading m (0 :: parts) r
    else some (parts, c :: r)
termination_by s.length
decreasing_by
  have := m.skip_le s
  rw [_h, List.length_cons] at this
  omega

def start (m : Mode) (s : List Char) : Option (List Nat × List Char) :=
  match m.skip s with
  | '^' :: r => if m.unicode then leading m [] r else none
  | r => leading m [] r

def member (m : Mode) (s : List Char) : Option (List Char) := do
  let (i, r) ← Item.read m s
  if !i.isMember m then none
  else
    match m.skip r with
    | '-' :: t =>
      if m.ahead? t == some ']' || m.ahead? t == some '-' then return '-' :: t
      else
        let (j, rest) ← Item.read m (m.skip t)
        match i, j with
        | .char c _, .char d _ => if j.isMember m && c ≤ d then some rest else none
        | _, _ => none
    | r => return r

def isClass (m : Mode) (negated : Bool) : Bool := if m.unicode then !m.ignoreCase else !negated

def step (m : Mode) (outer : List Outer) (parts : List Nat) :
    List Char → Option (Progress × List Char)
  | '[' :: r =>
    match class? r with
    | some (negated, t) => if isClass m negated then some (.inside outer (0 :: parts), t) else none
    | none => (start m r).map fun (ps, t) => (.inside (.parts parts :: outer) ps, t)
  | ']' :: r =>
    match operation (levels parts) outer with
    | (n, .parts ps :: outer) => some (.inside outer ((n + 1) :: ps), r)
    | (n, _) => some (.closed (n + 1), r)
  | '&' :: '&' :: r | '-' :: '-' :: r | '~' :: '~' :: r =>
    let (n, outer) := operation (levels parts) outer
    some (.inside (.operand n :: outer) [], r)
  | s => (member m s).map fun r => (.inside outer (0 :: parts), r)

def run (m : Mode) (outer : List Outer) (parts : List Nat) (s : List Char) :
    Option (Nat × List Char) :=
  match step m outer parts (m.skip s) with
  | none => none
  | some (.closed n, r) => some (n, r)
  | some (.inside outer parts, r) => if r.length < s.length then run m outer parts r else none
termination_by s.length

def read (m : Mode) (s : List Char) : Option (Nat × List Char) := do
  let (parts, r) ← start m s
  run m [] parts r

end Bracket

end ScmPlugins.Pattern
