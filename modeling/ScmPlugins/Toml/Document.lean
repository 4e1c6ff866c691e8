import ScmPlugins.Toml.Scalar
import ScmPlugins.Toml.Text

/-!
TOML documents: lines that assign values to keys, under the headers of the tables that the keys
stand in. Lists and inline tables are nested less than eighty deep, and a key has less than eighty
parts.
-/

namespace ScmPlugins.Toml

def isGap (c : Char) : Bool := c == ' ' || c == '\t'

def skipGap (s : List Char) : List Char := s.dropWhile isGap

def skipLines (inComment : Bool) : List Char → Option (List Char)
  | [] => some []
  | '\r' :: '\n' :: r | '\n' :: r => skipLines false r
  | c :: r =>
    if inComment then if isPlain c then skipLines true r else none
    else if isGap c then skipLines false r
    else if c == '#' then skipLines true r
    else some (c :: r)

def behindLine (s : List Char) : Option (List Char) :=
  let s := match skipGap s with
    | '#' :: r => r.dropWhile isPlain
    | s => s
  match s with
  | [] => some []
  | '\n' :: r | '\r' :: '\n' :: r => some r
  | _ => none

/-! ## Keys -/

def isBare (c : Char) : Bool := c.isAlphanum || c == '_' || c == '-'

def part : List Char → Option (String × List Char)
  | '"' :: r => (basic r).map fun (cs, t) => (String.ofList cs, t)
  | '\'' :: r => (literal r).map fun (cs, t) => (String.ofList cs, t)
  | s =>
    let name := s.takeWhile isBare
    if name.isEmpty then none else some (String.ofList name, s.dropWhile isBare)

def parts (s : List Char) : Option (List String × List Char) :=
  match part (skipGap s) with
  | none => none
  | some (p, r) =>
    match skipGap r with
    | '.' :: t =>
      if t.length < s.length then (parts t).map fun (ps, rest) => (p :: ps, rest) else none
    | t => some ([p], t)
termination_by s.length

def deepest : Nat := 80

def key (s : List Char) : Option ((List String × String) × List Char) :=
  match parts s with
  | none => none
  | some (ps, r) =>
    if ps.length < deepest then ps.getLast?.map fun k => ((ps.dropLast, k), r) else none

/-! ## Values -/

def items (value : List Char → Option (Item × List Char)) (s : List Char) :
    Option (List Item × List Char) :=
  match skipLines false s with
  | none => none
  | some (']' :: r) => some ([], r)
  | some t =>
    match value t with
    | none => none
    | some (v, r) =>
      match skipLines false r with
      | some (',' :: u) =>
        if u.length < s.length then (items value u).map fun (vs, rest) => (v :: vs, rest)
        else none
      | some (']' :: u) => some ([v], u)
      | _ => none
termination_by s.length

def members (value : List Char → Option (Item × List Char)) (t : Table) (s : List Char) :
    Option (Table × List Char) :=
  match key s with
  | some ((path, k), '=' :: r) =>
    match value (skipGap r) with
    | none => none
    | some (v, r) =>
      match t.assign path k v, skipGap r with
      | some t, ',' :: u => if u.length < s.length then members value t u else none
      | some t, '\x7d' :: u => some (t, u)
      | _, _ => none
  | _ => none
termination_by s.length

def inline (value : List Char → Option (Item × List Char)) (s : List Char) :
    Option (Table × List Char) :=
  match skipGap s with
  | '\x7d' :: r => some ([], r)
  | _ => members value [] s

def simple (s : List Char) : Option (Item × List Char) :=
  match text s with
  | some (cs, r) => some (.text (String.ofList cs), r)
  | none => scalar s

def value : Nat → List Char → Option (Item × List Char)
  | 0, s => simple s
  | depth + 1, s =>
    match s with
    | '[' :: r => (items (value depth) r).map fun (vs, rest) => (.list vs, rest)
    | '\x7b' :: r => (inline (value depth) r).map fun (t, rest) => (.inlined t, rest)
    | s => simple s

/-! ## Lines -/

structure Reading where
  tables : Table := []
  header : List String := []

def line (d : Reading) (s : List Char) : Option (Reading × List Char) :=
  match skipGap s with
  | '[' :: '[' :: r =>
    match key r with
    | some ((path, k), ']' :: ']' :: r) => do
      let tables ← d.tables.openElement path k
      let rest ← behindLine r
      return (⟨tables, path ++ [k]⟩, rest)
    | _ => none
  | '[' :: r =>
    match key r with
    | some ((path, k), ']' :: r) => do
      let tables ← d.tables.openTable path k
      let rest ← behindLine r
      return (⟨tables, path ++ [k]⟩, rest)
    | _ => none
  | r =>
    match behindLine r, key r with
    | some rest, _ => some (d, rest)
    | none, some ((path, k), '=' :: r) => do
      let (v, r) ← value (deepest - 1) (skipGap r)
      let tables ← d.tables.assignIn d.header path k v
      let rest ← behindLine r
      return ({ d with tables }, rest)
    | none, _ => none

def lines (d : Reading) (s : List Char) : Option Table :=
  if s.isEmpty then some d.tables
  else
    match line d s with
    | some (d, r) => if r.length < s.length then lines d r else none
    | none => none
termination_by s.length

def parse (s : String) : Option Table :=
  match s.toList with
  | '\uFEFF' :: r => lines {} r
  | s => lines {} s

end ScmPlugins.Toml
