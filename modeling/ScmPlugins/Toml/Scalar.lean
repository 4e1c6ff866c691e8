import ScmPlugins.Number.Decimal
import ScmPlugins.Text.Hex
import ScmPlugins.Text.Parts
import ScmPlugins.Time.Calendar
import ScmPlugins.Toml.Table

namespace ScmPlugins.Toml

def digits? (isDigit : Char → Bool) (s : List Char) : Option (List Char) :=
  let groups := Text.parts '_' s
  if groups.all fun g => !g.isEmpty && g.all isDigit then some groups.flatten else none

def decimal? (s : List Char) : Option (List Char) := digits? Char.isDigit s

def whole? (s : List Char) : Option (List Char) :=
  match s with
  | '0' :: _ :: _ => none
  | s => decimal? s

def inRange (n : Int) : Option Item :=
  if -0x8000000000000000 ≤ n ∧ n < 0x8000000000000000 then some (.whole n) else none

def ofBase (base : Nat) (s : List Char) : Option Item := do
  let isDigit (c : Char) := (Text.hexDigit? c).any (· < base)
  let ds ← digits? isDigit s
  let ns ← ds.mapM Text.hexDigit?
  let n : Nat := ns.foldl (fun n d => base * n + d) 0
  inRange n

def signed (s : List Char) : Bool × List Char :=
  match s with
  | '-' :: r => (true, r)
  | '+' :: r => (false, r)
  | s => (false, s)

def integer? (s : List Char) : Option Item :=
  match s with
  | '0' :: 'x' :: r => ofBase 16 r
  | '0' :: 'o' :: r => ofBase 8 r
  | '0' :: 'b' :: r => ofBase 2 r
  | s => do
    let (negative, r) := signed s
    let ds ← whole? r
    let n ← Decimal.digits? ds
    inRange (if negative then -n else n)

def exponent? : List Char → Option Int
  | [] => some 0
  | _ :: s => do
    let (negative, r) := signed s
    let ds ← decimal? r
    let n ← Decimal.digits? ds
    return if negative then -(n : Int) else n

/-- A number with a point, an exponent or both. Beyond the greatest finite number there is none with
a plus sign or without one. -/
def real? (s : List Char) : Option Item := do
  let (negative, r) := signed s
  if r == ['i', 'n', 'f'] || r == ['n', 'a', 'n'] then return .real false
  let isMark (c : Char) := c == '.' || c == 'e' || c == 'E'
  let isLetter (c : Char) := c == 'e' || c == 'E'
  let whole ← whole? (r.takeWhile (!isMark ·))
  let r := r.dropWhile (!isMark ·)
  let (places, r) ← match r with
    | '.' :: t => (decimal? (t.takeWhile (!isLetter ·))).map (·, t.dropWhile (!isLetter ·))
    | [] => none
    | r => some ([], r)
  let power ← exponent? r
  let n ← Decimal.digits? (whole ++ places)
  if Decimal.isFinite n (power - places.length) then some (.real true)
  else if negative then some (.real false)
  else none

def fixed (width : Nat) (s : List Char) : Option (Nat × List Char) := do
  let ds := s.take width
  if ds.length = width then
    let n ← Decimal.digits? ds
    return (n, s.drop width)
  else none

def mark (c : Char) : List Char → Option (List Char)
  | d :: r => if d = c then some r else none
  | [] => none

def behindDate (s : List Char) : Option (List Char) := do
  let (year, s) ← fixed 4 s
  let s ← mark '-' s
  let (month, s) ← fixed 2 s
  let s ← mark '-' s
  let (day, s) ← fixed 2 s
  if (Date.mk year month day).isValid then some s else none

def behindTime (s : List Char) : Option (List Char) := do
  let (hour, s) ← fixed 2 s
  let s ← mark ':' s
  let (minute, s) ← fixed 2 s
  let s ← mark ':' s
  let (second, s) ← fixed 2 s
  if hour < 24 ∧ minute < 60 ∧ second ≤ 60 then
    match s with
    | '.' :: r => if (r.head?.any Char.isDigit) then some (r.dropWhile Char.isDigit) else none
    | s => some s
  else none

def isOffset (s : List Char) : Bool :=
  match s with
  | [] | ['Z'] | ['z'] => true
  | c :: r =>
    (c == '+' || c == '-') &&
      match fixed 2 r with
      | some (hour, ':' :: t) =>
        match fixed 2 t with
        | some (minute, []) => hour < 24 && minute < 60
        | _ => false
      | _ => false

def isClock (s : List Char) : Bool := (behindTime s).any isOffset

def isMoment (s : List Char) : Bool :=
  behindTime s == some [] ||
    match behindDate s with
    | some [] => true
    | some (c :: r) => (c == 'T' || c == 't' || c == ' ') && isClock r
    | none => false

def isEnd (c : Char) : Bool :=
  c == ' ' || c == '\t' || c == '\n' || c == '\r' || c == ',' || c == ']' || c == '\x7d' || c == '#'

def word (s : List Char) : List Char × List Char :=
  let w := s.takeWhile (!isEnd ·)
  let r := s.dropWhile (!isEnd ·)
  match behindDate w, r with
  | some [], ' ' :: t =>
    let clock := t.takeWhile (!isEnd ·)
    if isClock clock then (w ++ ' ' :: clock, t.dropWhile (!isEnd ·)) else (w, r)
  | _, _ => (w, r)

def ofWord? (w : List Char) : Option Item :=
  if w == ['t', 'r', 'u', 'e'] then some (.flag true)
  else if w == ['f', 'a', 'l', 's', 'e'] then some (.flag false)
  else if isMoment w then some .moment
  else (real? w).orElse fun _ => integer? w

def scalar (s : List Char) : Option (Item × List Char) :=
  let (w, r) := word s
  (ofWord? w).map (·, r)

end ScmPlugins.Toml
