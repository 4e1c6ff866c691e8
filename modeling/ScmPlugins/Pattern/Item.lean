import ScmPlugins.Pattern.Mode
import ScmPlugins.Text.Hex

namespace ScmPlugins.Pattern

inductive Item where
  | char (c : Char) (isByte : Bool)
  | anyChar
  | shorthand (negated : Bool)
  | anchor
  | wordEdge
  deriving DecidableEq, Repr

namespace Item

def plain (c : Char) : Item := .char c false

def escaped? : Char → Option Char
  | 'a' => some '\x07'
  | 'f' => some '\x0c'
  | 'n' => some '\n'
  | 'r' => some '\r'
  | 't' => some '\t'
  | 'v' => some '\x0b'
  | c => if c.toNat < 128 && !c.isAlphanum then some c else none

def hexDigits (m : Mode) : Nat → List Char → Option (List Nat × List Char)
  | 0, s => some ([], s)
  | n + 1, s =>
    match m.skip s with
    | [] => none
    | c :: r => do
      let d ← Text.hexDigit? c
      let (ds, rest) ← hexDigits m n r
      return (d :: ds, rest)

def codePoint (m : Mode) (width : Nat) (s : List Char) : Option (Item × List Char) := do
  let (ds, rest) ← hexDigits m width s
  let c ← Text.ofCodePoint? ds
  return (.char c (width == 2), rest)

def escape (m : Mode) : List Char → Option (Item × List Char)
  | [] => none
  | 'x' :: r => codePoint m 2 r
  | 'u' :: r => codePoint m 4 r
  | 'U' :: r => codePoint m 8 r
  | 'd' :: r | 's' :: r | 'w' :: r => some (.shorthand false, r)
  | 'D' :: r | 'S' :: r | 'W' :: r => some (.shorthand true, r)
  | 'A' :: r | 'z' :: r => some (.anchor, r)
  | 'b' :: '\x7b' :: _ => none
  | 'b' :: r | 'B' :: r | '<' :: r | '>' :: r => some (.wordEdge, r)
  | c :: r => (escaped? c).map fun x => (plain x, r)

def read (m : Mode) : List Char → Option (Item × List Char)
  | [] => none
  | '\\' :: r => escape m r
  | c :: r => some (plain c, r)

def isSupported (m : Mode) : Item → Bool
  | .char c isByte => if m.unicode then !m.ignoreCase else !isByte || c.toNat < 128
  | .anyChar => m.unicode
  | .shorthand negated => !m.unicode && !negated
  | .anchor | .wordEdge => true

def isMember (m : Mode) : Item → Bool
  | .char c _ => if m.unicode then !m.ignoreCase else c.toNat < 128
  | .shorthand negated => !m.unicode && !negated
  | .anyChar | .anchor | .wordEdge => false

end Item

end ScmPlugins.Pattern
