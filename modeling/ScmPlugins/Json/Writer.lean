import ScmPlugins.Json.Basic
import ScmPlugins.Number.Shortest

namespace ScmPlugins.Json

def hexDigit (n : Nat) : Char := if n < 10 then Char.ofNat (48 + n) else Char.ofNat (87 + n)

def escapeChar (c : Char) : List Char :=
  if c = '"' then ['\\', '"']
  else if c = '\\' then ['\\', '\\']
  else if c = '\x08' then ['\\', 'b']
  else if c = '\x0c' then ['\\', 'f']
  else if c = '\n' then ['\\', 'n']
  else if c = '\r' then ['\\', 'r']
  else if c = '\t' then ['\\', 't']
  else if c.toNat < 0x20 then
    ['\\', 'u', '0', '0', hexDigit (c.toNat / 16), hexDigit (c.toNat % 16)]
  else [c]

def renderChars (cs : List Char) : List Char := '"' :: (cs.flatMap escapeChar ++ ['"'])

def renderString (s : String) : List Char := renderChars s.toList

def renderInt (n : Int) : List Char :=
  if n < 0 then '-' :: Nat.toDigits 10 n.natAbs else Nat.toDigits 10 n.natAbs

mutual

def render : Json → List Char
  | .null => ['n', 'u', 'l', 'l']
  | .bool true => ['t', 'r', 'u', 'e']
  | .bool false => ['f', 'a', 'l', 's', 'e']
  | .int n => renderInt n
  | .real x => x.text
  | .str s => renderString s
  | .list [] => ['[', ']']
  | .list (j :: js) => '[' :: (render j ++ renderItems js)
  | .map [] => ['\x7b', '\x7d']
  | .map ((k, j) :: ms) => '\x7b' :: (renderString k ++ ':' :: (render j ++ renderMembers ms))

def renderItems : List Json → List Char
  | [] => [']']
  | j :: js => ',' :: (render j ++ renderItems js)

def renderMembers : List (String × Json) → List Char
  | [] => ['\x7d']
  | (k, j) :: ms => ',' :: (renderString k ++ ':' :: (render j ++ renderMembers ms))

end

def text (j : Json) : String := String.ofList j.render

@[simp] theorem toList_text (j : Json) : j.text.toList = j.render := by simp [text]

end ScmPlugins.Json
