import ScmPlugins.Text.Hex

namespace ScmPlugins.Toml

def isPlain (c : Char) : Bool := c == '\t' || (0x20 ≤ c.toNat && c.toNat != 0x7F)

def escape? : Char → Option Char
  | 'b' => some '\x08'
  | 't' => some '\t'
  | 'n' => some '\n'
  | 'f' => some '\x0c'
  | 'r' => some '\r'
  | '"' => some '"'
  | '\\' => some '\\'
  | _ => none

def codePoint? (s : List Char) : Option Char := Text.codePoint? s.length s

def before (c : Char) : List Char × List Char → List Char × List Char
  | (cs, rest) => (c :: cs, rest)

def basic : List Char → Option (List Char × List Char)
  | [] => none
  | '"' :: r => some ([], r)
  | '\\' :: 'u' :: a :: b :: c :: d :: r =>
    match codePoint? [a, b, c, d] with
    | some x => (basic r).map (before x)
    | none => none
  | '\\' :: 'U' :: a :: b :: c :: d :: e :: f :: g :: h :: r =>
    match codePoint? [a, b, c, d, e, f, g, h] with
    | some x => (basic r).map (before x)
    | none => none
  | '\\' :: c :: r =>
    match escape? c with
    | some x => (basic r).map (before x)
    | none => none
  | c :: r => if isPlain c && c != '\\' then (basic r).map (before c) else none

def literal : List Char → Option (List Char × List Char)
  | [] => none
  | '\'' :: r => some ([], r)
  | c :: r => if isPlain c then (literal r).map (before c) else none

def foldsLine (s : List Char) : Bool :=
  match s.dropWhile fun c => c == ' ' || c == '\t' with
  | '\n' :: _ | '\r' :: '\n' :: _ => true
  | _ => false

def basicLines (folding : Bool) : List Char → Option (List Char × List Char)
  | [] => none
  | '\r' :: '\n' :: r =>
    if folding then basicLines true r else (basicLines false r).map (before '\n')
  | '\n' :: r => if folding then basicLines true r else (basicLines false r).map (before '\n')
  | '"' :: '"' :: '"' :: '"' :: '"' :: r => some (['"', '"'], r)
  | '"' :: '"' :: '"' :: '"' :: r => some (['"'], r)
  | '"' :: '"' :: '"' :: r => some ([], r)
  | '\\' :: 'u' :: a :: b :: c :: d :: r =>
    match codePoint? [a, b, c, d] with
    | some x => (basicLines false r).map (before x)
    | none => none
  | '\\' :: 'U' :: a :: b :: c :: d :: e :: f :: g :: h :: r =>
    match codePoint? [a, b, c, d, e, f, g, h] with
    | some x => (basicLines false r).map (before x)
    | none => none
  | '\\' :: c :: r =>
    match escape? c with
    | some x => (basicLines false r).map (before x)
    | none => if foldsLine (c :: r) then basicLines true (c :: r) else none
  | c :: r =>
    if folding && (c == ' ' || c == '\t') then basicLines true r
    else if isPlain c && c != '\\' then (basicLines false r).map (before c)
    else none

def literalLines : List Char → Option (List Char × List Char)
  | [] => none
  | '\r' :: '\n' :: r | '\n' :: r => (literalLines r).map (before '\n')
  | '\'' :: '\'' :: '\'' :: '\'' :: '\'' :: r => some (['\'', '\''], r)
  | '\'' :: '\'' :: '\'' :: '\'' :: r => some (['\''], r)
  | '\'' :: '\'' :: '\'' :: r => some ([], r)
  | c :: r => if isPlain c then (literalLines r).map (before c) else none

def dropLineEnd : List Char → List Char
  | '\n' :: r | '\r' :: '\n' :: r => r
  | s => s

def text : List Char → Option (List Char × List Char)
  | '"' :: '"' :: '"' :: r => basicLines false (dropLineEnd r)
  | '"' :: r => basic r
  | '\'' :: '\'' :: '\'' :: r => literalLines (dropLineEnd r)
  | '\'' :: r => literal r
  | _ => none

end ScmPlugins.Toml
