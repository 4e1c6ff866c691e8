namespace ScmPlugins.Decimal

def digits? (s : List Char) : Option Nat :=
  if s.isEmpty || !s.all Char.isDigit then none
  else some (s.foldl (fun n c => 10 * n + (c.toNat - 48)) 0)

def isWhole64 (s : List Char) : Bool :=
  match s with
  | '-' :: r => (digits? r).any (· ≤ 0x8000000000000000)
  | '+' :: r => (digits? r).any (· < 0x10000000000000000)
  | s => (digits? s).any (· < 0x10000000000000000)

def unsigned : List Char → List Char
  | '+' :: r => r
  | '-' :: r => r
  | s => s

def exponent? : List Char → Option Int
  | [] => some 0
  | c :: r =>
    if c == 'e' || c == 'E' then
      (digits? (unsigned r)).map fun n => if r.head? = some '-' then -n else n
    else none

def real? (s : List Char) : Option (Nat × Int) := do
  let s := unsigned s
  let whole := s.takeWhile Char.isDigit
  let (places, r) := match s.dropWhile Char.isDigit with
    | '.' :: r => (r.takeWhile Char.isDigit, r.dropWhile Char.isDigit)
    | r => ([], r)
  let n ← digits? (whole ++ places)
  let e ← exponent? r
  return (n, e - places.length)

/-- Whether `n * 10 ^ e` is nearer to a finite binary number of 64 bits than to the power of two
beyond the last of them. -/
def isFinite (n : Nat) (e : Int) : Bool :=
  let size : Int := (Nat.toDigits 10 n).length + e
  if n = 0 || size ≤ 308 then true
  else if size > 309 then false
  else n * Nat.pow 10 e.toNat < (Nat.pow 2 54 - 1) * Nat.pow 2 970 * Nat.pow 10 (-e).toNat

def isSpecial (s : List Char) : Bool :=
  let w := (unsigned s).map Char.toLower
  w == ['i', 'n', 'f'] || w == ['i', 'n', 'f', 'i', 'n', 'i', 't', 'y'] || w == ['n', 'a', 'n']

def isReal (s : List Char) : Bool := (real? s).isSome || isSpecial s

end ScmPlugins.Decimal
