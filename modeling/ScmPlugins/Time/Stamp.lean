import ScmPlugins.Time.Instant

namespace ScmPlugins.Stamp

def pattern : String := "yyyy-MM-dd'T'HH:mm:ss.SSS'Z'"

def digit (n : Nat) : Char := Char.ofNat (48 + n % 10)

def two (n : Nat) : List Char := [digit (n / 10), digit n]

def three (n : Nat) : List Char := digit (n / 100) :: two n

def four (n : Nat) : List Char := digit (n / 1000) :: three n

def year (y : Int) : List Char := (if y < 0 then ['-'] else []) ++ four y.natAbs

def chars (t : DateTime) : List Char :=
  year t.date.year ++ '-' :: (two t.date.month ++ '-' :: (two t.date.day ++ 'T' ::
    (two t.hour ++ ':' :: (two t.minute ++ ':' :: (two t.second ++ '.' ::
      (three (t.nano / 1000000) ++ ['Z']))))))

def text? (t : DateTime) : Option String :=
  if t.date.year.natAbs < 10000 then some (String.ofList (chars t)) else none

def digits? (width : Nat) (s : List Char) : Option (Nat × List Char) :=
  let ds := s.take width
  if ds.length = width ∧ ds.all Char.isDigit then
    some (ds.foldl (fun n c => 10 * n + (c.toNat - 48)) 0, s.drop width)
  else none

def mark? (c : Char) : List Char → Option (List Char)
  | [] => none
  | d :: r => if d = c then some r else none

def year? (s : List Char) : Option (Int × List Char) :=
  match s with
  | '-' :: r => (digits? 4 r).map fun (n, t) => (-n, t)
  | '+' :: r => (digits? 4 r).map fun (n, t) => (n, t)
  | s => (digits? 4 s).map fun (n, t) => (n, t)

def ofChars? (s : List Char) : Option DateTime := do
  let (year, s) ← year? s
  let s ← mark? '-' s
  let (month, s) ← digits? 2 s
  let s ← mark? '-' s
  let (day, s) ← digits? 2 s
  let s ← mark? 'T' s
  let (hour, s) ← digits? 2 s
  let s ← mark? ':' s
  let (minute, s) ← digits? 2 s
  let s ← mark? ':' s
  let (second, s) ← digits? 2 s
  let s ← mark? '.' s
  let (milli, s) ← digits? 3 s
  let s ← mark? 'Z' s
  let t : DateTime := ⟨⟨year, month, day⟩, hour, minute, second, milli * 1000000⟩
  if s.isEmpty && t.isValid then some t else none

def parse (s : String) : Option Instant := (ofChars? s.toList).map DateTime.instant

end ScmPlugins.Stamp
