namespace ScmPlugins.Text

def hexDigit? (c : Char) : Option Nat :=
  if c.isDigit then some (c.toNat - 48)
  else if 'a' ≤ c ∧ c ≤ 'f' then some (c.toNat - 87)
  else if 'A' ≤ c ∧ c ≤ 'F' then some (c.toNat - 55)
  else none

def ofHexDigits (ds : List Nat) : Nat := ds.foldl (fun n d => 16 * n + d) 0

def ofCodePoint? (ds : List Nat) : Option Char :=
  if (ofHexDigits ds).isValidChar then some (Char.ofNat (ofHexDigits ds)) else none

def codePoint? (width : Nat) (s : List Char) : Option Char := do
  let ds ← (s.take width).mapM hexDigit?
  if ds.length = width then ofCodePoint? ds else none

end ScmPlugins.Text
