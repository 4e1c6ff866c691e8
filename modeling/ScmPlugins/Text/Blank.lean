namespace ScmPlugins.Text

/-- The characters with the Unicode property White_Space. -/
def isBlankChar (c : Char) : Bool :=
  let n := c.toNat
  (0x9 ≤ n && n ≤ 0xD) || n == 0x20 || n == 0x85 || n == 0xA0 || n == 0x1680 ||
    (0x2000 ≤ n && n ≤ 0x200A) || n == 0x2028 || n == 0x2029 || n == 0x202F || n == 0x205F ||
    n == 0x3000

def isBlank (s : String) : Bool := s.toList.all isBlankChar

def trimStart (s : List Char) : List Char := s.dropWhile isBlankChar

def trim (s : List Char) : List Char := (trimStart (trimStart s).reverse).reverse

theorem isBlank_iff {s : String} : isBlank s = true ↔ ∀ c ∈ s.toList, isBlankChar c = true := by
  simp [isBlank]

theorem trimStart_eq_nil_iff {s : List Char} :
    trimStart s = [] ↔ ∀ c ∈ s, isBlankChar c = true := by
  induction s with
  | nil => simp [trimStart]
  | cons c r ih => by_cases h : isBlankChar c = true <;> simp_all [trimStart]

end ScmPlugins.Text
