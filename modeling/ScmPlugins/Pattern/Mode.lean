import ScmPlugins.Text.Blank

namespace ScmPlugins.Pattern

inductive Flag where
  | ignoreCase
  | multiLine
  | dotAll
  | swapGreed
  | unicode
  | anyLineEnd
  | verbose
  deriving DecidableEq, Repr

def Flag.ofChar? : Char → Option Flag
  | 'i' => some .ignoreCase
  | 'm' => some .multiLine
  | 's' => some .dotAll
  | 'U' => some .swapGreed
  | 'u' => some .unicode
  | 'R' => some .anyLineEnd
  | 'x' => some .verbose
  | _ => none

structure Mode where
  ignoreCase : Bool := false
  unicode : Bool := true
  verbose : Bool := false
  deriving DecidableEq, Repr

namespace Mode

def set (m : Mode) (value : Bool) : Flag → Mode
  | .ignoreCase => { m with ignoreCase := value }
  | .unicode => { m with unicode := value }
  | .verbose => { m with verbose := value }
  | _ => m

/-- Changes a mode by the flags up to a colon or a closing bracket. Those behind a minus sign are
taken away. No flag and no sign stands twice, and a flag follows the sign. -/
def change (m : Mode) (seen : List Flag) (taking due : Bool) :
    List Char → Option (Mode × List Char)
  | [] => none
  | c :: r =>
    if c == ':' || c == ')' then if due then none else some (m, c :: r)
    else if c == '-' then if taking then none else m.change seen true true r
    else
      match Flag.ofChar? c with
      | some f => if f ∈ seen then none else (m.set (!taking) f).change (f :: seen) taking false r
      | none => none

def skipGaps (inComment : Bool) : List Char → List Char
  | [] => []
  | c :: r =>
    if inComment then skipGaps (c != '\n') r
    else if Text.isBlankChar c then skipGaps false r
    else if c == '#' then skipGaps true r
    else c :: r

def skip (m : Mode) (s : List Char) : List Char := if m.verbose then skipGaps false s else s

def ahead? (m : Mode) (s : List Char) : Option Char :=
  if m.verbose then
    match Text.trimStart s with
    | '#' :: r => (Text.trimStart r).head?
    | r => r.head?
  else s.head?

theorem skipGaps_le (inComment : Bool) (s : List Char) :
    (skipGaps inComment s).length ≤ s.length := by
  fun_induction skipGaps inComment s <;> simp <;> omega

theorem skip_le (m : Mode) (s : List Char) : (m.skip s).length ≤ s.length := by
  rw [skip]
  split
  · exact skipGaps_le false s
  · exact Nat.le_refl _

end Mode

end ScmPlugins.Pattern
