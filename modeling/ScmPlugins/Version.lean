import ScmPlugins.Number.Decimal
import ScmPlugins.Text.Blank

namespace ScmPlugins

structure Version where
  major : UInt16
  minor : UInt16
  deriving DecidableEq, Repr

namespace Version

instance : LE Version where
  le a b := a.major < b.major ∨ (a.major = b.major ∧ a.minor ≤ b.minor)

instance (a b : Version) : Decidable (a ≤ b) :=
  inferInstanceAs (Decidable (a.major < b.major ∨ (a.major = b.major ∧ a.minor ≤ b.minor)))

instance : Max Version := ⟨fun a b => if a ≤ b then b else a⟩

def v1_0 : Version := ⟨1, 0⟩

def v2_0 : Version := ⟨2, 0⟩

def supported : List Version := [v1_0, v2_0]

def digits (v : Version) : List Char :=
  Nat.toDigits 10 v.major.toNat ++ '.' :: Nat.toDigits 10 v.minor.toNat

def text (v : Version) : String := String.ofList v.digits

def textAll (vs : List Version) : String := ", ".intercalate (vs.map text)

def part? (s : List Char) : Option UInt16 := do
  let n ← Decimal.digits? (match s with
    | '+' :: r => r
    | s => s)
  if n < 65536 then some (UInt16.ofNat n) else none

def ofChars? (s : List Char) : Option Version :=
  let major := s.takeWhile (· != '.')
  let minor := match s.dropWhile (· != '.') with
    | [] => ['0']
    | _ :: r => r
  match part? major, part? minor with
  | some major, some minor => some ⟨major, minor⟩
  | _, _ => none

structure Invalid where
  text : String
  deriving DecidableEq, Repr

def Invalid.message (e : Invalid) : String :=
  "'" ++ e.text ++ "' is not a protocol version (expected 'major.minor')"

def parse (s : String) : Except Invalid Version :=
  match ofChars? (Text.trim s.toList) with
  | some v => .ok v
  | none => .error ⟨s⟩

def negotiate (server plugin : List Version) : Option Version :=
  (server.filter (plugin.contains ·)).max?

def sort (vs : List Version) : List Version := vs.mergeSort fun a b => decide (a ≤ b)

theorem le_def {a b : Version} :
    a ≤ b ↔ a.major < b.major ∨ (a.major = b.major ∧ a.minor ≤ b.minor) := Iff.rfl

@[simp] theorem le_refl (a : Version) : a ≤ a := .inr ⟨rfl, UInt16.le_refl _⟩

theorem le_total (a b : Version) : a ≤ b ∨ b ≤ a := by
  simp only [le_def, UInt16.lt_iff_toNat_lt, UInt16.le_iff_toNat_le, ← UInt16.toNat_inj]; omega

theorem le_trans {a b c : Version} : a ≤ b → b ≤ c → a ≤ c := by
  simp only [le_def, UInt16.lt_iff_toNat_lt, UInt16.le_iff_toNat_le, ← UInt16.toNat_inj]; omega

theorem le_antisymm {a b : Version} (h : a ≤ b) (h' : b ≤ a) : a = b := by
  cases a; cases b
  simp only [le_def, UInt16.lt_iff_toNat_lt, UInt16.le_iff_toNat_le, ← UInt16.toNat_inj,
    mk.injEq] at *
  omega

end Version

end ScmPlugins
