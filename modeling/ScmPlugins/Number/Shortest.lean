import ScmPlugins.Number.Binary64

/-!
Decimal text of binary numbers: the fewest digits that read back as the number. Numbers of usual
size are written in positional notation, with a decimal point, and the others with an exponent.
-/

namespace ScmPlugins.Binary64

structure Interval where
  low : Nat
  value : Nat
  high : Nat
  den : Nat
  closed : Bool
  deriving DecidableEq, Repr

def interval (x : Binary64) : Interval :=
  let scale := Nat.pow 2 x.exponent.toNat
  let den := 4 * Nat.pow 2 (-x.exponent).toNat
  let m := x.mantissa
  let below := if m = Nat.pow 2 52 ∧ x.exponent ≠ -1074 then 1 else 2
  ⟨(4 * m - below) * scale, 4 * m * scale, (4 * m + 2) * scale, den, m % 2 == 0⟩

namespace Interval

def holds (i : Interval) (k : Nat) (e : Int) : Bool :=
  let n := k * Nat.pow 10 e.toNat * i.den
  let s := Nat.pow 10 (-e).toNat
  if i.closed then i.low * s ≤ n && n ≤ i.high * s else i.low * s < n && n < i.high * s

def nearest? (i : Interval) (e : Int) : Option Nat :=
  let n := i.value * Nat.pow 10 (-e).toNat
  let d := i.den * Nat.pow 10 e.toNat
  let k := n / d
  match i.holds k e, i.holds (k + 1) e with
  | true, true => some (roundHalfEven n d)
  | true, false => some k
  | false, true => some (k + 1)
  | false, false => none

def search (i : Interval) (e : Int) : Nat → Nat × Int
  | 0 => (i.value / i.den, 0)
  | tries + 1 =>
    match i.nearest? e with
    | some k => if k = 0 then search i (e - 1) tries else (k, e)
    | none => search i (e - 1) tries

end Interval

/-- The digits and the power of ten of the shortest decimal that reads back. Finite numbers lie
below `10 ^ 309`, and 1076 places after the point write each of them out. -/
def shortest (x : Binary64) : Nat × Int := x.interval.search 309 1400

def positional (k : Nat) (e : Int) : List Char :=
  if 0 ≤ e then Nat.toDigits 10 (k * Nat.pow 10 e.toNat) ++ ['.', '0']
  else
    let places := (-e).toNat
    let ds := Nat.toDigits 10 k
    let ds := List.replicate (places + 1 - ds.length) '0' ++ ds
    ds.take (ds.length - places) ++ '.' :: ds.drop (ds.length - places)

def scientific (k : Nat) (e : Int) : List Char :=
  let ds := Nat.toDigits 10 k
  let power : Int := e + ds.length - 1
  let digits := if ds.length = 1 then ds else ds.take 1 ++ '.' :: ds.drop 1
  digits ++ 'e' :: (if power < 0 then '-' else '+') :: Nat.toDigits 10 power.natAbs

def isPositional (k : Nat) (e : Int) : Bool :=
  let power : Int := e + (Nat.toDigits 10 k).length - 1
  power ≥ -5 && power < 16

def text (x : Binary64) : List Char :=
  let (k, e) := if x.isZero then (0, 0) else x.shortest
  (if x.negative then ['-'] else []) ++
    if isPositional k e then positional k e else scientific k e

end ScmPlugins.Binary64
