namespace ScmPlugins

/-- The value `± mantissa * 2 ^ exponent`. Of the many such forms of a number `ofQuotient` builds
the one whose mantissa has 53 bits, or whose exponent is the least one, -1074. -/
structure Binary64 where
  negative : Bool
  mantissa : Nat
  exponent : Int
  deriving DecidableEq, Repr

def roundHalfEven (n d : Nat) : Nat :=
  let q := n / d
  let twice := 2 * (n % d)
  if twice < d then q else if d < twice then q + 1 else q + q % 2

namespace Binary64

def zero (negative : Bool) : Binary64 := ⟨negative, 0, -1074⟩

def isZero (x : Binary64) : Bool := x.mantissa == 0

def withSign (negative : Bool) (x : Binary64) : Binary64 := { x with negative := negative }

def binade (n d : Nat) : Int :=
  let e : Int := (n.log2 : Int) - d.log2
  if n * Nat.pow 2 (-e).toNat < d * Nat.pow 2 e.toNat then e - 1 else e

def ofQuotient (n d : Nat) : Option Binary64 :=
  if n = 0 then some (zero false)
  else
    let q := max (binade n d - 52) (-1074)
    let m := roundHalfEven (n * Nat.pow 2 (-q).toNat) (d * Nat.pow 2 q.toNat)
    let (m, q) := if m = Nat.pow 2 53 then (Nat.pow 2 52, q + 1) else (m, q)
    if q > 971 then none else some ⟨false, m, q⟩

def ofNat (n : Nat) : Option Binary64 := ofQuotient n 1

def quotient (x : Binary64) : Nat × Nat :=
  (x.mantissa * Nat.pow 2 x.exponent.toNat, Nat.pow 2 (-x.exponent).toNat)

def mul (x y : Binary64) : Option Binary64 :=
  let (n, d) := x.quotient
  let (n', d') := y.quotient
  ofQuotient (n * n') (d * d')

def div (x y : Binary64) : Option Binary64 :=
  let (n, d) := x.quotient
  let (n', d') := y.quotient
  ofQuotient (n * d') (d * n')

def pow10 (k : Nat) : Option Binary64 := ofNat (Nat.pow 10 k)

def mulPow10 (x : Binary64) (k : Nat) : Option Binary64 := (pow10 k).bind x.mul

def divPow10 (x : Binary64) (k : Nat) : Option Binary64 := (pow10 k).bind x.div

/-- `m * 10 ^ e`, computed by one rounded step for each factor: `m` itself, then a power of ten up
to 308, and before that a division by `10 ^ 308` for as long as `e` lies below -308. A result
beyond the greatest finite number is none. -/
def scaled (m : Binary64) (e : Int) : Option Binary64 :=
  if e < -308 then
    if m.isZero then some m else (m.divPow10 308).bind (scaled · (e + 308))
  else if e < 0 then m.divPow10 (-e).toNat
  else if e ≤ 308 then m.mulPow10 e.toNat
  else if m.isZero then some m
  else none
termination_by (-e).toNat

def ofDecimal (negative : Bool) (significand : Nat) (e : Int) : Option Binary64 :=
  ((ofNat significand).bind (scaled · e)).map (withSign negative)

end Binary64

end ScmPlugins
