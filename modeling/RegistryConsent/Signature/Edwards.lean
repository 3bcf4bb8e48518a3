/-!
# The group of Ed25519

The points of the twisted Edwards curve -x² + y² = 1 + d x² y² over the integers modulo 2²⁵⁵ - 19,
in extended coordinates. The law of addition has no exceptional cases, since d is not a square.
-/

namespace RegistryConsent.Edwards

/-- The characteristic of the field. -/
def prime : Nat := 1 <<< 255 - 19

/-- The characteristic is not zero. -/
instance : @NeZero Nat Zero.ofOfNat0 prime := ⟨by decide⟩

/-- The integers modulo the characteristic. -/
abbrev Field := Fin prime

/-- A power, by repeated squaring. -/
def power (x : Field) (n : Nat) : Field :=
  if n = 0 then 1
  else
    let half := power (x * x) (n / 2)
    if n % 2 = 1 then x * half else half
termination_by n

/-- The inverse of an element other than zero. -/
def inverse (x : Field) : Field := power x (prime - 2)

/-- The constant d of the curve: -121665 / 121666. -/
def d : Field := (0 - 121665) * inverse 121666

/-- Twice the constant of the curve, which the law of addition needs. -/
def doubleD : Field := d + d

/-- A square root of -1. -/
def rootOfMinusOne : Field := power 2 ((prime - 1) / 4)

/-- A root of `u / v`, if it has one. -/
def squareRootRatio? (u v : Field) : Option Field :=
  let candidate := u * power v 3 * power (u * power v 7) ((prime - 5) / 8)
  let check := v * candidate * candidate
  if check = u then some candidate
  else if check = 0 - u then some (candidate * rootOfMinusOne)
  else none

/-- A point in extended coordinates: `x = X / Z`, `y = Y / Z` and `x * y = T / Z`. -/
structure Point where
  X : Field
  Y : Field
  Z : Field
  T : Field

namespace Point

/-- The neutral element. -/
def zero : Point := ⟨0, 1, 1, 0⟩

/-- The point with the given affine coordinates. -/
def affine (x y : Field) : Point := ⟨x, y, 1, x * y⟩

/-- The sum of two points. -/
def add (p q : Point) : Point :=
  let a := (p.Y - p.X) * (q.Y - q.X)
  let b := (p.Y + p.X) * (q.Y + q.X)
  let c := p.T * doubleD * q.T
  let z := p.Z * q.Z + p.Z * q.Z
  ⟨(b - a) * (z - c), (z + c) * (b + a), (z - c) * (z + c), (b - a) * (b + a)⟩

/-- The inverse of a point. -/
def negate (p : Point) : Point := ⟨0 - p.X, p.Y, p.Z, 0 - p.T⟩

/-- A multiple of a point, by repeated doubling. -/
def multiply (n : Nat) (p : Point) : Point :=
  if n = 0 then zero
  else
    let half := multiply (n / 2) (add p p)
    if n % 2 = 1 then add p half else half
termination_by n

end Point

/-- The order of the base point. -/
def order : Nat := 1 <<< 252 + 27742317777372353535851937790883648493

/-- The `x` of a point with the given `y` whose lowest bit is as asked for, if there is one; the
`x` that is zero serves both bits. -/
def xOfY? (y : Field) (odd : Bool) : Option Field :=
  (squareRootRatio? (y * y - 1) (d * y * y + 1)).map fun x =>
    if (x.val % 2 == 1) == odd then x else 0 - x

/-- The base point: the one with `y = 4 / 5` and even `x`. -/
def base : Point :=
  let y := 4 * inverse 5
  .affine ((xOfY? y false).getD 0) y

end RegistryConsent.Edwards
