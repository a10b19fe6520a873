import PaymentTrust.Bytes.Basic
import PaymentTrust.Curve.Residue

/-! Short Weierstrass curves `y² = x³ + ax + b` of prime order over a prime field, and the two of
them that sign payments: P-256 and secp256k1. -/
namespace PaymentTrust

structure Weierstrass where
  p : Nat
  a : Nat
  b : Nat
  order : Nat
  gx : Nat
  gy : Nat

namespace Weierstrass

inductive Point where
  | infinity
  | affine (x y : Nat)
  deriving DecidableEq, Repr

/-- Stands for the affine point `x / z², y / z³`, or for infinity when `z` is zero. -/
structure Jacobian where
  x : Nat
  y : Nat
  z : Nat

variable (C : Weierstrass)

def generator : Point := .affine C.gx C.gy

def cubic (x : Nat) : Nat := (x * x % C.p * x + C.a * x + C.b) % C.p

def isOnCurve (x y : Nat) : Bool :=
  x < C.p && y < C.p && y * y % C.p == C.cubic x

/-- The point with this `x` whose `y` has the asked parity. Both primes here are 3 modulo 4, where
a root of a square is its power `(p + 1) / 4`. -/
def lift? (x : Nat) (odd : Bool) : Option Point :=
  if x < C.p then
    let square := C.cubic x
    let root := Residue.pow C.p square ((C.p + 1) / 4)
    if root * root % C.p = square then
      if root % 2 = odd.toNat then some (.affine x root)
      else some (.affine x (Residue.neg C.p root))
    else none
  else none

def Point.toJacobian : Point → Jacobian
  | .infinity => ⟨1, 1, 0⟩
  | .affine x y => ⟨x, y, 1⟩

def toAffine (q : Jacobian) : Point :=
  if q.z = 0 then .infinity
  else
    let i := Residue.inv C.p q.z
    let i2 := i * i % C.p
    .affine (q.x * i2 % C.p) (q.y * (i2 * i % C.p) % C.p)

def double (q : Jacobian) : Jacobian :=
  let p := C.p
  let yy := q.y * q.y % p
  let zz := q.z * q.z % p
  let s := 4 * (q.x * yy) % p
  let m := (3 * (q.x * q.x) + C.a * (zz * zz % p)) % p
  let x := Residue.sub p (m * m) (2 * s)
  ⟨x, Residue.sub p (m * Residue.sub p s x) (8 * (yy * yy)), 2 * (q.y * q.z) % p⟩

def add (q r : Jacobian) : Jacobian :=
  if q.z = 0 then r
  else if r.z = 0 then q
  else
    let p := C.p
    let zz1 := q.z * q.z % p
    let zz2 := r.z * r.z % p
    let u1 := q.x * zz2 % p
    let u2 := r.x * zz1 % p
    let s1 := q.y * (zz2 * r.z % p) % p
    let s2 := r.y * (zz1 * q.z % p) % p
    if u1 = u2 then
      if s1 = s2 then C.double q else ⟨1, 1, 0⟩
    else
      let h := Residue.sub p u2 u1
      let hh := h * h % p
      let hhh := hh * h % p
      let slope := Residue.sub p s2 s1
      let v := u1 * hh % p
      let x := Residue.sub p (slope * slope) (hhh + 2 * v)
      ⟨x, Residue.sub p (slope * Residue.sub p v x) (s1 * hhh), h * (q.z * r.z % p) % p⟩

def scale (k : Nat) (q : Jacobian) : Jacobian :=
  if k = 0 then ⟨1, 1, 0⟩
  else
    let rest := scale (k / 2) (C.double q)
    if k % 2 = 1 then C.add q rest else rest
termination_by k

def combine (u v : Nat) (q : Point) : Point :=
  C.toAffine (C.add (C.scale u C.generator.toJacobian) (C.scale v q.toJacobian))

/-- The ECDSA equation for a digest read as a number: `r` is the abscissa, modulo the order, of
the combination that `s` determines. -/
def ecdsaHolds (digest r s : Nat) (key : Point) : Bool :=
  let n := C.order
  let w := Residue.inv n s
  match C.combine (digest * w % n) (r * w % n) key with
  | .infinity => false
  | .affine x _ => x % n == r

/-- The key under which `r, s` signs the digest when the nonce's point has abscissa `r` and an
ordinate of the given parity. -/
def ecdsaRecover? (digest r s : Nat) (odd : Bool) : Option Point :=
  let n := C.order
  match C.lift? r odd with
  | some nonce =>
    let w := Residue.inv n r
    match C.combine (Residue.neg n (digest * w % n)) (s * w % n) nonce with
    | .infinity => none
    | key => some key
  | none => none

end Weierstrass

def p256 : Weierstrass where
  p := 0xffffffff00000001000000000000000000000000ffffffffffffffffffffffff
  a := 0xffffffff00000001000000000000000000000000fffffffffffffffffffffffc
  b := 0x5ac635d8aa3a93e7b3ebbd55769886bc651d06b0cc53b0f63bce3c3e27d2604b
  order := 0xffffffff00000000ffffffffffffffffbce6faada7179e84f3b9cac2fc632551
  gx := 0x6b17d1f2e12c4247f8bce6e563a440f277037d812deb33a0f4a13945d898c296
  gy := 0x4fe342e2fe1a7f9b8ee7eb4a7c0f9e162bce33576b315ececbb6406837bf51f5

def secp256k1 : Weierstrass where
  p := 0xfffffffffffffffffffffffffffffffffffffffffffffffffffffffefffffc2f
  a := 0
  b := 7
  order := 0xfffffffffffffffffffffffffffffffebaaedce6af48a03bbfd25e8cd0364141
  gx := 0x79be667ef9dcbbac55a06295ce870b07029bfcdb2dce28d959f2815b16f81798
  gy := 0x483ada7726a3c4655da4fbfc0e1108a8fd17b448a68554199c47d08ffb10d4b8

end PaymentTrust
