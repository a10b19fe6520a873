import PaymentTrust.Bytes.Basic
import PaymentTrust.Curve.Residue

/-! The twisted Edwards curve `-x² + y² = 1 + d x² y²` over the field of `2^255 - 19` elements. -/
namespace PaymentTrust.Edwards

def topBit : Nat := Nat.pow 2 255

def p : Nat := topBit - 19

/-- The order of the base point; the curve has eight times as many points. -/
def order : Nat := Nat.pow 2 252 + 27742317777372353535851937790883648493

def d : Nat := 0x52036cee2b6ffe738cc740797779e89800700a4d4141d8ab75eb4dca135978a3

def rootOfMinusOne : Nat := 0x2b8324804fc1df0b2b4d00993dfbd7a72f431806ad2fe478c4ee1b274a0ea0b0

/-- Stands for the affine point `x / z, y / z`; `t` is their product times `z`. -/
structure Point where
  x : Nat
  y : Nat
  z : Nat
  t : Nat

def identity : Point := ⟨0, 1, 1, 0⟩

def base : Point :=
  let x := 0x216936d3cd6e53fec0a4e231fdd6dc5c692cc7609525a7b2c9562d608f25d51a
  let y := 0x6666666666666666666666666666666666666666666666666666666666666658
  ⟨x, y, 1, x * y % p⟩

/-- Holds of all pairs of points, also of equal ones. -/
def add (q r : Point) : Point :=
  let a := Residue.sub p q.y q.x * Residue.sub p r.y r.x % p
  let b := (q.y + q.x) * (r.y + r.x) % p
  let c := 2 * d * (q.t * r.t % p) % p
  let e := 2 * (q.z * r.z) % p
  let f := Residue.sub p b a
  let g := Residue.sub p e c
  let h := (e + c) % p
  let i := (b + a) % p
  ⟨f * g % p, h * i % p, g * h % p, f * i % p⟩

def neg (q : Point) : Point := ⟨Residue.neg p q.x, q.y, q.z, Residue.neg p q.t⟩

def scale (k : Nat) (q : Point) : Point :=
  if k = 0 then identity
  else
    let rest := scale (k / 2) (add q q)
    if k % 2 = 1 then add q rest else rest
termination_by k

/-- The ordinate, least significant byte first, with the parity of the abscissa in the top bit. -/
def encode (q : Point) : Bytes :=
  let i := Residue.inv p q.z
  Bytes.ofNatLE 32 (q.y * i % p + q.x * i % p % 2 * topBit)

/-- The point that 32 bytes encode. The ordinate is taken modulo the prime, and the sign bit of a
zero abscissa is disregarded. -/
def decode? (bytes : Bytes) : Option Point :=
  let n := Bytes.toNatLE bytes
  let y := n % topBit % p
  let u := Residue.sub p (y * y) 1
  let v := (y * y % p * d + 1) % p
  let v3 := v * v % p * v % p
  let root := u * v3 % p * Residue.pow p (u * (v3 * v3 % p * v % p) % p) ((p - 5) / 8) % p
  let check := v * (root * root % p) % p
  let x? :=
    if check = u then some root
    else if check = Residue.neg p u then some (root * rootOfMinusOne % p)
    else none
  x?.map fun x =>
    let x := if x % 2 = n / topBit % 2 then x else Residue.neg p x
    ⟨x, y, 1, x * y % p⟩

def isSmallOrder (q : Point) : Bool :=
  let r := scale 8 q
  r.x == 0 && r.y == r.z

end PaymentTrust.Edwards
