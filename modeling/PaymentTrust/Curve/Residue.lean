/-! Residues of a modulus as natural numbers below it. -/
namespace PaymentTrust.Residue

def sub (m a b : Nat) : Nat := (a + (m - b % m)) % m

def neg (m a : Nat) : Nat := sub m 0 a

def pow (m b e : Nat) : Nat :=
  if e = 0 then 1 % m
  else
    let half := pow m (b * b % m) (e / 2)
    if e % 2 = 1 then b * half % m else half
termination_by e

/-- The inverse for a prime modulus, by Fermat's theorem; zero has the inverse zero. -/
def inv (p a : Nat) : Nat := pow p a (p - 2)

end PaymentTrust.Residue
