import PaymentTrust.Bytes.Basic

/-! Keccak-256: the sponge over 1600 bits with rate 1088 and the padding byte `0x01`. -/
namespace PaymentTrust.Digest.Keccak

/-- Twenty-five lanes; lane `x, y` stands at `x + 5 * y`. -/
abbrev Lanes := Vector UInt64 25

private def lane (s : Lanes) (x y : Nat) : UInt64 :=
  s.get ⟨x % 5 + 5 * (y % 5), by omega⟩

private def build (f : Nat → Nat → UInt64) : Lanes :=
  Vector.ofFn fun i => f (i.val % 5) (i.val / 5)

private def rotateLeft (w : UInt64) (n : UInt64) : UInt64 :=
  if n = 0 then w else (w <<< n) ||| (w >>> (64 - n))

private def offsets : Vector UInt64 25 :=
  #v[0, 1, 62, 28, 27, 36, 44, 6, 55, 20, 3, 10, 43, 25, 39, 41, 45, 15, 21, 8, 18, 2, 61, 56, 14]

def theta (s : Lanes) : Lanes :=
  let column := Vector.ofFn fun x : Fin 5 =>
    lane s x 0 ^^^ lane s x 1 ^^^ lane s x 2 ^^^ lane s x 3 ^^^ lane s x 4
  let parity (x : Nat) : UInt64 := column.get ⟨x % 5, by omega⟩
  let effect := Vector.ofFn fun x : Fin 5 => parity (x + 4) ^^^ rotateLeft (parity (x + 1)) 1
  build fun x y => lane s x y ^^^ effect.get ⟨x % 5, by omega⟩

def rhoPi (s : Lanes) : Lanes :=
  build fun x y => rotateLeft (lane s (x + 3 * y) x) (lane offsets (x + 3 * y) x)

def chi (s : Lanes) : Lanes :=
  build fun x y => lane s x y ^^^ (~~~(lane s (x + 1) y) &&& lane s (x + 2) y)

private def roundConstants : List UInt64 := [
  0x0000000000000001, 0x0000000000008082, 0x800000000000808a, 0x8000000080008000,
  0x000000000000808b, 0x0000000080000001, 0x8000000080008081, 0x8000000000008009,
  0x000000000000008a, 0x0000000000000088, 0x0000000080008009, 0x000000008000000a,
  0x000000008000808b, 0x800000000000008b, 0x8000000000008089, 0x8000000000008003,
  0x8000000000008002, 0x8000000000000080, 0x000000000000800a, 0x800000008000000a,
  0x8000000080008081, 0x8000000000008080, 0x0000000080000001, 0x8000000080008008]

def permute (s : Lanes) : Lanes :=
  roundConstants.foldl
    (fun s k =>
      let s := chi (rhoPi (theta s))
      s.set 0 (s.get 0 ^^^ k))
    s

def rate : Nat := 136

/-- Adds a block to the first lanes, eight bytes a lane, least significant byte first. -/
def absorb (s : Lanes) (block : Bytes) : Lanes :=
  permute <| Vector.ofFn fun i =>
    s.get i ^^^ UInt64.ofNat (Bytes.toNatLE ((block.drop (8 * i.val)).take 8))

def padded (message : Bytes) : Bytes :=
  let gap := rate - message.length % rate
  if gap = 1 then message ++ [0x81]
  else message ++ 0x01 :: List.replicate (gap - 2) 0 ++ [0x80]

def absorbAll (s : Lanes) : (count : Nat) → Bytes → Lanes
  | 0, _ => s
  | count + 1, bytes => absorbAll (absorb s (bytes.take rate)) count (bytes.drop rate)

end Keccak

def keccak256 (message : Bytes) : Bytes :=
  let bytes := Keccak.padded message
  let s := Keccak.absorbAll (Vector.replicate 25 0) (bytes.length / Keccak.rate) bytes
  (s.toList.take 4).flatMap fun w => Bytes.ofNatLE 8 w.toNat

end PaymentTrust.Digest
