import CertBroker.Crypto.IntegerPair
import CertBroker.Crypto.Modular

namespace CertBroker.Crypto.Ecdsa

/-- A curve y² = x³ - 3x + b over a prime field. -/
structure Curve where
  /-- The size of the field. -/
  p : Nat
  b : Nat
  /-- A point that generates the group. -/
  gx : Nat
  gy : Nat
  /-- The size of the group. -/
  n : Nat
  /-- The bytes of a coordinate. -/
  size : Nat

def p256 : Curve where
  p := 0xffffffff00000001000000000000000000000000ffffffffffffffffffffffff
  b := 0x5ac635d8aa3a93e7b3ebbd55769886bc651d06b0cc53b0f63bce3c3e27d2604b
  gx := 0x6b17d1f2e12c4247f8bce6e563a440f277037d812deb33a0f4a13945d898c296
  gy := 0x4fe342e2fe1a7f9b8ee7eb4a7c0f9e162bce33576b315ececbb6406837bf51f5
  n := 0xffffffff00000000ffffffffffffffffbce6faada7179e84f3b9cac2fc632551
  size := 32

def p384 : Curve where
  p := 0xfffffffffffffffffffffffffffffffffffffffffffffffffffffffffffffffeffffffff0000000000000000ffffffff
  b := 0xb3312fa7e23ee7e4988e056be3f82d19181d9c6efe8141120314088f5013875ac656398d8a2ed19d2a85c8edd3ec2aef
  gx := 0xaa87ca22be8b05378eb1c71ef320ad746e1d3b628ba79b9859f741e082542a385502f25dbf55296c3a545e3872760ab7
  gy := 0x3617de4a96262c6f5d9e98bf9292dc29f8f41dbd289a147ce9da3113b5f0b8c00a60b1ce1d7e819d7a431d7c90ea0e5f
  n := 0xffffffffffffffffffffffffffffffffffffffffffffffffc7634d81f4372ddf581a0db248b0a77aecec196accc52973
  size := 48

/-- A point in Jacobian coordinates: x is X/Z² and y is Y/Z³; Z is zero at infinity. -/
structure Point where
  x : Nat
  y : Nat
  z : Nat
deriving DecidableEq

namespace Curve

variable (c : Curve)

def infinity : Point := ⟨1, 1, 0⟩

def generator : Point := ⟨c.gx, c.gy, 1⟩

def mul (a b : Nat) : Nat := a * b % c.p

def sub (a b : Nat) : Nat := subMod c.p a b

/-- Whether coordinates are those of a point of the curve. -/
def contains (x y : Nat) : Bool :=
  x < c.p && y < c.p && (y * y) % c.p = (x * x * x + c.p * 3 - 3 * x + c.b) % c.p

def double (q : Point) : Point :=
  if q.z = 0 || q.y = 0 then infinity
  else
    let y2 := c.mul q.y q.y
    let z2 := c.mul q.z q.z
    let s := c.mul 4 (c.mul q.x y2)
    let m := c.mul 3 (c.mul (c.sub q.x z2) ((q.x + z2) % c.p))
    let x := c.sub (c.mul m m) (2 * s % c.p)
    ⟨x, c.sub (c.mul m (c.sub s x)) (c.mul 8 (c.mul y2 y2)), c.mul 2 (c.mul q.y q.z)⟩

def add (q r : Point) : Point :=
  if q.z = 0 then r
  else if r.z = 0 then q
  else
    let qz2 := c.mul q.z q.z
    let rz2 := c.mul r.z r.z
    let u1 := c.mul q.x rz2
    let u2 := c.mul r.x qz2
    let s1 := c.mul q.y (c.mul rz2 r.z)
    let s2 := c.mul r.y (c.mul qz2 q.z)
    if u1 = u2 then if s1 = s2 then c.double q else infinity
    else
      let h := c.sub u2 u1
      let w := c.sub s2 s1
      let h2 := c.mul h h
      let h3 := c.mul h2 h
      let v := c.mul u1 h2
      let x := c.sub (c.sub (c.mul w w) h3) (2 * v % c.p)
      ⟨x, c.sub (c.mul w (c.sub v x)) (c.mul s1 h3), c.mul h (c.mul q.z r.z)⟩

/-- The multiple of a point, by doubling. -/
def times (k : Nat) (q : Point) : Point :=
  if k = 0 then infinity
  else
    let half := times (k / 2) (c.double q)
    if k % 2 = 1 then c.add half q else half
termination_by k

/-- The coordinates of a point that is not at infinity. -/
def affine? (q : Point) : Option (Nat × Nat) :=
  if q.z = 0 then none
  else
    let inverse := inverseMod c.p q.z
    let inverse2 := c.mul inverse inverse
    some (c.mul q.x inverse2, c.mul q.y (c.mul inverse inverse2))

/-- Writes coordinates in the uncompressed form. -/
def encode (x y : Nat) : Bytes := 4 :: Bytes.toBigEndian c.size x ++ Bytes.toBigEndian c.size y

/-- The public key of a secret number, in the uncompressed form. -/
def publicKey? (secret : Bytes) : Option Bytes :=
  let k := Bytes.ofBigEndian secret
  if secret.length = c.size && 0 < k && k < c.n then
    (c.affine? (c.times k c.generator)).map fun (x, y) => c.encode x y
  else none

/-- A point in the uncompressed form. -/
def point? (bs : Bytes) : Option Point :=
  match bs with
  | form :: rest =>
    let x := Bytes.ofBigEndian (rest.take c.size)
    let y := Bytes.ofBigEndian (rest.drop c.size)
    if form = 4 && rest.length = 2 * c.size && c.contains x y then some ⟨x, y, 1⟩ else none
  | [] => none

end Curve

/-- Whether a signature belongs to a message with this digest. A digest longer than the group's
size counts with its first bytes. -/
def verify (c : Curve) (key digest signature : Bytes) : Bool :=
  match c.point? key, integerPair? signature with
  | some q, some (r, s) =>
    if r < c.n && s < c.n then
      let e := Bytes.ofBigEndian (digest.take c.size)
      let w := inverseMod c.n s
      let sum := c.add (c.times (e * w % c.n) c.generator) (c.times (r * w % c.n) q)
      (c.affine? sum).any fun (x, _) => x % c.n = r
    else false
  | _, _ => false

end CertBroker.Crypto.Ecdsa
