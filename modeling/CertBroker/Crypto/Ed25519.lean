import CertBroker.Crypto.Modular
import CertBroker.Crypto.Sha512

namespace CertBroker.Crypto.Ed25519

/-- The size of the field. -/
def p : Nat := 0x7fffffffffffffffffffffffffffffffffffffffffffffffffffffffffffffed

/-- The size of the group that the base point generates. -/
def order : Nat := 0x1000000000000000000000000000000014def9dea2f79cd65812631a5cf5d3ed

/-- The constant of the curve -x² + y² = 1 + d x² y². -/
def d : Nat := 0x52036cee2b6ffe738cc740797779e89800700a4d4141d8ab75eb4dca135978a3

/-- A square root of minus one. -/
def rootOfMinusOne : Nat := 0x2b8324804fc1df0b2b4d00993dfbd7a72f431806ad2fe478c4ee1b274a0ea0b0

def mul (a b : Nat) : Nat := a * b % p

def sub (a b : Nat) : Nat := subMod p a b

/-- A point in extended coordinates: x is X/Z, y is Y/Z, and T is XY/Z. -/
structure Point where
  x : Nat
  y : Nat
  z : Nat
  t : Nat
deriving DecidableEq

def neutral : Point := ⟨0, 1, 1, 0⟩

def ofAffine (x y : Nat) : Point := ⟨x, y, 1, mul x y⟩

def base : Point :=
  ofAffine 0x216936d3cd6e53fec0a4e231fdd6dc5c692cc7609525a7b2c9562d608f25d51a
    0x6666666666666666666666666666666666666666666666666666666666666658

def negate (q : Point) : Point := ⟨sub 0 q.x, q.y, q.z, sub 0 q.t⟩

/-- The sum of any two points, equal ones too. -/
def add (q r : Point) : Point :=
  let a := mul (sub q.y q.x) (sub r.y r.x)
  let b := mul (q.y + q.x) (r.y + r.x)
  let c := mul (mul 2 d) (mul q.t r.t)
  let e := mul 2 (mul q.z r.z)
  let f := sub b a
  let g := sub e c
  let h := (e + c) % p
  let i := (b + a) % p
  ⟨mul f g, mul h i, mul g h, mul f i⟩

/-- The multiple of a point, by doubling. -/
def times (k : Nat) (q : Point) : Point :=
  if k = 0 then neutral
  else
    let half := times (k / 2) (add q q)
    if k % 2 = 1 then add half q else half
termination_by k

/-- The bit above a coordinate. -/
def signBit : Nat := 1 <<< 255

/-- The highest bit of a coordinate. -/
def highBit : Nat := 1 <<< 254

/-- The y coordinate with the lowest bit of the x coordinate above it. -/
def encode (q : Point) : Bytes :=
  let inverse := inverseMod p q.z
  let x := mul q.x inverse
  let y := mul q.y inverse
  Bytes.toLittleEndian 32 (y + x % 2 * signBit)

/-- An x coordinate whose square is u/v. -/
def root? (u v : Nat) : Option Nat :=
  let v3 := mul v (mul v v)
  let v7 := mul v (mul v3 v3)
  let x := mul (mul u v3) (powMod p (mul u v7) ((p - 5) / 8))
  let square := mul v (mul x x)
  if square = u then some x
  else if square = sub 0 u then some (mul x rootOfMinusOne)
  else none

def decode? (bs : Bytes) : Option Point :=
  if bs.length ≠ 32 then none
  else
    let n := Bytes.ofLittleEndian bs
    let y := n % signBit % p
    let sign := n / signBit
    let y2 := mul y y
    (root? (sub y2 1) ((mul d y2 + 1) % p)).map fun x =>
      ofAffine (if x % 2 = sign then x else sub 0 x) y

def publicKey? (seed : Bytes) : Option Bytes :=
  if seed.length = 32 then
    let n := Bytes.ofLittleEndian ((Sha512.hash seed).take 32) % highBit
    some (encode (times (highBit + (n - n % 8)) base))
  else none

def verify (key message signature : Bytes) : Bool :=
  let r := signature.take 32
  let s := Bytes.ofLittleEndian (signature.drop 32)
  match decode? key with
  | none => false
  | some a =>
    if signature.length = 64 && s < order then
      let h := Bytes.ofLittleEndian (Sha512.hash (r ++ key ++ message)) % order
      encode (add (times s base) (times h (negate a))) = r
    else false

end CertBroker.Crypto.Ed25519
