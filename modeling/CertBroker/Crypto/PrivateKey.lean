import CertBroker.Crypto.Ecdsa
import CertBroker.Crypto.Ed25519
import CertBroker.Crypto.Rsa

namespace CertBroker.Crypto.PrivateKey

open Der

/-- The forms of private keys. -/
inductive Form where
  /-- Any kind of key under the name of its algorithm. -/
  | named
  | rsa
  | ellipticCurve
deriving DecidableEq, Repr

def rsaName : Bytes :=
  [0x06, 0x09, 0x2a, 0x86, 0x48, 0x86, 0xf7, 0x0d, 0x01, 0x01, 0x01, 0x05, 0x00]

def ed25519Name : Bytes := [0x06, 0x03, 0x2b, 0x65, 0x70]

/-- A curve, and its identifier as an element. -/
structure NamedCurve where
  curve : Ecdsa.Curve
  id : Bytes

def p256 : NamedCurve where
  curve := Ecdsa.p256
  id := [0x06, 0x08, 0x2a, 0x86, 0x48, 0xce, 0x3d, 0x03, 0x01, 0x07]

def p384 : NamedCurve where
  curve := Ecdsa.p384
  id := [0x06, 0x05, 0x2b, 0x81, 0x04, 0x00, 0x22]

def curves : List NamedCurve := [p256, p384]

def NamedCurve.name (c : NamedCurve) : Bytes :=
  [0x06, 0x07, 0x2a, 0x86, 0x48, 0xce, 0x3d, 0x02, 0x01] ++ c.id

/-- A public key under the name of its algorithm. -/
def described (name key : Bytes) : Bytes :=
  Strict.tagged 0x30 name ++ Strict.tagged 0x03 (0 :: key)

structure RsaKey where
  publicPart : Rsa.Key
  exponent : Nat
  p : Nat
  q : Nat
  /-- The exponent modulo `p - 1`. -/
  exponentP : Nat
  /-- The exponent modulo `q - 1`. -/
  exponentQ : Nat
  /-- The inverse of `q` modulo `p`. -/
  coefficient : Nat
deriving DecidableEq

def rsaKey : Reader RsaKey := Strict.within 0x30 do
  if (← Strict.small) ≠ 0 then fail
  let modulus ← Strict.positive
  let publicExponent ← Strict.positive
  return {
    publicPart := ⟨modulus, publicExponent⟩
    exponent := ← Strict.positive
    p := ← Strict.positive
    q := ← Strict.positive
    exponentP := ← Strict.positive
    exponentQ := ← Strict.positive
    coefficient := ← Strict.positive }

/-- A prime has half the bits of the modulus, in whole blocks of 512, and the exponent for it is
odd and smaller. -/
def isFactor (bits prime exponent : Nat) : Bool :=
  Rsa.bitLength prime = (bits + 1) / 2 && Rsa.bitLength prime % 512 = 0 && prime % 2 = 1
    && exponent % 2 = 1 && exponent < prime

/-- Whether the parts are of fitting sizes and belong together. -/
def RsaKey.isSound (k : RsaKey) : Bool :=
  let bits := Rsa.bitLength k.publicPart.modulus
  k.publicPart.isUsable 2048 && bits ≤ 4096 && 65537 ≤ k.publicPart.exponent
    && isFactor bits k.p k.exponentP && isFactor bits k.q k.exponentQ
    && k.q < k.p && k.p * k.q = k.publicPart.modulus
    && (bits + 1) / 2 < Rsa.bitLength k.exponent && k.exponent < k.publicPart.modulus
    && k.exponent % 2 = 1 && k.coefficient < k.p && k.coefficient * k.q % k.p = 1

def rsaPublic : Reader Bytes := do
  let k ← rsaKey
  if k.isSound then
    return described rsaName (integerPairBytes k.publicPart.modulus k.publicPart.exponent)
  else fail

/-- The curve may be named, and the public key has to stand there too. -/
def curvePublic (c : NamedCurve) : Reader Bytes := Strict.within 0x30 do
  if (← Strict.small) ≠ 1 then fail
  let secret ← Strict.element 0x04
  if ← Strict.nextIs 0xa0 then
    if (← Strict.element 0xa0) ≠ c.id then fail
  let key ← Strict.within 0xa1 Strict.bits
  if c.curve.publicKey? secret = some key then return described c.name key else fail

def seedPublic : Reader Bytes := do
  let seed ← Strict.element 0x04
  match Ed25519.publicKey? seed with
  | some key => return described ed25519Name key
  | none => fail

/-- The contents of a named key. -/
structure Named where
  version : Nat
  algorithm : Bytes
  secret : Bytes
  /-- The public key that versions from 1 on carry. -/
  claimed : Option Bytes
deriving DecidableEq

def named : Reader Named := Strict.within 0x30 do
  let version ← Strict.small
  let algorithm ← Strict.element 0x30
  let secret ← Strict.element 0x04
  if ← Strict.nextIs 0xa0 then
    let _ ← Strict.element 0xa0
  if version = 0 then return { version, algorithm, secret, claimed := none }
  else if ← Strict.nextIs 0xa1 then
    return { version, algorithm, secret, claimed := some (← Strict.within 0xa1 Strict.bits) }
  else return { version, algorithm, secret, claimed := some (← Strict.bitsOf 0x81) }

/-- The public key of a named one. Only keys of the last family may be of version 1. -/
def Named.publicKey? (k : Named) : Option Bytes :=
  if k.algorithm = rsaName then
    if k.version = 0 then Strict.readAll? rsaPublic k.secret else none
  else if k.algorithm = ed25519Name then
    match Strict.readAll? seedPublic k.secret with
    | some key =>
      if k.version ≤ 1 && k.claimed.all (described ed25519Name · = key) then some key
      else none
    | none => none
  else match curves.find? (·.name = k.algorithm) with
    | some c => if k.version = 0 then Strict.readAll? (curvePublic c) k.secret else none
    | none => none

def publicKey? (form : Form) (bs : Bytes) : Option Bytes :=
  match form with
  | .named => (Strict.readAll? named bs).bind Named.publicKey?
  | .rsa => Strict.readAll? rsaPublic bs
  | .ellipticCurve => curves.findSome? fun c => Strict.readAll? (curvePublic c) bs

end CertBroker.Crypto.PrivateKey
