import CertBroker.Crypto.IntegerPair
import CertBroker.Crypto.Modular
import CertBroker.Crypto.Sha1
import CertBroker.Crypto.Sha256
import CertBroker.Crypto.Sha512

namespace CertBroker.Crypto.Rsa

structure Key where
  modulus : Nat
  exponent : Nat
deriving DecidableEq

/-- A hash function with the bytes that announce its digest. -/
structure Digest where
  announcement : Bytes
  hash : Bytes → Bytes

def sha1 : Digest where
  announcement := [0x30, 0x21, 0x30, 0x09, 0x06, 0x05, 0x2b, 0x0e, 0x03, 0x02, 0x1a, 0x05, 0x00,
    0x04, 0x14]
  hash := Sha1.hash

/-- The announcement of a digest of the SHA-2 family. -/
def sha2Announcement (number size : UInt8) : Bytes :=
  [0x30, size + 17, 0x30, 0x0d, 0x06, 0x09, 0x60, 0x86, 0x48, 0x01, 0x65, 0x03, 0x04, 0x02, number,
    0x05, 0x00, 0x04, size]

def sha256 : Digest := ⟨sha2Announcement 1 32, Sha256.hash⟩

def sha384 : Digest := ⟨sha2Announcement 2 48, Sha512.hash384⟩

def sha512 : Digest := ⟨sha2Announcement 3 64, Sha512.hash⟩

def bitLength (n : Nat) : Nat := if n = 0 then 0 else n.log2 + 1

/-- The bytes that hold a modulus. -/
def Key.size (k : Key) : Nat := (bitLength k.modulus + 7) / 8

/-- Whether a key is one to verify with: odd parts, a modulus of at least `leastBits` bits when
rounded up to bytes and at most 8192 bits, an exponent of at least 3 and at most 33 bits. -/
def Key.isUsable (k : Key) (leastBits : Nat) : Bool :=
  k.modulus % 2 = 1 && leastBits ≤ 8 * k.size && bitLength k.modulus ≤ 8192
    && k.exponent % 2 = 1 && 3 ≤ k.exponent && k.exponent < 8589934592

/-- A digest as it is signed: 00 01, a filling of FF, 00, the announcement, the digest. -/
def encoded (d : Digest) (size : Nat) (message : Bytes) : Bytes :=
  let tail := d.announcement ++ d.hash message
  0 :: 1 :: List.replicate (size - 3 - tail.length) 255 ++ 0 :: tail

def verify (d : Digest) (leastBits : Nat) (key message signature : Bytes) : Bool :=
  match integerPair? key with
  | none => false
  | some (modulus, exponent) =>
    let k : Key := ⟨modulus, exponent⟩
    let s := Bytes.ofBigEndian signature
    k.isUsable leastBits && signature.length = k.size && 0 < s && s < modulus
      && Bytes.toBigEndian k.size (powMod modulus s exponent) = encoded d k.size message

end CertBroker.Crypto.Rsa
