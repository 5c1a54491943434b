import CertBroker.Crypto.Ecdsa
import CertBroker.Crypto.Ed25519
import CertBroker.Crypto.Rsa
import CertBroker.Time
import CertBroker.X509.Extension

namespace CertBroker.X509

open Der

/-- What makes up a chain: the names as they are encoded, the subject's key, and the signature. -/
structure Certificate where
  issuer : Name
  subject : Name
  key : PublicKey
  /-- The part that is signed, as encoded. -/
  signedPart : Bytes
  algorithm : Algorithm
  signature : Bytes
deriving DecidableEq

def pair? (a b : UInt8) : Option Nat :=
  if 48 ≤ a.toNat && a.toNat ≤ 57 && 48 ≤ b.toNat && b.toNat ≤ 57 then
    some ((a.toNat - 48) * 10 + (b.toNat - 48))
  else none

/-- Two digits, if at least two bytes are left. -/
def optionalPair? : Bytes → Option (Nat × Bytes)
  | a :: b :: rest => (pair? a b).map (·, rest)
  | rest => some (0, rest)

/-- The letter Z, or a sign, hours and minutes. -/
def isZone (bs : Bytes) : Bool :=
  match bs with
  | [z] => z = 90
  | [s, a, b, c, d] =>
    (s = 43 || s = 45) && (pair? a b).any (· ≤ 25) && (pair? c d).any (· ≤ 59)
  | _ => false

/-- Whether a date and a time of day exist. -/
def isMoment (year month day hour minute second : Nat) : Bool :=
  Date.isValid ⟨year, month, day⟩ && hour ≤ 23 && minute ≤ 59 && second ≤ 59

/-- A time with a year of two digits, which count from 1950. -/
def isShortTime (bs : Bytes) : Bool :=
  match bs with
  | a :: b :: c :: d :: e :: f :: g :: h :: i :: j :: rest =>
    let read : Option Bool := do
      let year ← pair? a b
      let month ← pair? c d
      let day ← pair? e f
      let hour ← pair? g h
      let minute ← pair? i j
      let (second, zone) ← optionalPair? rest
      return isMoment (if year ≥ 50 then 1900 + year else 2000 + year) month day hour minute second
        && isZone zone
    read.getD false
  | _ => false

/-- A fraction of one to three digits, then a zone or nothing. -/
def isFractionAndZone (bs : Bytes) : Bool :=
  match bs with
  | [] => true
  | mark :: rest =>
    if mark = 46 || mark = 44 then
      let digits := rest.takeWhile fun b => 48 ≤ b.toNat && b.toNat ≤ 57
      let zone := rest.drop digits.length
      !rest.isEmpty && digits.length ≤ 3 && (zone.isEmpty || isZone zone)
    else isZone bs

/-- A time with a year of four digits. -/
def isLongTime (bs : Bytes) : Bool :=
  match bs with
  | a :: b :: c :: d :: e :: f :: g :: h :: i :: j :: rest =>
    let read : Option Bool := do
      let century ← pair? a b
      let year ← pair? c d
      let month ← pair? e f
      let day ← pair? g h
      let hour ← pair? i j
      if rest.isEmpty then none
      let (minute, rest) ← optionalPair? rest
      if rest.isEmpty then none
      let (second, rest) ← optionalPair? rest
      return isMoment (century * 100 + year) month day hour minute second && isFractionAndZone rest
    read.getD false
  | _ => false

def isVisible (b : UInt8) : Bool := 32 ≤ b.toNat && b.toNat ≤ 127

def moment : Reader Unit := do
  let e ← element
  if e.contents.all isVisible
      && ((e.tag = utcTimeTag && isShortTime e.contents)
        || (e.tag = generalizedTimeTag && isLongTime e.contents)) then
    return ()
  else fail

def validity : Reader Unit := inSequence do
  moment
  moment

/-- An explicitly tagged version. -/
def version : Reader Unit := do
  let _ ← ifContext 0 do
    let e ← element
    match (uint32.run e.contents : Option (Nat × Bytes)) with
    | some _ => return ()
    | none => fail

/-- A unique identifier. -/
def uniqueId (number : Nat) : Reader Unit := do
  let _ ← ifContext number do
    let e ← element
    match bits? e.contents with
    | some _ => return ()
    | none => fail

/-- Extensions at the end: a header of tag 3, then one list of them and nothing else. -/
def certificateExtensions : Reader Unit := do
  if ← atEnd then return ()
  let h ← header
  if h.tag ≠ 3 then fail
  else do
    let _ ← whole extensions
    return ()

/-- The signed part: issuer, subject and the subject's key. -/
def signedFields : Reader (Name × Name × PublicKey) := do
  version
  let _ ← contents integerTag
  let _ ← algorithm
  let issuer ← name
  validity
  let subject ← name
  let key ← publicKey
  uniqueId 1
  uniqueId 2
  certificateExtensions
  return (issuer, subject, key)

def certificate : Reader Certificate := inSequence do
  let ((issuer, subject, key), signedPart) ← within sequenceTag signedFields
  let algorithm ← algorithm
  return { issuer, subject, key, signedPart, algorithm, signature := ← bitString }

namespace Certificate

/-- Reads a certificate from DER; bytes after it are ignored. -/
def ofDer? (bs : Bytes) : Option Certificate := (certificate.run bs : Option _).map (·.1)

/-- Whether the issuer of one is the subject of the other, byte for byte. -/
def isIssuedBy (c issuer : Certificate) : Bool := c.issuer.raw == issuer.subject.raw

/-- The beginning of the identifiers of RSA signatures. -/
def rsaFamily : Bytes := [0x2a, 0x86, 0x48, 0x86, 0xf7, 0x0d, 0x01, 0x01]

/-- The beginning of the identifiers of ECDSA signatures with SHA-2. -/
def ecdsaFamily : Bytes := [0x2a, 0x86, 0x48, 0xce, 0x3d, 0x04, 0x03]

def ed25519Id : Bytes := [0x2b, 0x65, 0x70]

/-- An older identifier of RSA signatures with SHA-1. -/
def oldSha1Id : Bytes := [0x2b, 0x0e, 0x03, 0x02, 0x1d]

def p256Id : Bytes := [0x2a, 0x86, 0x48, 0xce, 0x3d, 0x03, 0x01, 0x07]

def p384Id : Bytes := [0x2b, 0x81, 0x04, 0x00, 0x22]

/-- The curve that the parameters of a key name. -/
def curve? (key : PublicKey) : Option Crypto.Ecdsa.Curve :=
  match key.algorithm.parameters with
  | some e =>
    if e.tag ≠ oidTag then none
    else if e.contents = p256Id then some Crypto.Ecdsa.p256
    else if e.contents = p384Id then some Crypto.Ecdsa.p384
    else none
  | none => none

/-- Verifies on the curve of the key, which is free of the hash function. -/
def verifyEcdsa (key : PublicKey) (digest signature : Bytes) : Bool :=
  match curve? key with
  | some c => Crypto.Ecdsa.verify c key.key digest signature
  | none => false

/-- Whether the signature is one of this key; the algorithm is the one the certificate names. -/
def isSignedWith (c : Certificate) (key : PublicKey) : Bool :=
  let id := c.algorithm.id
  let rsa (d : Crypto.Rsa.Digest) (leastBits : Nat) : Bool :=
    Crypto.Rsa.verify d leastBits key.key c.signedPart c.signature
  if id = rsaFamily ++ [5] || id = oldSha1Id then rsa Crypto.Rsa.sha1 1024
  else if id = rsaFamily ++ [11] then rsa Crypto.Rsa.sha256 2048
  else if id = rsaFamily ++ [12] then rsa Crypto.Rsa.sha384 2048
  else if id = rsaFamily ++ [13] then rsa Crypto.Rsa.sha512 2048
  else if id = ecdsaFamily ++ [2] then
    verifyEcdsa key (Crypto.Sha256.hash c.signedPart) c.signature
  else if id = ecdsaFamily ++ [3] then
    verifyEcdsa key (Crypto.Sha512.hash384 c.signedPart) c.signature
  else if id = ed25519Id then Crypto.Ed25519.verify key.key c.signedPart c.signature
  else false

/-- Issued by itself, with a valid signature. -/
def isSelfSigned (c : Certificate) : Bool := c.isIssuedBy c && c.isSignedWith c.key

end Certificate

end CertBroker.X509
