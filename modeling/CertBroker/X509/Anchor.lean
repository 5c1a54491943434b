import CertBroker.Der.Strict

namespace CertBroker.X509.Anchor

open Der

structure Extension where
  id : Bytes
  critical : Bool
  value : Bytes
deriving DecidableEq

/-- A truth value, false if missing. -/
def flag : Reader Bool := do
  if ← Strict.nextIs 0x01 then
    match ← Strict.element 0x01 with
    | [0x00] => return false
    | [0xff] => return true
    | _ => fail
  else return false

def extension : Reader Extension := Strict.within 0x30 do
  let id ← Strict.element 0x06
  let critical ← flag
  return { id, critical, value := ← Strict.element 0x04 }

/-- The use of the key. -/
def keyUsage : UInt8 := 15

/-- The last numbers of the known identifiers: uses of the key, alternative names, basic
constraints, constraints of names, places of revocation lists, and extended uses of the key. -/
def knownNumbers : List UInt8 := [keyUsage, 17, 19, 30, 31, 37]

def Extension.known? (x : Extension) : Option UInt8 :=
  match x.id with
  | [0x55, 0x1d, number] => if knownNumbers.contains number then some number else none
  | _ => none

/-- An unknown extension must not be critical; a known one other than the use of the key holds one
SEQUENCE. -/
def Extension.isAcceptable (x : Extension) : Bool :=
  match x.known? with
  | some number =>
    number = keyUsage || (Strict.readAll? (Strict.element 0x30) x.value).isSome
  | none => !x.critical

/-- Known extensions stand there at most once. -/
def areAcceptable (xs : List Extension) : Bool :=
  let known := xs.filterMap Extension.known?
  xs.all Extension.isAcceptable && known.eraseDups.length = known.length

/-- The contents of the subject's key, in the signed part of a certificate of version three. The
algorithm is repeated there. -/
def signedPart (algorithm : Bytes) : Reader Bytes := do
  let version ← Strict.within 0xa0 Strict.small
  let _ ← Strict.element 0x02
  let repeated ← Strict.element 0x30
  if version ≠ 2 || repeated ≠ algorithm then fail
  let _ ← Strict.element 0x30
  let _ ← Strict.element 0x30
  let _ ← Strict.element 0x30
  let key ← Strict.element 0x30
  if ← atEnd then return key
  let extensions ← Strict.within 0xa3 (Strict.within 0x30 (many extension))
  if areAcceptable extensions then return key else fail

/-- The key of a certificate as TLS demands it: of version three, with no critical extension but the
known ones. -/
def certificate : Reader Bytes := Strict.within 0x30 do
  let inner ← Strict.element 0x30
  let algorithm ← Strict.element 0x30
  let _ ← Strict.bits
  (Strict.readAll? (signedPart algorithm) inner : Option Bytes)

/-- The signed part of a certificate of version one: number, algorithm, issuer, validity, subject
and key. -/
def oldSignedPart : Reader Bytes := do
  let _ ← Strict.element 0x02
  let _ ← Strict.element 0x30
  let _ ← Strict.element 0x30
  let _ ← Strict.element 0x30
  let _ ← Strict.element 0x30
  Strict.element 0x30

def oldCertificate : Reader Bytes := Strict.within 0x30 do
  let key ← Strict.within 0x30 oldSignedPart
  let _ ← Strict.element 0x30
  let _ ← Strict.element 0x03
  return key

/-- The contents of the subject's key, in a certificate to present oneself with. -/
def subjectKey? (bs : Bytes) : Option Bytes := Strict.readAll? certificate bs

def isTrustable (bs : Bytes) : Bool :=
  (subjectKey? bs).isSome || (Strict.readAll? oldCertificate bs).isSome

theorem isTrustable_of_subjectKey? {bs key : Bytes} (h : subjectKey? bs = some key) :
    isTrustable bs = true := by
  simp [isTrustable, h]

end CertBroker.X509.Anchor
