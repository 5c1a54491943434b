import CertBroker.Der
import CertBroker.Text.Utf8

namespace CertBroker.X509

open Der

/-- One attribute of a name: its type and the element that holds its value. -/
structure NameAttribute where
  type : Bytes
  value : Element
deriving DecidableEq

/-- A name: its relative parts in order, and the bytes it was read from. -/
structure Name where
  parts : List (List NameAttribute)
  raw : Bytes
deriving DecidableEq

structure Algorithm where
  id : Bytes
  parameters : Option Element
deriving DecidableEq

structure PublicKey where
  algorithm : Algorithm
  key : Bytes
deriving DecidableEq

def nameAttribute : Reader NameAttribute := inSequence do
  let type ← oid
  return { type, value := ← element }

/-- Parts are read up to the first one that is malformed, and the raw bytes end there too. -/
def name : Reader Name := do
  let (parts, raw) ← within sequenceTag (many (inSet (many1 nameAttribute)))
  return { parts, raw }

def algorithm : Reader Algorithm := inSequence do
  let id ← oid
  if ← atEnd then return { id, parameters := none }
  return { id, parameters := some (← element) }

def publicKey : Reader PublicKey := inSequence do
  let algorithm ← algorithm
  return { algorithm, key := ← bitString }

/-- The type of common names. -/
def commonNameType : Bytes := [0x55, 0x04, 0x03]

/-- The text of a value of one of the string types whose bytes are UTF-8 or ASCII. -/
def stringText? (e : Element) : Option String :=
  if e.tag = 12 || e.tag = 18 || e.tag = 19 || e.tag = 22 then (Utf8.decode e.contents).toOption
  else none

/-- The texts of the common names in order. -/
def Name.commonNames (n : Name) : List String :=
  (n.parts.flatten.filter (fun a => a.type = commonNameType)).filterMap (stringText? ·.value)

end CertBroker.X509
