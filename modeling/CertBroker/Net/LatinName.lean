import CertBroker.Net.HostName
import CertBroker.Net.Punycode

namespace CertBroker.HostName

def isLatin (c : Char) : Bool :=
  0xc0 ≤ c.toNat && c.toNat ≤ 0xff && c.toNat != 0xd7 && c.toNat != 0xf7

def lowerLatin (c : Char) : Char :=
  if isLatin c && c.toNat ≤ 0xde then Char.ofNat (c.toNat + 32) else c.toLower

/-- Whether a label has to be written in Punycode. -/
def isCoded (label : List Char) : Bool :=
  !isAscii label && !punycodeStart.isPrefixOf label
    && label.all fun c => (c.toNat < 0x80 || isLatin c) && lowerLatin c == c

/-- A label of small letters in ASCII. One in Punycode has to be one that is written so. -/
def labelToAscii? (label : List Char) : Option (List Char) :=
  if isCoded label then some (punycodeStart ++ Punycode.encode label)
  else if !isAscii label then none
  else if !punycodeStart.isPrefixOf label then some label
  else
    let code := label.drop punycodeStart.length
    (Punycode.decode? code).bind fun decoded =>
      if isCoded decoded && Punycode.encode decoded == code then some label else none

/-- A character of the names that are known here. -/
def isKnown (c : Char) : Bool := (c.toNat < 0x80 && !isForbidden c) || isLatin c

def joinWith (sep : α) : List (List α) → List α
  | [] => []
  | [part] => part
  | part :: rest => part ++ sep :: joinWith sep rest

/-- The rules for names of Latin-1 letters, which resolve no compositions and run in one direction.
Any other name is refused, also where the full rules accept it. -/
def latinToAscii? (cs : List Char) : Option (List Char) :=
  if cs.all isKnown then
    ((splitAtEach '.' (cs.map lowerLatin)).mapM labelToAscii?).map (joinWith '.')
  else none

theorem not_isKnown_of_blank {c : Char} (h : c.toNat ≤ 0x20) : isKnown c = false := by
  have hlatin : isLatin c = false := by simp [isLatin]; omega
  simp [isKnown, isForbidden, hlatin, h]

/-- The rules that programs run with. -/
instance : Rules where
  toAscii? := latinToAscii?
  refuses_blank hc h := by
    refine if_neg fun hall => ?_
    have hknown := List.all_eq_true.mp hall _ hc
    rw [not_isKnown_of_blank h] at hknown
    cases hknown

end CertBroker.HostName
