import CertBroker.Bytes

namespace CertBroker

namespace Utf8

/-- Where bytes stop being UTF-8: after `start` good bytes come `length` bytes that begin no
character, or the bytes end inside a character. -/
structure Fault where
  start : Nat
  length : Option Nat
deriving DecidableEq, Repr

def Fault.message (f : Fault) : String :=
  match f.length with
  | some n => "invalid utf-8 sequence of " ++ toString n ++ " bytes from index " ++ toString f.start
  | none => "incomplete utf-8 byte sequence from index " ++ toString f.start

def encode (s : String) : Bytes := s.toList.flatMap String.utf8EncodeChar

def isTail (b : UInt8) : Bool := 0x80 ≤ b && b ≤ 0xbf

/-- The range of the second byte after a lead byte of three or four. -/
def secondIn (lead second : UInt8) : Bool :=
  if lead == 0xe0 then 0xa0 ≤ second && second ≤ 0xbf
  else if lead == 0xed then 0x80 ≤ second && second ≤ 0x9f
  else if lead == 0xf0 then 0x90 ≤ second && second ≤ 0xbf
  else if lead == 0xf4 then 0x80 ≤ second && second ≤ 0x8f
  else isTail second

/-- What stands at the front of some bytes. -/
inductive Front where
  | char (c : Char) (length : Nat)
  | faulty (length : Nat)
  | cut

def low (b : UInt8) : Nat := b.toNat % 64

def front (a : UInt8) (rest : Bytes) : Front :=
  if a < 0x80 then .char (Char.ofNat a.toNat) 1
  else if 0xc2 ≤ a && a ≤ 0xdf then
    match rest with
    | [] => .cut
    | b :: _ =>
      if isTail b then .char (Char.ofNat ((a.toNat % 32) * 64 + low b)) 2 else .faulty 1
  else if 0xe0 ≤ a && a ≤ 0xef then
    match rest with
    | [] => .cut
    | b :: rest =>
      if !secondIn a b then .faulty 1
      else match rest with
        | [] => .cut
        | c :: _ =>
          if isTail c then .char (Char.ofNat ((a.toNat % 16) * 4096 + low b * 64 + low c)) 3
          else .faulty 2
  else if 0xf0 ≤ a && a ≤ 0xf4 then
    match rest with
    | [] => .cut
    | b :: rest =>
      if !secondIn a b then .faulty 1
      else match rest with
        | [] => .cut
        | c :: rest =>
          if !isTail c then .faulty 2
          else match rest with
            | [] => .cut
            | d :: _ =>
              if isTail d then
                .char (Char.ofNat ((a.toNat % 8) * 262144 + low b * 4096 + low c * 64 + low d)) 4
              else .faulty 3
  else .faulty 1

/-- Reads characters until a fault; `start` counts the bytes already read. -/
def decodeFrom (start : Nat) : Bytes → Except Fault (List Char)
  | [] => .ok []
  | a :: rest =>
    match front a rest with
    | .char c n => (decodeFrom (start + n) (rest.drop (n - 1))).map (c :: ·)
    | .faulty n => .error ⟨start, some n⟩
    | .cut => .error ⟨start, none⟩
termination_by bs => bs.length
decreasing_by simp only [List.length_drop, List.length_cons]; omega

def decode (bs : Bytes) : Except Fault String := (decodeFrom 0 bs).map String.ofList

def replacement : Char := Char.ofNat 0xfffd

/-- Each longest faulty part becomes one replacement character. -/
def lossyChars : Bytes → List Char
  | [] => []
  | a :: rest =>
    match front a rest with
    | .char c n => c :: lossyChars (rest.drop (n - 1))
    | .faulty n => replacement :: lossyChars (rest.drop (n - 1))
    | .cut => [replacement]
termination_by bs => bs.length
decreasing_by all_goals (simp only [List.length_drop, List.length_cons]; omega)

def lossy (bs : Bytes) : String := String.ofList (lossyChars bs)

end Utf8

end CertBroker
