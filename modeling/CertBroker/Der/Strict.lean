import CertBroker.Der

namespace CertBroker.Der.Strict

def splitAt? (n : Nat) (bs : Bytes) : Option (Bytes × Bytes) :=
  if bs.length < n then none else some (bs.take n, bs.drop n)

/-- The contents after a length byte and its further bytes. -/
def sized? : Bytes → Option (Bytes × Bytes)
  | [] => none
  | n :: rest =>
    if n.toNat < 128 then splitAt? n.toNat rest
    else if n.toNat = 129 then
      match rest with
      | a :: rest => if a.toNat < 128 then none else splitAt? a.toNat rest
      | _ => none
    else if n.toNat = 130 then
      match rest with
      | a :: b :: rest =>
        if a = 0 then none else splitAt? (a.toNat * 256 + b.toNat) rest
      | _ => none
    else none

/-- The contents of an element whose first byte is given. -/
def tagged? (tag : UInt8) : Bytes → Option (Bytes × Bytes)
  | t :: rest => if t = tag then sized? rest else none
  | [] => none

def lengthBytes (n : Nat) : Bytes :=
  if n < 128 then [UInt8.ofNat n]
  else if n < 256 then [129, UInt8.ofNat n]
  else 130 :: Bytes.toBigEndian 2 n

def tagged (tag : UInt8) (contents : Bytes) : Bytes :=
  tag :: lengthBytes contents.length ++ contents

theorem splitAt?_append (contents rest : Bytes) :
    splitAt? contents.length (contents ++ rest) = some (contents, rest) := by
  simp [splitAt?]

theorem tagged?_tagged (tag : UInt8) {contents : Bytes} (h : contents.length < 65536)
    (rest : Bytes) : tagged? tag (tagged tag contents ++ rest) = some (contents, rest) := by
  unfold tagged? tagged lengthBytes
  split
  next hcons =>
    obtain ⟨rfl, rfl⟩ : tag = _ ∧ _ := by simpa using hcons
    simp only [if_true]
    split
    next hsmall =>
      have hn : (UInt8.ofNat contents.length).toNat = contents.length := by
        simp only [UInt8.toNat_ofNat']
        omega
      simp [sized?, hn, hsmall, splitAt?_append]
    next hsmall =>
      split
      next hbyte =>
        have hn : (UInt8.ofNat contents.length).toNat = contents.length := by
          simp only [UInt8.toNat_ofNat']
          omega
        simp [sized?, hn, hsmall, splitAt?_append]
      next hbyte =>
        have hhigh : (UInt8.ofNat (contents.length / 256)).toNat = contents.length / 256 := by
          simp only [UInt8.toNat_ofNat']
          omega
        have hlow : (UInt8.ofNat contents.length).toNat = contents.length % 256 := by
          simp only [UInt8.toNat_ofNat']
        have hne : UInt8.ofNat (contents.length / 256) ≠ 0 := by
          intro hzero
          rw [hzero] at hhigh
          simp only [UInt8.toNat_zero] at hhigh
          omega
        have hsum : contents.length / 256 * 256 + contents.length % 256 = contents.length := by
          omega
        simp [sized?, Bytes.toBigEndian, hhigh, hlow, hne, hsum, splitAt?_append]
  next hnil => simp at hnil

def element (tag : UInt8) : Reader Bytes := tagged? tag

def readAll? (r : Reader α) (bs : Bytes) : Option α := ((whole r).run bs : Option _).map (·.1)

/-- Reads all of the contents of an element. -/
def within (tag : UInt8) (r : Reader α) : Reader α := do
  (readAll? r (← element tag) : Option α)

def nextIs (tag : UInt8) : Reader Bool := fun bs => some (bs.head? == some tag, bs)

/-- The bits of a bit string that has no unused ones. -/
def bitsOf (tag : UInt8) : Reader Bytes := do
  match ← element tag with
  | unused :: bs => if unused = 0 then return bs else fail
  | [] => fail

def bits : Reader Bytes := bitsOf 0x03

/-- A number above zero, with a zero byte before it exactly if its first bit is set. -/
def positive? : Bytes → Option Nat
  | [] => none
  | a :: rest =>
    if 128 ≤ a.toNat then none
    else if a = 0 then
      match rest with
      | b :: _ => if b.toNat < 128 then none else some (Bytes.ofBigEndian rest)
      | [] => none
    else some (Bytes.ofBigEndian (a :: rest))

def positive : Reader Nat := do
  (positive? (← element 0x02) : Option Nat)

/-- A number below 128. -/
def small : Reader Nat := do
  match ← element 0x02 with
  | [n] => if n.toNat < 128 then return n.toNat else fail
  | _ => fail

/-- The fewest bytes of a number, with a zero byte before them if their first bit is set. -/
def positiveBytes (n : Nat) : Bytes :=
  Bytes.toBigEndian (n.log2 / 8 + (if n.log2 % 8 = 7 then 2 else 1)) n

end CertBroker.Der.Strict
