import CertBroker.Text.Utf8

namespace CertBroker.PercentCode

def digit (n : Nat) : UInt8 := UInt8.ofNat (if n < 10 then 48 + n else 55 + n)

def value? (b : UInt8) : Option Nat :=
  let n := b.toNat
  if 48 ≤ n && n ≤ 57 then some (n - 48)
  else if 65 ≤ n && n ≤ 70 then some (n - 55)
  else if 97 ≤ n && n ≤ 102 then some (n - 87)
  else none

theorem value?_digit {n : Nat} (h : n < 16) : value? (digit n) = some n := by
  have hall : ∀ m ∈ List.range 16, value? (digit m) = some m := by decide
  exact hall n (List.mem_range.mpr h)

def isControl (c : Char) : Bool := c.toNat < 0x20 || 0x7f ≤ c.toNat

def inFragment (c : Char) : Bool :=
  isControl c || c == ' ' || c == '"' || c == '<' || c == '>' || c.toNat == 0x60

def inQuery (c : Char) : Bool :=
  isControl c || c == ' ' || c == '"' || c == '#' || c == '<' || c == '>'

def inSpecialQuery (c : Char) : Bool := inQuery c || c.toNat == 0x27

def inPath (c : Char) : Bool :=
  inFragment c || c == '#' || c == '?' || c == '\x7b' || c == '\x7d'

def inUserInfo (c : Char) : Bool :=
  inPath c || c == '/' || c == ':' || c == ';' || c == '=' || c == '@' || c == '[' || c == '\\'
    || c == ']' || c == '^' || c == '|'

/-- A byte as it is coded. -/
def codeOf (b : UInt8) : Bytes := [37, digit (b.toNat / 16), digit (b.toNat % 16)]

def asciiChars (bs : Bytes) : List Char := bs.map fun b => Char.ofNat b.toNat

def encodeChar (isCoded : Char → Bool) (c : Char) : List Char :=
  if isCoded c then asciiChars ((String.utf8EncodeChar c).flatMap codeOf) else [c]

/-- Codes the characters of a set. -/
def encode (isCoded : Char → Bool) (cs : List Char) : List Char := cs.flatMap (encodeChar isCoded)

/-- The byte that three bytes code, if they are a code. -/
def byte? (sign x y : UInt8) : Option UInt8 := do
  if sign == 37 then return UInt8.ofNat ((← value? x) * 16 + (← value? y)) else none

/-- Reads codes; a percent sign that begins no code stands for itself. -/
def decode : Bytes → Bytes
  | a :: x :: y :: rest =>
    match byte? a x y with
    | some b => b :: decode rest
    | none => a :: decode (x :: y :: rest)
  | bs => bs

theorem decode_codeOf (b : UInt8) (rest : Bytes) :
    decode (codeOf b ++ rest) = b :: decode rest := by
  have hhigh : b.toNat / 16 < 16 := by
    have := b.toNat_lt
    omega
  have hlow : b.toNat % 16 < 16 := Nat.mod_lt _ (by decide)
  have hsum : b.toNat / 16 * 16 + b.toNat % 16 = b.toNat := by omega
  have hbyte : byte? 37 (digit (b.toNat / 16)) (digit (b.toNat % 16)) = some b := by
    simp only [byte?, value?_digit hhigh, value?_digit hlow, Option.bind_eq_bind,
      Option.bind_some, hsum]
    simp
  simp [codeOf, decode, hbyte]

end CertBroker.PercentCode
