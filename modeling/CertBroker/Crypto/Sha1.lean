import CertBroker.Crypto.Blocks

namespace CertBroker.Crypto.Sha1

/-- The chaining value. -/
structure State where
  a : UInt32
  b : UInt32
  c : UInt32
  d : UInt32
  e : UInt32
deriving DecidableEq

def initial : State := ⟨0x67452301, 0xefcdab89, 0x98badcfe, 0x10325476, 0xc3d2e1f0⟩

def rotateLeft (x : UInt32) (n : UInt32) : UInt32 := (x <<< n) ||| (x >>> (32 - n))

/-- The function and the constant of a round. -/
def roundPart (round : Nat) (b c d : UInt32) : UInt32 × UInt32 :=
  if round < 20 then ((b &&& c) ||| (~~~b &&& d), 0x5a827999)
  else if round < 40 then (b ^^^ c ^^^ d, 0x6ed9eba1)
  else if round < 60 then ((b &&& c) ||| (b &&& d) ||| (c &&& d), 0x8f1bbcdc)
  else (b ^^^ c ^^^ d, 0xca62c1d6)

def step (round : Nat) (word : UInt32) (s : State) : State :=
  let (f, k) := roundPart round s.b s.c s.d
  ⟨rotateLeft s.a 5 + f + s.e + k + word, s.a, rotateLeft s.b 30, s.c, s.d⟩

/-- The word that joins the window of sixteen. -/
def nextWord (window : List UInt32) : UInt32 :=
  rotateLeft (window.getD 13 0 ^^^ window.getD 8 0 ^^^ window.getD 2 0 ^^^ window.getD 0 0) 1

/-- Runs the last `left` of the eighty rounds. -/
def rounds : (left : Nat) → (window : List UInt32) → State → State
  | 0, _, s => s
  | left + 1, window, s =>
    rounds left (window.tail ++ [nextWord window]) (step (79 - left) (window.headD 0) s)

def compress (s : State) (block : Bytes) : State :=
  let window := (groups 4 block).map fun w => UInt32.ofNat (Bytes.ofBigEndian w)
  let t := rounds 80 window s
  ⟨s.a + t.a, s.b + t.b, s.c + t.c, s.d + t.d, s.e + t.e⟩

def State.bytes (s : State) : Bytes :=
  [s.a, s.b, s.c, s.d, s.e].flatMap fun w => Bytes.toBigEndian 4 w.toNat

def hash (message : Bytes) : Bytes :=
  ((groups 64 (pad 64 8 message)).foldl compress initial).bytes

end CertBroker.Crypto.Sha1
