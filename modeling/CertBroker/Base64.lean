import CertBroker.Text.Utf8

namespace CertBroker.Base64

/-- Why a text is not base64; offsets count bytes. -/
inductive Fault where
  | symbol (offset : Nat) (byte : UInt8)
  | length (n : Nat)
  | lastSymbol (offset : Nat) (byte : UInt8)
  | padding
deriving DecidableEq, Repr

def Fault.message : Fault → String
  | .symbol o b => "Invalid symbol " ++ toString b.toNat ++ ", offset " ++ toString o ++ "."
  | .length n => "Invalid input length: " ++ toString n
  | .lastSymbol o b =>
    "Invalid last symbol " ++ toString b.toNat ++ ", offset " ++ toString o ++ "."
  | .padding => "Invalid padding"

def symbol (n : Nat) : UInt8 :=
  if n < 26 then UInt8.ofNat (65 + n)
  else if n < 52 then UInt8.ofNat (71 + n)
  else if n < 62 then UInt8.ofNat (n - 4)
  else if n = 62 then 43 else 47

def value? (b : UInt8) : Option Nat :=
  let n := b.toNat
  if 65 ≤ n && n ≤ 90 then some (n - 65)
  else if 97 ≤ n && n ≤ 122 then some (n - 71)
  else if 48 ≤ n && n ≤ 57 then some (n + 4)
  else if n = 43 then some 62
  else if n = 47 then some 63
  else none

theorem value?_symbol {n : Nat} (h : n < 64) : value? (symbol n) = some n := by
  have hall : ∀ m ∈ List.range 64, value? (symbol m) = some m := by decide
  exact hall n (List.mem_range.mpr h)

def pad : UInt8 := 61

def encodeBytes : Bytes → Bytes
  | [] => []
  | [a] => [symbol (a.toNat / 4), symbol (a.toNat % 4 * 16), pad, pad]
  | [a, b] =>
    [symbol (a.toNat / 4), symbol (a.toNat % 4 * 16 + b.toNat / 16), symbol (b.toNat % 16 * 4), pad]
  | a :: b :: c :: rest =>
    symbol (a.toNat / 4) :: symbol (a.toNat % 4 * 16 + b.toNat / 16)
      :: symbol (b.toNat % 16 * 4 + c.toNat / 64) :: symbol (c.toNat % 64) :: encodeBytes rest

/-- Base64 text is ASCII. -/
def asciiText (bs : Bytes) : String := String.ofList (bs.map fun b => Char.ofNat b.toNat)

def encode (bs : Bytes) : String := asciiText (encodeBytes bs)

/-- Reads a symbol at an offset; padding is no symbol. -/
def readSymbol (offset : Nat) (b : UInt8) : Except Fault Nat :=
  match value? b with
  | some v => .ok v
  | none => .error (.symbol offset b)

def joinQuad (a b c d : Nat) : Bytes :=
  [UInt8.ofNat (a * 4 + b / 16), UInt8.ofNat (b % 16 * 16 + c / 4), UInt8.ofNat (c % 4 * 64 + d)]

/-- The symbols and the padding of the last group, which has at most four bytes: padding starts at
the third place at the earliest, and no symbol follows it. -/
def scanLast (offset : Nat) :
    (index : Nat) → (values : List Nat) → (pads : Nat) → Bytes → Except Fault (List Nat × Nat)
  | _, values, pads, [] => .ok (values, pads)
  | index, values, pads, b :: rest =>
    if b == pad then
      if index < 2 then .error (.symbol (offset + index) b)
      else scanLast offset (index + 1) values (pads + 1) rest
    else if pads > 0 then .error (.symbol (offset + index - pads) pad)
    else match readSymbol (offset + index) b with
      | .error e => .error e
      | .ok v => scanLast offset (index + 1) (values ++ [v]) pads rest

def decodeLast (offset : Nat) (bs : Bytes) : Except Fault Bytes :=
  match scanLast offset 0 [] 0 bs with
  | .error e => .error e
  | .ok (values, pads) =>
    if !bs.isEmpty && values.length < 2 then .error (.length (offset + values.length))
    else if (pads + values.length) % 4 != 0 then .error .padding
    else
      let last := (bs.take values.length).getLast?.getD 0
      match values with
      | [a, b] =>
        if b % 16 != 0 then .error (.lastSymbol (offset + 1) last)
        else .ok [UInt8.ofNat (a * 4 + b / 16)]
      | [a, b, c] =>
        if c % 4 != 0 then .error (.lastSymbol (offset + 2) last)
        else .ok [UInt8.ofNat (a * 4 + b / 16), UInt8.ofNat (b % 16 * 16 + c / 4)]
      | [a, b, c, d] => .ok (joinQuad a b c d)
      | _ => .ok []

/-- Reads all groups; a group that others follow holds four symbols. -/
def decodeFrom (offset : Nat) : Bytes → Except Fault Bytes
  | a :: b :: c :: d :: e :: rest => do
    let va ← readSymbol offset a
    let vb ← readSymbol (offset + 1) b
    let vc ← readSymbol (offset + 2) c
    let vd ← readSymbol (offset + 3) d
    let others ← decodeFrom (offset + 4) (e :: rest)
    return joinQuad va vb vc vd ++ others
  | last => decodeLast offset last

/-- A single byte after complete groups that is no symbol is reported first. -/
def strayEnd? (bs : Bytes) : Option Fault :=
  if bs.length % 4 = 1 then
    match bs.getLast? with
    | some b =>
      if b != pad && (value? b).isNone then some (.symbol (bs.length - 1) b) else none
    | none => none
  else none

/-- Reads base64 strictly: padding is required, the unused bits of the last symbol are zero, and
nothing else stands between the symbols. -/
def decode (bs : Bytes) : Except Fault Bytes :=
  match strayEnd? bs with
  | some fault => .error fault
  | none => decodeFrom 0 bs

/-- Reads the UTF-8 bytes of a text. -/
def decodeText (s : String) : Except Fault Bytes := decode (Utf8.encode s)

end CertBroker.Base64
