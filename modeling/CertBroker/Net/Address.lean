import CertBroker.Text.Quoted

namespace CertBroker.Net

inductive IpAddress where
  | v4 (bits : BitVec 32)
  | v6 (bits : BitVec 128)
deriving DecidableEq

/-- An address with a port. The scope tells links apart for a link-local address. -/
structure SocketAddress where
  ip : IpAddress
  port : Nat
  scope : Nat := 0
deriving DecidableEq

def IpAddress.isV6 : IpAddress → Bool
  | .v4 _ => false
  | .v6 _ => true

/-- The numbers of a value written with digits of the given number of bits, the highest first. -/
def digitsOf (bits : Nat) : (count n : Nat) → List Nat
  | 0, _ => []
  | count + 1, n => digitsOf bits count (n >>> bits) ++ [n % 1 <<< bits]

def dotted (bits : BitVec 32) : String :=
  ".".intercalate ((digitsOf 8 4 bits.toNat).map toString)

def hexGroups (gs : List Nat) : String :=
  ":".intercalate (gs.map fun g => String.ofList (Text.hex g))

/-- The longest run of zeros, the first of equal ones: its start and its length. -/
def zeroRun (gs : List Nat) : Nat × Nat :=
  (List.range gs.length).foldl (fun best i =>
    let length := ((gs.drop i).takeWhile (· == 0)).length
    if best.2 < length then (i, length) else best) (0, 0)

/-- The groups of an address, where the longest run of two or more zeros is left out. -/
def compressed (gs : List Nat) : String :=
  let (start, length) := zeroRun gs
  if 1 < length then hexGroups (gs.take start) ++ "::" ++ hexGroups (gs.drop (start + length))
  else hexGroups gs

/-- An address that stands for one of the older kind ends in that one's text. -/
def IpAddress.text : IpAddress → String
  | .v4 bits => dotted bits
  | .v6 bits =>
    if bits.toNat >>> 32 = 0xffff then "::ffff:" ++ dotted (bits.truncate 32)
    else compressed (digitsOf 16 8 bits.toNat)

def SocketAddress.text (a : SocketAddress) : String :=
  match a.ip with
  | .v4 bits => dotted bits ++ ":" ++ toString a.port
  | .v6 _ =>
    let scope := if a.scope = 0 then "" else "%" ++ toString a.scope
    "[" ++ a.ip.text ++ scope ++ "]:" ++ toString a.port

/-- A number below a limit. `most` bounds its digits; a leading zero may be forbidden. -/
def number? (base : Nat) (most : Option Nat) (zeroLed : Bool) (limit : Nat) (cs : List Char) :
    Option (Nat × List Char) :=
  let ds := cs.takeWhile fun c => (Text.digitValue? base c).isSome
  let value := (ds.filterMap (Text.digitValue? base)).foldl (fun n d => n * base + d) 0
  if ds.isEmpty || most.any (· < ds.length)
      || (!zeroLed && ds.head? == some '0' && 1 < ds.length) || limit ≤ value then none
  else some (value, cs.drop ds.length)

/-- A given character. -/
def sign? (c : Char) : List Char → Option (List Char)
  | d :: rest => if c == d then some rest else none
  | [] => none

def octet? : List Char → Option (Nat × List Char) := number? 10 (some 3) false 256

/-- Four numbers with points between them. -/
def v4? (cs : List Char) : Option (Nat × List Char) := do
  let (a, cs) ← octet? cs
  let (b, cs) ← octet? (← sign? '.' cs)
  let (c, cs) ← octet? (← sign? '.' cs)
  let (d, cs) ← octet? (← sign? '.' cs)
  return (((a * 256 + b) * 256 + c) * 256 + d, cs)

/-- At most `slots` groups with colons between them. Where two groups are left an address of the
older kind may stand for both, at the end; the flag says so. -/
def groups (isFirst : Bool) : (slots : Nat) → List Char → List Nat × Bool × List Char
  | 0, cs => ([], false, cs)
  | slots + 1, cs =>
    match (if isFirst then some cs else sign? ':' cs) with
    | none => ([], false, cs)
    | some start =>
      match (if 0 < slots then v4? start else none) with
      | some (a, rest) => ([a / 65536, a % 65536], true, rest)
      | none =>
        match number? 16 (some 4) true 65536 start with
        | none => ([], false, cs)
        | some (g, rest) =>
          let (others, hasV4, rest) := groups false slots rest
          (g :: others, hasV4, rest)

/-- Eight groups, or fewer with a double colon for the missing ones. -/
def v6? (cs : List Char) : Option (Nat × List Char) :=
  let value (gs : List Nat) : Nat := gs.foldl (fun n g => n * 65536 + g) 0
  let (head, hasV4, rest) := groups true 8 cs
  if head.length = 8 then some (value head, rest)
  else if hasV4 then none
  else match rest with
    | ':' :: ':' :: rest =>
      let (tail, _, rest) := groups true (7 - head.length) rest
      some (value (head ++ List.replicate (8 - head.length - tail.length) 0 ++ tail), rest)
    | _ => none

def whole? (read : List Char → Option (α × List Char)) (s : String) : Option α :=
  match read s.toList with
  | some (a, []) => some a
  | _ => none

def ip? (cs : List Char) : Option (IpAddress × List Char) :=
  match v4? cs with
  | some (a, rest) => some (.v4 (BitVec.ofNat 32 a), rest)
  | none => (v6? cs).map fun r => (.v6 (BitVec.ofNat 128 r.1), r.2)

def port? (cs : List Char) : Option (Nat × List Char) := do
  number? 10 none true 65536 (← sign? ':' cs)

def scope? (cs : List Char) : Option (Nat × List Char) := do
  number? 10 none true 4294967296 (← sign? '%' cs)

def socket? (cs : List Char) : Option (SocketAddress × List Char) :=
  match v4? cs with
  | some (a, rest) => (port? rest).map fun r => (⟨.v4 (BitVec.ofNat 32 a), r.1, 0⟩, r.2)
  | none => do
    let (a, rest) ← v6? (← sign? '[' cs)
    let (scope, rest) := (scope? rest).getD (0, rest)
    let (port, rest) ← port? (← sign? ']' rest)
    return (⟨.v6 (BitVec.ofNat 128 a), port, scope⟩, rest)

def IpAddress.parse? (s : String) : Option IpAddress := whole? ip? s

def SocketAddress.parse? (s : String) : Option SocketAddress := whole? socket? s

end CertBroker.Net
