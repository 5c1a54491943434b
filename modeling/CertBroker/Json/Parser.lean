import CertBroker.Json
import CertBroker.Text.Digits

namespace CertBroker.Json

/-- Containers may stand this deep inside each other. -/
def depthLimit : Nat := 127

def isSpace (c : Char) : Bool := c == ' ' || c == '\n' || c == '\r' || c == '\t'

def skipSpaces (cs : List Char) : List Char := cs.dropWhile isSpace

/-- Removes a fixed beginning. -/
def expect? : List Char → List Char → Option (List Char)
  | [], rest => some rest
  | _ :: _, [] => none
  | c :: word, d :: rest => if c == d then expect? word rest else none

def hex4? (a b c d : Char) : Option Nat := do
  let high := (← Text.digitValue? 16 a) * 16 + (← Text.digitValue? 16 b)
  return high * 256 + (← Text.digitValue? 16 c) * 16 + (← Text.digitValue? 16 d)

/-- The character of a one-letter escape. -/
def escape? (c : Char) : Option Char :=
  match c with
  | '"' => some '"'
  | '\\' => some '\\'
  | '/' => some '/'
  | 'b' => some (Char.ofNat 8)
  | 'f' => some (Char.ofNat 12)
  | 'n' => some '\n'
  | 'r' => some '\r'
  | 't' => some '\t'
  | _ => none

/-- The rest of a string after its opening quote; `done` holds its characters in reverse. -/
def scanString (done : List Char) : List Char → Option (String × List Char)
  | [] => none
  | '"' :: rest => some (String.ofList done.reverse, rest)
  | '\\' :: 'u' :: a :: b :: c :: d :: rest =>
    match hex4? a b c d with
    | none => none
    | some n =>
      if 0xd800 ≤ n && n < 0xdc00 then
        match rest with
        | '\\' :: 'u' :: e :: f :: g :: h :: rest =>
          match hex4? e f g h with
          | none => none
          | some m =>
            if 0xdc00 ≤ m && m < 0xe000 then
              scanString (Char.ofNat (0x10000 + (n - 0xd800) * 1024 + (m - 0xdc00)) :: done) rest
            else none
        | _ => none
      else if 0xdc00 ≤ n && n < 0xe000 then none
      else scanString (Char.ofNat n :: done) rest
  | '\\' :: c :: rest =>
    match escape? c with
    | none => none
    | some e => scanString (e :: done) rest
  | c :: rest => if c.toNat < 0x20 then none else scanString (c :: done) rest

/-- The parts of a number as written. -/
structure NumberText where
  negative : Bool
  whole : List Char
  fraction : Option (List Char)
  exponent : Option (Char × Option Char × List Char)

def digitsValue (ds : List Char) : Nat := ds.foldl (fun n c => n * 10 + (c.toNat - 48)) 0

def scanFraction (cs : List Char) : Option (Option (List Char) × List Char) :=
  match cs with
  | '.' :: rest =>
    let ds := rest.takeWhile Text.isDigit
    if ds.isEmpty then none else some (some ds, rest.dropWhile Text.isDigit)
  | _ => some (none, cs)

def scanExponent (cs : List Char) :
    Option (Option (Char × Option Char × List Char) × List Char) :=
  match cs with
  | e :: rest =>
    if e == 'e' || e == 'E' then
      let (sign, rest) := match rest with
        | s :: more => if s == '+' || s == '-' then (some s, more) else (none, rest)
        | [] => (none, rest)
      let ds := rest.takeWhile Text.isDigit
      if ds.isEmpty then none else some (some (e, sign, ds), rest.dropWhile Text.isDigit)
    else some (none, cs)
  | [] => some (none, cs)

def scanNumber (cs : List Char) : Option (NumberText × List Char) := do
  let (negative, cs) := match cs with
    | '-' :: rest => (true, rest)
    | _ => (false, cs)
  let whole := cs.takeWhile Text.isDigit
  let rest := cs.dropWhile Text.isDigit
  match whole with
  | [] => none
  | '0' :: _ :: _ => none
  | _ =>
    let (fraction, rest) ← scanFraction rest
    let (exponent, rest) ← scanExponent rest
    return (⟨negative, whole, fraction, exponent⟩, rest)

/-- The least number that rounds to no finite double. -/
def leastInfinite : Nat := 1 <<< 1024 - 1 <<< 970

def NumberText.isFinite (n : NumberText) : Bool :=
  let fraction := n.fraction.getD []
  let digits := digitsValue (n.whole ++ fraction)
  let power : Int := match n.exponent with
    | some (_, some '-', ds) => -(digitsValue ds : Int)
    | some (_, _, ds) => digitsValue ds
    | none => 0
  let shift := power - fraction.length
  let size : Int := (n.whole ++ fraction).length
  if digits = 0 || size + shift < 300 then true
  else if shift > 310 then false
  else if shift ≥ 0 then digits * Nat.pow 10 shift.toNat < leastInfinite
  else digits < leastInfinite * Nat.pow 10 (-shift).toNat

def NumberText.toText (n : NumberText) : String :=
  let fraction := match n.fraction with
    | some ds => '.' :: ds
    | none => if n.exponent.isNone then ['.', '0'] else []
  let exponent := match n.exponent with
    | some (e, some s, ds) => e :: s :: ds
    | some (e, none, ds) => e :: ds
    | none => []
  String.ofList ((if n.negative then ['-'] else []) ++ n.whole ++ fraction ++ exponent)

/-- Whole numbers of at most 64 bits are integers; zero with a sign is none of them. -/
def NumberText.toJson (n : NumberText) : Json :=
  if n.fraction.isNone && n.exponent.isNone then
    let v := digitsValue n.whole
    if n.negative then
      if v = 0 || v > 9223372036854775808 then .decimal n.toText else .int (-(v : Int))
    else if v < 18446744073709551616 then .int v else .decimal n.toText
  else .decimal n.toText

mutual

/-- A value at the front of a text. Each call uses up one unit of `fuel`. -/
def scanValue (fuel depth : Nat) (cs : List Char) : Option (Json × List Char) :=
  match fuel with
  | 0 => none
  | fuel + 1 =>
    match skipSpaces cs with
    | '"' :: rest => (scanString [] rest).map fun r => (.string r.1, r.2)
    | '[' :: rest =>
      match depth with
      | 0 => none
      | depth + 1 =>
        match skipSpaces rest with
        | ']' :: rest => some (.array [], rest)
        | _ => (scanItems fuel depth rest).map fun r => (.array r.1, r.2)
    | '\x7b' :: rest =>
      match depth with
      | 0 => none
      | depth + 1 =>
        match skipSpaces rest with
        | '\x7d' :: rest => some (.object [], rest)
        | _ => (scanMembers fuel depth rest).map fun r => (.object r.1, r.2)
    | 'n' :: rest => (expect? "ull".toList rest).map fun r => (.null, r)
    | 't' :: rest => (expect? "rue".toList rest).map fun r => (.bool true, r)
    | 'f' :: rest => (expect? "alse".toList rest).map fun r => (.bool false, r)
    | cs =>
      match scanNumber cs with
      | some (n, rest) => if n.isFinite then some (n.toJson, rest) else none
      | none => none

def scanItems (fuel depth : Nat) (cs : List Char) : Option (List Json × List Char) :=
  match fuel with
  | 0 => none
  | fuel + 1 =>
    match scanValue fuel depth cs with
    | none => none
    | some (item, rest) =>
      match skipSpaces rest with
      | ',' :: rest => (scanItems fuel depth rest).map fun r => (item :: r.1, r.2)
      | ']' :: rest => some ([item], rest)
      | _ => none

def scanMembers (fuel depth : Nat) (cs : List Char) : Option (List (String × Json) × List Char) :=
  match fuel with
  | 0 => none
  | fuel + 1 =>
    match skipSpaces cs with
    | '"' :: rest =>
      match scanString [] rest with
      | none => none
      | some (name, rest) =>
        match skipSpaces rest with
        | ':' :: rest =>
          match scanValue fuel depth rest with
          | none => none
          | some (value, rest) =>
            match skipSpaces rest with
            | ',' :: rest =>
              (scanMembers fuel depth rest).map fun r => ((name, value) :: r.1, r.2)
            | '\x7d' :: rest => some ([(name, value)], rest)
            | _ => none
        | _ => none
    | _ => none

end

/-- Reads a whole text whose containers nest at most `depth` deep. -/
def parseWithin? (depth : Nat) (s : String) : Option Json :=
  let cs := s.toList
  match scanValue (2 * cs.length + 2) depth cs with
  | some (value, rest) => if (skipSpaces rest).isEmpty then some value else none
  | none => none

/-- Reads exactly one value with blanks around it. -/
def parse? (s : String) : Option Json := parseWithin? depthLimit s

end CertBroker.Json
