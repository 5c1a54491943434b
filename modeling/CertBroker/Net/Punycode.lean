
namespace CertBroker.Punycode

/-- The digits are the letters, and then the figures. -/
def digit (n : Nat) : Char := Char.ofNat (if n < 26 then 97 + n else 22 + n)

def value? (c : Char) : Option Nat :=
  let n := c.toNat
  if 97 ≤ n && n ≤ 122 then some (n - 97)
  else if 65 ≤ n && n ≤ 90 then some (n - 65)
  else if 48 ≤ n && n ≤ 57 then some (n - 22)
  else none

/-- Up to which value a digit in the place `k` is the last one. -/
def threshold (bias k : Nat) : Nat :=
  if k ≤ bias then 1 else if bias + 26 ≤ k then 26 else k - bias

/-- The bias after a distance, which is divided until it is small. -/
def settle (delta k : Nat) : Nat :=
  if 455 < delta then settle (delta / 35) (k + 36) else k + 36 * delta / (delta + 38)
termination_by delta
decreasing_by omega

def adapt (delta count : Nat) (isFirst : Bool) : Nat :=
  let delta := if isFirst then delta / 700 else delta / 2
  settle (delta + delta / count) 0

def isBasic (c : Char) : Bool := c.toNat < 128

/-- The state between two digits. -/
structure Reading where
  chars : List Char
  point : Nat := 128
  position : Nat := 0
  bias : Nat := 72
  /-- The distance read so far, and the weight and the place of the next digit. -/
  delta : Nat := 0
  weight : Nat := 1
  place : Nat := 36

def insertAt (position : Nat) (c : Char) (cs : List Char) : List Char :=
  cs.take position ++ c :: cs.drop position

/-- Reads one digit. The last one of a distance adds a character. -/
def Reading.step (r : Reading) (c : Char) : Option Reading :=
  match value? c with
  | none => none
  | some value =>
    let delta := r.delta + value * r.weight
    let last := threshold r.bias r.place
    if last ≤ value then
      some { r with delta, weight := r.weight * (36 - last), place := r.place + 36 }
    else
      let count := r.chars.length + 1
      let reached := r.position + delta
      let point := r.point + reached / count
      if h : point.isValidChar then
        let position := reached % count
        some {
          chars := insertAt position (Char.ofNatAux point h) r.chars
          point
          position := position + 1
          bias := adapt delta count (r.position == 0) }
      else none

/-- What stands before the last hyphen, and what stands after it. -/
def splitBasic (cs : List Char) : List Char × List Char :=
  let tail := (cs.reverse.takeWhile (· != '-')).reverse
  (cs.take (cs.length - tail.length - 1), tail)

def decode? (cs : List Char) : Option (List Char) :=
  let (basic, digits) := splitBasic cs
  match digits.foldlM Reading.step { chars := basic } with
  | some r => if r.place == 36 then some r.chars else none
  | none => none

theorem threshold_pos (bias k : Nat) : 1 ≤ threshold bias k := by
  unfold threshold
  split
  · omega
  · split <;> omega

/-- The digits of a distance. -/
def digitsOf (bias place delta : Nat) : List Char :=
  if delta < threshold bias place then [digit delta]
  else
    let excess := delta - threshold bias place
    let base := 36 - threshold bias place
    digit (threshold bias place + excess % base) :: digitsOf bias (place + 36) (excess / base)
termination_by delta
decreasing_by
  have := threshold_pos bias place
  exact Nat.lt_of_le_of_lt (Nat.div_le_self _ _) (by omega)

structure Writing where
  digits : List Char := []
  delta : Nat := 0
  bias : Nat := 72
  /-- How many characters are written. -/
  count : Nat

/-- Passes a character while the distance to the code point is counted. -/
def Writing.pass (basic point : Nat) (w : Writing) (c : Char) : Writing :=
  if c.toNat < point then { w with delta := w.delta + 1 }
  else if c.toNat == point then {
    digits := w.digits ++ digitsOf w.bias 36 w.delta
    delta := 0
    bias := adapt w.delta (w.count + 1) (w.count == basic)
    count := w.count + 1 }
  else w

/-- Writes the characters with each of the code points, in ascending order. -/
def writeFrom (cs : List Char) (basic : Nat) : (point : Nat) → List Nat → Writing → Writing
  | _, [], w => w
  | point, next :: rest, w =>
    let w := { w with delta := w.delta + (next - point) * (w.count + 1) }
    let w := cs.foldl (Writing.pass basic next) w
    writeFrom cs basic (next + 1) rest { w with delta := w.delta + 1 }

/-- Puts a number in its place, once. -/
def place (n : Nat) : List Nat → List Nat
  | [] => [n]
  | m :: rest => if n < m then n :: m :: rest else if n = m then m :: rest else m :: place n rest

def encode (cs : List Char) : List Char :=
  let basic := cs.filter isBasic
  let points := ((cs.filter fun c => !isBasic c).map Char.toNat).foldr place []
  let written := writeFrom cs basic.length 128 points { count := basic.length }
  (if basic.isEmpty then [] else basic ++ ['-']) ++ written.digits

end CertBroker.Punycode
