import CertBroker.Bytes

namespace CertBroker.Der

/-- A reader of the front of some bytes. -/
abbrev Reader (α : Type) := StateT Bytes Option α

/-- What stands before the contents of an element; class 2 is the context-specific one. -/
structure Header where
  tagClass : Nat
  constructed : Bool
  tag : Nat
  length : Nat
deriving DecidableEq, Repr

structure Element where
  tagClass : Nat
  constructed : Bool
  tag : Nat
  contents : Bytes
deriving DecidableEq, Repr

def booleanTag : Nat := 1

def integerTag : Nat := 2

def bitStringTag : Nat := 3

def octetStringTag : Nat := 4

def oidTag : Nat := 6

def sequenceTag : Nat := 16

def setTag : Nat := 17

def utcTimeTag : Nat := 23

def generalizedTimeTag : Nat := 24

/-- A tag number from 31 on stands in up to five more bytes, seven bits each. -/
def longTag? : (most value : Nat) → Bytes → Option (Nat × Bytes)
  | most + 1, value, b :: rest =>
    let value := (value * 128 + b.toNat % 128) % 4294967296
    if b.toNat < 128 then some (value, rest) else longTag? most value rest
  | _, _, _ => none

/-- Lengths below 127 take one byte. -/
def length? : Bytes → Option (Nat × Bytes)
  | [] => none
  | b :: rest =>
    if b.toNat < 128 then some (b.toNat, rest)
    else
      let count := b.toNat - 128
      let length := Bytes.ofBigEndian (rest.take count)
      if count = 0 || count = 127 || rest.length < count || length < 127
        || 18446744073709551616 ≤ length then none
      else some (length, rest.drop count)

/-- The tag number that a first byte begins. -/
def tag? (b : UInt8) (rest : Bytes) : Option (Nat × Bytes) :=
  if b.toNat % 32 = 31 then longTag? 5 0 rest else some (b.toNat % 32, rest)

def header? : Bytes → Option (Header × Bytes)
  | [] => none
  | b :: rest =>
    match tag? b rest with
    | none => none
    | some (tag, rest) =>
      match length? rest with
      | none => none
      | some (length, rest) =>
        some (⟨b.toNat / 64, b.toNat / 32 % 2 = 1, tag, length⟩, rest)

theorem longTag?_length {most value tag : Nat} {bs rest : Bytes}
    (h : longTag? most value bs = some (tag, rest)) : rest.length < bs.length := by
  induction bs generalizing most value with
  | nil => cases most <;> simp [longTag?] at h
  | cons b bs ih =>
    cases most with
    | zero => simp [longTag?] at h
    | succ most =>
      simp only [longTag?] at h
      split at h
      · simp only [Option.some.injEq, Prod.mk.injEq] at h
        simp [h.2]
      · have := ih h
        simp only [List.length_cons]
        omega

theorem length?_length {bs rest : Bytes} {n : Nat} (h : length? bs = some (n, rest)) :
    rest.length < bs.length := by
  cases bs with
  | nil => simp [length?] at h
  | cons b bs =>
    simp only [length?] at h
    split at h
    · simp only [Option.some.injEq, Prod.mk.injEq] at h
      simp [h.2]
    · split at h
      · cases h
      · simp only [Option.some.injEq, Prod.mk.injEq] at h
        rw [← h.2]
        simp only [List.length_drop, List.length_cons]
        omega

theorem tag?_length {b : UInt8} {bs rest : Bytes} {tag : Nat} (h : tag? b bs = some (tag, rest)) :
    rest.length ≤ bs.length := by
  unfold tag? at h
  split at h
  · exact Nat.le_of_lt (longTag?_length h)
  · simp only [Option.some.injEq, Prod.mk.injEq] at h
    simp [h.2]

theorem header?_length {bs rest : Bytes} {header : Header}
    (h : header? bs = some (header, rest)) : rest.length < bs.length := by
  cases bs with
  | nil => simp [header?] at h
  | cons b bs =>
    simp only [header?] at h
    split at h
    · cases h
    next htag =>
      split at h
      · cases h
      next hlength =>
        simp only [Option.some.injEq, Prod.mk.injEq] at h
        have ht := tag?_length htag
        have hl := length?_length hlength
        rw [← h.2]
        simp only [List.length_cons]
        omega

def fail : Reader α := fun _ => none

def header : Reader Header := header?

def take (n : Nat) : Reader Bytes := fun bs =>
  if bs.length < n then none else some (bs.take n, bs.drop n)

def element : Reader Element := do
  let h ← header
  return ⟨h.tagClass, h.constructed, h.tag, ← take h.length⟩

/-- The contents of the next element, which must have this tag. -/
def contents (tag : Nat) : Reader Bytes := do
  let e ← element
  if e.tag = tag then return e.contents else fail

/-- Reads within the contents of the next element, and answers also the bytes of the element up
to where reading stopped. What is left of the contents is skipped. -/
def within (tag : Nat) (r : Reader α) : Reader (α × Bytes) := fun bs => do
  let (inner, rest) ← (contents tag).run bs
  let (a, left) ← r.run inner
  return ((a, bs.take (bs.length - rest.length - left.length)), rest)

def inSequence (r : Reader α) : Reader α := do return (← within sequenceTag r).1

def inSet (r : Reader α) : Reader α := do return (← within setTag r).1

/-- Reads as often as that works and uses up something. -/
def manyFrom (r : Reader α) (bs : Bytes) : List α × Bytes :=
  match r.run bs with
  | some (a, rest) =>
    if _h : rest.length < bs.length then
      let others := manyFrom r rest
      (a :: others.1, others.2)
    else ([], bs)
  | none => ([], bs)
termination_by bs.length

def many (r : Reader α) : Reader (List α) := fun bs => some (manyFrom r bs)

def many1 (r : Reader α) : Reader (List α) := do
  let all ← many r
  if all.isEmpty then fail else return all

def atEnd : Reader Bool := fun bs => some (bs.isEmpty, bs)

/-- The reader must use up everything. -/
def whole (r : Reader α) : Reader α := do
  let a ← r
  if ← atEnd then return a else fail

/-- The header that comes next, without taking it. -/
def peek : Reader (Option Header) := fun bs => some ((header? bs).map (·.1), bs)

/-- Runs a reader if the next element is the context-specific one with this number. -/
def ifContext (number : Nat) (r : Reader α) : Reader (Option α) := do
  if ← atEnd then return none
  match ← peek with
  | none => fail
  | some h => if h.tagClass = 2 && h.tag = number then return some (← r) else return none

def oid : Reader Bytes := do
  let e ← element
  if e.tag = oidTag && !e.constructed then return e.contents else fail

def trailingZeros (b : UInt8) : Nat :=
  ((List.range 8).takeWhile fun i => b.toNat >>> i % 2 = 0).length

/-- The bytes of a bit string, whose unused bits are zero. -/
def bits? : Bytes → Option Bytes
  | [] => none
  | unused :: bs =>
    match bs.getLast? with
    | none => if unused = 0 then some [] else none
    | some last => if trailingZeros last < unused.toNat then none else some bs

def bitString : Reader Bytes := do
  let e ← element
  if e.tag = bitStringTag && !e.constructed then (bits? e.contents : Option Bytes) else fail

/-- A number of at most 32 bits in the fewest bytes. -/
def uint32? (bs : Bytes) : Option Nat :=
  match bs with
  | [] => none
  | [b] => if b.toNat < 128 then some b.toNat else none
  | a :: b :: _ =>
    if a.toNat ≥ 128 || (a = 0 && b.toNat < 128) then none
    else
      let n := Bytes.ofBigEndian bs
      if n < 4294967296 then some n else none

def uint32 : Reader Nat := do
  let e ← element
  if e.tag = integerTag && !e.constructed then (uint32? e.contents : Option Nat) else fail

/-- Skips a truth value, if one comes next. -/
def skipBoolean : Reader Unit := fun bs =>
  match (element.run bs : Option (Element × Bytes)) with
  | some (e, rest) =>
    if e.tag = booleanTag && (e.contents = [0] || e.contents = [255]) then some ((), rest)
    else some ((), bs)
  | none => some ((), bs)

end CertBroker.Der
