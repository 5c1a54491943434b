import CertBroker.Base64
import CertBroker.Text.Blank

namespace CertBroker.Pem

structure Block where
  tag : String
  /-- The header lines as written. -/
  headers : List String := []
  contents : Bytes
deriving DecidableEq

inductive Fault where
  /-- There is no block at all. -/
  | framing
  | missingBegin
  | missingEnd
  | mismatch (opening closing : String)
  | data (fault : Base64.Fault)
  | header (line : String)
  | utf8 (fault : Utf8.Fault)
deriving DecidableEq, Repr

def Fault.message : Fault → String
  | .framing => "malformedframing"
  | .missingBegin => "missing BEGIN tag"
  | .missingEnd => "missing END tag"
  | .mismatch a b => "mismatching BEGIN (\"" ++ a ++ "\") and END (\"" ++ b ++ "\") tags"
  | .data f => "invalid data: " ++ f.message
  | .header line => "invalid header: " ++ line
  | .utf8 f => "invalid utf-8 value: " ++ f.message

/-- Looks for the next place where a marker was matched byte by byte; after a mismatch matching
starts over with the byte that follows. `left` is what is left of the marker, `passed` holds all
bytes so far in reverse. The answer is what stands before and after the marker. -/
def scanFrom (marker : Bytes) : (left passed : Bytes) → Bytes → Option (Bytes × Bytes)
  | m :: left, passed, b :: rest =>
    if b == m then
      if left.isEmpty then some ((passed.drop (marker.length - 1)).reverse, rest)
      else scanFrom marker left (b :: passed) rest
    else scanFrom marker marker (b :: passed) rest
  | _, _, _ => none

def scan (marker bs : Bytes) : Option (Bytes × Bytes) := scanFrom marker marker [] bs

theorem scanFrom_length {marker left passed bs found rest : Bytes}
    (h : scanFrom marker left passed bs = some (found, rest)) : rest.length < bs.length := by
  induction bs generalizing left passed with
  | nil => cases left <;> simp [scanFrom] at h
  | cons b bs ih =>
    cases left with
    | nil => simp [scanFrom] at h
    | cons m left =>
      simp only [scanFrom] at h
      split at h
      · split at h
        · simp only [Option.some.injEq, Prod.mk.injEq] at h
          simp [h.2]
        · have := ih h
          simp only [List.length_cons]
          omega
      · have := ih h
        simp only [List.length_cons]
        omega

theorem scan_length {marker bs found rest : Bytes} (h : scan marker bs = some (found, rest)) :
    rest.length < bs.length :=
  scanFrom_length h

def beginMarker : Bytes := Utf8.encode "-----BEGIN "

def endMarker : Bytes := Utf8.encode "-----END "

def dashes : Bytes := Utf8.encode "-----"

def skipBlanks (bs : Bytes) : Bytes :=
  bs.dropWhile fun b => b == 32 || b == 9 || b == 10 || b == 13

theorem skipBlanks_length (bs : Bytes) : (skipBlanks bs).length ≤ bs.length :=
  (List.dropWhile_sublist _).length_le

/-- A block as framed, before anything in it is read. -/
structure Frame where
  opening : Bytes
  headers : Bytes
  data : Bytes
  closing : Bytes

/-- Headers end at the first empty line. -/
def splitHeaders (body : Bytes) : Bytes × Bytes :=
  match scan [10, 10] body with
  | some parts => parts
  | none => (scan [13, 10, 13, 10] body).getD ([], body)

/-- The next block and what follows it. -/
def frame? (bs : Bytes) : Option (Frame × Bytes) :=
  match scan beginMarker bs with
  | none => none
  | some (_, bs) =>
    match scan dashes bs with
    | none => none
    | some (opening, bs) =>
      match scan endMarker (skipBlanks bs) with
      | none => none
      | some (body, bs) =>
        match scan dashes bs with
        | none => none
        | some (closing, bs) =>
          let (headers, data) := splitHeaders body
          some (⟨opening, headers, data, closing⟩, skipBlanks bs)

theorem frame?_length {bs rest : Bytes} {f : Frame} (h : frame? bs = some (f, rest)) :
    rest.length < bs.length := by
  unfold frame? at h
  split at h
  · cases h
  next h1 =>
    split at h
    · cases h
    next h2 =>
      split at h
      · cases h
      next h3 =>
        split at h
        · cases h
        next h4 =>
          simp only [Option.some.injEq, Prod.mk.injEq] at h
          have h1 := scan_length h1
          have h2 := scan_length h2
          have h3 := scan_length h3
          have h4 := scan_length h4
          have h5 := skipBlanks_length ‹Bytes›
          rw [← h.2]
          have := skipBlanks_length
          grind

def utf8 (bs : Bytes) : Except Fault String := (Utf8.decode bs).mapError .utf8

/-- The lines of a text; each ends at a line feed, with a carriage return before it dropped. -/
def lines (s : String) : List String :=
  let parts := (s.toList.splitOn '\n')
  let parts := if parts.getLast? = some [] then parts.dropLast else parts
  parts.map fun cs => String.ofList (if cs.getLast? = some '\r' then cs.dropLast else cs)

/-- Header lines hold a colon. -/
def checkHeaders : List String → Except Fault Unit
  | [] => .ok ()
  | line :: rest => if line.toList.contains ':' then checkHeaders rest else .error (.header line)

/-- Reads a framed block. Blanks of any kind may stand between the symbols. -/
def readBlock (f : Frame) : Except Fault Block := do
  let tag ← utf8 f.opening
  if tag.isEmpty then throw .missingBegin
  let closing ← utf8 f.closing
  if closing.isEmpty then throw .missingEnd
  if tag ≠ closing then throw (.mismatch tag closing)
  let data ← utf8 f.data
  let symbols := String.ofList (data.toList.filter fun c => !Text.isBlank c)
  let contents ← (Base64.decodeText symbols).mapError .data
  let headers := lines (← utf8 f.headers)
  checkHeaders headers
  return { tag, headers, contents }

def frames (bs : Bytes) : List Frame :=
  match _h : frame? bs with
  | none => []
  | some (f, rest) => f :: frames rest
termination_by bs.length
decreasing_by exact frame?_length _h

/-- All blocks of a text; the first faulty one counts. -/
def blocks (bs : Bytes) : Except Fault (List Block) := (frames bs).mapM readBlock

def first (bs : Bytes) : Except Fault Block :=
  match frame? bs with
  | some (f, _) => readBlock f
  | none => .error .framing

/-- Cuts a list into pieces of a length, where the last piece may be shorter. -/
def pieces (length : Nat) (cs : List α) : List (List α) :=
  if cs.isEmpty || length = 0 then []
  else cs.take length :: pieces length (cs.drop length)
termination_by cs.length
decreasing_by
  rename_i h
  simp only [Bool.or_eq_true, List.isEmpty_iff, decide_eq_true_eq, not_or] at h
  have := List.length_pos_iff.mpr h.1
  simp only [List.length_drop]
  omega

def line (s : String) : String := s ++ "\n"

def Block.text (b : Block) : String :=
  let headers :=
    if b.headers.isEmpty then ""
    else String.join (b.headers.map fun h => line (Text.trim h)) ++ "\n"
  let body := (pieces 64 (Base64.encode b.contents).toList).map fun cs => line (String.ofList cs)
  line ("-----BEGIN " ++ b.tag ++ "-----") ++ headers ++ String.join body
    ++ line ("-----END " ++ b.tag ++ "-----")

end CertBroker.Pem
