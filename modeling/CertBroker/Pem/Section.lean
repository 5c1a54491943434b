import CertBroker.Pem

namespace CertBroker.Pem

inductive SectionKind where
  | certificate
  | publicKey
  | rsaPrivateKey
  | privateKey
  | ecPrivateKey
  | revocationList
  | certificateRequest
  | helloConfiguration
deriving DecidableEq, Repr

namespace SectionKind

def label : SectionKind → String
  | .certificate => "CERTIFICATE"
  | .publicKey => "PUBLIC KEY"
  | .rsaPrivateKey => "RSA PRIVATE KEY"
  | .privateKey => "PRIVATE KEY"
  | .ecPrivateKey => "EC PRIVATE KEY"
  | .revocationList => "X509 CRL"
  | .certificateRequest => "CERTIFICATE REQUEST"
  | .helloConfiguration => "ECHCONFIG"

def all : List SectionKind :=
  [.certificate, .publicKey, .rsaPrivateKey, .privateKey, .ecPrivateKey, .revocationList,
    .certificateRequest, .helloConfiguration]

def ofLabel? (label : Bytes) : Option SectionKind :=
  all.find? fun k => Utf8.encode k.label = label

end SectionKind

structure TlsSection where
  kind : SectionKind
  contents : Bytes
deriving DecidableEq

inductive SectionFault where
  /-- A first line that does not end in five dashes. -/
  | opening
  | unclosed
  | contents
deriving DecidableEq, Repr

def endsLine (b : UInt8) : Bool := b = 10 || b = 13

/-- The lines of a text, each with the byte that ends it. -/
def endedLines : Bytes → List Bytes
  | [] => []
  | b :: rest =>
    if endsLine b then [b] :: endedLines rest
    else match endedLines rest with
      | [] => [[b]]
      | line :: lines => (b :: line) :: lines

/-- The label of a line that begins a section, if it is such a line. -/
def opening? (line : Bytes) : Option (Except SectionFault Bytes) :=
  if beginMarker.isPrefixOf line then
    let trailer := line.reverse.takeWhile fun b => b = 45 || b = 32 || endsLine b
    let unmarked := (trailer.reverse.dropWhile (· ≠ 45)).length
    if trailer.count 45 = 5 then
      some (.ok ((line.take (line.length - unmarked)).drop beginMarker.length))
    else some (.error .opening)
  else none

def closes (label line : Bytes) : Bool := (endMarker ++ label ++ dashes).isPrefixOf line

/-- Blanks may stand anywhere. -/
def isSkipped (b : UInt8) : Bool := (9 ≤ b.toNat && b.toNat ≤ 13) || b = 32

/-- The value of a symbol, where padding counts as zero. -/
def paddedValue? (b : UInt8) : Option Nat := if b = Base64.pad then some 0 else Base64.value? b

/-- Groups of four values, three bytes each. -/
def joinQuads : List Nat → Bytes
  | a :: b :: c :: d :: rest => Base64.joinQuad a b c d ++ joinQuads rest
  | _ => []

/-- Base64 of whole groups with at most two padding symbols at the end, whose unused bits may be
anything. -/
def looseBase64? (bs : Bytes) : Option Bytes := do
  let symbols := bs.filter fun b => !isSkipped b
  let pads := (symbols.reverse.takeWhile (· = Base64.pad)).length
  if symbols.length % 4 = 0 && pads ≤ 2 && symbols.count Base64.pad = pads then
    let decoded := joinQuads (← symbols.mapM paddedValue?)
    return decoded.take (decoded.length - pads)
  else none

/-- A section that is being read. -/
structure OpenSection where
  label : Bytes
  /-- The lines so far. -/
  data : Bytes

/-- Reads lines. A line that begins a section inside of another one only changes the label. -/
def sectionsFrom (current : Option OpenSection) :
    List Bytes → Except SectionFault (List TlsSection)
  | [] => if current.isSome then .error .unclosed else .ok []
  | line :: lines =>
    match opening? line with
    | some (.error fault) => .error fault
    | some (.ok label) => sectionsFrom (some ⟨label, (current.map (·.data)).getD []⟩) lines
    | none =>
      match current with
      | none => sectionsFrom none lines
      | some s =>
        if closes s.label line then
          match SectionKind.ofLabel? s.label with
          | none => sectionsFrom none lines
          | some kind =>
            match looseBase64? s.data with
            | none => .error .contents
            | some contents => return ⟨kind, contents⟩ :: (← sectionsFrom none lines)
        else sectionsFrom (some { s with data := s.data ++ line }) lines

/-- The sections of known kinds; the first fault counts. -/
def sections (bs : Bytes) : Except SectionFault (List TlsSection) :=
  sectionsFrom none (endedLines bs)

theorem sections_eq_nil {bs : Bytes} (h : ∀ line ∈ endedLines bs, opening? line = none) :
    sections bs = .ok [] := by
  unfold sections
  generalize endedLines bs = lines at h
  induction lines with
  | nil => rfl
  | cons line lines ih =>
    rw [List.forall_mem_cons] at h
    simp only [sectionsFrom, h.1]
    exact ih h.2

end CertBroker.Pem
