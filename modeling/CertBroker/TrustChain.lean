import CertBroker.Pem
import CertBroker.X509.Certificate

namespace CertBroker

/-- A chain the way a request stores it: the leaf with intermediates, and the root apart. -/
structure TrustChain where
  certificate : String
  ca : Option String
deriving DecidableEq

namespace TrustChain

/-- Each element of a list together with the others. -/
def choices : List α → List (α × List α)
  | [] => []
  | a :: rest => (a, rest) :: (choices rest).map fun c => (c.1, a :: c.2)

theorem choices_length {l : List α} {c : α × List α} (h : c ∈ choices l) :
    c.2.length + 1 = l.length := by
  induction l generalizing c with
  | nil => simp [choices] at h
  | cons a rest ih =>
    simp only [choices, List.mem_cons, List.mem_map] at h
    rcases h with rfl | ⟨d, hd, rfl⟩
    · simp
    · simp [ih hd]

/-- The first element with a property, and the others. -/
def takeOut (p : α → Bool) (l : List α) : Option (α × List α) := (choices l).find? (p ·.1)

theorem takeOut_length {p : α → Bool} {l others : List α} {a : α}
    (h : takeOut p l = some (a, others)) : others.length < l.length := by
  have := choices_length (List.mem_of_find?_eq_some h)
  simp only at this
  omega

/-- Follows issuers from one element through all others, up to the first root. -/
def follow (issues : α → α → Bool) (isRoot : α → Bool) (current : α) (others : List α) :
    Option (List α) :=
  if isRoot current then if others.isEmpty then some [current] else none
  else match _h : takeOut (issues · current) others with
    | some (next, rest) => (follow issues isRoot next rest).map (current :: ·)
    | none => if others.isEmpty then some [current] else none
termination_by others.length
decreasing_by exact takeOut_length _h

/-- The order from the leaf on. The leaf is the first element that issues none of the others. -/
def arrange (issues : α → α → Bool) (isRoot : α → Bool) (l : List α) : Option (List α) :=
  match (choices l).find? fun c => !c.2.any (issues c.1) with
  | some (leaf, others) => follow issues isRoot leaf others
  | none => none

/-- Splits off a root at the end, unless it stands alone. -/
def splitRoot (isRoot : α → Bool) (order : List α) : List α × Option α :=
  match order.getLast? with
  | some last =>
    if 1 < order.length && isRoot last then (order.dropLast, some last) else (order, none)
  | none => (order, none)

inductive Fault where
  | pem (fault : Pem.Fault)
  | empty
  | certificate
  | disconnected
deriving DecidableEq

def Fault.message : Fault → String
  | .pem fault => "invalid PEM: " ++ fault.message
  | .empty => "no certificate found"
  | .certificate => "invalid certificate: <x509>"
  | .disconnected => "certificates do not form a single chain"

structure Link where
  block : Pem.Block
  certificate : X509.Certificate
deriving DecidableEq

namespace Link

def ofBlock? (b : Pem.Block) : Option Link := (X509.Certificate.ofDer? b.contents).map (⟨b, ·⟩)

def issues (issuer l : Link) : Bool := l.certificate.isIssuedBy issuer.certificate

def isRoot (l : Link) : Bool := l.certificate.isSelfSigned

end Link

def certificateTag : String := "CERTIFICATE"

/-- The certificates of a bundle, one block each. -/
def certificateBlocks (bundle : Bytes) : Except Pem.Fault (List Pem.Block) :=
  (Pem.blocks bundle).map fun bs => bs.filter fun b => b.tag = certificateTag

def texts (ls : List Link) : String := String.join (ls.map (·.block.text))

def ofLinks (links : List Link) : Except Fault TrustChain :=
  match arrange Link.issues Link.isRoot links with
  | none => .error .disconnected
  | some order =>
    let (chain, root) := splitRoot Link.isRoot order
    .ok ⟨texts chain, root.map (·.block.text)⟩

/-- Orders the certificates of a bundle. -/
def build (bundle : Bytes) : Except Fault TrustChain :=
  match certificateBlocks bundle with
  | .error fault => .error (.pem fault)
  | .ok [] => .error .empty
  | .ok blocks =>
    match blocks.mapM Link.ofBlock? with
    | none => .error .certificate
    | some links => ofLinks links

def leafText? (bundle : Bytes) : Option String :=
  match certificateBlocks bundle with
  | .ok (b :: _) => some b.text
  | _ => none

/-- The chain, or only the first certificate, or the bundle as it is. -/
def buildOrLeaf (bundle : String) : TrustChain :=
  match build (Utf8.encode bundle) with
  | .ok chain => chain
  | .error _ => ⟨(leafText? (Utf8.encode bundle)).getD bundle, none⟩

end TrustChain

end CertBroker
