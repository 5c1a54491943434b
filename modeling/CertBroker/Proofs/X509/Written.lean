import CertBroker.Proofs.Der.Written
import CertBroker.Proofs.Text.Utf8
import CertBroker.X509.SigningRequest

namespace CertBroker

open Der

namespace Der.Element

/-- An element whose tag fits into its first byte. -/
structure Plain (e : Element) : Prop where
  tagClass : e.tagClass < 4
  tag : e.tag < 31

instance (e : Element) : Decidable e.Plain :=
  decidable_of_iff (e.tagClass < 4 ∧ e.tag < 31) ⟨fun h => ⟨h.1, h.2⟩, fun h => ⟨h.1, h.2⟩⟩

def first (e : Element) : UInt8 :=
  UInt8.ofNat (e.tagClass * 64 + (if e.constructed then 32 else 0) + e.tag)

def bytes (e : Element) : Bytes := bytesOf e.first e.contents

theorem Plain.reads {e : Element} (h : e.Plain) (hs : Sized e.contents) :
    Reads element e.bytes e := by
  obtain ⟨tagClass, constructed, tag, contents⟩ := e
  obtain ⟨hclass, htag⟩ := h
  simp only at hclass htag hs
  have hfirst : (first ⟨tagClass, constructed, tag, contents⟩).toNat =
      tagClass * 64 + (if constructed then 32 else 0) + tag := by
    simp only [first, UInt8.toNat_ofNat']
    split <;> omega
  have helement : elementOf (first ⟨tagClass, constructed, tag, contents⟩) contents =
      ⟨tagClass, constructed, tag, contents⟩ := by
    rw [elementOf, hfirst]
    cases constructed <;> simp <;> omega
  have hlow : (first ⟨tagClass, constructed, tag, contents⟩).toNat % 32 ≠ 31 := by
    rw [hfirst]
    split <;> omega
  have hread := reads_element hlow hs
  rwa [helement] at hread

end Der.Element

namespace X509

namespace NameAttribute

def bytes (a : NameAttribute) : Bytes := bytesOf 0x30 (bytesOf 0x06 a.type ++ a.value.bytes)

theorem reads {a : NameAttribute} (h : a.value.Plain) (hs : Sized a.bytes) :
    Reads nameAttribute a.bytes a := by
  have hinner := hs.contents
  have htype := reads_oid hinner.left.contents
  have hvalue := h.reads hinner.right.contents
  refine reads_inSequence hinner (htype.bind (hvalue.last ?_)).all
  rfl

end NameAttribute

/-- The bytes of one relative part of a name. -/
def partBytes (part : List NameAttribute) : Bytes := bytesOf 0x31 (part.flatMap NameAttribute.bytes)

/-- The bytes of a name with these parts. -/
def nameBytes (parts : List (List NameAttribute)) : Bytes := bytesOf 0x30 (parts.flatMap partBytes)

theorem reads_part {part : List NameAttribute} (hne : part ≠ []) (h : ∀ a ∈ part, a.value.Plain)
    (hs : Sized (partBytes part)) : Reads (inSet (many1 nameAttribute)) (partBytes part) part := by
  have hmany := run_many1 hne
    (fun a ha => NameAttribute.reads (h a ha) (hs.contents.of_mem_flatMap ha))
    (fun a _ => bytesOf_ne_nil _ _)
  rw [List.map_id'] at hmany
  exact reads_inSet hs.contents hmany

theorem reads_name {parts : List (List NameAttribute)}
    (h : ∀ part ∈ parts, part ≠ [] ∧ ∀ a ∈ part, a.value.Plain) (hs : Sized (nameBytes parts)) :
    Reads name (nameBytes parts) ⟨parts, nameBytes parts⟩ := by
  have hmany := run_many
    (fun part hp => reads_part (h part hp).1 (h part hp).2 (hs.contents.of_mem_flatMap hp))
    (fun part _ => bytesOf_ne_nil _ _)
  rw [List.map_id'] at hmany
  exact (reads_within 0x30 sequenceTag (by decide) rfl hs.contents hmany).last rfl

namespace Algorithm

def bytes (a : Algorithm) : Bytes :=
  bytesOf 0x30 (bytesOf 0x06 a.id ++ (a.parameters.map Element.bytes).getD [])

theorem reads {a : Algorithm} (h : ∀ e ∈ a.parameters, e.Plain) (hs : Sized a.bytes) :
    Reads algorithm a.bytes a := by
  obtain ⟨id, parameters⟩ := a
  have hinner := hs.contents
  refine reads_inSequence hinner ((run_bind (reads_oid hinner.left.contents _)).trans ?_)
  cases parameters with
  | none => rfl
  | some e =>
    have hmore : (atEnd.run e.bytes : Option (Bool × Bytes)) = some (false, e.bytes) := rfl
    refine (run_bind hmore).trans (Reads.all (((h e rfl).reads hinner.right.contents).last ?_))
    rfl

end Algorithm

/-- The bytes of bits in whole bytes. -/
def bitBytes (bs : Bytes) : Bytes := bytesOf 0x03 (0 :: bs)

def PublicKey.bytes (k : PublicKey) : Bytes := bytesOf 0x30 (k.algorithm.bytes ++ bitBytes k.key)

theorem PublicKey.reads {k : PublicKey} (h : ∀ e ∈ k.algorithm.parameters, e.Plain)
    (hs : Sized k.bytes) : Reads publicKey k.bytes k := by
  have hinner := hs.contents
  have halgorithm := Algorithm.reads h hinner.left
  have hkey := reads_bitString hinner.right.contents
  refine reads_inSequence hinner (halgorithm.bind (hkey.last ?_)).all
  rfl

namespace Extension

def bytes (x : Extension) : Bytes := bytesOf 0x30 (bytesOf 0x06 x.id ++ bytesOf 0x04 x.value)

/-- An extension that is not marked as critical goes on with its value. -/
theorem run_skipBoolean {value : Bytes} (hs : Sized value) (rest : Bytes) :
    (skipBoolean.run (bytesOf 0x04 value ++ rest) : Option (Unit × Bytes)) =
      some ((), bytesOf 0x04 value ++ rest) := by
  have helement : Reads element (bytesOf 0x04 value) _ := reads_element (by decide) hs
  change skipBoolean _ = _
  unfold skipBoolean
  rw [helement rest]
  rfl

theorem reads {x : Extension} (hs : Sized x.bytes) : Reads extension x.bytes x := by
  have hinner := hs.contents
  have hvalue := hinner.right.contents
  refine reads_inSequence hinner ((run_bind (reads_oid hinner.left.contents _)).trans ?_)
  have hskip := run_skipBoolean hvalue []
  rw [List.append_nil] at hskip
  have hread : Reads (contents octetStringTag) (bytesOf 0x04 x.value) x.value :=
    reads_contents (by decide) rfl hvalue
  refine (run_bind hskip).trans (hread.last ?_).all
  rfl

end Extension

/-- The bytes of a list of extensions. -/
def extensionsBytes (xs : List Extension) : Bytes := bytesOf 0x30 (xs.flatMap Extension.bytes)

theorem reads_extensions {xs : List Extension} (hs : Sized (extensionsBytes xs)) :
    Reads extensions (extensionsBytes xs) xs := by
  have hmany := run_many
    (fun x hx => Extension.reads (hs.contents.of_mem_flatMap hx)) fun x _ => bytesOf_ne_nil _ _
  rw [List.map_id'] at hmany
  exact reads_inSequence hs.contents (run_whole hmany)

namespace SigningRequest

/-- The bytes of an attribute that asks for these extensions. -/
def requestBytes (xs : List Extension) : Bytes :=
  bytesOf 0x30 (bytesOf 0x06 extensionRequestType ++ bytesOf 0x31 (extensionsBytes xs))

theorem reads_requestAttribute {xs : List Extension} (hs : Sized (requestBytes xs)) :
    Reads requestAttribute (requestBytes xs) (some xs) := by
  have hinner := hs.contents
  have hset := hinner.right.contents
  have hheader := reads_header 0x31 (by decide) hset (extensionsBytes xs)
  refine reads_inSequence hinner ((run_bind (reads_oid (by decide) _)).trans ?_)
  refine (run_bind hheader).trans (Reads.all ((reads_extensions hset).last ?_))
  rfl

/-- The bytes of the attributes of a request for these extensions, empty if there are none. -/
def attributesBytes (xs : List Extension) : Bytes :=
  bytesOf 0xa0 (if xs.isEmpty then [] else requestBytes xs)

theorem run_attributes {xs : List Extension} (hs : Sized (attributesBytes xs)) :
    (attributes.run (attributesBytes xs) : Option (List Extension × Bytes)) = some (xs, []) := by
  cases xs with
  | nil =>
    -- Nothing is left behind the header, and that stands for no attributes.
    have hheader := reads_header 0xa0 (by decide) hs.contents []
    exact (run_bind hheader).trans rfl
  | cons x xs =>
    have hheader := reads_header 0xa0 (by decide) hs.contents (requestBytes (x :: xs))
    have hmore : (atEnd.run (requestBytes (x :: xs)) : Option (Bool × Bytes)) =
        some (false, requestBytes (x :: xs)) := rfl
    have hmany := run_many_one (reads_requestAttribute hs.contents) (bytesOf_ne_nil _ _)
    refine (run_bind hheader).trans ((run_bind hmore).trans ?_)
    exact (run_bind (run_whole hmany)).trans rfl

theorem sized_of_mem {xs : List Extension} {x : Extension} (hs : Sized (attributesBytes xs))
    (hx : x ∈ xs) : Sized x.value := by
  have hne : xs.isEmpty = false := by
    cases xs with
    | nil => cases hx
    | cons => rfl
  rw [attributesBytes, hne] at hs
  have hrequest : Sized (requestBytes xs) := hs.contents
  exact (hrequest.contents.right.contents.contents.of_mem_flatMap hx).contents.right.contents

end SigningRequest

def dnsBytes (name : String) : Bytes := bytesOf 0x82 (Utf8.encode name)

theorem reads_generalName {text : String} (hs : Sized (dnsBytes text)) :
    Reads generalName (dnsBytes text) (.dns text) := by
  have hname : generalName? (elementOf 0x82 (Utf8.encode text)) = some (.dns text) := by
    change (utf8? (Utf8.encode text)).map GeneralName.dns = _
    rw [utf8?, Utf8.decode_encode]
    rfl
  refine (reads_element (by decide) hs.contents).last ?_
  rw [hname]
  rfl

namespace Extension

/-- The extension for these DNS names. -/
def forNames (names : List String) : Extension :=
  ⟨alternativeNameType, bytesOf 0x30 (names.flatMap dnsBytes)⟩

theorem dnsNames_forNames {names : List String} (hs : Sized (forNames names).value) :
    (forNames names).dnsNames = names := by
  have hmany := run_many (fun n hn => reads_generalName (hs.contents.of_mem_flatMap hn))
    fun n _ => bytesOf_ne_nil _ _
  have htype : (forNames names).id = alternativeNameType := rfl
  have hread : ((inSequence (whole (many generalName))).run (forNames names).value :
      Option (List GeneralName × Bytes)) = some (names.map .dns, []) :=
    (reads_inSequence hs.contents (run_whole hmany)).all
  rw [dnsNames, if_pos htype, hread]
  exact List.filterMap_map.trans List.filterMap_some

end Extension

/-- What a signing request is made of. -/
structure RequestForm where
  subject : List (List NameAttribute)
  publicKey : PublicKey
  dnsNames : List String
  others : List Extension
  signatureAlgorithm : Algorithm
  signature : Bytes

namespace RequestForm

variable {f : RequestForm}

def extensions (f : RequestForm) : List Extension :=
  (if f.dnsNames.isEmpty then [] else [.forNames f.dnsNames]) ++ f.others

def infoBytes (f : RequestForm) : Bytes :=
  bytesOf 0x30 (bytesOf 0x02 [0] ++ (nameBytes f.subject ++ (f.publicKey.bytes ++
    SigningRequest.attributesBytes f.extensions)))

def bytes (f : RequestForm) : Bytes :=
  bytesOf 0x30 (f.infoBytes ++ (f.signatureAlgorithm.bytes ++ bitBytes f.signature))

/-- The form in PEM. -/
def pem (f : RequestForm) : Pem.Block where
  tag := "CERTIFICATE REQUEST"
  contents := f.bytes

/-- Every part of the form can be written. -/
structure Proper (f : RequestForm) : Prop where
  sized : Sized f.bytes
  parts : ∀ part ∈ f.subject, part ≠ [] ∧ ∀ a ∈ part, a.value.Plain
  key : ∀ e ∈ f.publicKey.algorithm.parameters, e.Plain
  signature : ∀ e ∈ f.signatureAlgorithm.parameters, e.Plain
  others : ∀ x ∈ f.others, x.id ≠ alternativeNameType

theorem Proper.sized_attributes (h : f.Proper) :
    Sized (SigningRequest.attributesBytes f.extensions) :=
  h.sized.contents.left.contents.right.right.right

theorem Proper.dnsNames_extensions (h : f.Proper) :
    f.extensions.flatMap Extension.dnsNames = f.dnsNames := by
  have hothers : f.others.flatMap Extension.dnsNames = [] := by
    refine List.flatMap_eq_nil_iff.mpr fun x hx => ?_
    rw [Extension.dnsNames, if_neg (h.others x hx)]
  rw [extensions, List.flatMap_append, hothers, List.append_nil]
  split
  next hempty => exact (List.isEmpty_iff.mp hempty).symm
  next hsome =>
    have hmem : Extension.forNames f.dnsNames ∈ f.extensions := by
      rw [extensions, if_neg hsome]
      exact List.mem_append_left _ (List.mem_singleton_self _)
    have hsized := SigningRequest.sized_of_mem h.sized_attributes hmem
    rw [List.flatMap_singleton, Extension.dnsNames_forNames hsized]

/-- What is read of a form. -/
def request (f : RequestForm) : SigningRequest :=
  ⟨⟨f.subject, nameBytes f.subject⟩, f.extensions⟩

theorem Proper.reads_info (h : f.Proper) : Reads SigningRequest.info f.infoBytes f.request := by
  have hinner := h.sized.contents.left.contents
  have hversion : Reads uint32 (bytesOf 0x02 [0]) 0 :=
    (reads_element (by decide) (by decide)).last rfl
  have hname := reads_name h.parts hinner.right.left
  have hkey := PublicKey.reads h.key hinner.right.right.left
  have hattributes := SigningRequest.run_attributes h.sized_attributes
  refine reads_inSequence hinner ((run_bind (hversion _)).trans ?_)
  exact (run_bind (hname _)).trans ((run_bind (hkey _)).trans ((run_bind hattributes).trans rfl))

/-- A request that is written is read back. -/
theorem Proper.ofDer?_bytes (h : f.Proper) : SigningRequest.ofDer? f.bytes = some f.request := by
  have hinner := h.sized.contents
  have halgorithm := Algorithm.reads h.signature hinner.right.left
  have hsignature := reads_bitString hinner.right.right.contents
  have hread : Reads SigningRequest.request f.bytes f.request := by
    refine reads_inSequence hinner (h.reads_info.bind (halgorithm.bind (hsignature.last ?_))).all
    rfl
  rw [SigningRequest.ofDer?, hread.all]
  rfl

end RequestForm

end X509

end CertBroker
