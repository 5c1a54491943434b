import CertBroker.Proofs.Pem.Block
import CertBroker.Proofs.X509.Written
import Mathlib.Data.List.Basic

namespace CertBroker.X509

namespace SigningRequest

variable {seen l : List String} {text : String}

theorem mem_distinctFrom : text ∈ distinctFrom seen l ↔ text ∈ l ∧ text ∉ seen := by
  induction l generalizing seen with
  | nil => simp [distinctFrom]
  | cons n l ih =>
    rw [distinctFrom]
    split
    next hseen =>
      have hn : n ∈ seen := List.contains_iff_mem.mp hseen
      rw [ih, List.mem_cons]
      grind
    next hnew =>
      have hn : n ∉ seen := fun h => hnew (List.contains_iff_mem.mpr h)
      rw [List.mem_cons, ih, List.mem_cons, List.mem_cons]
      grind

theorem nodup_distinctFrom (seen l : List String) : (distinctFrom seen l).Nodup := by
  induction l generalizing seen with
  | nil => exact List.nodup_nil
  | cons n l ih =>
    rw [distinctFrom]
    split
    next => exact ih seen
    next =>
      refine List.nodup_cons.mpr ⟨fun h => ?_, ih (n :: seen)⟩
      exact (mem_distinctFrom.mp h).2 List.mem_cons_self

/-- Texts stand in the order in which they come first in a list. -/
def InFirstOrder (l names : List String) : Prop :=
  names.Pairwise fun a b => l.idxOf a < l.idxOf b

theorem InFirstOrder.cons {names : List String} {n : String} (h : InFirstOrder l names)
    (hn : n ∉ names) : InFirstOrder (n :: l) names := by
  refine List.Pairwise.imp_of_mem (fun {a b} ha hb hless => ?_) h
  have hne (c : String) (hc : c ∈ names) : n ≠ c := fun he => hn (he ▸ hc)
  rw [List.idxOf_cons_ne l (hne a ha), List.idxOf_cons_ne l (hne b hb)]
  exact Nat.succ_lt_succ hless

theorem inFirstOrder_distinctFrom (seen l : List String) :
    InFirstOrder l (distinctFrom seen l) := by
  induction l generalizing seen with
  | nil => exact .nil
  | cons n l ih =>
    rw [distinctFrom]
    split
    next hseen =>
      refine (ih seen).cons fun h => ?_
      exact (mem_distinctFrom.mp h).2 (List.contains_iff_mem.mp hseen)
    next =>
      have hnew : n ∉ distinctFrom (n :: seen) l := fun h =>
        (mem_distinctFrom.mp h).2 List.mem_cons_self
      refine List.pairwise_cons.mpr ⟨fun b hb => ?_, (ih (n :: seen)).cons hnew⟩
      rw [List.idxOf_cons_self, List.idxOf_cons_ne l fun (he : n = b) => hnew (he ▸ hb)]
      exact Nat.succ_pos _

end SigningRequest

/-- The string types that are read: UTF8String, NumericString, PrintableString and IA5String. -/
def readableTags : List Nat := [12, 18, 19, 22]

theorem stringText?_eq_some_iff {e : Der.Element} {text : String} :
    stringText? e = some text ↔ e.tag ∈ readableTags ∧ Utf8.decode e.contents = .ok text := by
  have htag : (e.tag = 12 || e.tag = 18 || e.tag = 19 || e.tag = 22) = true ↔
      e.tag ∈ readableTags := by simp [readableTags, or_assoc]
  unfold stringText?
  split
  next h =>
    cases Utf8.decode e.contents <;> simp [htag.mp h, Except.toOption]
  next h => simp [← htag, h]

/-- A value of a common name anywhere in a name. -/
def Name.IsCommonName (n : Name) (value : Der.Element) : Prop :=
  ∃ part ∈ n.parts, ⟨commonNameType, value⟩ ∈ part

theorem Name.mem_commonNames {n : Name} {text : String} : text ∈ n.commonNames ↔
    ∃ value, n.IsCommonName value ∧ value.tag ∈ readableTags ∧
      Utf8.decode value.contents = .ok text := by
  simp only [commonNames, List.mem_filterMap, List.mem_filter, List.mem_flatten,
    decide_eq_true_eq, stringText?_eq_some_iff]
  constructor
  · rintro ⟨⟨type, value⟩, ⟨⟨part, hpart, ha⟩, rfl⟩, hread⟩
    exact ⟨value, ⟨part, hpart, ha⟩, hread⟩
  · rintro ⟨value, ⟨part, hpart, ha⟩, hread⟩
    exact ⟨⟨commonNameType, value⟩, ⟨⟨part, hpart, ha⟩, rfl⟩, hread⟩

/-- The alternative names of an extension that holds them, if all of them can be read. -/
def Extension.alternativeNames? (x : Extension) : Option (List GeneralName) :=
  ((Der.inSequence (Der.whole (Der.many generalName))).run x.value :
    Option (List GeneralName × Bytes)).map (·.1)

theorem Extension.mem_dnsNames {x : Extension} {text : String} : text ∈ x.dnsNames ↔
    x.id = alternativeNameType ∧ ∃ names, x.alternativeNames? = some names ∧ .dns text ∈ names := by
  unfold dnsNames alternativeNames?
  split
  next htype =>
    split
    next names rest hread =>
      simp only [hread, List.mem_filterMap, Option.map_some, Option.some.injEq, htype, true_and,
        exists_eq_left']
      constructor
      · rintro ⟨name, hname, hdns⟩
        split at hdns
        next =>
          cases hdns
          exact hname
        next => cases hdns
      · exact fun h => ⟨.dns text, h, rfl⟩
    next hread => simp [hread]
  next htype => simp [htype]

/-- A DNS name that a request asks for as an alternative. -/
def SigningRequest.IsAlternative (r : SigningRequest) (text : String) : Prop :=
  ∃ x ∈ r.extensions, x.id = alternativeNameType ∧
    ∃ names, x.alternativeNames? = some names ∧ .dns text ∈ names

theorem SigningRequest.mem_names {r : SigningRequest} {text : String} : text ∈ r.names ↔
    (text ≠ "" ∧ ∃ value, r.subject.IsCommonName value ∧ value.tag ∈ readableTags ∧
      Utf8.decode value.contents = .ok text) ∨ r.IsAlternative text := by
  simp only [names, mem_distinctFrom, List.not_mem_nil, not_false_iff, and_true, allNames,
    List.mem_append, List.mem_filter, List.mem_flatMap, Name.mem_commonNames,
    Extension.mem_dnsNames, IsAlternative, Bool.not_eq_eq_eq_not, Bool.not_true,
    String.isEmpty_eq_false_iff]
  rw [and_comm]

theorem subjectNames_eq_ok {pem : Bytes} {names : List String}
    (h : subjectNames pem = .ok names) : ∃ block r, Pem.first pem = .ok block ∧
      SigningRequest.ofDer? block.contents = some r ∧ names = r.names := by
  unfold subjectNames at h
  split at h
  next => cases h
  next block hblock =>
    split at h
    next r hr =>
      cases h
      exact ⟨block, r, hblock, hr, rfl⟩
    next => cases h

/-- The names of a request in PEM are those of its DER. -/
theorem subjectNames_text {b : Pem.Block} {r : SigningRequest} (hheaders : b.headers = [])
    (htag : '-' ∉ b.tag.toList) (hne : b.tag ≠ "")
    (hr : SigningRequest.ofDer? b.contents = some r) :
    subjectNames (Utf8.encode b.text) = .ok r.names := by
  have hfirst := Pem.first_text (Pem.Block.writable_of_headers_eq_nil hheaders) htag hne
  rw [subjectNames, hfirst]
  simp only [Pem.Block.trimmed, hr]

namespace RequestForm

/-- A text of a common name in one of the types that are read. -/
def HasCommonName (f : RequestForm) (text : String) : Prop :=
  ∃ part ∈ f.subject, ∃ value, ⟨commonNameType, value⟩ ∈ part ∧ value.tag ∈ readableTags ∧
    Utf8.decode value.contents = .ok text

theorem Proper.mem_names {f : RequestForm} (h : f.Proper) {text : String} :
    text ∈ f.request.names ↔ (text ≠ "" ∧ f.HasCommonName text) ∨ text ∈ f.dnsNames := by
  have hdns : f.request.IsAlternative text ↔ text ∈ f.dnsNames := by
    rw [← h.dnsNames_extensions, List.mem_flatMap]
    simp only [SigningRequest.IsAlternative, Extension.mem_dnsNames]
    rfl
  have hcommon : (∃ value, f.request.subject.IsCommonName value ∧ value.tag ∈ readableTags ∧
      Utf8.decode value.contents = .ok text) ↔ f.HasCommonName text := by
    constructor
    · rintro ⟨value, ⟨part, hpart, ha⟩, hread⟩
      exact ⟨part, hpart, value, ha, hread⟩
    · rintro ⟨part, hpart, value, ha, hread⟩
      exact ⟨value, ⟨part, hpart, ha⟩, hread⟩
  rw [SigningRequest.mem_names, hcommon, hdns]

theorem Proper.subjectNames_pem {f : RequestForm} (h : f.Proper) :
    subjectNames (Utf8.encode f.pem.text) = .ok f.request.names :=
  subjectNames_text rfl (by simp [pem]) (by simp [pem]) h.ofDer?_bytes

end RequestForm

/-- The names of a request are each there once, and they are all the common names that are
UTF8Strings, NumericStrings, PrintableStrings or IA5Strings, not empty and valid, before all DNS
names of the alternative names that can be read. A request that is written has all its names of
these types. -/
theorem subjectNames_of_request (pem : Bytes) :
    (∀ names, subjectNames pem = .ok names → ∃ block r, Pem.first pem = .ok block ∧
      SigningRequest.ofDer? block.contents = some r ∧ names.Nodup ∧
      (∀ text, text ∈ names ↔ (text ≠ "" ∧ ∃ value, r.subject.IsCommonName value ∧
        value.tag ∈ readableTags ∧ Utf8.decode value.contents = .ok text) ∨
        r.IsAlternative text) ∧
      SigningRequest.InFirstOrder (r.subject.commonNames.filter (fun n => !n.isEmpty) ++
        r.extensions.flatMap Extension.dnsNames) names) ∧
    ∀ f : RequestForm, f.Proper → pem = Utf8.encode f.pem.text →
      ∃ names, subjectNames pem = .ok names ∧
        ∀ text, text ∈ names ↔ (text ≠ "" ∧ f.HasCommonName text) ∨ text ∈ f.dnsNames := by
  refine ⟨fun names h => ?_, fun f hf hpem => ?_⟩
  · obtain ⟨block, r, hblock, hr, rfl⟩ := subjectNames_eq_ok h
    exact ⟨block, r, hblock, hr, SigningRequest.nodup_distinctFrom [] r.allNames,
      fun _ => SigningRequest.mem_names, SigningRequest.inFirstOrder_distinctFrom [] r.allNames⟩
  · exact ⟨_, hpem ▸ hf.subjectNames_pem, fun _ => hf.mem_names⟩

/-- A common name in a string type. -/
def commonName (tag : Nat) (text : String) : NameAttribute :=
  ⟨commonNameType, ⟨0, false, tag, Utf8.encode text⟩⟩

/-- A request for the common names `a` and none, and the alternative names `b`, `a` and `c`. -/
def sampleForm : RequestForm where
  subject := [[commonName 19 "a"], [commonName 12 ""]]
  publicKey := ⟨⟨[43, 101, 112], none⟩, [1]⟩
  dnsNames := ["b", "a", "c"]
  others := []
  signatureAlgorithm := ⟨[43, 101, 112], none⟩
  signature := [1]

/-- Of the two names `a` the first is kept, and the empty common name is none. -/
theorem subjectNames_sampleForm :
    sampleForm.Proper ∧ subjectNames (Utf8.encode sampleForm.pem.text) = .ok ["a", "b", "c"] ∧
      (∃ block r, Pem.first (Utf8.encode sampleForm.pem.text) = .ok block ∧
        SigningRequest.ofDer? block.contents = some r ∧
        SigningRequest.InFirstOrder (r.subject.commonNames.filter (fun n => !n.isEmpty) ++
          r.extensions.flatMap Extension.dnsNames) ["a", "b", "c"]) ∧
      ∀ text, text ∈ ["a", "b", "c"] ↔
        (text ≠ "" ∧ sampleForm.HasCommonName text) ∨ text ∈ ["b", "a", "c"] := by
  have hproper : sampleForm.Proper :=
    ⟨by decide +kernel, by decide, by decide, by decide, by decide⟩
  have hnames : sampleForm.request.names = ["a", "b", "c"] := by decide +kernel
  have hok := hproper.subjectNames_pem
  rw [hnames] at hok
  obtain ⟨hall, hwritten⟩ := subjectNames_of_request (Utf8.encode sampleForm.pem.text)
  obtain ⟨block, r, hblock, hr, -, -, horder⟩ := hall _ hok
  obtain ⟨names, hok', hmem⟩ := hwritten sampleForm hproper rfl
  cases Except.ok.inj (hok.symm.trans hok')
  exact ⟨hproper, hok, ⟨block, r, hblock, hr, horder⟩, hmem⟩

/-- A signing request whose common name `web.example.com` is a BMPString. -/
def sampleUnicode : Pem.Block where
  tag := "CERTIFICATE REQUEST"
  contents :=
    [48, 129, 165, 48, 129, 139, 2, 1, 0, 48, 41, 49, 39, 48, 37, 6, 3, 85, 4, 3, 30, 30, 0, 119,
      0, 101, 0, 98, 0, 46, 0, 101, 0, 120, 0, 97, 0, 109, 0, 112, 0, 108, 0, 101, 0, 46, 0, 99,
      0, 111, 0, 109, 48, 89, 48, 19, 6, 7, 42, 134, 72, 206, 61, 2, 1, 6, 8, 42, 134, 72, 206,
      61, 3, 1, 7, 3, 66, 0, 4, 255, 61, 72, 238, 105, 72, 198, 109, 97, 219, 141, 116, 186, 60,
      138, 50, 164, 124, 245, 186, 25, 31, 196, 114, 74, 84, 113, 121, 127, 1, 134, 168, 48, 228,
      48, 160, 211, 130, 171, 248, 0, 252, 33, 249, 194, 69, 234, 57, 121, 245, 254, 168, 31, 78,
      45, 162, 166, 209, 24, 195, 62, 55, 50, 105, 160, 0, 48, 10, 6, 8, 42, 134, 72, 206, 61, 4,
      3, 2, 3, 9, 0, 48, 6, 2, 1, 1, 2, 1, 1]

/-- A text of 16-bit units, high byte first. -/
def unicodeText : Bytes → List Char
  | high :: low :: rest => Char.ofNat (high.toNat * 256 + low.toNat) :: unicodeText rest
  | _ => []

/-- The value of that common name. -/
def sampleValue : Der.Element where
  tagClass := 0
  constructed := false
  tag := 30
  contents := [0, 119, 0, 101, 0, 98, 0, 46, 0, 101, 0, 120, 0, 97, 0, 109, 0, 112, 0, 108, 0, 101,
    0, 46, 0, 99, 0, 111, 0, 109]

/-- The only common name of this request is passed over, and so the request has no names. -/
theorem subjectNames_sampleUnicode :
    ∃ r, SigningRequest.ofDer? sampleUnicode.contents = some r ∧
      r.subject.IsCommonName sampleValue ∧
      String.ofList (unicodeText sampleValue.contents) = "web.example.com" ∧
      subjectNames (Utf8.encode sampleUnicode.text) = .ok [] := by
  have hread : (SigningRequest.ofDer? sampleUnicode.contents).map
      (fun r => (r.subject.parts, r.names)) = some ([[⟨commonNameType, sampleValue⟩]], []) := by
    decide +kernel
  obtain ⟨r, hr, hfields⟩ := Option.map_eq_some_iff.mp hread
  obtain ⟨hparts, hnames⟩ := Prod.mk.inj hfields
  have hok := subjectNames_text (b := sampleUnicode) rfl (by decide) (by decide) hr
  rw [hnames] at hok
  exact ⟨r, hr, ⟨_, hparts ▸ List.mem_singleton_self _, List.mem_singleton_self _⟩, by decide, hok⟩

end CertBroker.X509
