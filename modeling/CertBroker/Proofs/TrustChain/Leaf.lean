import CertBroker.Proofs.TrustChain.Ordering

namespace CertBroker.TrustChain

/-- A certificate issues none of the others of a bundle, and it is the only such certificate. -/
structure SoleLeaf (links : List Link) (leaf : Link) : Prop where
  issuesNone : ∃ c ∈ choices links, c.1 = leaf ∧ ∀ l ∈ c.2, Link.issues c.1 l = false
  sole : ∀ c ∈ choices links, (∀ l ∈ c.2, Link.issues c.1 l = false) → c.1 = leaf

instance (links : List Link) (leaf : Link) : Decidable (SoleLeaf links leaf) :=
  decidable_of_iff
    ((∃ c ∈ choices links, c.1 = leaf ∧ ∀ l ∈ c.2, Link.issues c.1 l = false) ∧
      ∀ c ∈ choices links, (∀ l ∈ c.2, Link.issues c.1 l = false) → c.1 = leaf)
    ⟨fun h => ⟨h.1, h.2⟩, fun h => ⟨h.issuesNone, h.sole⟩⟩

/-- A stored text begins with a certificate, which is the one that is found in the text again. -/
structure Leads (l : Link) (stored : String) : Prop where
  starts : l.block.text.toList <+: stored.toList
  found : leafText? (Utf8.encode stored) = some l.block.text

variable {bundle : Bytes} {bs : List Pem.Block} {links : List Link} {leaf first : Link}

theorem build_eq_of_links (hbs : certificateBlocks bundle = .ok bs)
    (hlinks : bs.mapM Link.ofBlock? = some links) (hne : links ≠ []) :
    build bundle = ofLinks links := by
  cases bs with
  | nil =>
    cases hlinks
    exact absurd rfl hne
  | cons b bs => simp only [build, hbs, hlinks]

/-- Every chain begins with the only leaf. -/
theorem SoleLeaf.head_of_arrange {order : List Link} (h : SoleLeaf links leaf)
    (horder : arrange Link.issues Link.isRoot links = some order) :
    ∃ rest, order = leaf :: rest := by
  unfold arrange at horder
  split at horder
  next first others hfound =>
    have hissues : ∀ l ∈ others, Link.issues first l = false := by
      have hnone := List.find?_some hfound
      simpa using hnone
    have hfirst : first = leaf := h.sole _ (List.mem_of_find?_eq_some hfound) hissues
    obtain ⟨hhead, -, -⟩ := follow_linked horder
    obtain ⟨rest, rfl⟩ := List.head?_eq_some_iff.mp hhead
    exact ⟨rest, by rw [hfirst]⟩
  next => cases horder

theorem SoleLeaf.mem (h : SoleLeaf links leaf) : leaf ∈ links := by
  obtain ⟨c, hc, rfl, -⟩ := h.issuesNone
  exact (choices_perm hc).subset List.mem_cons_self

theorem block_mem (hlinks : bs.mapM Link.ofBlock? = some links) {l : Link} (hl : l ∈ links) :
    l.block ∈ bs := by
  rw [← blocks_of_links hlinks]
  exact List.mem_map_of_mem hl

/-- Texts of certificates of a bundle lead with the first of them. -/
theorem leads_texts (hbs : certificateBlocks bundle = .ok bs)
    (hlinks : bs.mapM Link.ofBlock? = some links) {stored : List Link}
    (hsub : first :: stored ⊆ links) : Leads first (texts (first :: stored)) := by
  constructor
  · rw [texts, List.map_cons, String.join_cons, String.toList_append]
    exact List.prefix_append ..
  · rw [texts_eq, List.map_cons]
    refine leafText?_texts fun b hb => ?_
    rw [← List.map_cons (f := fun l : Link => l.block)] at hb
    obtain ⟨link, hlink, rfl⟩ := List.mem_map.mp hb
    exact of_mem_certificateBlocks hbs (block_mem hlinks (hsub hlink))

theorem leads_of_ofLinks (hbs : certificateBlocks bundle = .ok bs)
    (hlinks : bs.mapM Link.ofBlock? = some links) (h : SoleLeaf links leaf) {chain : TrustChain}
    (hchain : ofLinks links = .ok chain) : Leads leaf chain.certificate := by
  obtain ⟨order, horder, hcertificate⟩ := ofLinks_certificate hchain
  obtain ⟨rest, rfl⟩ := h.head_of_arrange horder
  obtain ⟨stored, hstored, hsub⟩ := splitRoot_cons Link.isRoot leaf rest
  rw [hcertificate, hstored]
  refine leads_texts hbs hlinks fun l hl => (arrange_perm horder).subset ?_
  exact List.cons_subset_cons leaf hsub hl

theorem certificate_of_block (hlinks : bs.mapM Link.ofBlock? = some links) {l : Link}
    (hl : l ∈ links) : X509.Certificate.ofDer? l.block.contents = some l.certificate := by
  induction bs generalizing links with
  | nil =>
    cases hlinks
    cases hl
  | cons b bs ih =>
    simp only [List.mapM_cons, Option.bind_eq_bind, Option.bind_eq_some_iff] at hlinks
    obtain ⟨head, hhead, others, hothers, hlinks⟩ := hlinks
    cases hlinks
    rcases List.mem_cons.mp hl with rfl | hl
    · obtain ⟨certificate, hread, rfl⟩ := Option.map_eq_some_iff.mp hhead
      exact hread
    · exact ih hothers hl

/-- Of two blocks with one text, both have the same certificate. -/
theorem certificate_of_text (hbs : certificateBlocks bundle = .ok bs)
    (hlinks : bs.mapM Link.ofBlock? = some links) {l : Link} (hfirst : first ∈ links)
    (hl : l ∈ links) (htext : first.block.text = l.block.text) :
    first.certificate = l.certificate := by
  have hread {k : Link} (hk : k ∈ links) :
      certificateBlocks (Utf8.encode k.block.text) = .ok [k.block.trimmed] := by
    have halone : ∀ b ∈ [k.block], b.Writable ∧ b.tag = certificateTag := by
      intro b hb
      rw [List.mem_singleton.mp hb]
      exact of_mem_certificateBlocks hbs (block_mem hlinks hk)
    simpa [Pem.texts] using certificateBlocks_texts halone
  have hsame := (hread hfirst).symm.trans (htext ▸ hread hl)
  have hcontents : first.block.contents = l.block.contents := by
    injection hsame with hsame
    have htrimmed : first.block.trimmed.contents = l.block.trimmed.contents := by
      rw [(List.cons.inj hsame).1]
    exact htrimmed
  have hfound := certificate_of_block hlinks hfirst
  rw [hcontents, certificate_of_block hlinks hl] at hfound
  exact (Option.some.inj hfound).symm

theorem Link.issues_congr {k l m : Link} (h : k.certificate = l.certificate) :
    Link.issues k m = Link.issues l m := by
  rw [Link.issues, Link.issues, h]

/-- The first certificate with the leaf's contents is the leaf. -/
theorem SoleLeaf.eq_of_certificate (h : SoleLeaf links leaf) {rest : List Link}
    (hlinks : links = first :: rest) (hsame : first.certificate = leaf.certificate) :
    first = leaf := by
  by_contra hne
  obtain ⟨⟨l, others⟩, hc, rfl, hnone⟩ := h.issuesNone
  have hperm := choices_perm hc
  have hothers : first ∈ others := by
    have hmem := hperm.symm.subset (hlinks ▸ List.mem_cons_self)
    exact (List.mem_cons.mp hmem).resolve_left hne
  have hself : Link.issues l l = false := by
    have hfirst := hnone first hothers
    rwa [Link.issues, hsame] at hfirst
  refine hne (h.sole (first, rest) (by rw [hlinks]; exact List.mem_cons_self) fun k hk => ?_)
  have hmem : k ∈ l :: others := hperm.symm.subset (hlinks ▸ List.mem_cons_of_mem first hk)
  rw [Link.issues_congr hsame]
  rcases List.mem_cons.mp hmem with rfl | hk
  · exact hself
  · exact hnone k hk

/-- Without a chain the first certificate is stored. -/
theorem buildOrLeaf_of_fault {bundle : String} {fault : Fault}
    (hbs : certificateBlocks (Utf8.encode bundle) = .ok bs)
    (hlinks : bs.mapM Link.ofBlock? = some (first :: links))
    (hfault : ofLinks (first :: links) = .error fault) :
    buildOrLeaf bundle = ⟨first.block.text, none⟩ := by
  have hbuild := build_eq_of_links hbs hlinks (List.cons_ne_nil first links)
  have hhead : bs = first.block :: links.map (·.block) := (blocks_of_links hlinks).symm
  simp only [buildOrLeaf, hbuild, hfault, leafText?, hbs, hhead, Option.getD_some]

/-- What is stored of a bundle begins with its only leaf exactly if a chain is built, or the bundle
begins with the leaf. Otherwise the first certificate is stored, and it issues another one. -/
theorem leads_of_soleLeaf {bundle : String} {bs : List Pem.Block} {links : List Link} {leaf : Link}
    (hbs : certificateBlocks (Utf8.encode bundle) = .ok bs)
    (hlinks : bs.mapM Link.ofBlock? = some links) (h : SoleLeaf links leaf) :
    (Leads leaf (buildOrLeaf bundle).certificate ↔
      (∃ chain, build (Utf8.encode bundle) = .ok chain) ∨ links.head? = some leaf) ∧
    (build (Utf8.encode bundle) = .error .disconnected ∨
      ∃ chain, build (Utf8.encode bundle) = .ok chain) ∧
    (build (Utf8.encode bundle) = .error .disconnected → links.head? ≠ some leaf →
      ∃ first others, links = first :: others ∧ others.any (Link.issues first) = true ∧
        buildOrLeaf bundle = ⟨first.block.text, none⟩ ∧
        Leads first (buildOrLeaf bundle).certificate) := by
  have hbuild := build_eq_of_links hbs hlinks (List.ne_nil_of_mem h.mem)
  obtain ⟨first, others, rfl⟩ := List.exists_cons_of_ne_nil (List.ne_nil_of_mem h.mem)
  have hleads : Leads first first.block.text := by
    have halone : first :: [] ⊆ first :: others := by simp
    simpa [texts] using leads_texts hbs hlinks halone
  have hstored {fault : Fault} (hfault : ofLinks (first :: others) = .error fault) :
      buildOrLeaf bundle = ⟨first.block.text, none⟩ := buildOrLeaf_of_fault hbs hlinks hfault
  rw [hbuild]
  refine ⟨?_, ?_, fun hfault hhead => ⟨first, others, rfl, ?_, hstored hfault, ?_⟩⟩
  · cases hchain : ofLinks (first :: others) with
    | ok chain =>
      have hmade : buildOrLeaf bundle = chain := by simp only [buildOrLeaf, hbuild, hchain]
      rw [hmade]
      exact iff_of_true (leads_of_ofLinks hbs hlinks h hchain) (.inl ⟨chain, rfl⟩)
    | error fault =>
      rw [hstored hchain]
      simp only [List.head?_cons, Option.some.injEq, reduceCtorEq, exists_false, false_or]
      constructor
      · intro hled
        have htext := Option.some.inj (hleads.found.symm.trans hled.found)
        exact h.eq_of_certificate rfl
          (certificate_of_text hbs hlinks List.mem_cons_self h.mem htext)
      · rintro rfl
        exact hleads
  · unfold ofLinks
    split
    next => exact .inl rfl
    next => exact .inr ⟨_, rfl⟩
  · by_contra hnone
    refine hhead (congrArg some (h.sole (first, others) List.mem_cons_self fun l hl => ?_))
    simp only [List.any_eq_true, not_exists, not_and, Bool.not_eq_true] at hnone
    exact hnone l hl
  · rw [hstored hfault]
    exact hleads

/-- L, and twice M, which issued it. -/
def sampleDoubled : List Pem.Block := [sampleBlock 77 76, sampleBlock 82 77, sampleBlock 82 77]

theorem mem_sampleDoubled {b : Pem.Block} (hb : b ∈ sampleDoubled) :
    b.Writable ∧ b.tag = certificateTag := by
  simp only [sampleDoubled, List.mem_cons, List.not_mem_nil, or_false] at hb
  rcases hb with rfl | rfl | rfl <;> exact ⟨Pem.Block.writable_of_headers_eq_nil rfl, rfl⟩

def sampleDoubledLinks : List Link := (sampleDoubled.mapM Link.ofBlock?).getD []

/-- With the leaf at its beginning, the bundle is stored as the leaf alone. -/
theorem leads_of_sampleDoubled :
    certificateBlocks (Utf8.encode (Pem.texts sampleDoubled)) = .ok sampleDoubled ∧
      sampleDoubled.mapM Link.ofBlock? = some sampleDoubledLinks ∧
      ∃ leaf, SoleLeaf sampleDoubledLinks leaf ∧ leaf.block = sampleBlock 77 76 ∧
        build (Utf8.encode (Pem.texts sampleDoubled)) = .error .disconnected ∧
        Leads leaf (buildOrLeaf (Pem.texts sampleDoubled)).certificate := by
  have hbs : certificateBlocks (Utf8.encode (Pem.texts sampleDoubled)) = .ok sampleDoubled :=
    certificateBlocks_texts fun b hb => mem_sampleDoubled hb
  have hlinks : sampleDoubled.mapM Link.ofBlock? = some sampleDoubledLinks := by decide +kernel
  obtain ⟨leaf, hhead, hblock, hsole⟩ : ∃ leaf ∈ sampleDoubledLinks.head?,
      leaf.block = sampleBlock 77 76 ∧ SoleLeaf sampleDoubledLinks leaf := by decide +kernel
  have hfault : ofLinks sampleDoubledLinks = .error .disconnected := by decide +kernel
  have hbuild := build_eq_of_links hbs hlinks (List.ne_nil_of_mem hsole.mem)
  exact ⟨hbs, hlinks, leaf, hsole, hblock, hbuild.trans hfault,
    (leads_of_soleLeaf hbs hlinks hsole).1.mpr (.inr hhead)⟩

/-- With the leaf between the others, a certificate that issued it is stored in its place. -/
theorem leads_of_rotated :
    let bundle := Pem.texts (sampleDoubled.rotate 2)
    let links := sampleDoubledLinks.rotate 2
    certificateBlocks (Utf8.encode bundle) = .ok (sampleDoubled.rotate 2) ∧
      (sampleDoubled.rotate 2).mapM Link.ofBlock? = some links ∧
      ∃ leaf, SoleLeaf links leaf ∧
        buildOrLeaf bundle = ⟨(sampleBlock 82 77).text, none⟩ ∧
        (∃ l ∈ links, l.block = sampleBlock 82 77 ∧ Link.issues l leaf = true) ∧
        ¬ leaf.block.text.toList <+: (buildOrLeaf bundle).certificate.toList := by
  intro bundle links
  have hbs : certificateBlocks (Utf8.encode bundle) = .ok (sampleDoubled.rotate 2) :=
    certificateBlocks_texts fun b hb => mem_sampleDoubled (List.mem_rotate.mp hb)
  have hlinks : (sampleDoubled.rotate 2).mapM Link.ofBlock? = some links := by decide +kernel
  obtain ⟨leaf, -, hsole, hblock, hissues⟩ : ∃ leaf ∈ links, SoleLeaf links leaf ∧
      leaf.block = sampleBlock 77 76 ∧
      ∃ l ∈ links, l.block = sampleBlock 82 77 ∧ Link.issues l leaf = true := by decide +kernel
  obtain ⟨first, hhead, hfirst⟩ : ∃ first ∈ links.head?, first.block = sampleBlock 82 77 := by
    decide +kernel
  obtain ⟨others, hothers⟩ := List.head?_eq_some_iff.mp hhead
  have hfault : ofLinks links = .error .disconnected := by decide +kernel
  have hstored : buildOrLeaf bundle = ⟨first.block.text, none⟩ :=
    buildOrLeaf_of_fault hbs (hlinks.trans (congrArg some hothers)) (hothers ▸ hfault)
  rw [hfirst] at hstored
  refine ⟨hbs, hlinks, leaf, hsole, hstored, hissues, ?_⟩
  rw [hstored, hblock]
  intro hstarts
  have htag : '-' ∉ certificateTag.toList ∧ certificateTag ≠ "" := by decide
  have hsame := Pem.Block.trimmed_eq_of_prefix (a := sampleBlock 77 76) (b := sampleBlock 82 77)
    (Pem.Block.writable_of_headers_eq_nil rfl) (Pem.Block.writable_of_headers_eq_nil rfl)
    htag htag hstarts
  exact absurd hsame (by decide)

end CertBroker.TrustChain
