import CertBroker.TrustChain
import CertBroker.Proofs.Pem.Block

namespace CertBroker

theorem Pem.Block.text_ne_empty (b : Pem.Block) : b.text ≠ "" := by
  simp [Pem.Block.text, Pem.line]

namespace TrustChain

variable {α : Type} {issues : α → α → Bool} {isRoot : α → Bool} {l order others : List α}

theorem choices_perm {c : α × List α} (h : c ∈ choices l) : (c.1 :: c.2).Perm l := by
  induction l generalizing c with
  | nil => cases h
  | cons a rest ih =>
    rcases List.mem_cons.mp h with rfl | h
    · exact List.Perm.refl _
    · obtain ⟨d, hd, rfl⟩ := List.mem_map.mp h
      exact (List.Perm.swap _ _ _).trans ((ih hd).cons a)

/-- Following issuers leaves out none of the others. -/
theorem follow_perm {current : α} (h : follow issues isRoot current others = some order) :
    order.Perm (current :: others) := by
  induction current, others using follow.induct issues isRoot generalizing order with
  | case1 current others hroot hend =>
    rw [follow, if_pos hroot, if_pos hend] at h
    cases h
    rw [List.isEmpty_iff.mp hend]
  | case2 current others hroot hend =>
    rw [follow, if_pos hroot, if_neg hend] at h
    cases h
  | case3 current others hroot next rest hnext ih =>
    rw [follow, if_neg hroot] at h
    split at h
    next hsome =>
      rw [hnext] at hsome
      cases hsome
      obtain ⟨later, hlater, rfl⟩ := Option.map_eq_some_iff.mp h
      exact ((ih hlater).trans (choices_perm (List.mem_of_find?_eq_some hnext))).cons current
    next hnone => simp [hnext] at hnone
  | case4 current others hroot hnext hend =>
    rw [follow, if_neg hroot] at h
    split at h
    next hsome => simp [hnext] at hsome
    next =>
      rw [if_pos hend] at h
      cases h
      rw [List.isEmpty_iff.mp hend]
  | case5 current others hroot hnext hend =>
    rw [follow, if_neg hroot] at h
    split at h
    next hsome => simp [hnext] at hsome
    next =>
      rw [if_neg hend] at h
      cases h

/-- A chain holds every certificate, once. -/
theorem arrange_perm (h : arrange issues isRoot l = some order) : order.Perm l := by
  unfold arrange at h
  split at h
  next hfound => exact (follow_perm h).trans (choices_perm (List.mem_of_find?_eq_some hfound))
  next => cases h

theorem arrange_ne_nil (h : arrange issues isRoot l = some order) : order ≠ [] := by
  rintro rfl
  rw [List.nil_perm.mp (arrange_perm h)] at h
  simp [arrange, choices] at h

theorem splitRoot_ne_nil (h : order ≠ []) : (splitRoot isRoot order).1 ≠ [] := by
  unfold splitRoot
  split
  next =>
    split
    next hlong =>
      have hlength : 1 < order.length := by simpa using And.left (by simpa using hlong)
      intro hnil
      have := congrArg List.length hnil
      simp at this
      omega
    next => exact h
  next => exact h

theorem texts_ne_empty {ls : List Link} (h : ls ≠ []) : texts ls ≠ "" := by
  cases ls with
  | nil => exact absurd rfl h
  | cons l rest =>
    intro hempty
    rw [texts, List.map_cons, String.join_cons, String.append_eq_empty_iff] at hempty
    exact l.block.text_ne_empty hempty.1

theorem ofLinks_certificate {links : List Link} {chain : TrustChain}
    (h : ofLinks links = .ok chain) : ∃ order, arrange Link.issues Link.isRoot links = some order ∧
      chain.certificate = texts (splitRoot Link.isRoot order).1 := by
  unfold ofLinks at h
  split at h
  next => cases h
  next order horder =>
    cases h
    exact ⟨order, horder, rfl⟩

theorem ofLinks_certificate_ne_empty {links : List Link} {chain : TrustChain}
    (h : ofLinks links = .ok chain) : chain.certificate ≠ "" := by
  obtain ⟨order, horder, hcertificate⟩ := ofLinks_certificate h
  rw [hcertificate]
  exact texts_ne_empty (splitRoot_ne_nil (arrange_ne_nil horder))

theorem build_certificate_ne_empty {bundle : Bytes} {chain : TrustChain}
    (h : build bundle = .ok chain) : chain.certificate ≠ "" := by
  unfold build at h
  split at h
  next => cases h
  next => cases h
  next =>
    split at h
    next => cases h
    next => exact ofLinks_certificate_ne_empty h

theorem leafText?_ne_empty {bundle : Bytes} {leaf : String} (h : leafText? bundle = some leaf) :
    leaf ≠ "" := by
  unfold leafText? at h
  split at h
  next b _ _ =>
    cases h
    exact b.text_ne_empty
  next => cases h

/-- Only the empty bundle leaves nothing to store. -/
theorem buildOrLeaf_certificate_eq_empty_iff {bundle : String} :
    (buildOrLeaf bundle).certificate = "" ↔ bundle = "" := by
  constructor
  · intro h
    unfold buildOrLeaf at h
    split at h
    next chain hchain => exact absurd h (build_certificate_ne_empty hchain)
    next =>
      cases hleaf : leafText? (Utf8.encode bundle) with
      | some leaf =>
        rw [hleaf] at h
        exact absurd h (leafText?_ne_empty hleaf)
      | none =>
        rw [hleaf] at h
        exact h
  · rintro rfl
    decide +kernel

theorem of_mem_certificateBlocks {bundle : Bytes} {bs : List Pem.Block} {b : Pem.Block}
    (h : certificateBlocks bundle = .ok bs) (hb : b ∈ bs) :
    b.Writable ∧ b.tag = certificateTag := by
  unfold certificateBlocks at h
  cases hread : Pem.blocks bundle with
  | error fault => simp [hread, Except.map] at h
  | ok read =>
    simp only [hread, Except.map, Except.ok.injEq] at h
    rw [← h] at hb
    obtain ⟨hb, htag⟩ := List.mem_filter.mp hb
    exact ⟨Pem.writable_of_mem_blocks hread hb, by simpa using htag⟩

theorem certificateBlocks_texts {bs : List Pem.Block}
    (h : ∀ b ∈ bs, b.Writable ∧ b.tag = certificateTag) :
    certificateBlocks (Utf8.encode (Pem.texts bs)) = .ok (bs.map Pem.Block.trimmed) := by
  have hdash : '-' ∉ certificateTag.toList := by decide
  have hempty : certificateTag ≠ "" := by decide
  have hread := Pem.blocks_texts (fun b hb => (h b hb).1) (fun b hb => (h b hb).2 ▸ hdash)
    (fun b hb => (h b hb).2 ▸ hempty)
  have hall : (bs.map Pem.Block.trimmed).filter (fun b => b.tag = certificateTag) =
      bs.map Pem.Block.trimmed := by
    refine List.filter_eq_self.mpr fun t ht => ?_
    obtain ⟨b, hb, rfl⟩ := List.mem_map.mp ht
    exact decide_eq_true (h b hb).2
  rw [certificateBlocks, hread, Except.map, hall]

/-- Of certificates that were read and are written again, the first is found. -/
theorem leafText?_texts {b : Pem.Block} {bs : List Pem.Block}
    (h : ∀ c ∈ b :: bs, c.Writable ∧ c.tag = certificateTag) :
    leafText? (Utf8.encode (Pem.texts (b :: bs))) = some b.text := by
  rw [leafText?, certificateBlocks_texts h, List.map_cons]
  simp [Pem.Block.text_trimmed]

/-- What is stored without the root begins with the leaf. -/
theorem splitRoot_cons (isRoot : α → Bool) (leaf : α) (rest : List α) :
    ∃ chain, (splitRoot isRoot (leaf :: rest)).1 = leaf :: chain ∧ chain ⊆ rest := by
  unfold splitRoot
  split
  next last hlast =>
    split
    next hsplit =>
      cases rest with
      | nil => simp at hsplit
      | cons next rest => exact ⟨_, rfl, (List.dropLast_sublist _).subset⟩
    next => exact ⟨rest, rfl, List.Subset.refl _⟩
  next => exact ⟨rest, rfl, List.Subset.refl _⟩

/-- The certificate that comes first in the chain of a bundle. -/
def IsLeaf (bundle : Bytes) (leaf : Link) : Prop :=
  ∃ bs links rest, certificateBlocks bundle = .ok bs ∧ bs.mapM Link.ofBlock? = some links ∧
    arrange Link.issues Link.isRoot links = some (leaf :: rest)

theorem IsLeaf.unique {bundle : Bytes} {leaf leaf' : Link} (h : IsLeaf bundle leaf)
    (h' : IsLeaf bundle leaf') : leaf = leaf' := by
  obtain ⟨bs, links, rest, hbs, hlinks, horder⟩ := h
  obtain ⟨bs', links', rest', hbs', hlinks', horder'⟩ := h'
  cases hbs.symm.trans hbs'
  cases hlinks.symm.trans hlinks'
  cases horder.symm.trans horder'
  rfl

theorem blocks_of_links {bs : List Pem.Block} {links : List Link}
    (h : bs.mapM Link.ofBlock? = some links) : links.map (·.block) = bs := by
  induction bs generalizing links with
  | nil =>
    cases h
    rfl
  | cons b bs ih =>
    simp only [List.mapM_cons, Option.bind_eq_bind, Option.bind_eq_some_iff] at h
    obtain ⟨first, hfirst, others, hothers, h⟩ := h
    cases h
    obtain ⟨certificate, -, rfl⟩ := Option.map_eq_some_iff.mp hfirst
    rw [List.map_cons, ih hothers]

/-- The text that tells the PKI which certificate of a bundle is meant. -/
inductive Identifies (bundle : String) : String → Prop
  | leaf {chain : TrustChain} {leaf : Link} (h : build (Utf8.encode bundle) = .ok chain)
      (hl : IsLeaf (Utf8.encode bundle) leaf) : Identifies bundle leaf.block.text
  | first {fault : Fault} {b : Pem.Block} {bs : List Pem.Block}
      (h : build (Utf8.encode bundle) = .error fault)
      (hb : certificateBlocks (Utf8.encode bundle) = .ok (b :: bs)) : Identifies bundle b.text
  | whole {fault : Fault} (h : build (Utf8.encode bundle) = .error fault)
      (hn : ∀ b bs, certificateBlocks (Utf8.encode bundle) ≠ .ok (b :: bs)) :
      Identifies bundle bundle

theorem Identifies.unique {bundle text text' : String} (h : Identifies bundle text)
    (h' : Identifies bundle text') : text = text' := by
  cases h with
  | leaf hbuild hl =>
    cases h' with
    | leaf _ hl' => rw [hl.unique hl']
    | first hfails => simp [hbuild] at hfails
    | whole hfails => simp [hbuild] at hfails
  | first hfails hb =>
    cases h' with
    | leaf hbuild => simp [hbuild] at hfails
    | first _ hb' =>
      cases hb.symm.trans hb'
      rfl
    | whole _ hn => exact absurd hb (hn _ _)
  | whole hfails hn =>
    cases h' with
    | leaf hbuild => simp [hbuild] at hfails
    | first _ hb => exact absurd hb (hn _ _)
    | whole => rfl

theorem texts_eq (ls : List Link) : texts ls = Pem.texts (ls.map (·.block)) := by
  rw [texts, Pem.texts, List.map_map]
  rfl

/-- A chain is stored leaf first, and the leaf is found in what is stored. -/
theorem leafText?_build {bundle : Bytes} {chain : TrustChain} (h : build bundle = .ok chain) :
    ∃ leaf, IsLeaf bundle leaf ∧
      leafText? (Utf8.encode chain.certificate) = some leaf.block.text := by
  unfold build at h
  split at h
  next => cases h
  next => cases h
  next bs _ hbs =>
    split at h
    next => cases h
    next links hlinks =>
      obtain ⟨order, horder, hcertificate⟩ := ofLinks_certificate h
      cases order with
      | nil => exact absurd rfl (arrange_ne_nil horder)
      | cons leaf rest =>
        refine ⟨leaf, ⟨bs, links, rest, hbs, hlinks, horder⟩, ?_⟩
        obtain ⟨stored, hstored, hsub⟩ := splitRoot_cons Link.isRoot leaf rest
        have hblocks : ∀ b ∈ (leaf :: stored).map (·.block),
            b.Writable ∧ b.tag = certificateTag := by
          intro b hb
          obtain ⟨link, hlink, rfl⟩ := List.mem_map.mp hb
          refine of_mem_certificateBlocks hbs ?_
          rw [← blocks_of_links hlinks]
          refine List.mem_map_of_mem ((arrange_perm horder).subset ?_)
          exact List.cons_subset_cons leaf hsub hlink
        rw [hcertificate, hstored, texts_eq]
        exact leafText?_texts hblocks

/-- What is stored of a bundle tells the PKI which certificate of the bundle is meant. -/
theorem identifies_buildOrLeaf (bundle : String) : Identifies bundle
    ((leafText? (Utf8.encode (buildOrLeaf bundle).certificate)).getD
      (buildOrLeaf bundle).certificate) := by
  unfold buildOrLeaf
  split
  next chain hbuild =>
    obtain ⟨leaf, hleaf, htext⟩ := leafText?_build hbuild
    rw [htext]
    exact .leaf hbuild hleaf
  next fault hbuild =>
    simp only
    cases hfirst : leafText? (Utf8.encode bundle) with
    | none =>
      have hn : ∀ b bs, certificateBlocks (Utf8.encode bundle) ≠ .ok (b :: bs) := by
        intro b bs hb
        simp [leafText?, hb] at hfirst
      simp only [Option.getD_none, hfirst]
      exact .whole hbuild hn
    | some text =>
      unfold leafText? at hfirst
      split at hfirst
      next b bs hb =>
        cases hfirst
        have htexts : Pem.texts [b] = b.text := by simp [Pem.texts]
        have halone : ∀ c ∈ [b], c.Writable ∧ c.tag = certificateTag := by
          intro c hc
          rw [List.mem_singleton.mp hc]
          exact of_mem_certificateBlocks hb List.mem_cons_self
        have hread := leafText?_texts halone
        rw [htexts] at hread
        simp only [Option.getD_some, hread]
        exact .first hbuild hb
      next => cases hfirst

end TrustChain

end CertBroker
