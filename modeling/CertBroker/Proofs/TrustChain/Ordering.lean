import CertBroker.Proofs.TrustChain
import Mathlib.Data.List.Chain
import Mathlib.Data.List.Rotate

namespace CertBroker.TrustChain

section Arranging

variable {α : Type} {issues : α → α → Bool} {isRoot : α → Bool} {l order rest others : List α}

/-- One round of following issuers: from an element that is no root to the first of the others
that issues it. -/
def Step (issues : α → α → Bool) (isRoot : α → Bool) (s t : α × List α) : Prop :=
  isRoot s.1 = false ∧ takeOut (issues · s.1) s.2 = some t

theorem Step.issues_eq_true {s t : α × List α} (h : Step issues isRoot s t) :
    issues t.1 s.1 = true := by
  have := List.find?_some h.2
  simpa using this

theorem Step.length_lt {s t : α × List α} (h : Step issues isRoot s t) :
    t.2.length < s.2.length := takeOut_length h.2

/-- Following issuers ends: there are no more rounds than other elements. -/
theorem length_le_of_isChain {s : α × List α} {walk : List (α × List α)}
    (h : (s :: walk).IsChain (Step issues isRoot)) : walk.length ≤ s.2.length := by
  induction walk generalizing s with
  | nil => simp
  | cons t walk ih =>
    rw [List.isChain_cons_cons] at h
    have hless := h.1.length_lt
    have hwalk := ih h.2
    rw [List.length_cons]
    omega

theorem follow_of_step {a : α} {t : α × List α} (h : Step issues isRoot (a, others) t) :
    follow issues isRoot a others = (follow issues isRoot t.1 t.2).map (a :: ·) := by
  obtain ⟨hroot, hnext⟩ := h
  simp only at hroot hnext
  rw [follow, if_neg (by simp [hroot])]
  split
  next hsome =>
    cases hnext.symm.trans hsome
    rfl
  next hnone => simp [hnone] at hnext

theorem follow_of_stuck {a : α} (h : ∀ t, ¬ Step issues isRoot (a, others) t) :
    follow issues isRoot a others = if others.isEmpty then some [a] else none := by
  rw [follow]
  split
  next => rfl
  next hroot =>
    split
    next next rest hsome => exact absurd ⟨by simpa using hroot, hsome⟩ (h (next, rest))
    next => rfl

theorem of_follow {a : α} (h : follow issues isRoot a others = some order) :
    order = [a] ∨ ∃ t later, Step issues isRoot (a, others) t ∧
      follow issues isRoot t.1 t.2 = some later ∧ order = a :: later := by
  by_cases hstep : ∃ t, Step issues isRoot (a, others) t
  · obtain ⟨t, ht⟩ := hstep
    rw [follow_of_step ht] at h
    obtain ⟨later, hlater, rfl⟩ := Option.map_eq_some_iff.mp h
    exact .inr ⟨t, later, ht, hlater, rfl⟩
  · rw [follow_of_stuck (not_exists.mp hstep)] at h
    split at h
    next =>
      cases h
      exact .inl rfl
    next => cases h

/-- Each element is issued by the next, and the first issues no other. -/
structure Ordered (issues : α → α → Bool) (order : List α) : Prop where
  linked : order.IsChain fun a b => issues b a = true
  leaf : ∀ a ∈ order.head?, ∀ b ∈ order.tail, issues a b = false

theorem follow_linked {a : α} (h : follow issues isRoot a others = some order) :
    order.head? = some a ∧ order.IsChain (fun b c => issues c b = true) ∧
      ∀ b ∈ order.dropLast, isRoot b = false := by
  induction order generalizing a others with
  | nil => rcases of_follow h with h | ⟨_, _, _, _, h⟩ <;> cases h
  | cons b later ih =>
    rcases of_follow h with hend | ⟨t, found, hstep, hfound, hcons⟩
    · cases hend
      exact ⟨rfl, .singleton b, by simp⟩
    · cases hcons
      obtain ⟨hhead, hlinked, hroots⟩ := ih hfound
      obtain ⟨next, further, rfl⟩ : ∃ next further, later = next :: further := by
        cases later with
        | nil => cases hhead
        | cons next further => exact ⟨next, further, rfl⟩
      cases hhead
      refine ⟨rfl, hlinked.cons_cons hstep.issues_eq_true, fun b hb => ?_⟩
      rw [List.dropLast_cons_cons, List.mem_cons] at hb
      rcases hb with rfl | hb
      · exact hstep.1
      · exact hroots b hb

theorem ordered_of_arrange (h : arrange issues isRoot l = some order) :
    Ordered issues order ∧ ∀ a ∈ order.dropLast, isRoot a = false := by
  unfold arrange at h
  split at h
  next leaf others hfound =>
    obtain ⟨hhead, hlinked, hroots⟩ := follow_linked h
    refine ⟨⟨hlinked, fun a ha b hb => ?_⟩, hroots⟩
    cases hhead.symm.trans ha
    have hothers : order.tail.Perm others := by
      have hperm := follow_perm h
      rw [List.eq_cons_of_mem_head? ha] at hperm
      exact hperm.cons_inv
    have hissues := List.find?_some hfound
    simp only [Bool.not_eq_eq_eq_not, Bool.not_true, List.any_eq_false] at hissues
    simpa using hissues b (hothers.subset hb)
  next => cases h

theorem exists_mem_choices {a : α} (h : a ∈ l) : ∃ others, (a, others) ∈ choices l := by
  induction l with
  | nil => cases h
  | cons b l ih =>
    rcases List.mem_cons.mp h with rfl | h
    · exact ⟨l, List.mem_cons_self⟩
    · obtain ⟨others, hothers⟩ := ih h
      exact ⟨b :: others, List.mem_cons_of_mem _ (List.mem_map.mpr ⟨_, hothers, rfl⟩)⟩

/-- A choice that only one element satisfies finds it, wherever it stands. -/
theorem find?_choices {p : α × List α → Bool} {a : α} (hl : l.Perm (a :: rest))
    (ha : ∀ others : List α, others.Perm rest → p (a, others) = true)
    (hrest : ∀ b ∈ rest, ∀ others : List α, (b :: others).Perm (a :: rest) →
      p (b, others) = false) :
    ∃ others, (choices l).find? p = some (a, others) ∧ others.Perm rest := by
  obtain ⟨left, hleft⟩ := exists_mem_choices (hl.symm.subset List.mem_cons_self)
  have hholds := ha left ((choices_perm hleft).trans hl).cons_inv
  cases hfound : (choices l).find? p with
  | none => exact absurd hholds (List.find?_eq_none.mp hfound _ hleft)
  | some c =>
    obtain ⟨b, others⟩ := c
    have hperm := (choices_perm (List.mem_of_find?_eq_some hfound)).trans hl
    rcases List.mem_cons.mp (hperm.subset List.mem_cons_self) with rfl | hb
    · exact ⟨others, rfl, hperm.cons_inv⟩
    · have hp := List.find?_some hfound
      rw [hrest b hb others hperm] at hp
      cases hp

/-- No element is issued by two of them. -/
def Exclusive (issues : α → α → Bool) (l : List α) : Prop :=
  l.Pairwise fun a b => ∀ c, ¬ (issues a c = true ∧ issues b c = true)

theorem follow_of_linked {a : α} (hlinked : (a :: rest).IsChain fun b c => issues c b = true)
    (hone : Exclusive issues (a :: rest)) (hroot : ∀ b, isRoot b = true → issues b b = true)
    (hothers : others.Perm rest) : follow issues isRoot a others = some (a :: rest) := by
  induction rest generalizing a others with
  | nil =>
    rw [List.perm_nil.mp hothers, follow_of_stuck fun t h => by cases h.2]
    rfl
  | cons b rest ih =>
    obtain ⟨hissued, hlinked⟩ := List.isChain_cons_cons.mp hlinked
    obtain ⟨hfirst, hone⟩ := List.pairwise_cons.mp hone
    have hgoes : isRoot a = false := by
      by_contra hstops
      have hself := hroot a (by simpa using hstops)
      exact hfirst b List.mem_cons_self a ⟨hself, hissued⟩
    obtain ⟨left, hnext, hleft⟩ := find?_choices (p := fun c => issues c.1 a) hothers
      (fun _ _ => hissued) fun c hc _ _ => by
        have := (List.pairwise_cons.mp hone).1 c hc a
        simpa [hissued] using this
    rw [follow_of_step ⟨hgoes, hnext⟩, ih hlinked hone hleft]
    rfl

theorem issues_of_mem_tail {a b : α} (hlinked : (a :: rest).IsChain fun c d => issues d c = true)
    (hb : b ∈ rest) (h : (b :: others).Perm (a :: rest)) : ∃ c ∈ others, issues b c = true := by
  obtain ⟨before, after, rfl⟩ := List.append_of_mem hb
  have hsplit : (a :: before).dropLast ++ (a :: before).getLast (by simp) :: b :: after =
      a :: (before ++ b :: after) := by
    rw [List.append_cons, List.dropLast_append_getLast, List.cons_append]
  rw [← hsplit] at hlinked h
  refine ⟨(a :: before).getLast (by simp), ?_, (List.isChain_append_cons_cons.mp hlinked).2.1⟩
  have hothers := (h.trans (by rw [List.append_cons]; exact List.perm_middle)).cons_inv
  exact hothers.symm.subset (by simp)

/-- The only order in which each is issued by the next is found. -/
theorem arrange_of_ordered (hperm : order.Perm l) (hne : order ≠ [])
    (hordered : Ordered issues order) (hone : Exclusive issues order)
    (hroot : ∀ a, isRoot a = true → issues a a = true) :
    arrange issues isRoot l = some order := by
  obtain ⟨leaf, rest, rfl⟩ := List.exists_cons_of_ne_nil hne
  obtain ⟨others, hfound, hothers⟩ := find?_choices (p := fun c => !c.2.any (issues c.1))
    hperm.symm
    (fun others hothers => by
      simp only [Bool.not_eq_eq_eq_not, Bool.not_true, List.any_eq_false, Bool.not_eq_true]
      exact fun b hb => hordered.leaf leaf rfl b (hothers.subset hb))
    (fun b hb others h => by
      obtain ⟨c, hc, hissues⟩ := issues_of_mem_tail hordered.linked hb h
      simpa using ⟨c, hc, hissues⟩)
  rw [arrange, hfound]
  exact follow_of_linked hordered.linked hone hroot hothers

end Arranging

/-- Issued by itself, and passing a check of its signature. -/
def Link.isRootBy (verifies : X509.Certificate → Bool) (l : Link) : Bool :=
  l.certificate.isIssuedBy l.certificate && verifies l.certificate

/-- A chain in its order, with the root apart. -/
def ofOrder (isRoot : Link → Bool) (order : List Link) : TrustChain :=
  ⟨texts (splitRoot isRoot order).1, (splitRoot isRoot order).2.map (·.block.text)⟩

/-- Orders the certificates of a bundle, with any check of signatures in the place of the real
one. -/
def buildBy (verifies : X509.Certificate → Bool) (bundle : Bytes) : Except Fault TrustChain :=
  match certificateBlocks bundle with
  | .error fault => .error (.pem fault)
  | .ok [] => .error .empty
  | .ok blocks =>
    match blocks.mapM Link.ofBlock? with
    | none => .error .certificate
    | some links =>
      match arrange Link.issues (Link.isRootBy verifies) links with
      | none => .error .disconnected
      | some order => .ok (ofOrder (Link.isRootBy verifies) order)

theorem build_eq_buildBy : build = buildBy fun c => c.isSignedWith c.key := rfl

/-- A chain that is stored in one order of certificates: their texts one after another, of which
a root at the end is the authority. -/
structure Presents (isRoot : Link → Bool) (order : List Link) (chain : TrustChain) : Prop where
  whole : chain.certificate ++ chain.ca.getD "" = texts order
  root : ∀ text, chain.ca = some text ↔ 2 ≤ order.length ∧
    ∃ l ∈ order.getLast?, isRoot l = true ∧ l.block.text = text

theorem texts_append (ls ls' : List Link) : texts (ls ++ ls') = texts ls ++ texts ls' := by
  simp [texts]

theorem presents_ofOrder (isRoot : Link → Bool) (order : List Link) :
    Presents isRoot order (ofOrder isRoot order) := by
  unfold ofOrder splitRoot
  split
  next last hlast =>
    split
    next hsplit =>
      obtain ⟨hlong, hroot⟩ : 1 < order.length ∧ isRoot last = true := by simpa using hsplit
      have horder : order.dropLast ++ [last] = order := List.dropLast_append_getLast? last hlast
      refine ⟨?_, fun text => ?_⟩
      · conv_rhs => rw [← horder, texts_append]
        simp [texts]
      · simp [hlast, hroot]
        omega
    next hkeep =>
      refine ⟨by simp, fun text => ?_⟩
      simp only [Option.map_none, reduceCtorEq, false_iff, hlast]
      rintro ⟨hlong, l, hl, hroot, -⟩
      cases hl
      exact hkeep (by simp [hroot]; omega)
  next hnone => exact ⟨by simp, by simp [hnone]⟩

variable {verifies : X509.Certificate → Bool} {bundle : Bytes} {bs : List Pem.Block}
  {links order : List Link}

theorem buildBy_eq (hbs : certificateBlocks bundle = .ok bs) (hne : bs ≠ [])
    (hlinks : bs.mapM Link.ofBlock? = some links) : buildBy verifies bundle =
      match arrange Link.issues (Link.isRootBy verifies) links with
      | none => .error .disconnected
      | some order => .ok (ofOrder (Link.isRootBy verifies) order) := by
  obtain ⟨b, rest, rfl⟩ := List.exists_cons_of_ne_nil hne
  simp only [buildBy, hbs, hlinks]

theorem mapM_perm {α β : Type} {f : α → Option β} {as as' : List α} {made : List β}
    (h : as.Perm as') (hm : as.mapM f = some made) :
    ∃ made', as'.mapM f = some made' ∧ made.Perm made' := by
  induction h generalizing made with
  | nil => exact ⟨made, hm, .refl _⟩
  | cons a _ ih =>
    simp only [List.mapM_cons, Option.bind_eq_bind, Option.bind_eq_some_iff] at hm
    obtain ⟨first, hfirst, others, hothers, hm⟩ := hm
    cases hm
    obtain ⟨others', hothers', hperm⟩ := ih hothers
    exact ⟨first :: others', by simp [List.mapM_cons, hfirst, hothers'], hperm.cons first⟩
  | swap a b l =>
    simp only [List.mapM_cons, Option.bind_eq_bind, Option.bind_eq_some_iff] at hm
    obtain ⟨first, hfirst, others, ⟨second, hsecond, left, hleft, hothers⟩, hm⟩ := hm
    cases hothers
    cases hm
    exact ⟨second :: first :: left, by simp [List.mapM_cons, hfirst, hsecond, hleft], .swap ..⟩
  | trans _ _ ih ih' =>
    obtain ⟨middle, hmiddle, hperm⟩ := ih hm
    obtain ⟨made', hmade', hperm'⟩ := ih' hmiddle
    exact ⟨made', hmade', hperm.trans hperm'⟩

/-- Certificates with different subjects do not issue the same one. -/
theorem exclusive_of_nodup (h : (links.map (·.certificate.subject.raw)).Nodup) :
    Exclusive Link.issues links := by
  refine (List.pairwise_map.mp h).imp fun hne c hc => hne ?_
  simp only [Link.issues, X509.Certificate.isIssuedBy, beq_iff_eq] at hc
  exact hc.1.symm.trans hc.2

theorem issues_of_isRootBy (l : Link) (h : Link.isRootBy verifies l = true) :
    Link.issues l l = true := (Bool.and_eq_true_iff.mp h).1

theorem certificateBlocks_of_perm (hbs : certificateBlocks bundle = .ok bs)
    (horder : (order.map (·.block)).Perm bs) :
    certificateBlocks (Utf8.encode (texts order)) = .ok (order.map (·.block.trimmed)) := by
  rw [texts_eq, certificateBlocks_texts fun b hb =>
    of_mem_certificateBlocks hbs (horder.subset hb), List.map_map]
  rfl

/-- What is built of a bundle is its certificates in an order in which each is issued by the
next. If the subjects differ, and there is such an order, it is what is built of every bundle of
these certificates. -/
theorem buildBy_in_order (verifies : X509.Certificate → Bool) {bundle : Bytes}
    {bs : List Pem.Block} {links : List Link} (hbs : certificateBlocks bundle = .ok bs)
    (hne : bs ≠ []) (hlinks : bs.mapM Link.ofBlock? = some links) :
    build bundle = buildBy (fun c => c.isSignedWith c.key) bundle ∧
    (∀ start ∈ choices links, ∀ walk,
      (start :: walk).IsChain (Step Link.issues (Link.isRootBy verifies)) →
        walk.length < links.length) ∧
    (buildBy verifies bundle = .error .disconnected ∨
      ∃ chain, buildBy verifies bundle = .ok chain) ∧
    (∀ chain, buildBy verifies bundle = .ok chain → ∃ order : List Link,
      order.Perm links ∧ (order.map (·.block)).Perm bs ∧ Ordered Link.issues order ∧
      (∀ l ∈ order.dropLast, Link.isRootBy verifies l = false) ∧
      Presents (Link.isRootBy verifies) order chain ∧
      certificateBlocks (Utf8.encode (chain.certificate ++ chain.ca.getD "")) =
        .ok (order.map (·.block.trimmed))) ∧
    ((links.map (·.certificate.subject.raw)).Nodup → ∀ order : List Link, order.Perm links →
      Ordered Link.issues order → ∃ chain, Presents (Link.isRootBy verifies) order chain ∧
        ∀ bundle' bs', certificateBlocks bundle' = .ok bs' → bs'.Perm bs →
          buildBy verifies bundle' = .ok chain) := by
  refine ⟨congrFun build_eq_buildBy bundle, fun start hstart walk hwalk => ?_, ?_,
    fun chain hchain => ?_, fun hnodup order hperm hordered => ?_⟩
  · have hrounds := length_le_of_isChain hwalk
    have hothers := choices_length hstart
    omega
  · rw [buildBy_eq hbs hne hlinks]
    split
    next => exact .inl rfl
    next => exact .inr ⟨_, rfl⟩
  · rw [buildBy_eq hbs hne hlinks] at hchain
    split at hchain
    next => cases hchain
    next order horder =>
      cases hchain
      obtain ⟨hordered, hroots⟩ := ordered_of_arrange horder
      have hpresents := presents_ofOrder (Link.isRootBy verifies) order
      have hperm := arrange_perm horder
      have hblocks : (order.map (·.block)).Perm bs := blocks_of_links hlinks ▸ hperm.map _
      exact ⟨order, hperm, hblocks, hordered, hroots, hpresents,
        hpresents.whole ▸ certificateBlocks_of_perm hbs hblocks⟩
  · refine ⟨_, presents_ofOrder (Link.isRootBy verifies) order, fun bundle' bs' hbs' hperm' => ?_⟩
    obtain ⟨links', hlinks', hmade⟩ := mapM_perm hperm'.symm hlinks
    have hne' : bs' ≠ [] := fun h => hne (List.nil_perm.mp (h ▸ hperm'))
    have hfull : order ≠ [] := by
      rintro rfl
      rw [← blocks_of_links hlinks, List.nil_perm.mp hperm] at hne
      exact hne rfl
    have hone : Exclusive Link.issues order :=
      exclusive_of_nodup ((hperm.map _).nodup_iff.mpr hnodup)
    rw [buildBy_eq hbs' hne' hlinks',
      arrange_of_ordered (hperm.trans hmade) hfull hordered hone issues_of_isRootBy]

instance (issues : α → α → Bool) (order : List α) : Decidable (Ordered issues order) :=
  decidable_of_iff (order.IsChain (fun a b => issues b a = true) ∧
    ∀ a ∈ order.head?, ∀ b ∈ order.tail, issues a b = false)
    ⟨fun h => ⟨h.1, h.2⟩, fun h => ⟨h.linked, h.leaf⟩⟩

/-- A certificate whose names are one letter each. -/
def sampleBlock (issuer subject : UInt8) : Pem.Block where
  tag := certificateTag
  headers := []
  contents :=
    [48, 96, 48, 83, 2, 1, 1, 48, 5, 6, 3, 43, 101, 112, 48, 12, 49, 10, 48, 8, 6, 3, 85, 4,
      3, 12, 1, issuer, 48, 30, 23, 13, 50, 53, 48, 49, 48, 49, 48, 48, 48, 48, 48, 48, 90, 23,
      13, 51, 53, 48, 49, 48, 49, 48, 48, 48, 48, 48, 48, 90, 48, 12, 49, 10, 48, 8, 6, 3, 85, 4,
      3, 12, 1, subject, 48, 11, 48, 5, 6, 3, 43, 101, 112, 3, 2, 0, 1, 48, 5, 6, 3, 43, 101, 112,
      3, 2, 0, 1]

/-- A root R, a leaf L and, between the two, M. -/
def sampleBlocks : List Pem.Block := [sampleBlock 82 82, sampleBlock 77 76, sampleBlock 82 77]

def sampleLinks : List Link := (sampleBlocks.mapM Link.ofBlock?).getD []

def sampleBundle : Bytes := Utf8.encode (Pem.texts sampleBlocks)

/-- Of a bundle that begins with its root, the root becomes the authority. -/
theorem buildBy_sampleBundle :
    certificateBlocks sampleBundle = .ok sampleBlocks ∧ sampleBlocks ≠ [] ∧
      sampleBlocks.mapM Link.ofBlock? = some sampleLinks ∧
      (sampleLinks.map (·.certificate.subject.raw)).Nodup ∧
      Ordered Link.issues (sampleLinks.rotate 1) ∧
      ∃ chain, Presents (Link.isRootBy fun _ => true) (sampleLinks.rotate 1) chain ∧
        buildBy (fun _ => true) sampleBundle = .ok chain ∧
        chain.ca = some (sampleBlock 82 82).text := by
  have hwritable : ∀ b ∈ sampleBlocks, b.Writable ∧ b.tag = certificateTag := by
    intro b hb
    simp only [sampleBlocks, List.mem_cons, List.not_mem_nil, or_false] at hb
    rcases hb with rfl | rfl | rfl <;> exact ⟨Pem.Block.writable_of_headers_eq_nil rfl, rfl⟩
  have hbs : certificateBlocks sampleBundle = .ok sampleBlocks := certificateBlocks_texts hwritable
  have hlinks : sampleBlocks.mapM Link.ofBlock? = some sampleLinks := by decide +kernel
  have hnodup : (sampleLinks.map (·.certificate.subject.raw)).Nodup := by decide +kernel
  have hordered : Ordered Link.issues (sampleLinks.rotate 1) := by decide +kernel
  have hne : sampleBlocks ≠ [] := List.cons_ne_nil _ _
  obtain ⟨last, hlast, hroot, hblock⟩ : ∃ l ∈ (sampleLinks.rotate 1).getLast?,
      Link.isRootBy (fun _ => true) l = true ∧ l.block = sampleBlock 82 82 := by decide +kernel
  obtain ⟨-, -, -, -, hcomplete⟩ := buildBy_in_order (fun _ => true) hbs hne hlinks
  obtain ⟨chain, hpresents, hbuild⟩ := hcomplete hnodup _ (List.rotate_perm _ _) hordered
  exact ⟨hbs, hne, hlinks, hnodup, hordered, chain, hpresents, hbuild _ _ hbs (.refl _),
    (hpresents.root _).mpr ⟨by decide +kernel, last, hlast, hroot, hblock ▸ rfl⟩⟩

end CertBroker.TrustChain
