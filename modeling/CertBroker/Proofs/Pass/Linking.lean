import CertBroker.Proofs.Cluster.Constant
import CertBroker.Proofs.Pass.Outcome

namespace CertBroker

variable {reply : (q : Ask) → q.Answer} {o o' : Objects} {events linking : List Event}

/-- All writes succeeded. -/
def Written (events : List Event) : Prop := ∀ e ∈ events, isFailedWrite e = false

instance (events : List Event) : Decidable (Written events) :=
  inferInstanceAs (Decidable (∀ e ∈ events, isFailedWrite e = false))

@[simp] theorem written_append {first second : List Event} :
    Written (first ++ second) ↔ Written first ∧ Written second := by
  simp [Written, or_imp, forall_and]

@[simp] theorem written_cons {e : Event} :
    Written (e :: events) ↔ isFailedWrite e = false ∧ Written events := by
  simp [Written]

namespace Objects

/-- Wherever the parent of a request can be read, it is linked to the certificate of the request. -/
def Linked (reply : (q : Ask) → q.Answer) (o : Objects) (m : Metadata) : Prop :=
  ∀ id name parent, m.certificateId? = some id → m.parentName? = some name →
    (∃ c, reply (.readCertificate m.nsText name) = .ok c) →
    o.certificates (objectKey m.nsText name) = some parent →
    (parent.metadata.linkLastCertificateId id).2 = false

theorem Linked.kept {m m' : Metadata} (h : o.Linked reply m) (hk : m.Kept m')
    (hc : o'.certificates = o.certificates) : o'.Linked reply m' := by
  intro id name parent hid hname hread hparent
  rw [hk.ns] at hread hparent
  rw [hc] at hparent
  exact h id name parent ((hk.entry? _).symm.trans hid) ((hk.entry? _).symm.trans hname) hread
    hparent

theorem read_of_repeats {ns name : String} {answer : (Ask.readCertificate ns name).Answer}
    (h : o.Repeats reply ⟨.readCertificate ns name, answer⟩ o') :
    o' = o ∧ answer =
      (reply (.readCertificate ns name)).map fun _ => o.certificates (objectKey ns name) := by
  cases h with
  | replied _ hp => cases hp
  | found => exact ⟨rfl, rfl⟩
  | refused hf => cases hf

theorem parent_of_read {ns name : String} {parent : Option Certificate}
    (h : o.Repeats reply ⟨.readCertificate ns name, .ok parent⟩ o') :
    o' = o ∧ (∃ c, reply (.readCertificate ns name) = .ok c) ∧
      o.certificates (objectKey ns name) = parent := by
  obtain ⟨hsame, hanswer⟩ := read_of_repeats h
  refine ⟨hsame, ?_⟩
  cases hreply : reply (.readCertificate ns name) with
  | error f =>
    rw [hreply] at hanswer
    cases hanswer
  | ok c =>
    rw [hreply] at hanswer
    cases hanswer
    exact ⟨⟨c, rfl⟩, rfl⟩

end Objects

namespace CertificateRequest

open Objects (Linked throughout_cons_iff throughout_nil_iff)

variable {r : CertificateRequest} {linked : Except Failure Unit}

theorem Links.eq_nil (h : r.Links linking linked) (hn : r.metadata.certificateId? = none) :
    linking = [] := by
  cases h with
  | nothing => rfl
  | unread hi => cases hn.symm.trans hi
  | orphaned hi => cases hn.symm.trans hi
  | linked hi => cases hn.symm.trans hi
  | written hi => cases hn.symm.trans hi

/-- After a link, if all writes succeeded, the parent is linked. -/
theorem Links.links (h : r.Links linking linked) (ho : o.Throughout reply linking o')
    (hw : Written linking) (hkey : ∀ key c, o.certificates key = some c → c.metadata.key = key) :
    o'.Linked reply r.metadata := by
  intro id' name' parent' hid' hname' hread' hparent'
  cases h with
  | nothing hno =>
    rcases hno with hno | hno
    · cases hno.symm.trans hid'
    · cases hno.symm.trans hname'
  | unread hid hname f =>
    obtain ⟨between, he, -⟩ := throughout_cons_iff.mp ho
    cases hname.symm.trans hname'
    obtain ⟨-, hanswer⟩ := Objects.read_of_repeats he
    obtain ⟨c, hc⟩ := hread'
    rw [hc] at hanswer
    cases hanswer
  | orphaned hid hname =>
    obtain ⟨between, he, hrest⟩ := throughout_cons_iff.mp ho
    cases hname.symm.trans hname'
    obtain ⟨rfl, -, hnone⟩ := Objects.parent_of_read he
    rw [throughout_nil_iff.mp hrest, hnone] at hparent'
    cases hparent'
  | linked hid hname hl =>
    obtain ⟨between, he, hrest⟩ := throughout_cons_iff.mp ho
    cases hname.symm.trans hname'
    cases hid.symm.trans hid'
    obtain ⟨rfl, -, hparent⟩ := Objects.parent_of_read he
    rw [throughout_nil_iff.mp hrest, hparent] at hparent'
    cases hparent'
    exact hl
  | @written id name parent hid hname hl answer =>
    obtain ⟨between, he, hrest⟩ := throughout_cons_iff.mp ho
    cases hname.symm.trans hname'
    cases hid.symm.trans hid'
    obtain ⟨rfl, -, hparent⟩ := Objects.parent_of_read he
    obtain ⟨between, he, hrest⟩ := throughout_cons_iff.mp hrest
    cases throughout_nil_iff.mp hrest
    cases he with
    | replied hv => cases hv
    | refused hf =>
      have hfine := (written_cons.mp (written_cons.mp hw).2).1
      rw [hf] at hfine
      cases hfine
    | @annotated _ d hkept =>
      have hlinked := Certificate.isLinked_linkedTo hl
      have hstands : d.metadata.key = objectKey r.metadata.nsText name' :=
        hkept.key.trans (hlinked.key.trans (hkey _ _ hparent))
      rw [← hstands, Objects.putCertificate_certificates_self] at hparent'
      cases hparent'
      exact Metadata.linked_of_lastCertificateId? ((hkept.entry? _).trans hlinked.id)

/-- A parent that is linked is not linked again. -/
theorem Links.unwritten (h : r.Links linking linked) (ho : o.Throughout reply linking o')
    (hl : o.Linked reply r.metadata) : Unwritten linking := by
  cases h with
  | nothing => simp
  | unread => simp [Ask.isWrite]
  | orphaned => simp [Ask.isWrite]
  | linked => simp [Ask.isWrite]
  | written hid hname hfresh =>
    obtain ⟨between, he, -⟩ := throughout_cons_iff.mp ho
    obtain ⟨-, hread, hparent⟩ := Objects.parent_of_read he
    have hlinked := hl _ _ _ hid hname hread hparent
    rw [hfresh] at hlinked
    cases hlinked

theorem Links.requests (h : r.Links linking linked) (ho : o.Throughout reply linking o') :
    o'.requests = o.requests := by
  cases h with
  | nothing => rw [throughout_nil_iff.mp ho]
  | written =>
    obtain ⟨between, he, hrest⟩ := throughout_cons_iff.mp ho
    obtain ⟨rfl, -, -⟩ := Objects.parent_of_read he
    obtain ⟨between, he, hrest⟩ := throughout_cons_iff.mp hrest
    cases throughout_nil_iff.mp hrest
    cases he with
    | replied => rfl
    | annotated => rfl
    | refused => rfl
  | _ => rw [ho.eq_of_unwritten (by simp [Ask.isWrite])]

end CertificateRequest

end CertBroker
