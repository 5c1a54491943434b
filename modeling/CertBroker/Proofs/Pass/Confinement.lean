import CertBroker.Proofs.Cluster.Tenancy
import CertBroker.Proofs.Pass.Course

namespace CertBroker

variable {b : Bounds} {events first second : List Event}

/-- Every question is within the bounds. -/
def Confined (b : Bounds) (events : List Event) : Prop := ∀ e ∈ events, e.question.Within b

@[simp] theorem confined_nil (b : Bounds) : Confined b [] := by simp [Confined]

@[simp] theorem confined_cons {e : Event} {rest : List Event} :
    Confined b (e :: rest) ↔ e.question.Within b ∧ Confined b rest := by simp [Confined]

@[simp] theorem confined_append :
    Confined b (first ++ second) ↔ Confined b first ∧ Confined b second := by
  simp [Confined, or_imp, forall_and]

/-- The Secret of the issuer is within the bounds. -/
def Issuer.Resides (i : Issuer) (settings : Settings) (b : Bounds) : Prop :=
  (i.secretQuestion settings).Within b

theorem Issuer.Opens.confined {i : Issuer} {settings : Settings}
    {opened : Except Failure Pki.Session} (h : i.Opens settings events opened)
    (hi : i.Resides settings b) : Confined b events := by
  have hsecret : (i.secretQuestion settings).Within b := hi
  cases h <;> simp [hsecret]

namespace CertificateRequest

variable {r current after : CertificateRequest} {issuer : Issuer} {settings : Settings}

/-- What a pass over the request may touch. -/
def bounds (r : CertificateRequest) (settings : Settings) : Bounds where
  ns := r.metadata.nsText
  clusterIssuer :=
    match r.spec.issuerRef.scope with
    | .ok .cluster => some r.spec.issuerRef.name
    | _ => none
  clusterNs := settings.clusterResourceNamespace

theorem clusterIssuer_of_cluster (h : r.spec.issuerRef.scope = .ok .cluster) :
    (r.bounds settings).clusterIssuer = some r.spec.issuerRef.name := by
  simp only [bounds, h]

theorem within_issuerQuestion {scope : IssuerScope} (h : r.spec.issuerRef.scope = .ok scope) :
    (r.issuerQuestion scope).Within (r.bounds settings) := by
  cases scope with
  | namespaced => rfl
  | cluster => exact clusterIssuer_of_cluster h

theorem Seeks.confined {found : Except Failure Issuer} (h : r.Seeks events found) :
    Confined (r.bounds settings) events := by
  cases h with
  | unresolved => simp
  | unread hs => simp [within_issuerQuestion hs]
  | missing hs => simp [within_issuerQuestion hs]
  | found hs => simp [within_issuerQuestion hs]

/-- An issuer that was found where it was looked for has its Secret within the bounds. -/
theorem Seeks.resides (h : r.Seeks events (.ok issuer)) (hp : ∀ e ∈ events, Placed e) :
    issuer.Resides settings (r.bounds settings) := by
  cases h with
  | @found scope hs issuer =>
    obtain ⟨hscope, hns⟩ : issuer.scope = scope ∧
        (scope = .namespaced → issuer.metadata.ns = some r.metadata.nsText) :=
      hp _ List.mem_cons_self
    rw [Issuer.Resides, Issuer.secretQuestion, Issuer.secretNamespace, Issuer.ns]
    cases scope with
    | namespaced =>
      rw [hscope, hns rfl]
      exact .inl rfl
    | cluster =>
      rw [hscope]
      exact .inr ⟨by rw [clusterIssuer_of_cluster hs]; rfl, rfl⟩

theorem Gates.confined {csr : String} {passed : Except Failure Unit}
    (h : Gates issuer settings csr events passed) : Confined b events := by
  cases h with
  | unguarded => simp
  | checked _ hr =>
    intro e he
    obtain ⟨address, name, hq⟩ := hr.question e he
    rw [hq]
    exact Ask.within_lookUp _ _ _

theorem Finds.confined {found : Except Failure (Option Certificate)} (h : r.Finds events found)
    (hns : r.metadata.nsText = b.ns) : Confined b events := by
  cases h <;> simp [Ask.Within, hns]

theorem Dresses.confined {parent : Option Certificate}
    {found : Except Failure (Option (Dict String))} (h : r.Dresses parent events found)
    (hns : r.metadata.nsText = b.ns) : Confined b events := by
  cases h <;> simp [Ask.Within, hns]

theorem Prepares.confined
    {prepared : Except Failure (String × Option Certificate × Pki.Session)}
    (h : r.Prepares issuer settings events prepared) (hns : r.metadata.nsText = b.ns)
    (hi : issuer.Resides settings b) : Confined b events := by
  cases h with
  | undecoded => simp
  | barred _ hg => exact hg.confined
  | orphaned _ hg hf => simp [hg.confined, hf.confined hns]
  | unopened _ hg hf ho => simp [hg.confined, hf.confined hns, ho.confined hi]
  | prepared _ hg hf ho => simp [hg.confined, hf.confined hns, ho.confined hi]

theorem Sends.confined {sent : Except Failure String} (h : r.Sends issuer settings events sent)
    (hns : r.metadata.nsText = b.ns) (hi : issuer.Resides settings b) : Confined b events := by
  cases h with
  | unprepared hp => exact hp.confined hns hi
  | renewed hp => simp [hp.confined hns hi]
  | undressed hp _ hd => simp [hp.confined hns hi, hd.confined hns]
  | enrolled hp _ hd =>
    simp [hp.confined hns hi, hd.confined hns]

theorem Polls.confined {id : String} {result : CertificateRequest × Except Failure Action}
    (h : r.Polls id issuer settings events result) (hi : issuer.Resides settings b) :
    Confined b events := by
  cases h with
  | unopened ho => exact ho.confined hi
  | unanswered ho => simp [ho.confined hi]
  | answered ho => simp [ho.confined hi]

theorem Submits.confined {result : CertificateRequest × Except Failure Action}
    (h : r.Submits issuer settings events result) (hns : r.metadata.nsText = b.ns)
    (hi : issuer.Resides settings b) : Confined b events := by
  cases h with
  | accepted hs => simp [hs.confined hns hi]
  | failed hs => simp [hs.confined hns hi]

theorem Advances.confined {result : CertificateRequest × Except Failure Action}
    (h : r.Advances issuer settings events result) (hns : r.metadata.nsText = b.ns)
    (hi : issuer.Resides settings b) : Confined b events := by
  cases h with
  | denied => simp
  | polled _ _ hp => exact hp.confined hi
  | submitted _ _ _ hs => exact hs.confined hns hi
  | waiting => simp

theorem Reflects.confined {outcome : Except Failure Action}
    (h : current.Reflects outcome events after) : Confined b events := by
  cases h <;> simp

theorem linkedTo_ns (parent : Certificate) (id : String) :
    (linkedTo parent id).metadata.nsText = parent.metadata.nsText := by
  rw [linkedTo, Metadata.linkLastCertificateId]
  split
  next => rfl
  next =>
    obtain ⟨annotations, hm⟩ :=
      parent.metadata.annotate_eq Annotation.lastCertificateId id
    rw [hm]
    rfl

theorem Links.confined {linked : Except Failure Unit} (h : r.Links events linked)
    (hns : r.metadata.nsText = b.ns) (hp : ∀ e ∈ events, Placed e) : Confined b events := by
  cases h with
  | nothing => simp
  | unread => simp [Ask.Within, hns]
  | orphaned => simp [Ask.Within, hns]
  | linked => simp [Ask.Within, hns]
  | @written id name parent =>
    have hparent : parent.metadata.ns = some r.metadata.nsText := hp _ List.mem_cons_self
    have hlinked : (linkedTo parent id).metadata.nsText = b.ns := by
      rw [linkedTo_ns, Metadata.nsText, hparent, ← hns]
      rfl
    simp [Ask.Within, Ask.written?, hns, hlinked]

theorem Guards.confined {guarded : Except Failure CertificateRequest}
    (h : r.Guards issuer events guarded) (hns : r.metadata.nsText = b.ns) : Confined b events := by
  cases h <;> simp [Ask.Within, Ask.written?, hns]

theorem Guards.nsText (h : r.Guards issuer events (.ok current)) (hp : ∀ e ∈ events, Placed e) :
    current.metadata.nsText = r.metadata.nsText := by
  cases h with
  | content => rfl
  | written => exact hp _ List.mem_cons_self

theorem Proceeds.confined {outcome : Except Failure Action}
    (h : r.Proceeds issuer settings events outcome) (hns : r.metadata.nsText = b.ns)
    (hi : issuer.Resides settings b) (hp : ∀ e ∈ events, Placed e) : Confined b events := by
  cases h with
  | unguarded hg => exact hg.confined hns
  | closed hg => exact hg.confined hns
  | issued hg _ hl =>
    have hcurrent := (hg.nsText fun e he => hp e (List.mem_append_left _ he)).trans hns
    exact confined_append.mpr ⟨hg.confined hns,
      hl.confined hcurrent fun e he => hp e (List.mem_append_right _ he)⟩
  | @worked guarding advancing noted linking current after reflected result _ hg _ ha hr stored hl =>
    have hcurrent := (hg.nsText fun e he => hp e (List.mem_append_left _ he)).trans hns
    have hreflected : reflected.metadata.nsText = b.ns := by
      rw [hr.metadata, ha.marks.addressOf.1]
      exact hcurrent
    have hlinking := hl.confined hreflected fun e he => hp e (by simp [he])
    simp [hg.confined hns, ha.confined hcurrent hi, hr.confined, hlinking, Ask.Within, Ask.written?,
      hreflected]

theorem Releases.confined {released : Except Failure Bool} (h : r.Releases events released)
    (hns : r.metadata.nsText = b.ns) : Confined b events := by
  cases h <;> simp [Ask.Within, Ask.written?, hns]

theorem Revokes.confined {revoked : Except Failure Unit}
    (h : r.Revokes issuer settings events revoked) (hi : issuer.Resides settings b) :
    Confined b events := by
  cases h with
  | nothing => simp
  | unopened _ ho => exact ho.confined hi
  | settled _ ho => simp [ho.confined hi]
  | failed _ ho => simp [ho.confined hi]

theorem Finishes.confined {finished : Except Failure Unit}
    (h : r.Finishes issuer settings events finished) (hns : r.metadata.nsText = b.ns)
    (hi : issuer.Resides settings b) : Confined b events := by
  cases h with
  | unguarded => simp
  | spared => simp [Ask.Within, Ask.written?, hns]
  | unrevoked _ _ hv => exact hv.confined hi
  | revoked _ _ hv => simp [hv.confined hi, Ask.Within, Ask.written?, hns]

theorem Courses.confined {outcome : Except Failure Action} (h : r.Courses settings events outcome)
    (hp : ∀ e ∈ events, Placed e) : Confined (r.bounds settings) events := by
  have hns : r.metadata.nsText = (r.bounds settings).ns := rfl
  cases h with
  | foreign => simp
  | released _ _ hr => exact hr.confined hns
  | unresolved _ _ hs => exact hs.confined
  | unready _ _ hs => exact hs.confined
  | finished _ _ _ hs _ hf =>
    have hi : Issuer.Resides _ settings _ :=
      hs.resides fun e he => hp e (List.mem_append_left _ he)
    exact confined_append.mpr ⟨hs.confined, hf.confined hns hi⟩
  | proceeded _ _ hs _ hproceeds =>
    have hi : Issuer.Resides _ settings _ :=
      hs.resides fun e he => hp e (List.mem_append_left _ he)
    exact confined_append.mpr ⟨hs.confined,
      hproceeds.confined hns hi fun e he => hp e (List.mem_append_right _ he)⟩

theorem confined_of_yields {outcome : Except Failure Action}
    (h : (r.reconcile settings).Yields events outcome) (hp : ∀ e ∈ events, Placed e) :
    Confined (r.bounds settings) events := (courses_of_yields h).confined hp

end CertificateRequest

end CertBroker
