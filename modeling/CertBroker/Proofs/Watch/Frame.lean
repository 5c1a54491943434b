import CertBroker.Proofs.Pass.Course
import CertBroker.Proofs.Pass.Tending
import CertBroker.Watch.Watched

namespace CertBroker

/-- The key of the Certificate that a request was made for, if it names one. -/
def CertificateRequest.parentKey? (r : CertificateRequest) : Option String :=
  r.metadata.parentName?.map (objectKey r.metadata.nsText)

/-- Every Certificate stands under its own key. -/
def Holdings.Keyed (w : Holdings) : Prop :=
  ∀ key c, w.certificates key = some c → c.metadata.key = key

variable {fresh : Stamp → Prop} {r q current : CertificateRequest} {i : Issuer}
  {settings : Settings} {e : Event} {w v v' w' : Holdings} {events first second : List Event}
  {outcome : Except Failure Action}

/-- The same holdings but for what is tended of a request and of its parent, and for the stamps
that the server gives them. -/
structure RequestFrame (fresh : Stamp → Prop) (r : CertificateRequest) (w w' : Holdings) :
    Prop where
  request : ∃ q, w'.requests r.metadata.key = some q ∧ r.Tended fresh q
  requests : ∀ key, key ≠ r.metadata.key → w'.requests key = w.requests key
  parent : ∀ key, r.parentKey? = some key →
    Option.Rel (Certificate.Tended fresh) (w.certificates key) (w'.certificates key)
  certificates : ∀ key, r.parentKey? ≠ some key → w'.certificates key = w.certificates key
  issuers : w'.issuers = w.issuers
  secrets : w'.secrets = w.secrets
  ingresses : w'.ingresses = w.ingresses

/-- A question that writes tends the request, or its parent as it was held at the start. -/
def Ask.Tends (fresh : Stamp → Prop) (r : CertificateRequest) (w : Holdings) : Ask → Prop
  | .storeRequest _ after => r.Tended fresh after
  | .addFinalizer q => r.Tended fresh q
  | .removeFinalizer q => r.Tended fresh q
  | .storeAnnotations c => ∃ held, w.certificates c.metadata.key = some held ∧
      r.parentKey? = some c.metadata.key ∧ held.Tended fresh c
  | .storeIssuerStatus _ => False
  | _ => True

theorem Ask.tends_of_unwritten {q : Ask} (h : q.isWrite = false) : q.Tends fresh r w := by
  cases q <;> trivial

/-- All questions tend the request. -/
def Tending (fresh : Stamp → Prop) (r : CertificateRequest) (w : Holdings)
    (events : List Event) : Prop :=
  ∀ e ∈ events, e.question.Tends fresh r w

@[simp] theorem tending_nil : Tending fresh r w [] := by simp [Tending]

@[simp] theorem tending_cons : Tending fresh r w (e :: events) ↔
    e.question.Tends fresh r w ∧ Tending fresh r w events := by simp [Tending]

@[simp] theorem tending_append : Tending fresh r w (first ++ second) ↔
    Tending fresh r w first ∧ Tending fresh r w second := by simp [Tending, or_imp, forall_and]

theorem tending_of_unwritten (h : Unwritten events) : Tending fresh r w events :=
  fun e he => Ask.tends_of_unwritten (h e he)

namespace RequestFrame

theorem refl (hr : w.requests r.metadata.key = some r) : RequestFrame fresh r w w := by
  refine ⟨⟨r, hr, .refl r⟩, fun _ _ => rfl, fun key _ => ?_, fun _ _ => rfl, rfl, rfl, rfl⟩
  cases w.certificates key with
  | none => exact .none
  | some c => exact .some (.refl c)

theorem setRequest (h : RequestFrame fresh r w v) {key : String} {left : Option CertificateRequest}
    (hq : r.Tended fresh q) (hkey : key = r.metadata.key)
    (hl : Remains (CertificateRequest.Mixes fresh) (v.requests key) q left) :
    RequestFrame fresh r w (v.setRequest key left) := by
  subst hkey
  obtain ⟨held, hheld, htended⟩ := h.request
  obtain ⟨new, rfl, hnew⟩ := hl.exists_of hheld htended hq fun new hm => htended.mixes hq hm
  refine ⟨⟨new, Function.update_self .., hnew⟩, fun key hkey => ?_, h.parent, h.certificates,
    h.issuers, h.secrets, h.ingresses⟩
  exact (Function.update_of_ne hkey ..).trans (h.requests key hkey)

theorem setCertificate (h : RequestFrame fresh r w v) {c held : Certificate}
    {left : Option Certificate} (hheld : w.certificates c.metadata.key = some held)
    (hp : r.parentKey? = some c.metadata.key) (hc : held.Tended fresh c)
    (hl : Remains (Certificate.Mixes fresh) (v.certificates c.metadata.key) c left) :
    RequestFrame fresh r w (v.setCertificate c.metadata.key left) := by
  have hparent := h.parent _ hp
  rw [hheld] at hparent
  obtain ⟨new, rfl, hnew⟩ : ∃ new, left = some new ∧ held.Tended fresh new := by
    cases hv : v.certificates c.metadata.key with
    | none =>
      rw [hv] at hparent
      cases hparent
    | some old =>
      rw [hv] at hparent
      cases hparent with
      | some hold => exact hl.exists_of hv hold hc fun new hm => hold.mixes hc hm
  refine ⟨h.request, h.requests, fun key hkey => ?_, fun key hkey => ?_, h.issuers, h.secrets,
    h.ingresses⟩
  · obtain rfl : c.metadata.key = key := Option.some.inj (hp.symm.trans hkey)
    simp only [Holdings.setCertificate, Function.update_self, hheld]
    exact .some hnew
  · have hne : key ≠ c.metadata.key := fun heq => hkey (heq ▸ hp)
    exact (Function.update_of_ne hne ..).trans (h.certificates key hkey)

theorem serves (he : v.Serves fresh e v') (ht : e.question.Tends fresh r w)
    (h : RequestFrame fresh r w v) : RequestFrame fresh r w v' := by
  cases he with
  | found => exact h
  | unread => exact h
  | stored hl => exact h.setRequest ht ht.metadata.key hl
  | guarded hl =>
    exact h.setRequest (ht.trans (CertificateRequest.tended_guard _ true)) ht.metadata.key hl
  | unguarded hl =>
    exact h.setRequest (ht.trans (CertificateRequest.tended_guard _ true)) ht.metadata.key hl
  | released hl =>
    exact h.setRequest (ht.trans (CertificateRequest.tended_guard _ false)) ht.metadata.key hl
  | annotated hl =>
    obtain ⟨held, hheld, hp, hc⟩ := ht
    exact h.setCertificate hheld hp hc hl
  | reported => cases ht
  | beside => exact h

theorem answers (h : RequestFrame fresh r w v) (hs : v.Answers fresh events v')
    (ht : Tending fresh r w events) : RequestFrame fresh r w v' :=
  hs.invariant (fun _ _ _ he ha hv => hv.serves he ha) ht h

end RequestFrame

namespace CertificateRequest

theorem tended_withStatus (r : CertificateRequest) : r.Tended fresh r.withStatus :=
  ⟨.refl _, rfl, rfl⟩

/-- Linking the parent tends it: it was read as it stands, or as it was tended before. -/
theorem Links.tending {linking : List Event} {linked : Except Failure Unit}
    (h : q.Links linking linked) (hq : r.Tended fresh q) (hw : w.Keyed)
    (hv : RequestFrame fresh r w v) (hs : v.Answers fresh linking v') :
    Tending fresh r w linking := by
  cases h with
  | nothing => simp
  | unread => simp [Ask.Tends]
  | orphaned => simp [Ask.Tends]
  | linked => simp [Ask.Tends]
  | @written id name parent hi hn hl =>
    obtain ⟨_, hread, -⟩ := hs
    have hparent := hread.certificate rfl
    have hkey : r.parentKey? = some (objectKey q.metadata.nsText name) := by
      rw [parentKey?, ← hq.metadata.parentName?, hn, ← hq.metadata.nsText]
      rfl
    have hrel := hv.parent _ hkey
    rw [hparent] at hrel
    cases hheld : w.certificates (objectKey q.metadata.nsText name) with
    | none =>
      rw [hheld] at hrel
      cases hrel
    | some held =>
      rw [hheld] at hrel
      cases hrel with
      | some htended =>
        have hlinked := htended.trans (Certificate.tended_linkedTo hl)
        have hown : (linkedTo parent id).metadata.key = objectKey q.metadata.nsText name :=
          hlinked.metadata.key.trans (hw _ _ hheld)
        simp only [tending_cons, tending_nil, and_true]
        exact ⟨trivial, held, by rw [hown, hheld], by rw [hown, hkey], hlinked⟩

theorem Guards.tending {guarded : Except Failure CertificateRequest}
    (h : r.Guards i events guarded) : Tending fresh r w events := by
  cases h with
  | content => simp
  | written => simpa [Ask.Tends] using CertificateRequest.Tended.refl r

/-- The request a pass goes on with is the one it was given, tended. -/
theorem Guards.tended (h : r.Guards i events (.ok current))
    (hr : w.requests r.metadata.key = some r) (hs : w.Answers fresh events v) :
    r.Tended fresh current := by
  generalize hg : (Except.ok current : Except Failure CertificateRequest) = guarded at h
  cases h with
  | content =>
    cases hg
    exact .refl r
  | written =>
    obtain ⟨_, hserves, -⟩ := hs
    have hguard : r.Tended fresh (Simulation.World.guard r true) := tended_guard r true
    obtain ⟨new, hnew, htended⟩ := (hserves.guards hg.symm).exists_of hr (.refl r) hguard
      fun new hm => (Tended.refl r).mixes hguard hm
    cases hnew
    exact htended

theorem Finishes.tending {finished : Except Failure Unit}
    (h : r.Finishes i settings events finished) : Tending fresh r w events := by
  have hrevokes {revoking : List Event} {revoked : Except Failure Unit}
      (hv : r.Revokes i settings revoking revoked) : Tending fresh r w revoking := by
    cases hv with
    | nothing => simp
    | unopened _ ho => exact tending_of_unwritten ho.unwritten
    | settled _ ho => simp [tending_of_unwritten ho.unwritten, Ask.Tends]
    | failed _ ho => simp [tending_of_unwritten ho.unwritten, Ask.Tends]
  have hown : (Ask.removeFinalizer r).Tends fresh r w := Tended.refl r
  cases h with
  | unguarded => simp
  | spared => simpa using hown
  | unrevoked _ _ hv => exact hrevokes hv
  | revoked _ _ hv => simpa using ⟨hrevokes hv, hown⟩

theorem Proceeds.tending (h : r.Proceeds i settings events outcome)
    (hr : w.requests r.metadata.key = some r) (hw : w.Keyed) (hs : w.Answers fresh events w') :
    Tending fresh r w events := by
  cases h with
  | unguarded hg => exact hg.tending
  | closed hg => exact hg.tending
  | issued hg _ hl =>
    obtain ⟨v, hguards, hlinks⟩ := Holdings.answers_append.mp hs
    have hframe := (RequestFrame.refl hr).answers hguards hg.tending
    have htended : r.Tended fresh _ := (hg.tended hr hguards).trans (tended_withStatus _)
    exact tending_append.mpr ⟨hg.tending, hl.tending htended hw hframe hlinks⟩
  | @worked guarding advancing noted linking current after reflected _ _ hg _ ha hreflects _ hl =>
    obtain ⟨v, hguards, hrest⟩ := Holdings.answers_append.mp hs
    have hcurrent : r.Tended fresh current.withStatus :=
      (hg.tended hr hguards).trans (tended_withStatus _)
    have hreflected : r.Tended fresh reflected :=
      (hcurrent.trans ha.becomes.tended).trans hreflects.tended
    -- Between the finalizer and the write of the request nothing is written.
    have hquiet : Tending fresh r w (advancing ++ noted) :=
      tending_append.mpr ⟨tending_of_unwritten ha.unwritten,
        tending_of_unwritten hreflects.unwritten⟩
    rw [← List.append_assoc advancing] at hrest ⊢
    obtain ⟨between, hmoves, stored, hstores, hlinks⟩ := Holdings.answers_append.mp hrest
    have hframe := (((RequestFrame.refl hr).answers hguards hg.tending).answers hmoves
      hquiet).serves hstores hreflected
    refine tending_append.mpr ⟨hg.tending, tending_append.mpr ⟨hquiet, ?_⟩⟩
    exact tending_cons.mpr ⟨hreflected, hl.tending hreflected hw hframe hlinks⟩

theorem Courses.tending (h : r.Courses settings events outcome)
    (hr : w.requests r.metadata.key = some r) (hw : w.Keyed) (hs : w.Answers fresh events w') :
    Tending fresh r w events := by
  cases h with
  | foreign => simp
  | released _ _ hreleases =>
    have hown : (Ask.removeFinalizer r).Tends fresh r w := Tended.refl r
    cases hreleases with
    | unguarded => simp
    | kept => simp
    | removed => simpa using hown
    | failed => simpa using hown
  | unresolved _ _ hseeks => exact tending_of_unwritten hseeks.unwritten
  | unready _ _ hseeks => exact tending_of_unwritten hseeks.unwritten
  | finished _ _ _ hseeks _ hf =>
    exact tending_append.mpr ⟨tending_of_unwritten hseeks.unwritten, hf.tending⟩
  | proceeded _ _ hseeks _ hp =>
    obtain ⟨v, hfirst, hrest⟩ := Holdings.answers_append.mp hs
    cases hfirst.eq_of_unwritten hseeks.unwritten
    exact tending_append.mpr
      ⟨tending_of_unwritten hseeks.unwritten, hp.tending hr hw hrest⟩

end CertificateRequest

/-- The same holdings but for the Ready condition of an issuer, and for the stamps that the server
gives it. -/
structure IssuerFrame (fresh : Stamp → Prop) (i : Issuer) (w w' : Holdings) : Prop where
  issuer : ∃ j, w'.issuers i.key = some j ∧ i.Tended fresh j
  issuers : ∀ key, key ≠ i.key → w'.issuers key = w.issuers key
  requests : w'.requests = w.requests
  certificates : w'.certificates = w.certificates
  secrets : w'.secrets = w.secrets
  ingresses : w'.ingresses = w.ingresses

/-- A question that writes reports on the issuer. -/
def Ask.ReportsOn (fresh : Stamp → Prop) (i : Issuer) : Ask → Prop
  | .storeIssuerStatus j => i.Tended fresh j
  | q => q.isWrite = false

theorem Ask.reportsOn_of_unwritten {q : Ask} (h : q.isWrite = false) : q.ReportsOn fresh i := by
  cases q <;> first | exact h | cases h

namespace IssuerFrame

theorem refl (hi : w.issuers i.key = some i) : IssuerFrame fresh i w w :=
  ⟨⟨i, hi, .refl i⟩, fun _ _ => rfl, rfl, rfl, rfl, rfl⟩

theorem serves (he : v.Serves fresh e v') (ht : e.question.ReportsOn fresh i)
    (h : IssuerFrame fresh i w v) : IssuerFrame fresh i w v' := by
  cases he with
  | found => exact h
  | unread => exact h
  | @reported j left hl =>
    have hkey : j.key = i.key := ht.key
    rw [hkey] at hl ⊢
    obtain ⟨held, hheld, htended⟩ := h.issuer
    obtain ⟨new, rfl, hnew⟩ := hl.exists_of hheld htended ht fun new hm => htended.mixes ht hm
    refine ⟨⟨new, Function.update_self .., hnew⟩, fun key hkey => ?_, h.requests,
      h.certificates, h.secrets, h.ingresses⟩
    exact (Function.update_of_ne hkey ..).trans (h.issuers key hkey)
  | beside => exact h
  | stored => cases ht
  | guarded => cases ht
  | unguarded => cases ht
  | released => cases ht
  | annotated => cases ht

end IssuerFrame

theorem Issuer.Reviews.reportsOn (h : i.Reviews settings events outcome) :
    ∀ e ∈ events, e.question.ReportsOn fresh i := by
  have hunwritten {part : List Event} (hu : Unwritten part) :
      ∀ e ∈ part, e.question.ReportsOn fresh i :=
    fun e he => Ask.reportsOn_of_unwritten (hu e he)
  cases h with
  | firstSeen _ now =>
    simp only [List.mem_cons, List.not_mem_nil, or_false]
    rintro e (rfl | rfl)
    · rfl
    · exact Issuer.tended_setReady i ..
  | @probed probing storing probe stored _ hp now hu =>
    simp only [List.mem_append, List.mem_cons]
    rintro e (he | rfl | he)
    · exact hunwritten (Issuer.probes_of_yields hp).unwritten e he
    · rfl
    · cases hu with
      | unchanged => cases he
      | written =>
        cases List.mem_singleton.mp he
        exact Issuer.tended_probed i probe now

namespace Watched

/-- The object is held as it is. -/
def IsHeld (o : Watched) (w : Holdings) : Prop :=
  match o with
  | .request r => w.requests r.metadata.key = some r
  | .issuer i => w.issuers i.key = some i

/-- The same holdings but for what a pass over the object tends. -/
def Frame (fresh : Stamp → Prop) (o : Watched) (w w' : Holdings) : Prop :=
  match o with
  | .request r => RequestFrame fresh r w w'
  | .issuer i => IssuerFrame fresh i w w'

/-- A pass over an object that is held changes what it tends of that object, and of the parent of a
request, and nothing else, whether it goes well or fails, and whether its writes are done, failed,
torn or merged. Of these two objects the server may set the stamp. -/
theorem frame_of_yields {o : Watched} (hw : w.Keyed) (ho : o.IsHeld w)
    (h : (o.reconcile settings).Yields events outcome) (hs : w.Answers fresh events w') :
    o.Frame fresh w w' := by
  cases o with
  | request r =>
    have htending := (CertificateRequest.courses_of_yields h).tending ho hw hs
    exact (RequestFrame.refl ho).answers hs htending
  | issuer i =>
    exact hs.invariant (fun _ _ _ he ha hv => hv.serves he ha)
      (Issuer.reviews_of_yields h).reportsOn (IssuerFrame.refl ho)

end Watched

/-- A submitted request of a Certificate, with an annotation, finalizers and a condition of
others. -/
def sampleTended : CertificateRequest where
  metadata := {
    name := some "web", ns := some "shop", finalizers := some ["other", "other"]
    annotations := some (((Dict.empty.insert Annotation.requestId "req-1").insert
      Annotation.certificateName "web-tls").insert "note" "mine") }
  spec := { request := "QQ==", issuerRef := ⟨"pki", none, some groupName⟩ }
  status := some { conditions := [⟨ConditionType.approved, .yes, none, none, none⟩,
    ⟨"Noted", .unknown, none, none, none⟩] }

/-- A world that holds the sample, where the PKI has issued its certificate. -/
def sampleTending : Simulation.World :=
  { Simulation.World.sample with
    pki := ({} : Pki.InMemory).setRequest
      { id := "req-1", status := .completed, certificate := some ⟨"cert-9", "leaf"⟩ }
  }.putRequest sampleTended

theorem keyed_sampleTending : (Holdings.ofWorld sampleTending).Keyed := by
  intro key c hc
  have hall : ∀ e ∈ sampleTending.certificates.entries, e.2.metadata.key = e.1 := by decide +kernel
  exact hall _ (Dict.mem_of_find_eq_some hc)

theorem isHeld_sampleTended : (Watched.request sampleTended).IsHeld (.ofWorld sampleTending) := by
  change sampleTending.requests.get? sampleTended.metadata.key = some sampleTended
  decide +kernel

/-- The certificate is taken over and linked, and what is of others stays. -/
theorem frame_of_issuance :
    let run := ((Watched.request sampleTended).reconcile {}).result.run Simulation.World.answer
      sampleTending
    (Watched.request sampleTended).Frame (fun _ => False) (.ofWorld sampleTending)
        (.ofWorld run.state) ∧
      (run.state.requests.get? "shop/web").map (fun r =>
          (r.metadata.certificateId?, r.metadata.annotation? "note", r.metadata.finalizers,
            r.currentStatus.conditions.map (·.type))) =
        some (some "cert-9", some "mine", some ["other", "other", finalizerName],
          [ConditionType.approved, "Noted", ConditionType.ready]) ∧
      (run.state.certificates.get? "shop/web-tls").bind (·.metadata.lastCertificateId?) =
        some "cert-9" := by
  refine ⟨?_, by decide +kernel, by decide +kernel⟩
  exact Watched.frame_of_yields keyed_sampleTending isHeld_sampleTended
    (Attempt.run_yields _ _ _) (Holdings.answers_run _ _)

end CertBroker
