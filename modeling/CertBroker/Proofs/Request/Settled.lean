import CertBroker.Proofs.Cluster.Status
import CertBroker.Proofs.Pass.Verdict
import CertBroker.Proofs.Request.Rehearsal

namespace CertBroker

open Stored (Served Applied)

namespace RequestStatus

/-- Nothing is to be done any more, or an approver denied the request. -/
def IsSettled (s : RequestStatus) : Prop :=
  s.terminal?.isSome = true ∨ s.isDeniedByApprover = true

theorem conditions_ne_nil_of_terminal? {s : RequestStatus} (h : s.terminal?.isSome = true) :
    s.conditions ≠ [] := by
  intro hnil
  rw [terminal?, hasTrue, readyIs, readyIs, condition, condition, hnil] at h
  exact absurd h (by decide)

end RequestStatus

variable {a : Api.Address} {others : Stored → Stored → Prop} {i j k : Stored}
  {r r' current after : CertificateRequest} {settings : Settings} {asked : List Event}
  {sent : List Sent} {outcome : Except Failure Action}

namespace Stored

theorem Holds.status_eq (h : i.Holds a r) (h' : j.Holds a r') (hs : j.status? = i.status?) :
    r'.status = r.status := by
  have hread := h'.status
  rw [hs, h.status] at hread
  exact (Option.some.inj hread).symm

/-- Every request read of the object has a settled status. -/
def IsSettled (j : Stored) : Prop :=
  ∀ status, Json.optional RequestStatus.ofJson? j.status? = some status →
    (status.getD {}).IsSettled

theorem Holds.isSettled_iff (h : i.Holds a r) : i.IsSettled ↔ r.currentStatus.IsSettled := by
  constructor
  · intro hi
    exact hi r.status h.status
  · intro hr status hread
    rw [h.status] at hread
    cases hread
    exact hr

end Stored

def Write.Settles : Write → Prop
  | .status r _ => ∃ s, r.status = some s ∧ s.terminal?.isSome = true
  | _ => True

namespace Stored.Applied

theorem isSettled {w : Write} (h : i.Applied w j) (hw : w.Settles) (hi : i.IsSettled) :
    j.IsSettled := by
  intro status hread
  cases w with
  | annotations => exact hi status (by rw [← h.status?_eq rfl, hread])
  | finalizer => exact hi status (by rw [← h.status?_eq rfl, hread])
  | status r version =>
    obtain ⟨s, hs, hfinal⟩ := hw
    rw [h.status?_of_status hs] at hread
    obtain ⟨t, rfl, hmarks⟩ :=
      RequestStatus.marks_of_merged (RequestStatus.conditions_ne_nil_of_terminal? hfinal) hread
    refine .inl ?_
    rw [Option.getD_some, RequestStatus.terminal?_eq_of_marks hmarks, hfinal]

end Stored.Applied

namespace CertificateRequest

variable {issuer : Issuer} {events : List Event}

theorem Seeks.offline {found : Except Failure Issuer} (h : r.Seeks events found) :
    Offline events := by
  cases h <;> simp [issuerQuestion, Ask.contactsPki]

theorem Guards.offline {found : Except Failure CertificateRequest}
    (h : r.Guards issuer events found) : Offline events := by
  cases h <;> simp [Ask.contactsPki]

theorem Links.offline {linked : Except Failure Unit} (h : r.Links events linked) :
    Offline events := by
  cases h <;> simp [Ask.contactsPki]

theorem Guards.question {found : Except Failure CertificateRequest}
    (h : r.Guards issuer events found) : ∀ e ∈ events, e.question = .addFinalizer r := by
  cases h <;> simp

theorem Guards.answered (h : r.Guards issuer events (.ok current)) :
    current = r ∨ (⟨.addFinalizer r, .ok current⟩ : Event) ∈ events := by
  cases h with
  | content => exact .inl rfl
  | written => exact .inr List.mem_cons_self

/-- A request with a settled status that is moved on is denied, without the PKI. -/
theorem Advances.denied_of_isSettled {result : CertificateRequest × Except Failure Action}
    (h : r.Advances issuer settings events result) (hs : r.currentStatus.IsSettled)
    (ht : r.currentStatus.terminal? = none) :
    ∃ now, events = [⟨.now, now⟩] ∧ result =
      (r.updateStatus fun s => s.applyLocalDenial now, .ok .awaitChange) := by
  have hdenied : r.currentStatus.isDeniedByApprover = true := by
    rcases hs with hs | hs
    · exact absurd hs (by simp [ht])
    · exact hs
  cases h with
  | denied _ now => exact ⟨now, rfl, rfl⟩
  | polled hno => exact absurd hdenied (by simp [hno])
  | submitted hno => exact absurd hdenied (by simp [hno])
  | waiting hno => exact absurd hdenied (by simp [hno])

end CertificateRequest

theorem Dispatches.settles (h : Dispatches asked sent) (hu : Unstored asked) :
    ∀ e ∈ sent, e.question.Settles := by
  intro e he
  rcases h.finalizer_of_unstored hu e he with ⟨r, _, hq⟩ | ⟨r, _, hq⟩
  · rw [hq]
    trivial
  · rw [hq]
    trivial

theorem Stores.settles {s : RequestStatus} {stored : Except Failure Unit}
    (h : Stores current after sent stored) (hs : after.status = some s)
    (ht : s.terminal?.isSome = true) : ∀ e ∈ sent, e.question.Settles := by
  cases h <;> simp [Write.Settles, hs, ht]

/-- A question links the parent Certificate that was read to the certificate of the request. -/
def Visit.LinksParent (v : Visit) (q : Ask) : Prop :=
  ∃ current id name parent c,
    (current = v.request ∨ (⟨.addFinalizer v.request, .ok current⟩ : Event) ∈ v.asked) ∧
    current.metadata.certificateId? = some id ∧ current.metadata.parentName? = some name ∧
    (⟨.readCertificate current.metadata.nsText name, .ok (some parent)⟩ : Event) ∈ v.asked ∧
    parent.IsLinked id c ∧ q = .storeAnnotations c

/-- What a pass over a request with a final status does. -/
structure Visit.Rests (v : Visit) (status : Option RequestStatus) (t : Terminal) : Prop where
  status : v.request.status = status
  unstored : Unstored v.asked
  writes : ∀ e ∈ v.asked, e.question.isWrite = true →
    e.question = .addFinalizer v.request ∨ t = .issued ∧ v.LinksParent e.question
  sent : ∀ e ∈ v.sent, e.question = .finalizer v.request true

theorem offline_of_settled (ho : ∀ i j, others i j → j.status? = i.status?) (hr : i.Holds a r)
    (hn : r.isDeleted = false) (hc : r.Courses settings asked outcome)
    (hd : Dispatches asked sent) (hs : Served a others i sent j) (hi : i.IsSettled) :
    Offline asked ∧ ∀ e ∈ sent, e.question.Settles := by
  cases hc with
  | foreign => exact ⟨never_nil _, hd.settles (never_nil _)⟩
  | released _ hyes => exact absurd hyes (by simp [hn])
  | unresolved _ _ hseek => exact ⟨hseek.offline, hd.settles hseek.quiet.silent.unstored⟩
  | unready _ _ hseek => exact ⟨hseek.offline, hd.settles hseek.quiet.silent.unstored⟩
  | finished _ hyes => exact absurd hyes (by simp [hn])
  | proceeded _ _ hseek _ hp =>
    have hunstored := hseek.quiet.silent.unstored
    cases hp with
    | unguarded hg =>
      exact ⟨by simp [hseek.offline, hg.offline], hd.settles (by simp [hunstored, hg.unstored])⟩
    | closed hg =>
      exact ⟨by simp [hseek.offline, hg.offline], hd.settles (by simp [hunstored, hg.unstored])⟩
    | issued hg _ hl =>
      exact ⟨by simp [hseek.offline, hg.offline, hl.offline],
        hd.settles (by simp [hunstored, hg.unstored, hl.quiet.silent.unstored])⟩
    | @worked _ _ _ _ current _ _ _ _ hg ht ha hreflects _ hl =>
      obtain ⟨k, guarded, written, rfl, hguarding, hrest, hk, _, _, hinv⟩ :=
        guarded_of_served hr hseek.quiet.silent hg hd hs
      have hsettled : current.currentStatus.IsSettled := by
        refine hk.isSettled_iff.mp (hinv Stored.IsSettled ?_ ?_ hi)
        · intro i j hstep hi status hread
          exact hi status (by rw [← ho i j hstep, hread])
        · exact fun i j happ hi => happ.isSettled trivial hi
      obtain ⟨now, rfl, hafter⟩ := ha.denied_of_isSettled hsettled ht
      cases hafter
      cases hreflects
      have hstores := (hrest.drop_silent (by simp [Ask.changesRequest])).of_store hl.quiet.silent
      have hfinal := current.currentStatus.terminal?_applyLocalDenial now
      refine ⟨by simp [hseek.offline, hg.offline, hl.offline, Ask.contactsPki], fun e he => ?_⟩
      rcases List.mem_append.mp he with he | he
      · exact hguarding.settles hg.unstored e he
      · exact hstores.settles rfl (by simp [hfinal]) e he

namespace CertificateRequest

/-- What linking the parent writes. -/
theorem Links.write {events : List Event} {linked : Except Failure Unit}
    (h : r.Links events linked) : ∀ e ∈ events, e.question.isWrite = true →
      ∃ id name parent c, r.metadata.certificateId? = some id ∧
        r.metadata.parentName? = some name ∧
        (⟨.readCertificate r.metadata.nsText name, .ok (some parent)⟩ : Event) ∈ events ∧
        parent.IsLinked id c ∧ e.question = .storeAnnotations c := by
  intro e he hw
  cases h with
  | nothing => exact absurd he (by simp)
  | unread =>
    cases List.mem_singleton.mp he
    exact absurd hw (by simp [Ask.isWrite])
  | orphaned =>
    cases List.mem_singleton.mp he
    exact absurd hw (by simp [Ask.isWrite])
  | linked =>
    cases List.mem_singleton.mp he
    exact absurd hw (by simp [Ask.isWrite])
  | @written id name parent hi hname hl =>
    rcases List.mem_cons.mp he with rfl | he
    · exact absurd hw (by simp [Ask.isWrite])
    · cases List.mem_singleton.mp he
      exact ⟨id, name, parent, _, hi, hname, List.mem_cons_self,
        Certificate.isLinked_linkedTo hl, rfl⟩

end CertificateRequest

theorem status_of_guarded {issuer : Issuer} {seeking guarding rest : List Event}
    (ho : ∀ i j, others i j → j.status? = i.status?) (hr : i.Holds a r) (hq : Silent seeking)
    (hg : r.Guards issuer guarding (.ok current))
    (hd : Dispatches (seeking ++ (guarding ++ rest)) sent) (hs : Served a others i sent j) :
    current.status = r.status := by
  obtain ⟨k, _, _, _, _, _, hk, _, _, hinv⟩ := guarded_of_served hr hq hg hd hs
  refine hr.status_eq hk (hinv (fun j => j.status? = i.status?) ?_ ?_ rfl)
  · exact fun j k hstep hj => (ho j k hstep).trans hj
  · exact fun j k happ hj => (happ.status?_eq rfl).trans hj

theorem writes_of_terminal {t : Terminal} (ho : ∀ i j, others i j → j.status? = i.status?)
    (hr : i.Holds a r) (hn : r.isDeleted = false) (hc : r.Courses settings asked outcome)
    (hd : Dispatches asked sent) (hs : Served a others i sent j)
    (ht : r.currentStatus.terminal? = some t) :
    Unstored asked ∧ ∀ e ∈ asked, e.question.isWrite = true →
      e.question = .addFinalizer r ∨
        t = .issued ∧ Visit.LinksParent ⟨r, asked, sent, outcome⟩ e.question := by
  have hnone {events : List Event} (h : Unwritten events) (e : Event) (he : e ∈ events)
      (hw : e.question.isWrite = true) : False := by
    rw [h e he] at hw
    exact Bool.false_ne_true hw
  cases hc with
  | foreign => exact ⟨never_nil _, fun e he _ => absurd he (by simp)⟩
  | released _ hyes => exact absurd hyes (by simp [hn])
  | unresolved _ _ hseek =>
    exact ⟨hseek.quiet.silent.unstored, fun e he hw => (hnone hseek.unwritten e he hw).elim⟩
  | unready _ _ hseek =>
    exact ⟨hseek.quiet.silent.unstored, fun e he hw => (hnone hseek.unwritten e he hw).elim⟩
  | finished _ hyes => exact absurd hyes (by simp [hn])
  | @proceeded seeking _ _ _ _ _ hseek _ hp =>
    have hunstored := hseek.quiet.silent.unstored
    cases hp with
    | unguarded hg =>
      refine ⟨by simp [hunstored, hg.unstored], fun e he hw => .inl ?_⟩
      rcases List.mem_append.mp he with he | he
      · exact (hnone hseek.unwritten e he hw).elim
      · exact hg.question e he
    | closed hg =>
      refine ⟨by simp [hunstored, hg.unstored], fun e he hw => .inl ?_⟩
      rcases List.mem_append.mp he with he | he
      · exact (hnone hseek.unwritten e he hw).elim
      · exact hg.question e he
    | @issued guarding linking current _ hg hi hl =>
      have hstatus := status_of_guarded ho hr hseek.quiet.silent hg hd hs
      have hissued : t = .issued := by
        rw [CertificateRequest.currentStatus, hstatus] at hi
        exact Option.some.inj (ht.symm.trans hi)
      refine ⟨by simp [hunstored, hg.unstored, hl.quiet.silent.unstored], fun e he hw => ?_⟩
      rcases List.mem_append.mp he with he | he
      · exact (hnone hseek.unwritten e he hw).elim
      rcases List.mem_append.mp he with he | he
      · exact .inl (hg.question e he)
      · obtain ⟨id, name, parent, c, hid, hname, hread, hlinked, hq⟩ := hl.write e he hw
        refine .inr ⟨hissued, current, id, name, parent, c, ?_, hid, hname, ?_, hlinked, hq⟩
        · rcases hg.answered with h | h
          · exact .inl h
          · exact .inr (by simp [h])
        · rw [CertificateRequest.withStatus_metadata] at hread
          simp [hread]
    | worked hg hnone =>
      have hstatus := status_of_guarded ho hr hseek.quiet.silent hg hd hs
      rw [CertificateRequest.currentStatus, hstatus] at hnone
      exact absurd (ht.symm.trans hnone) (by simp)

theorem rests_of_terminal {t : Terminal} (ho : ∀ i j, others i j → j.status? = i.status?)
    (hr : i.Holds a r) (hn : r.isDeleted = false) (hc : r.Courses settings asked outcome)
    (hd : Dispatches asked sent) (hs : Served a others i sent j)
    (ht : r.currentStatus.terminal? = some t) :
    Visit.Rests ⟨r, asked, sent, outcome⟩ r.status t := by
  obtain ⟨hunstored, hwrites⟩ := writes_of_terminal ho hr hn hc hd hs ht
  refine ⟨rfl, hunstored, hwrites, fun e he => ?_⟩
  rcases hd.finalizer_of_unstored hunstored e he with ⟨q, ⟨e', he', hq⟩, hfinal⟩ | ⟨q, ⟨e', he', hq⟩, _⟩
  · rcases hwrites e' he' (by rw [hq]; rfl) with hadd | ⟨_, _, _, _, _, _, _, _, _, _, _, hlink⟩
    · cases hq.symm.trans hadd
      exact hfinal
    · exact absurd (hq.symm.trans hlink) (by simp)
  · rcases hwrites e' he' (by rw [hq]; rfl) with hadd | ⟨_, _, _, _, _, _, _, _, _, _, _, hlink⟩
    · exact absurd (hq.symm.trans hadd) (by simp)
    · exact absurd (hq.symm.trans hlink) (by simp)

variable {visits : List Visit}

theorem offline_of_rounds (ho : ∀ i j, others i j → j.status? = i.status?)
    (h : Rounds a others i visits k) (hn : ∀ v ∈ visits, v.request.isDeleted = false)
    (hi : i.IsSettled) : ∀ v ∈ visits, Offline v.asked := by
  have hkept (i j : Stored) (hstep : others i j) (hi : i.IsSettled) : j.IsSettled :=
    fun status hread => hi status (by rw [← ho i j hstep, hread])
  induction h with
  | rest => simp
  | outside hstep _ ih => exact ih hn (hkept _ _ hstep hi)
  | pass hr hy hd hs _ ih =>
    have hfirst := hn _ List.mem_cons_self
    obtain ⟨hoffline, hsettles⟩ := offline_of_settled ho hr hfirst
      (CertificateRequest.courses_of_yields hy) hd hs hi
    have hj := hs.invariant hkept (fun e he _ _ _ happ => happ.isSettled (hsettles e he)) hi
    intro v hv
    rcases List.mem_cons.mp hv with rfl | hv
    · exact hoffline
    · exact ih (fun v hv => hn v (List.mem_cons_of_mem _ hv)) hj v hv

theorem rests_of_rounds {status : Option RequestStatus} {t : Terminal}
    (ho : ∀ i j, others i j → j.status? = i.status?) (h : Rounds a others i visits k)
    (hn : ∀ v ∈ visits, v.request.isDeleted = false)
    (hi : Json.optional RequestStatus.ofJson? i.status? = some status)
    (ht : (status.getD {}).terminal? = some t) : ∀ v ∈ visits, v.Rests status t := by
  induction h with
  | rest => simp
  | outside hstep _ ih => exact ih hn (by rw [ho _ _ hstep, hi])
  | @pass i j _ r _ _ _ _ _ hr hy hd hs _ ih =>
    have hstatus : r.status = status := by
      have hread := hr.status
      rw [hi] at hread
      exact (Option.some.inj hread).symm
    subst hstatus
    have hrests := rests_of_terminal ho hr (hn _ List.mem_cons_self)
      (CertificateRequest.courses_of_yields hy) hd hs ht
    have hj : j.status? = i.status? := by
      refine hs.invariant (P := fun j => j.status? = i.status?) ?_ ?_ rfl
      · exact fun j k hstep hj => (ho j k hstep).trans hj
      · intro e he _ j k happ hj
        rw [hrests.sent e he] at happ
        exact (happ.status?_eq rfl).trans hj
    intro v hv
    rcases List.mem_cons.mp hv with rfl | hv
    · exact hrests
    · exact ih (fun v hv => hn v (List.mem_cons_of_mem _ hv)) (by rw [hj, hi]) v hv

/-- A settled request is left to the cluster: no pass over it reaches the PKI. Once its status is
final, passes keep the status and the ledger, and write nothing but our finalizer and, for an
issued request, the link of its parent. -/
theorem settled_of_rounds (ho : ∀ i j, others i j → j.status? = i.status?)
    (h : Rounds a others i visits k) (hn : ∀ v ∈ visits, v.request.isDeleted = false)
    (hr : i.Holds a r) (hs : r.currentStatus.IsSettled) :
    (∀ v ∈ visits, Offline v.asked) ∧ ∀ t, r.currentStatus.terminal? = some t →
      (∀ v ∈ visits, v.Rests r.status t) ∧ k.status? = i.status? ∧
        (∀ r', k.Holds a r' → r'.status = r.status) ∧
        ∀ key, (∀ i j, others i j → j.annotation? key = i.annotation? key) →
          k.annotation? key = i.annotation? key := by
  refine ⟨offline_of_rounds ho h hn (hr.isSettled_iff.mpr hs), fun t ht => ?_⟩
  have hrests := rests_of_rounds ho h hn hr.status ht
  have hstatus : k.status? = i.status? := by
    refine h.invariant (P := fun j => j.status? = i.status?) ?_ ?_ rfl
    · exact fun j k hstep hj => (ho j k hstep).trans hj
    · intro v hv e he j k happ hj
      rw [(hrests v hv).sent e he] at happ
      exact (happ.status?_eq rfl).trans hj
  refine ⟨hrests, hstatus, fun r' hr' => hr.status_eq hr' hstatus, fun key hkey => ?_⟩
  refine h.invariant (P := fun j => j.annotation? key = i.annotation? key) ?_ ?_ rfl
  · exact fun j k hstep hj => (hkey j k hstep).trans hj
  · intro v hv e he j k happ hj
    rw [(hrests v hv).sent e he] at happ
    refine (happ.annotation?_eq ?_ key).trans hj
    simp [Write.noted, Store.finalizersChange, Json.member]

/-- A request whose certificate is not yet linked to its parent. -/
def Stored.sampleIssued : Stored :=
  sampleWith (Json.member Annotation.certificateId (.string "cert-1")
      ++ Json.member Annotation.certificateName (.string "web-tls"))
    [("conditions",
      .array [.object [("type", .string ConditionType.ready), ("status", .string "True")]])]

def sampleIssued : CertificateRequest where
  metadata := {
    name := some "web", ns := some "shop"
    annotations := some ((Dict.empty.insert Annotation.certificateId "cert-1").insert
      Annotation.certificateName "web-tls") }
  spec := { request := "QQ==", issuerRef := ⟨"pki", none, some groupName⟩ }
  status := some { conditions := [⟨ConditionType.ready, .yes, none, none, none⟩] }

/-- The finalizer is refused in the first pass; the second adds it and links the parent. -/
def sampleIssuedPlans : List Rehearsal.Plan :=
  [{ world := .sample, refuses := fun _ => some (.cluster "connection failed") },
    { world := .sample }]

theorem settled_of_issued :
    let run := rehearse Stored.sampleAddress sampleIssuedPlans Stored.sampleIssued
    let kept := fun i j : Stored => j.status? = i.status?
    Rounds Stored.sampleAddress kept Stored.sampleIssued run.1 run.2 ∧
      run.1.map (fun v => v.request.isDeleted) = [false, false] ∧
      Stored.sampleIssued.Holds Stored.sampleAddress sampleIssued ∧
      sampleIssued.currentStatus.terminal? = some .issued ∧
      run.1.map (fun v => v.asked.countP (·.question.isWrite)) = [1, 2] ∧
      (∀ v ∈ run.1, Offline v.asked) ∧ (∀ v ∈ run.1, v.Rests sampleIssued.status .issued) := by
  have hrun := rounds_rehearse Stored.sampleAddress (fun i j => j.status? = i.status?)
    sampleIssuedPlans Stored.sampleIssued
  have hread : Stored.sampleIssued.Holds Stored.sampleAddress sampleIssued :=
    ⟨by decide +kernel, by decide⟩
  have hissued : sampleIssued.currentStatus.terminal? = some .issued := by decide
  obtain ⟨hoffline, hfinal⟩ := settled_of_rounds (fun _ _ hstep => hstep) hrun
    (by decide +kernel) hread (.inl (by decide))
  exact ⟨hrun, by decide +kernel, hread, hissued, by decide +kernel, hoffline,
    (hfinal .issued hissued).1⟩

end CertBroker
