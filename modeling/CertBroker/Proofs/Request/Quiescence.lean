import CertBroker.Proofs.Issuer.Repetition
import CertBroker.Proofs.Pass.Linking
import CertBroker.Proofs.Pass.Survey
import CertBroker.Proofs.Request.Refusal
import CertBroker.Proofs.Request.Rounds

namespace CertBroker

variable {reply : (q : Ask) → q.Answer} {o o' o'' p p' og : Objects}
  {events again seeking guarding linking tail : List Event} {settings : Settings}

/-- Nothing is written, but perhaps a request as it is. -/
def Idle (events : List Event) : Prop :=
  ∀ e ∈ events, e.question.isWrite = true → ∃ r, e.question = .storeRequest r r

theorem Unwritten.idle (h : Unwritten events) : Idle events := by
  intro e he hw
  rw [h e he] at hw
  cases hw

theorem Idle.append {first second : List Event} (h : Idle first) (h' : Idle second) :
    Idle (first ++ second) := by
  intro e he
  rcases List.mem_append.mp he with he | he
  · exact h e he
  · exact h' e he

/-- Nothing is sent to store a request as it is. -/
theorem Dispatches.of_idle {sent : List Sent} (h : Dispatches events sent) (hi : Idle events) :
    sent = [] := by
  induction h with
  | rest => rfl
  | silent _ _ ih => exact ih fun e he => hi e (List.mem_cons_of_mem _ he)
  | write hp hw _ ih =>
    rw [ih fun e he => hi e (List.mem_cons_of_mem _ he), List.append_nil]
    have hwrites := hi _ List.mem_cons_self
    cases dispatched_of_trace hp hw with
    | stored hs =>
      obtain ⟨r, hr⟩ := hwrites rfl
      cases hr
      cases hs with
      | nothing => rfl
      | status _ hs => exact absurd rfl hs
      | failed ha => exact absurd rfl ha
      | annotations ha => exact absurd rfl ha
      | both ha => exact absurd rfl ha
    | added =>
      obtain ⟨r, hr⟩ := hwrites rfl
      cases hr
    | removed =>
      obtain ⟨r, hr⟩ := hwrites rfl
      cases hr

namespace Objects

/-- An attempt that starts with the same questions goes on after the same answers. -/
theorem Throughout.rest_of_bind {α β : Type} {a : Attempt α} {f : α → Attempt β} {x : α}
    {outcome : Except Failure β} (h : a.Yields events (.ok x)) (ho : o.Throughout reply events o')
    (hf : Fixed events) (hc : Alone events ∨ p.certificates = o.certificates)
    (h' : (a >>= f).Yields again outcome) (hp : p.Throughout reply again p') :
    ∃ rest, again = events ++ rest ∧ (f x).Yields rest outcome ∧ p.Throughout reply rest p' := by
  rcases Attempt.yields_bind.mp h' with ⟨failure, ha, -⟩ | ⟨y, first, rest, rfl, ha, hrest⟩
  · obtain ⟨-, hx⟩ := Throughout.unique h ha ho hp hf hc
    cases hx
  · obtain ⟨between, hfirst, hlater⟩ := throughout_append_iff.mp hp
    obtain ⟨rfl, hx⟩ := Throughout.unique h ha ho hfirst hf hc
    cases hx
    rw [hfirst.eq_of_unwritten hf.unwritten] at hlater
    exact ⟨rest, rfl, hrest, hlater⟩

end Objects

namespace CertificateRequest

open Objects (Linked Throughout throughout_append_iff throughout_cons_iff throughout_nil_iff)

variable {r q left current : CertificateRequest} {issuer : Issuer}
  {outcome outcome' : Except Failure Action} {linked : Except Failure Unit}

/-- The request that a pass goes on with is stored, and has the finalizer it needs. -/
structure Secured (o : Objects) (r : CertificateRequest) (issuer : Issuer)
    (current : CertificateRequest) (og : Objects) : Prop where
  returned : r.Returned current
  content : current.lacksFinalizer issuer = false
  stored : og.requests r.metadata.key = some current
  certificates : og.certificates = o.certificates

/-- A request that lacks no finalizer is gone on with as it is. -/
theorem Guards.of_content {guarded : Except Failure CertificateRequest}
    (h : r.Guards issuer events guarded) (hf : r.lacksFinalizer issuer = false) :
    events = [] ∧ guarded = .ok r := by
  cases h with
  | content => exact ⟨rfl, rfl⟩
  | written hlacks => exact absurd (hf.symm.trans hlacks) (by simp)

theorem Guards.secured (h : r.Guards issuer events (.ok current))
    (ho : o.Throughout reply events og) (hr : o.requests r.metadata.key = some r) :
    r.Secured o issuer current og := by
  cases h with
  | content hf =>
    cases throughout_nil_iff.mp ho
    exact ⟨.refl r, hf, hr, rfl⟩
  | written =>
    obtain ⟨between, he, hrest⟩ := throughout_cons_iff.mp ho
    cases throughout_nil_iff.mp hrest
    obtain ⟨hreturned, hfinalizer, rfl⟩ := he.guards rfl
    refine ⟨hreturned, ?_, ?_, rfl⟩
    · rw [lacksFinalizer, hfinalizer]
      simp
    · rw [← hreturned.metadata.key, Objects.putRequest_requests_self]

/-- The same request of the same issuer. -/
structure Alike (r q : CertificateRequest) : Prop where
  ns : q.metadata.nsText = r.metadata.nsText
  name : q.metadata.nameText = r.metadata.nameText
  deleted : q.isDeleted = r.isDeleted
  spec : q.spec = r.spec

namespace Alike

theorem trans (h : r.Alike current) (h' : current.Alike q) : r.Alike q :=
  ⟨h'.ns.trans h.ns, h'.name.trans h.name, h'.deleted.trans h.deleted, h'.spec.trans h.spec⟩

theorem key (h : r.Alike q) : q.metadata.key = r.metadata.key := by
  rw [Metadata.key, h.ns, h.name, Metadata.key]

theorem findIssuer (h : r.Alike q) : q.findIssuer = r.findIssuer := by
  rw [CertificateRequest.findIssuer, h.ns, h.spec, CertificateRequest.findIssuer]

end Alike

theorem withStatus_alike (r : CertificateRequest) : r.Alike r.withStatus := ⟨rfl, rfl, rfl, rfl⟩

theorem Returned.alike (h : r.Returned q) : r.Alike q :=
  ⟨h.metadata.ns, h.metadata.name, h.isDeleted, h.spec⟩

theorem Becomes.spec {after : CertificateRequest} (h : r.Becomes events after) :
    after.spec = r.spec := by
  cases h <;> rfl

theorem Advances.alike {result : CertificateRequest × Except Failure Action}
    (h : r.Advances issuer settings events result) : r.Alike result.1 := by
  obtain ⟨hns, hname⟩ := h.marks.addressOf
  refine ⟨hns, hname, ?_, h.becomes.spec⟩
  rw [isDeleted, h.marks.deletionTimestamp, isDeleted]

theorem Reflects.alike {after : CertificateRequest} (h : r.Reflects outcome events after) :
    r.Alike after := by
  cases h <;> exact ⟨rfl, rfl, rfl, rfl⟩

/-- Where only the finalizer went, the request is the same without it. -/
theorem released_of_throughout
    (ho : o.Throughout reply (events ++ [⟨.removeFinalizer r, .ok ()⟩]) o')
    (hq : o'.requests r.metadata.key = some q) :
    r.Returned q ∧ q.metadata.hasFinalizer = false := by
  obtain ⟨between, -, hlast⟩ := throughout_append_iff.mp ho
  obtain ⟨between, he, hrest⟩ := throughout_cons_iff.mp hlast
  cases throughout_nil_iff.mp hrest
  rcases he.releases rfl with rfl | ⟨stored, hreturned, hfinalizer, rfl⟩
  · rw [Objects.dropRequest_requests_self] at hq
    cases hq
  · rw [← hreturned.metadata.key, Objects.putRequest_requests_self] at hq
    cases hq
    exact ⟨hreturned, hfinalizer⟩

/-- A deletion is done with once the finalizer is gone. -/
theorem Courses.eq_nil_of_released (h : r.Courses settings events outcome)
    (hd : r.isDeleted = true) (hf : r.metadata.hasFinalizer = false) : events = [] := by
  have hneeds : ¬ r.NeedsIssuer := by
    intro hneeds
    exact absurd (hf.symm.trans (hneeds hd).1) (by simp)
  cases h with
  | foreign => rfl
  | released _ _ hr =>
    cases hr with
    | unguarded => rfl
    | kept hyes => exact absurd (hf.symm.trans hyes) (by simp)
    | removed hyes => exact absurd (hf.symm.trans hyes) (by simp)
    | failed hyes => exact absurd (hf.symm.trans hyes) (by simp)
  | unresolved _ hn => exact absurd hn hneeds
  | unready _ hn => exact absurd hn hneeds
  | finished _ _ hn => exact absurd hn hneeds
  | proceeded _ halive => exact absurd (hd.symm.trans halive) (by simp)

/-- A pass under the same issuer as before starts as before. -/
theorem proceeds_again (hs : r.Seeks seeking (.ok issuer)) (ho : o.Throughout reply seeking o')
    (hi : issuer.isReady = true) (hg : r.spec.issuerRef.targetsThisGroup = true)
    (hd : r.isDeleted = false) (ha : r.Alike q) (h : (q.reconcile settings).Yields again outcome)
    (hp : p.Throughout reply again p') :
    ∃ rest, again = seeking ++ rest ∧ (q.proceed issuer settings).Yields rest outcome ∧
      p.Throughout reply rest p' := by
  have halive : q.isDeleted = false := ha.deleted.trans hd
  have hunder : q.reconcile settings = q.underIssuer settings := by
    simp [reconcile, ha.spec, hg, halive]
  rw [hunder, underIssuer, ha.findIssuer] at h
  obtain ⟨rest, rfl, hrest, hthroughout⟩ :=
    Objects.Throughout.rest_of_bind hs.yields ho hs.fixed (.inl hs.alone) h hp
  simp only [hi, halive, Bool.not_true, Bool.false_eq_true, if_false] at hrest
  exact ⟨rest, rfl, hrest, hthroughout⟩

/-- For a request that is done with, only the parent is left to be linked. -/
theorem idle_of_terminal {t : Terminal} (h : q.Proceeds issuer settings tail outcome)
    (hf : q.lacksFinalizer issuer = false) (ht : q.currentStatus.terminal? = some t)
    (hp : p.Throughout reply tail p') (hl : t = .issued → p.Linked reply q.metadata) :
    Idle tail := by
  cases h with
  | unguarded hg => cases (hg.of_content hf).2
  | closed hg =>
    rw [(hg.of_content hf).1]
    exact Unwritten.idle (never_nil _)
  | issued hg hissued hlinks =>
    obtain ⟨rfl, hcurrent⟩ := hg.of_content hf
    cases hcurrent
    cases ht.symm.trans hissued
    exact (hlinks.unwritten hp (hl rfl)).idle
  | worked hg hopen =>
    cases (hg.of_content hf).2
    exact absurd (ht.symm.trans hopen) (by simp)

theorem send_congr (hn : q.metadata.nsText = r.metadata.nsText)
    (hp : q.metadata.parentName? = r.metadata.parentName?) (hs : q.spec = r.spec) :
    q.send issuer settings = r.send issuer settings := by
  have hcsr : q.csrText = r.csrText := by rw [csrText, hs, csrText]
  have hparent : q.parent = r.parent := by rw [parent, hp, hn, parent]
  have hdress (c : Option Certificate) : q.ingressAnnotations c = r.ingressAnnotations c := by
    rw [ingressAnnotations, hn, ingressAnnotations]
  simp only [send, hcsr, hparent, hdress]

variable {w : Survey} {surveying : List Event}

/-- There is the same to be found out about a request that was left open. -/
theorem Stands.survey (h : r.Stands left settings w) (hq : left.Returned q) :
    q.withStatus.survey issuer settings = r.survey issuer settings := by
  have hns : q.metadata.nsText = r.metadata.nsText := hq.metadata.ns.trans (by rw [h.metadata])
  have hparent : q.metadata.parentName? = r.metadata.parentName? :=
    hq.parentName?.trans (by rw [h.metadata])
  have hid : q.metadata.requestId? = r.metadata.requestId? :=
    hq.requestId?.trans (by rw [h.metadata])
  have hdenied := hq.isDeniedByApprover.trans h.denied
  have happroved := (hq.hasTrue ConditionType.approved).trans h.approved
  have hsend : q.withStatus.send issuer settings = r.send issuer settings :=
    send_congr hns hparent (hq.spec.trans h.spec)
  rw [CertificateRequest.survey, withStatus_currentStatus, withStatus_metadata, hdenied, hid,
    happroved, hsend, CertificateRequest.survey]

/-- A request that was left open is found as before, and stored as it is. -/
theorem idle_of_stands (he : q.Enters issuer q seeking [])
    (h : (q.reconcile settings).Yields (seeking ++ ([] ++ tail)) outcome)
    (hp : p.Throughout reply tail p') (hst : r.Stands left settings w) (hq : left.Returned q)
    (hw : Program.Trace (r.survey issuer settings) surveying w)
    (ho : o.Throughout reply surveying o') (hf : Fixed surveying)
    (hc : Alone surveying ∨ p.certificates = o.certificates) (hl : p.Linked reply q.metadata) :
    Idle tail := by
  obtain ⟨_, moved, result, rest, rfl, hadvance, hpersist⟩ := he.advances h
  obtain ⟨surveying', clock, w', now, rfl, hw', hresult, hclock⟩ := survey_of_advance hadvance
  obtain ⟨noted, after, stored, linking, linked, rfl, hr, hlinks, -⟩ :=
    persistOutcome_yields hpersist
  simp only [throughout_append_iff, throughout_cons_iff] at hp
  obtain ⟨later, ⟨between, hsurvey, hclocked⟩, before, hnoted, between', hstored, hlinking⟩ := hp
  rw [hst.survey hq] at hw'
  obtain ⟨rfl, rfl⟩ := Objects.Throughout.unique hw hw' ho hsurvey hf hc
  -- The same survey decides nothing new.
  obtain ⟨time, hafter⟩ := hr.reflected
  have hkept : after = q.withStatus := by
    rw [hafter, ← hst.again q hq now time, decided, ← hresult]
  subst hkept
  have hstill : between'.certificates = p.certificates := by
    rw [hstored.certificates rfl, hnoted.eq_of_unwritten hr.unwritten,
      hclocked.eq_of_unwritten hclock, hsurvey.eq_of_unwritten hf.unwritten]
  have hlinked : between'.Linked reply q.withStatus.metadata := hl.kept (.refl _) hstill
  have hquiet := hlinks.unwritten hlinking hlinked
  refine (Unwritten.idle ?_).append ((Unwritten.idle hr.unwritten).append ?_)
  · exact never_append.mpr ⟨hf.unwritten, hclock⟩
  · intro e he hwrite
    rcases List.mem_cons.mp he with rfl | he
    · exact ⟨_, rfl⟩
    · exact hquiet.idle e he hwrite

variable {guarding : List Event} {after : CertificateRequest}

/-- What a pass does with a request that it works on, from the objects it finds then to the ones
it leaves: it finds out about the request, decides, stores it, and links the parent. -/
structure WorksOut (current : CertificateRequest) (issuer : Issuer) (settings : Settings)
    (reply : (q : Ask) → q.Answer) (o : Objects) (surveying : List Event) (w : Survey)
    (after q : CertificateRequest) (o' : Objects) : Prop where
  survey : Program.Trace (current.withStatus.survey issuer settings) surveying w
  throughout : o.Throughout reply surveying o
  decided : ∃ now later, after = current.withStatus.decided settings w now later
  alike : current.Alike after
  returned : after.Returned q
  finalizer : q.metadata.hasFinalizer = current.metadata.hasFinalizer
  linked : o'.Linked reply q.metadata
  certificates : q.metadata.certificateId? = none → o'.certificates = o.certificates

theorem worksOut_of_enters (he : r.Enters issuer current seeking guarding)
    (h : (r.reconcile settings).Yields (seeking ++ (guarding ++ tail)) outcome)
    (hs : r.Secured o issuer current og) (ho : og.Throughout reply tail o') (hw : Written tail)
    (hkey : ∀ key c, o.certificates key = some c → c.metadata.key = key)
    (hq : o'.requests r.metadata.key = some q) :
    ∃ surveying rest w after, tail = surveying ++ rest ∧
      current.WorksOut issuer settings reply og surveying w after q o' := by
  obtain ⟨_, moved, result, rest, rfl, hadvance, hpersist⟩ := he.advances h
  have hadvances := advances_of_trace hadvance
  obtain ⟨surveying, clock, w, now, rfl, hsurvey, hresult, hclock⟩ := survey_of_advance hadvance
  obtain ⟨noted, after, stored, linking, linked, rfl, hreflects, hlinks, -⟩ :=
    persistOutcome_yields hpersist
  obtain ⟨hfixed, -, -⟩ := questions_of_survey hsurvey
  obtain ⟨later, hafter⟩ := hreflects.reflected
  simp only [throughout_append_iff, throughout_cons_iff] at ho
  obtain ⟨o₁, ⟨o₂, hsurveying, hclocked⟩, o₃, hnoted, o₄, hstore, hlinking⟩ := ho
  obtain rfl := hsurveying.eq_of_unwritten hfixed.unwritten
  obtain rfl := hclocked.eq_of_unwritten hclock
  obtain rfl := hnoted.eq_of_unwritten hreflects.unwritten
  simp only [written_append, written_cons] at hw
  obtain ⟨-, -, hstored, hlinked⟩ := hw
  have hok : stored = .ok () := by
    cases stored with
    | ok => rfl
    | error => cases hstored
  obtain ⟨kept, hreturned, hfinalizer, rfl⟩ := hstore.stores hok
  -- The request that is found afterwards is the one that was stored.
  have halike : current.Alike after :=
    (current.withStatus_alike.trans hadvances.alike).trans hreflects.alike
  have hplace : kept.metadata.key = r.metadata.key :=
    hreturned.alike.key.trans (halike.key.trans hs.returned.alike.key)
  rw [hlinks.requests hlinking, ← hplace, Objects.putRequest_requests_self] at hq
  cases hq
  refine ⟨surveying, _, w, after, List.append_assoc _ _ _, hsurvey, hsurveying, ⟨now, later, ?_⟩,
    halike, hreturned, ?_, ?_, ?_⟩
  · rw [hafter, decided, ← hresult]
  · rw [hfinalizer, hreflects.metadata, hadvances.marks.hasFinalizer, withStatus_metadata]
  · refine Objects.Linked.kept (hlinks.links hlinking hlinked fun key c hc => ?_)
      hreturned.metadata rfl
    exact hkey key c (hs.certificates ▸ hc)
  · intro hnone
    rw [hlinks.eq_nil (hreturned.certificateId?.symm.trans hnone), throughout_nil_iff] at hlinking
    rw [hlinking]
    rfl

theorem lacksFinalizer_congr (h : q.metadata.hasFinalizer = r.metadata.hasFinalizer) :
    q.lacksFinalizer issuer = r.lacksFinalizer issuer := by
  rw [lacksFinalizer, h, lacksFinalizer]

/-- After a pass that worked on a request without an accepted submission, nothing is left to be
written. -/
theorem idle_of_worksOut (he : r.Enters issuer current seeking guarding)
    (hseeking : o.Throughout reply seeking o) (hs : r.Secured o issuer current og)
    {surveying : List Event} {w : Survey}
    (hworks : current.WorksOut issuer settings reply og surveying w after q o')
    (hnone : accepted surveying = [])
    (hledger : r.metadata.certificateId?.isSome = true → r.metadata.requestId?.isSome = true)
    (h : (q.reconcile settings).Yields again outcome) (hp : o'.Throughout reply again p') :
    Idle again := by
  obtain ⟨hfixed, halone, hsent⟩ := questions_of_survey hworks.survey
  have halike : r.Alike q :=
    (hs.returned.alike.trans hworks.alike).trans hworks.returned.alike
  have hcontent : q.lacksFinalizer issuer = false :=
    (lacksFinalizer_congr hworks.finalizer).trans hs.content
  obtain ⟨rest, rfl, hproceed, hthroughout⟩ :=
    proceeds_again he.seeks hseeking he.ready he.group he.alive halike h hp
  refine he.seeks.unwritten.idle.append ?_
  cases ht : q.currentStatus.terminal? with
  | some t =>
    exact idle_of_terminal (proceeds_of_yields hproceed) hcontent ht hthroughout
      fun _ => hworks.linked
  | none =>
    obtain ⟨now, later, hdecided⟩ := hworks.decided
    have hopen : after.currentStatus.terminal? = none := hworks.returned.terminal?.symm.trans ht
    rw [hdecided] at hopen
    have hw : ∀ id, w ≠ .sent (.ok id) := by
      intro id hid
      rw [hsent id hid] at hnone
      cases hnone
    have hstands := stands_of_decided hw hopen
    rw [← hdecided] at hstands
    have hentersAgain : q.Enters issuer q seeking [] :=
      ⟨by rw [halike.spec, he.group], halike.deleted.trans he.alive,
        seeks_of_yields (halike.findIssuer ▸ he.seeks.yields), he.ready,
        .content hcontent, ht⟩
    refine idle_of_stands hentersAgain h hthroughout hstands hworks.returned hworks.survey
      hworks.throughout hfixed (halone.imp_right fun hi => hworks.certificates ?_) hworks.linked
    -- A request without a request id has no certificate id, so the parent was left alone.
    have hrequest : r.metadata.requestId? = none := hs.returned.requestId?.symm.trans hi
    have hcertificate : r.metadata.certificateId? = none := by
      rw [hrequest] at hledger
      simpa using hledger
    rw [hworks.returned.certificateId?, hstands.metadata, withStatus_metadata,
      hs.returned.certificateId?, hcertificate]

/-- A pass that neither wrote nor read the clock is passed again. -/
theorem idle_of_fixed (hf : Fixed events) (h : (r.reconcile settings).Yields events outcome)
    (ho : o.Throughout reply events o') (hr : o.requests r.metadata.key = some r)
    (hq : o'.requests r.metadata.key = some q) (h' : (q.reconcile settings).Yields again outcome')
    (hp : o'.Throughout reply again p') : Idle again := by
  obtain rfl := ho.eq_of_unwritten hf.unwritten
  cases hr.symm.trans hq
  obtain ⟨rfl, -⟩ := Objects.Throughout.unique h h' ho hp hf (.inr rfl)
  exact hf.unwritten.idle

/-- After the finalizer of a deleted request is gone, nothing is left to be done. -/
theorem idle_of_released (events : List Event) {answer : Except Failure Unit}
    (hd : r.isDeleted = true)
    (ho : o.Throughout reply (events ++ [⟨.removeFinalizer r, answer⟩]) o')
    (hw : Written (events ++ [⟨.removeFinalizer r, answer⟩]))
    (hq : o'.requests r.metadata.key = some q)
    (h' : (q.reconcile settings).Yields again outcome') : Idle again := by
  have hok : answer = .ok () := by
    cases answer with
    | ok => rfl
    | error => exact absurd hw (by simp [isFailedWrite])
  subst hok
  obtain ⟨hreturned, hreleased⟩ := released_of_throughout ho hq
  rw [(courses_of_yields h').eq_nil_of_released (hreturned.isDeleted.trans hd) hreleased]
  exact Unwritten.idle (never_nil _)

/-- A request that the first pass found to be done with is found so again. -/
theorem idle_of_done {t : Terminal} (hs : r.Seeks seeking (.ok issuer))
    (hseeking : o.Throughout reply seeking o) (hi : issuer.isReady = true)
    (hg : r.spec.issuerRef.targetsThisGroup = true) (hd : r.isDeleted = false)
    (hsecured : r.Secured o issuer current og) (ht : current.currentStatus.terminal? = some t)
    (hl : t = .issued → o'.Linked reply current.metadata)
    (h : (current.reconcile settings).Yields again outcome) (hp : o'.Throughout reply again p') :
    Idle again := by
  obtain ⟨rest, rfl, hproceed, hthroughout⟩ :=
    proceeds_again hs hseeking hi hg hd hsecured.returned.alike h hp
  exact hs.unwritten.idle.append
    (idle_of_terminal (proceeds_of_yields hproceed) hsecured.content ht hthroughout hl)

/-- By the course of the first pass: it asked nothing that varies, removed the finalizer, found the
request to be done with, or worked on it. -/
theorem idle_again (h : (r.reconcile settings).Yields events outcome)
    (ho : o.Throughout reply events o') (hw : Written events) (hnone : accepted events = [])
    (hr : o.requests r.metadata.key = some r)
    (hkey : ∀ key c, o.certificates key = some c → c.metadata.key = key)
    (hledger : r.metadata.certificateId?.isSome = true → r.metadata.requestId?.isSome = true)
    (hq : o'.requests r.metadata.key = some q)
    (h' : (q.reconcile settings).Yields again outcome') (hp : o'.Throughout reply again p') :
    Idle again := by
  cases courses_of_yields h with
  | foreign => exact idle_of_fixed (never_nil _) h ho hr hq h' hp
  | released _ hd hreleases hn =>
    cases hreleases with
    | unguarded => exact idle_of_fixed (never_nil _) h ho hr hq h' hp
    | kept => exact absurd rfl hn
    | removed => exact idle_of_released [] hd ho hw hq h'
    | failed => exact idle_of_released [] hd ho hw hq h'
  | unresolved _ _ hs => exact idle_of_fixed hs.fixed h ho hr hq h' hp
  | unready _ _ hs => exact idle_of_fixed hs.fixed h ho hr hq h' hp
  | finished _ hd _ hs _ hfinishes =>
    cases hfinishes with
    | unguarded => exact idle_of_fixed (by simp [hs.fixed]) h ho hr hq h' hp
    | spared => exact idle_of_released _ hd ho hw hq h'
    | unrevoked _ _ hv => exact idle_of_fixed (by simp [hs.fixed, hv.fixed]) h ho hr hq h' hp
    | revoked =>
      rw [← List.append_assoc] at ho hw
      exact idle_of_released _ hd ho hw hq h'
  | proceeded hgroup hd hs hi hproceeds =>
    obtain ⟨o₁, hseeking, hproceeding⟩ := throughout_append_iff.mp ho
    obtain rfl := hseeking.eq_of_unwritten hs.unwritten
    cases hproceeds with
    | unguarded hg =>
      cases hg with
      | written => exact absurd hw (by simp [isFailedWrite])
    | closed hg ht hn =>
      have hsecured := hg.secured hproceeding hr
      cases hsecured.stored.symm.trans hq
      exact idle_of_done hs hseeking hi hgroup hd hsecured ht (fun ht' => absurd ht' hn) h' hp
    | issued hg ht hl =>
      obtain ⟨og, hguarding, hlinking⟩ := throughout_append_iff.mp hproceeding
      have hsecured := hg.secured hguarding hr
      rw [hl.requests hlinking] at hq
      cases hsecured.stored.symm.trans hq
      refine idle_of_done hs hseeking hi hgroup hd hsecured ht (fun _ => ?_) h' hp
      refine hl.links hlinking (written_append.mp (written_append.mp hw).2).2 fun key c hc => ?_
      exact hkey key c (hsecured.certificates ▸ hc)
    | worked hg ht ha hreflects stored hl =>
      obtain ⟨og, hguarding, hworking⟩ := throughout_append_iff.mp hproceeding
      have hsecured := hg.secured hguarding hr
      have henters : r.Enters _ _ _ _ := ⟨hgroup, hd, hs, hi, hg, ht⟩
      have hwritten := (written_append.mp (written_append.mp hw).2).2
      obtain ⟨surveying, rest, w, after, htail, hworks⟩ :=
        worksOut_of_enters henters h hsecured hworking hwritten hkey hq
      rw [htail] at hnone
      simp only [accepted_append, List.append_eq_nil_iff] at hnone
      exact idle_of_worksOut henters hseeking hsecured hworks hnone.2.2.1 hledger h' hp

end CertificateRequest

/-- A pass over a stored request, from the objects that it finds to the ones that it leaves. -/
structure Visited (reply : (q : Ask) → q.Answer) (settings : Settings) (o : Objects)
    (r : CertificateRequest) (asked : List Event) (o' : Objects) : Prop where
  stored : o.requests r.metadata.key = some r
  yields : ∃ outcome, (r.reconcile settings).Yields asked outcome
  answered : o.Throughout reply asked o'

/-- Where equal questions are answered equally, nothing is left to be written after a pass over a
request whose writes all succeeded, and of which no submission was accepted, unless the ledger names
a certificate but no request of the PKI. The next pass over what it left, whenever that is, touches
neither the finalizer nor the parent, and if it stores the request, then as it is, for which nothing
is sent. A probe of an issuer with the same result as the probe before does not write the status. -/
theorem quiescence_of_visited :
    (∀ (reply : (q : Ask) → q.Answer) (settings : Settings) (o o' o'' : Objects)
      (r q : CertificateRequest) (asked again : List Event),
      Visited reply settings o r asked o' → Visited reply settings o' q again o'' →
      q.metadata.key = r.metadata.key →
      (∀ key c, o.certificates key = some c → c.metadata.key = key) →
      (r.metadata.certificateId?.isSome = true → r.metadata.requestId?.isSome = true) →
      accepted asked = [] → Written asked →
      Idle again ∧ ∀ sent, Dispatches again sent → sent = []) ∧
    (∀ (settings : Settings) (s : IssuerStatus) (v : Checkup) (i : Issuer) (again : List Event)
      (outcome : Except Failure Action) (probe probe' : Except Failure Unit),
      s.readyCondition.isSome = true → v.Passes settings s →
      v.issuer.Finds settings v.asked probe →
      i.currentStatus.conditions.map IssuerCondition.untimed =
        v.left.conditions.map IssuerCondition.untimed →
      (i.reconcile settings).Yields again outcome → i.Finds settings again probe' →
      probe'.mapError Failure.message = probe.mapError Failure.message → Unwritten again) := by
  refine ⟨?_, ?_⟩
  · intro reply settings o o' o'' r q asked again hfirst hsecond hplace hkey hledger hnone hw
    obtain ⟨_, hy⟩ := hfirst.yields
    obtain ⟨_, hy'⟩ := hsecond.yields
    have hq : o'.requests r.metadata.key = some q := by rw [← hplace, hsecond.stored]
    have hidle := CertificateRequest.idle_again hy hfirst.answered hw hnone hfirst.stored hkey
      hledger hq hy' hsecond.answered
    exact ⟨hidle, fun sent hsent => hsent.of_idle hidle⟩
  · intro settings s v i again outcome probe probe' hs hv hfound hi hy hp hsame
    exact Issuer.unwritten_of_finds hv hs hfound hi hy hp hsame

open Simulation (World)

/-- An approved request that has no finalizer yet. -/
def sampleStuck : CertificateRequest where
  metadata := { name := some "web", ns := some "shop" }
  spec := { request := "QQ==", issuerRef := ⟨"pki", none, some groupName⟩ }
  status := some { conditions := [⟨ConditionType.approved, .yes, none, none, none⟩] }

/-- The Secret of the issuer is gone. -/
def sampleLoss : World :=
  { World.sample with secrets := .empty, clock := ⟨0, 10, 0⟩ }.putRequest sampleStuck

/-- The request and the world after one pass, ten seconds later. -/
def sampleLater : CertificateRequest × World :=
  let w := ((sampleStuck.reconcile {}).result.run World.answer sampleLoss).state
  ((w.requests.get? sampleStuck.metadata.key).getD sampleStuck, { w with clock := ⟨0, 20, 0⟩ })

/-- Two passes over the issuer after it has been seen. -/
def sampleProbes : Checkup × Checkup :=
  let seen := sampleCheckup {} sampleLoss
  let first := sampleCheckup seen.left sampleLoss
  (first, sampleCheckup first.left { sampleLoss with clock := ⟨0, 20, 0⟩ })

/-- Whether a request is written over one that was pending. -/
def Ask.overPending : Ask → Bool
  | .storeRequest before _ => before.currentStatus.readyIs .no Reason.pending
  | _ => false

theorem quiescence_of_lost_secret :
    let again := (sampleLater.1.reconcile {}).result.run World.answer sampleLater.2
    (∃ r answer, (⟨.storeRequest r r, answer⟩ : Event) ∈ again.events ∧
      r.currentStatus.readyIs .no Reason.pending = true) ∧
    (∀ sent, Dispatches again.events sent → sent = []) ∧
    sampleProbes.1.left.readyCondition.isSome = true ∧ Unwritten sampleProbes.2.asked := by
  intro again
  let run := (sampleStuck.reconcile {}).result.run World.answer sampleLoss
  have hfirst := Objects.throughout_run (.refl sampleLoss) (sampleStuck.reconcile {}).result
    (by decide +kernel)
  -- The world differs from the first one in the request and in the clock only.
  have hsteady : Objects.Steady sampleLoss sampleLater.2 :=
    hfirst.2.trans (by constructor <;> rfl)
  have hsecond := Objects.throughout_run hsteady (sampleLater.1.reconcile {}).result
    (by decide +kernel)
  have hvisit : Visited _ {} (Objects.ofWorld sampleLoss) sampleStuck run.events
      (Objects.ofWorld run.state) :=
    ⟨by decide +kernel, ⟨_, Attempt.run_yields _ _ _⟩, hfirst.1⟩
  have hvisitAgain : Visited _ {} (Objects.ofWorld run.state) sampleLater.1 again.events
      (Objects.ofWorld again.state) :=
    ⟨by decide +kernel, ⟨_, Attempt.run_yields _ _ _⟩, hsecond.1⟩
  have hplaced : ∀ e ∈ sampleLoss.certificates.entries, e.2.metadata.key = e.1 := by
    decide +kernel
  have hnone : accepted run.events = [] := by decide +kernel
  have hwritten : Written run.events := by decide +kernel
  have hquiet := quiescence_of_visited.1 _ _ _ _ _ _ _ _ _ hvisit hvisitAgain (by decide +kernel)
    (fun key c h => hplaced _ (Dict.mem_of_find_eq_some h)) (by decide +kernel) hnone hwritten
  have hprobes := quiescence_of_visited.2 {} _ sampleProbes.1 sampleProbes.2.issuer
    sampleProbes.2.asked sampleProbes.2.outcome _ _ (by decide +kernel)
    (passes_sampleCheckup _ rfl)
    ⟨_, sampleProbes.1.asked.tail, rfl, Issuer.probe_of_missing _ _⟩ rfl
    (Attempt.run_yields _ _ _)
    ⟨_, sampleProbes.2.asked.tail, rfl, Issuer.probe_of_missing _ _⟩ rfl
  refine ⟨?_, hquiet.2, by decide +kernel, hprobes⟩
  have hstores : ∃ e ∈ again.events, e.question.overPending = true := by decide +kernel
  obtain ⟨⟨q, answer⟩, he, hpending⟩ := hstores
  cases q with
  | storeRequest before after =>
    obtain ⟨r, hr⟩ := hquiet.1 _ he rfl
    cases hr
    exact ⟨_, answer, he, hpending⟩
  | _ => cases hpending

end CertBroker
