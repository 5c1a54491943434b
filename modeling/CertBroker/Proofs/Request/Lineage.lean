import CertBroker.Proofs.Cluster.Objects
import CertBroker.Proofs.Request.Issued
import CertBroker.Proofs.Request.Settled

namespace CertBroker

open Objects (Sound)

variable {o mid o' : Objects} {events first second linking : List Event}

/-- The key of the Certificate that an event finds, or annotates. -/
def reached? : Event → Option String
  | ⟨.readCertificate ns name, .ok (some _)⟩ => some (objectKey ns name)
  | ⟨.storeAnnotations c, _⟩ => some c.metadata.key
  | _ => none

/-- The key of the Certificate that events end with. -/
def endsAt? (events : List Event) : Option String := events.getLast?.bind reached?

theorem reached?_eq_none {e : Event} (h : e.question.concernsParent = false) :
    reached? e = none := by
  unfold reached?
  split
  next => cases h
  next => cases h
  next => rfl

theorem endsAt?_eq_none (h : Alone events) : endsAt? events = none := by
  rw [endsAt?, Option.bind_eq_none_iff]
  intro e he
  exact reached?_eq_none (h e (List.mem_of_getLast? he))

theorem endsAt?_append (h : endsAt? first = none) :
    endsAt? (first ++ second) = endsAt? second := by
  rw [endsAt?, List.getLast?_append, endsAt?]
  cases second.getLast? with
  | none => exact h
  | some e => rfl

namespace Objects

theorem Serves.certificate {ns name : String} {found : Option Certificate}
    (h : o.Serves ⟨.readCertificate ns name, .ok found⟩ o') :
    o.certificates (objectKey ns name) = found ∧ o' = o := by
  cases h with
  | found => exact ⟨rfl, rfl⟩
  | beside _ hc => cases hc

theorem Serves.annotations {c : Certificate} {outcome : Except Failure Unit}
    (h : o.Serves ⟨.storeAnnotations c, outcome⟩ o') :
    ∃ d, c.metadata.Kept d.metadata ∧ o' = o.putCertificate d := by
  cases h with
  | annotated hkept => exact ⟨_, hkept, rfl⟩
  | beside _ hc => cases hc

theorem Serves.request {before after : CertificateRequest} {outcome : Except Failure Unit}
    (h : o.Serves ⟨.storeRequest before after, outcome⟩ o') :
    ∃ q, after.Kept q ∧ o' = o.putRequest q := by
  cases h with
  | stored hkept => exact ⟨_, hkept, rfl⟩
  | beside hr => cases hr

/-- What linking makes of the objects: the parent it ends at has the certificate id. -/
structure Links (o o' : Objects) (linking : List Event) (id? : Option String) : Prop where
  requests : o'.requests = o.requests
  orderly : o'.Orderly
  parents : ∀ parent, endsAt? linking ≠ some parent → o'.lastId? parent = o.lastId? parent
  linked : ∀ parent, endsAt? linking = some parent →
    ∃ id, id? = some id ∧ o'.lastId? parent = some id

theorem Links.rest {id? : Option String} (ho : o.Orderly) (h : endsAt? linking = none) :
    o.Links o linking id? := by
  refine ⟨rfl, ho, fun _ _ => rfl, fun parent hparent => ?_⟩
  rw [h] at hparent
  cases hparent

theorem links_of_answers {r : CertificateRequest} {linked : Except Failure Unit}
    (hl : r.Links linking linked) (ho : o.Orderly) (ha : o.Answers linking o') :
    o.Links o' linking r.metadata.certificateId? := by
  cases hl with
  | nothing =>
    cases answers_nil_iff.mp ha
    exact .rest ho rfl
  | unread =>
    cases ha.eq_of_unwritten (by simp [Ask.isWrite])
    exact .rest ho rfl
  | orphaned =>
    cases ha.eq_of_unwritten (by simp [Ask.isWrite])
    exact .rest ho rfl
  | @linked id name parent hi _ hl =>
    obtain ⟨_, hread, hnil⟩ := answers_cons_iff.mp ha
    obtain ⟨hfound, rfl⟩ := hread.certificate
    cases answers_nil_iff.mp hnil
    refine ⟨rfl, ho, fun _ _ => rfl, fun key hkey => ⟨id, hi, ?_⟩⟩
    cases Option.some.inj hkey
    rw [lastId?, hfound]
    exact Metadata.lastCertificateId?_of_linked (Metadata.ne_empty_of_entry? hi) hl
  | @written id name parent hi _ hl =>
    obtain ⟨_, hread, hstore⟩ := answers_cons_iff.mp ha
    obtain ⟨hfound, rfl⟩ := hread.certificate
    obtain ⟨_, hwritten, hnil⟩ := answers_cons_iff.mp hstore
    obtain ⟨d, hkept, rfl⟩ := hwritten.annotations
    cases answers_nil_iff.mp hnil
    have hkey : d.metadata.key = (CertificateRequest.linkedTo parent id).metadata.key := hkept.key
    have hid := (Certificate.isLinked_linkedTo hl).id
    refine ⟨rfl, ho.putCertificate d, fun key hne => ?_, fun key heq => ⟨id, hi, ?_⟩⟩
    · refine lastId?_putCertificate_of_ne fun heq => hne ?_
      rw [heq, hkey]
      rfl
    · have heq : d.metadata.key = key := hkey.trans (Option.some.inj heq)
      rw [← heq, lastId?_putCertificate_self, Metadata.lastCertificateId?, hkept.entry?]
      exact hid

/-- Linking that goes well ends at the parent, if there is one. -/
theorem endsAt?_of_links {r : CertificateRequest} {name : String}
    (hl : r.Links linking (.ok ())) (ho : o.Orderly) (ha : o.Answers linking o')
    (hid : r.metadata.certificateId?.isSome = true) (hname : r.metadata.parentName? = some name)
    (hfound : (o.certificates (objectKey r.metadata.nsText name)).isSome = true) :
    endsAt? linking = some (objectKey r.metadata.nsText name) := by
  cases hl with
  | nothing hnone =>
    rcases hnone with hnone | hnone
    · rw [hnone] at hid
      cases hid
    · rw [hnone] at hname
      cases hname
  | orphaned _ hname' =>
    cases Option.some.inj (hname.symm.trans hname')
    obtain ⟨_, hread, -⟩ := answers_cons_iff.mp ha
    rw [hread.certificate.1] at hfound
    cases hfound
  | linked _ hname' =>
    cases Option.some.inj (hname.symm.trans hname')
    rfl
  | @written id _ parent _ hname' hl =>
    cases Option.some.inj (hname.symm.trans hname')
    obtain ⟨_, hread, -⟩ := answers_cons_iff.mp ha
    have hkey := (Certificate.isLinked_linkedTo hl).key
    have hends : endsAt? [⟨.readCertificate r.metadata.nsText name, .ok (some parent)⟩,
        ⟨.storeAnnotations (CertificateRequest.linkedTo parent id), .ok ()⟩] =
        some (CertificateRequest.linkedTo parent id).metadata.key := rfl
    rw [hends, hkey, ho.certificate _ parent hread.certificate.1]

end Objects

namespace CertificateRequest

variable {r after reflected : CertificateRequest} {issuer : Issuer} {settings : Settings}

theorem progress_certificateId? (r : CertificateRequest) (id : String) (settings : Settings)
    (answer : Pki.Request) (now : Time) :
    (r.progress id settings answer now).1.metadata.certificateId? = r.metadata.certificateId? ∨
      (r.progress id settings answer now).1.currentStatus.hasTrue ConditionType.ready = true ∧
        (r.progress id settings answer now).2 = .ok .awaitChange := by
  unfold progress
  split
  next => exact .inl rfl
  next => exact .inl rfl
  next => exact .inl rfl
  next => exact .inl rfl
  next =>
    split
    next => exact .inr ⟨RequestStatus.hasTrue_setCondition, rfl⟩
    next => exact .inl rfl

/-- The certificate id of a request changes only as it becomes ready. -/
theorem Advances.certificateId? {result : CertificateRequest × Except Failure Action}
    (h : r.Advances issuer settings events result) :
    result.1.metadata.certificateId? = r.metadata.certificateId? ∨
      result.1.currentStatus.hasTrue ConditionType.ready = true ∧
        result.2 = .ok .awaitChange := by
  cases h with
  | denied => exact .inl rfl
  | @polled id _ _ _ _ hp =>
    cases hp with
    | unopened => exact .inl rfl
    | unanswered => exact .inl rfl
    | answered _ answer now => exact r.progress_certificateId? id settings answer now
  | submitted _ _ _ hs =>
    cases hs with
    | accepted => exact .inl (Metadata.certificateId?_recordRequestId _ _)
    | @failed _ f _ now =>
      left
      unfold notSubmitted
      split
      next => rfl
      next => rfl
  | waiting => exact .inl rfl

theorem Advances.sound {result : Except Failure Action} {noted : List Event}
    (ha : r.Advances issuer settings events (after, result))
    (hn : r.metadata.certificateId? = none) (hr : after.Reflects result noted reflected) :
    Sound reflected := by
  intro hid
  rw [hr.metadata] at hid
  rcases ha.certificateId? with hkept | ⟨hready, hok⟩
  · rw [hkept, hn] at hid
    cases hid
  · cases hok
    cases hr
    exact hready

end CertificateRequest

/-- A pass over one of the requests: the request it read, what it asked, and how it ended. -/
structure Turn where
  request : CertificateRequest
  asked : List Event
  outcome : Except Failure Action

/-- What a request is stored as. -/
def stored? : Event → Option CertificateRequest
  | ⟨.storeRequest _ after, _⟩ => some after
  | _ => none

theorem filterMap_stored? (h : Unstored events) : events.filterMap stored? = [] := by
  rw [List.filterMap_eq_nil_iff]
  intro e he
  have hquestion := h e he
  unfold stored?
  split
  next => cases hquestion
  next => rfl

namespace Turn

variable {t : Turn} {q r : CertificateRequest} {issuer : Issuer} {settings : Settings}
  {outcome : Except Failure Action}

def key (t : Turn) : String := t.request.metadata.key

/-- The key of the Certificate that a pass ends at: it found it linked, or linked it. -/
def parent? (t : Turn) : Option String := endsAt? t.asked

theorem parent?_of_append (hasked : t.asked = first ++ linking) (hfirst : endsAt? first = none) :
    t.parent? = endsAt? linking := by rw [parent?, hasked, endsAt?_append hfirst]

/-- The request as a pass leaves it: as it was stored last, or as it was read. -/
def left (t : Turn) : CertificateRequest := (t.asked.filterMap stored?).getLast?.getD t.request

/-- A pass that ended well over a request that is issued by then, for this parent. -/
structure Issued (t : Turn) (parent : String) : Prop where
  group : t.request.spec.issuerRef.targetsThisGroup = true
  alive : t.request.isDeleted = false
  ended : t.outcome = .ok .awaitChange
  ready : t.left.currentStatus.hasTrue ConditionType.ready = true
  id : t.left.metadata.certificateId?.isSome = true
  parent : ∃ name, t.left.metadata.parentName? = some name ∧
    objectKey t.left.metadata.nsText name = parent

/-- What a pass makes of the objects. -/
structure Moves (t : Turn) (o o' : Objects) : Prop where
  orderly : o'.Orderly
  others : ∀ key, key ≠ t.key → o'.requests key = o.requests key
  issued : ∀ id, o.Holds t.key id → o'.Holds t.key id
  parents : ∀ parent, t.parent? ≠ some parent → o'.lastId? parent = o.lastId? parent
  linked : ∀ parent, t.parent? = some parent →
    ∃ id, o'.Holds t.key id ∧ o'.lastId? parent = some id

theorem moves_of_alone (hasked : Alone t.asked) (ha : o.Answers t.asked o') (ho : o'.Orderly)
    (hothers : ∀ key, key ≠ t.key → o'.requests key = o.requests key)
    (hissued : ∀ id, o.Holds t.key id → o'.Holds t.key id) : t.Moves o o' := by
  refine ⟨ho, hothers, hissued, fun parent _ => ?_, fun parent hparent => ?_⟩
  · rw [Objects.lastId?, ha.certificates_of_alone hasked, Objects.lastId?]
  · rw [parent?, endsAt?_eq_none hasked] at hparent
    cases hparent

/-- A pass that is about to link the parent: `q` is what is stored of its request by then. -/
structure Leaves (t : Turn) (o mid : Objects) (q : CertificateRequest) : Prop where
  stored : mid.requests t.key = some q
  alive : q.isDeleted = false
  orderly : mid.Orderly
  others : ∀ key, key ≠ t.key → mid.requests key = o.requests key
  certificates : mid.certificates = o.certificates
  issued : ∀ id, o.Holds t.key id → mid.Holds t.key id

theorem Leaves.moves (h : t.Leaves o mid q) (hasked : t.asked = first ++ linking)
    (hfirst : endsAt? first = none)
    (hl : mid.Links o' linking q.metadata.certificateId?) : t.Moves o o' := by
  have hparent := parent?_of_append hasked hfirst
  have hrequest (key : String) : o'.requests key = mid.requests key := by rw [hl.requests]
  refine ⟨hl.orderly, fun key hkey => (hrequest key).trans (h.others key hkey),
    fun id hid => ?_, fun parent hne => ?_, fun parent heq => ?_⟩
  · rw [Objects.Holds, hrequest]
    exact h.issued id hid
  · rw [hl.parents parent (by rwa [← hparent]), Objects.lastId?, h.certificates, Objects.lastId?]
  · obtain ⟨id, hid, hlast⟩ := hl.linked parent (by rwa [← hparent])
    refine ⟨id, ⟨q, (hrequest t.key).trans h.stored, h.alive, ?_, hid⟩, hlast⟩
    exact (h.orderly.request t.key q h.stored).2 (by rw [hid]; rfl)

theorem leaves_of_guards {guarding : List Event}
    {outcome : Except Failure CertificateRequest} (ho : o.Orderly)
    (hr : o.requests t.key = some t.request) (hn : t.request.isDeleted = false)
    (hg : t.request.Guards issuer guarding outcome) (ha : o.Answers guarding mid) :
    ∃ current, outcome = .ok current ∧ t.request.Kept current ∧ t.Leaves o mid current := by
  have hcertificates := ha.certificates_of_alone hg.alone
  cases hg with
  | content =>
    cases Objects.answers_nil_iff.mp ha
    exact ⟨t.request, rfl, .refl _, hr, hn, ho, fun _ _ => rfl, rfl, fun _ h => h⟩
  | written =>
    obtain ⟨_, hadd, hnil⟩ := Objects.answers_cons_iff.mp ha
    cases Objects.answers_nil_iff.mp hnil
    cases hadd with
    | @guarded _ current hkept =>
      have hkey : current.metadata.key = t.key := hkept.metadata.key
      have hstored : (o.putRequest current).requests t.key = some current := by
        rw [← hkey, Objects.putRequest_requests_self]
      refine ⟨current, rfl, hkept, hstored, hkept.isDeleted.trans hn,
        ho.putRequest ((ho.request _ _ hr).2.kept hkept), fun key hne => ?_, hcertificates,
        fun id hid => ?_⟩
      · exact Objects.putRequest_requests_of_ne (by rwa [hkey])
      · obtain ⟨r, hread, halive, hready, hr'⟩ := hid
        cases Option.some.inj (hr.symm.trans hread)
        exact ⟨current, hstored, hkept.isDeleted.trans hn, (hkept.hasTrue _).trans hready,
          hkept.certificateId?.trans hr'⟩
    | beside hchange => cases hchange

/-- A pass that stores its request had not been issued before. -/
theorem Leaves.stores {advancing noted : List Event} {current after reflected : CertificateRequest}
    {result : Except Failure Action} (h : t.Leaves o mid current)
    (ht : current.currentStatus.terminal? = none)
    (ha : current.withStatus.Advances issuer settings advancing (after, result))
    (hr : after.Reflects result noted reflected) (hk : reflected.Kept q) :
    t.Leaves o (mid.putRequest q) q := by
  obtain ⟨hcurrent, hsound⟩ := h.orderly.request t.key current h.stored
  have hopen := (RequestStatus.terminal?_eq_none_iff.mp ht).1
  -- A request that is still open has no certificate id yet; it gets one only with Ready.
  have hnone : current.metadata.certificateId? = none := by
    cases hid : current.metadata.certificateId? with
    | none => rfl
    | some id =>
      rw [hsound (by rw [hid]; rfl)] at hopen
      cases hopen
  have hkey : q.metadata.key = t.key := by
    obtain ⟨hns, hname⟩ := ha.marks.addressOf
    rw [hk.metadata.key, hr.metadata, Metadata.key, hns, hname]
    exact hcurrent
  have hstored : (mid.putRequest q).requests t.key = some q := by
    rw [← hkey, Objects.putRequest_requests_self]
  refine ⟨hstored, ?_, h.orderly.putRequest ((ha.sound hnone hr).kept hk), fun key hne => ?_,
    h.certificates, fun id hid => ?_⟩
  · rw [hk.isDeleted, CertificateRequest.isDeleted, hr.metadata, ha.marks.deletionTimestamp]
    exact h.alive
  · rw [Objects.putRequest_requests_of_ne (by rwa [hkey])]
    exact h.others key hne
  · obtain ⟨r, hread, -, hready, -⟩ := h.issued id hid
    cases Option.some.inj (h.stored.symm.trans hread)
    rw [hready] at hopen
    cases hopen

/-- What a pass that stores its request has done before it links the parent. -/
theorem stores_of_answers {guarding advancing noted : List Event}
    {current after reflected : CertificateRequest} {result : Except Failure Action}
    {stored : Except Failure Unit} (ho : o.Orderly) (hr : o.requests t.key = some t.request)
    (hn : t.request.isDeleted = false) (hg : t.request.Guards issuer guarding (.ok current))
    (ht : current.currentStatus.terminal? = none)
    (hadvances : current.withStatus.Advances issuer settings advancing (after, result))
    (hreflects : after.Reflects result noted reflected)
    (ha : o.Answers (guarding ++ (advancing ++ (noted ++
      ⟨.storeRequest current.withStatus reflected, stored⟩ :: linking))) o') :
    ∃ mid q, reflected.Kept q ∧ t.Leaves o mid q ∧ mid.Answers linking o' := by
  obtain ⟨mid, hguards, hrest⟩ := Objects.answers_append_iff.mp ha
  obtain ⟨_, hok, -, hleaves⟩ := leaves_of_guards ho hr hn hg hguards
  cases hok
  obtain ⟨_, hadvancing, hrest⟩ := Objects.answers_append_iff.mp hrest
  cases hadvancing.eq_of_unwritten hadvances.unwritten
  obtain ⟨_, hnoted, hrest⟩ := Objects.answers_append_iff.mp hrest
  cases hnoted.eq_of_unwritten hreflects.unwritten
  obtain ⟨_, hstore, hlinks⟩ := Objects.answers_cons_iff.mp hrest
  obtain ⟨q, hkept, rfl⟩ := hstore.request
  exact ⟨_, q, hkept, hleaves.stores ht hadvances hreflects hkept, hlinks⟩

theorem append_store (seeking guarding advancing noted linking : List Event) (e : Event) :
    seeking ++ (guarding ++ (advancing ++ (noted ++ e :: linking))) =
      ((seeking ++ (guarding ++ (advancing ++ noted))) ++ [e]) ++ linking := by simp

theorem endsAt?_concat_store (events : List Event) (before after : CertificateRequest)
    (stored : Except Failure Unit) :
    endsAt? (events ++ [⟨.storeRequest before after, stored⟩]) = none := by
  rw [endsAt?, List.getLast?_concat]
  rfl

theorem moves_of_proceeds {seeking proceeding : List Event} (ho : o.Orderly)
    (hr : o.requests t.key = some t.request) (hn : t.request.isDeleted = false)
    (hasked : t.asked = seeking ++ proceeding) (hs : Alone seeking)
    (hp : t.request.Proceeds issuer settings proceeding outcome)
    (ha : o.Answers proceeding o') : t.Moves o o' := by
  cases hp with
  | unguarded hg =>
    obtain ⟨current, hok, -, -⟩ := leaves_of_guards ho hr hn hg ha
    cases hok
  | closed hg =>
    obtain ⟨current, hok, -, hleaves⟩ := leaves_of_guards ho hr hn hg ha
    cases hok
    exact hleaves.moves (hasked.trans (List.append_nil _).symm)
      (endsAt?_eq_none (by simp [hs, hg.alone])) (.rest hleaves.orderly rfl)
  | issued hg _ hl =>
    obtain ⟨mid, hguards, hlinks⟩ := Objects.answers_append_iff.mp ha
    obtain ⟨current, hok, -, hleaves⟩ := leaves_of_guards ho hr hn hg hguards
    cases hok
    have hlinked := Objects.links_of_answers hl hleaves.orderly hlinks
    exact hleaves.moves (hasked.trans (List.append_assoc ..).symm)
      (endsAt?_eq_none (by simp [hs, hg.alone])) hlinked
  | worked hg ht hadvances hreflects _ hl =>
    obtain ⟨mid, q, hkept, hleaves, hlinks⟩ :=
      stores_of_answers ho hr hn hg ht hadvances hreflects ha
    have hlinked := Objects.links_of_answers hl hleaves.orderly hlinks
    rw [← hkept.certificateId?] at hlinked
    exact hleaves.moves (hasked.trans (append_store ..)) (endsAt?_concat_store ..) hlinked

theorem moves_of_course (ho : o.Orderly) (hr : o.requests t.key = some t.request)
    (hc : t.request.Courses settings t.asked t.outcome) (ha : o.Answers t.asked o') :
    t.Moves o o' := by
  obtain ⟨r, asked, outcome⟩ := t
  have hsound := (ho.request _ r hr).2
  -- Passes over a deleted request have nothing to keep: only live requests hold an id.
  have hdeleted (hd : r.isDeleted = true) (id : String) : ¬ o.Holds r.metadata.key id := by
    rintro ⟨q, hq, hn, -⟩
    cases Option.some.inj (hr.symm.trans hq)
    exact absurd hd (by simp [hn])
  cases hc with
  | foreign =>
    cases Objects.answers_nil_iff.mp ha
    exact moves_of_alone (never_nil _) ha ho (fun _ _ => rfl) fun _ h => h
  | released _ hd hrel =>
    obtain ⟨horderly, hothers⟩ := ho.of_releases hsound ha hrel.alone hrel.change
    exact moves_of_alone hrel.alone ha horderly hothers fun id h => absurd h (hdeleted hd id)
  | unresolved _ _ hs =>
    cases ha.eq_of_unwritten hs.unwritten
    exact moves_of_alone hs.alone ha ho (fun _ _ => rfl) fun _ h => h
  | unready _ _ hs =>
    cases ha.eq_of_unwritten hs.unwritten
    exact moves_of_alone hs.alone ha ho (fun _ _ => rfl) fun _ h => h
  | @finished seeking finishing issuer finished _ hd _ hs _ hf =>
    have halone : Alone (seeking ++ finishing) := by simp [hs.alone, hf.alone]
    obtain ⟨horderly, hothers⟩ := ho.of_releases hsound ha halone fun e he hchange => by
      rcases List.mem_append.mp he with he | he
      · exact absurd hchange (by simp [hs.quiet.silent e he])
      · exact hf.change e he hchange
    exact moves_of_alone halone ha horderly hothers fun id h => absurd h (hdeleted hd id)
  | @proceeded seeking proceeding issuer _ _ hn hs _ hp =>
    obtain ⟨_, hseek, hproceed⟩ := Objects.answers_append_iff.mp ha
    cases hseek.eq_of_unwritten hs.unwritten
    exact moves_of_proceeds ho hr hn rfl hs.alone hp hproceed

theorem left_of_unstored (h : Unstored t.asked) : t.left = t.request := by
  rw [left, filterMap_stored? h]
  rfl

theorem parent?_of_proceeds {seeking proceeding : List Event} {found : Except Failure Issuer}
    {parent : String} (ho : o.Orderly) (hr : o.requests t.key = some t.request)
    (hasked : t.asked = seeking ++ proceeding) (hs : t.request.Seeks seeking found)
    (hp : t.request.Proceeds issuer settings proceeding t.outcome)
    (ha : o.Answers proceeding o') (hi : t.Issued parent)
    (hfound : (o.certificates parent).isSome = true) : t.parent? = some parent := by
  obtain ⟨-, halive, hended, hready, hid, name, hname, rfl⟩ := hi
  have hunstored := hs.quiet.silent.unstored
  generalize t.outcome = outcome at hp hended
  cases hp with
  | unguarded => cases hended
  | closed hg ht hne =>
    obtain ⟨current, hok, hkept, -⟩ := leaves_of_guards ho hr halive hg ha
    cases hok
    rw [left_of_unstored (by simp [hasked, hunstored, hg.unstored]), ← hkept.hasTrue] at hready
    rw [RequestStatus.terminal?_of_ready hready] at ht
    exact absurd (Option.some.inj ht).symm hne
  | @issued guarding linking _ linked hg _ hl =>
    obtain ⟨mid, hguards, hlinks⟩ := Objects.answers_append_iff.mp ha
    obtain ⟨current, hok, hkept, hleaves⟩ := leaves_of_guards ho hr halive hg hguards
    cases hok
    cases linked with
    | error => cases hended
    | ok =>
      have hleft : t.left = t.request := left_of_unstored
        (by simp [hasked, hunstored, hg.unstored, hl.quiet.silent.unstored])
      rw [hleft, ← hkept.certificateId?] at hid
      rw [hleft, Metadata.parentName?, ← hkept.metadata.entry?] at hname
      rw [hleft, ← hkept.metadata.ns, ← hleaves.certificates] at hfound
      rw [hleft, ← hkept.metadata.ns, parent?_of_append
        (hasked.trans (List.append_assoc ..).symm) (endsAt?_eq_none (by simp [hs.alone, hg.alone]))]
      have hends := Objects.endsAt?_of_links hl hleaves.orderly hlinks hid hname hfound
      exact hends
  | @worked _ _ _ _ _ _ reflected _ _ hg ht hadvances hreflects _ hl =>
    obtain ⟨mid, q, hkept, hleaves, hlinks⟩ :=
      stores_of_answers ho hr halive hg ht hadvances hreflects ha
    obtain ⟨-, -, rfl⟩ := ok_of_joinOutcome hended
    -- The request is stored once, so this is how the pass leaves it.
    have hleft : t.left = reflected := by
      rw [left, hasked]
      simp [stored?, filterMap_stored? hunstored, filterMap_stored? hg.unstored,
        filterMap_stored? hadvances.silent.unstored,
        filterMap_stored? hreflects.quiet.silent.unstored,
        filterMap_stored? hl.quiet.silent.unstored]
    rw [hleft] at hid hname hfound
    rw [← hleaves.certificates] at hfound
    rw [hleft, parent?_of_append (hasked.trans (append_store ..)) (endsAt?_concat_store ..)]
    exact Objects.endsAt?_of_links hl hleaves.orderly hlinks hid hname hfound

/-- A pass that leaves its request issued, and ends well, ends at the parent. -/
theorem parent?_of_issued {parent : String} (ho : o.Orderly)
    (hr : o.requests t.key = some t.request)
    (hc : t.request.Courses settings t.asked t.outcome) (ha : o.Answers t.asked o')
    (hi : t.Issued parent) (hfound : (o.certificates parent).isSome = true) :
    t.parent? = some parent := by
  obtain ⟨r, asked, outcome⟩ := t
  have hended := hi.ended
  cases hc with
  | foreign h => exact absurd hi.group (by simp [h])
  | released _ hd => exact absurd hi.alive (by simp [hd])
  | unresolved => cases hended
  | unready => cases hended
  | finished _ hd => exact absurd hi.alive (by simp [hd])
  | proceeded _ _ hs _ hp =>
    obtain ⟨_, hseek, hproceed⟩ := Objects.answers_append_iff.mp ha
    cases hseek.eq_of_unwritten hs.unwritten
    exact parent?_of_proceeds ho hr rfl hs hp hproceed hi hfound

end Turn

end CertBroker
