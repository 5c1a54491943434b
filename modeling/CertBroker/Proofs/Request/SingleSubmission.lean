import CertBroker.Proofs.Request.Rehearsal

namespace CertBroker

open Stored (Served Applied)

/-- The object carries a request id. -/
def Stored.HasId (j : Stored) : Prop :=
  ∃ id, j.annotation? Annotation.requestId = some id ∧ id ≠ ""

/-- Others never take a request id away, nor empty it. -/
def Stored.KeepsId (i j : Stored) : Prop := i.HasId → j.HasId

/-- Annotations that are written carry a request id. -/
def Write.KeepsId : Write → Prop
  | .annotations r => r.metadata.requestId?.isSome = true
  | _ => True

variable {a : Api.Address} {i j k : Stored} {r current after : CertificateRequest}
  {settings : Settings} {asked : List Event} {sent : List Sent} {stored : Except Failure Unit}

theorem Stored.Holds.hasId_iff (h : i.Holds a r) :
    i.HasId ↔ r.metadata.requestId?.isSome = true := h.carries_iff Annotation.requestId

namespace Stored.Applied

theorem hasId_of_annotations (h : i.Applied (.annotations r) j)
    (hid : r.metadata.requestId?.isSome = true) : j.HasId := h.carries_of_annotations hid

theorem hasId {w : Write} (h : i.Applied w j) (hw : w.KeepsId) (hi : i.HasId) : j.HasId := by
  cases w with
  | annotations r => exact h.hasId_of_annotations hw
  | status r version => exact (h.carries_iff (by simp [Write.noted]) _).mpr hi
  | finalizer r present =>
    exact (h.carries_iff (by simp [Write.noted, Store.finalizersChange, Json.member]) _).mpr hi

end Stored.Applied

/-- Writes that keep a request id keep it while they are served. -/
theorem Stored.Served.hasId (h : Served a Stored.KeepsId i sent j)
    (hw : ∀ e ∈ sent, e.question.KeepsId) (hi : i.HasId) : j.HasId :=
  h.invariant (fun _ _ ho => ho) (fun e he _ _ _ happ => happ.hasId (hw e he)) hi

/-- Whatever a request is stored as, its annotations carry a request id if they changed. -/
theorem Stores.keepsId (h : Stores current after sent stored)
    (hm : current.metadata.Marks after.metadata) : ∀ e ∈ sent, e.question.KeepsId := by
  cases h with
  | nothing => simp
  | status => simp [Write.KeepsId]
  | failed ha => simpa [Write.KeepsId] using hm.requestId? ha
  | annotations ha => simpa [Write.KeepsId] using hm.requestId? ha
  | both ha => simpa [Write.KeepsId] using hm.requestId? ha

theorem Dispatches.keepsId (h : Dispatches asked sent) (hu : Unstored asked) :
    ∀ e ∈ sent, e.question.KeepsId := by
  intro e he
  obtain ⟨r, present, hq⟩ := h.finalizers hu e he
  rw [hq]
  trivial

def Sent.isLost : Sent → Bool
  | ⟨.annotations _, .error _⟩ => true
  | _ => false

/-- A pass whose submission was accepted, and whose write of the request id failed. -/
def Visit.isUnmarked (v : Visit) : Bool := !(accepted v.asked).isEmpty && v.sent.any Sent.isLost

/-- What a pass does to the request id of the object. -/
structure Visit.Marks (v : Visit) (i j : Stored) : Prop where
  keeps : i.HasId → j.HasId
  spares : i.HasId → accepted v.asked = []
  once : (accepted v.asked).length ≤ 1
  marks : accepted v.asked ≠ [] → j.HasId ∨ v.isUnmarked = true

/-- A request id that is new is written, unless the write of the annotations fails. -/
theorem Stores.hasId_or_lost {id : String} (h : Stores current after sent stored)
    (hs : Served a Stored.KeepsId i sent j)
    (ha : Store.addressOf Store.requestKind after.metadata = a)
    (hfree : current.metadata.requestId? = none) (hid : after.metadata.requestId? = some id) :
    j.HasId ∨ sent.any Sent.isLost = true := by
  have hne : current.metadata.annotations ≠ after.metadata.annotations := by
    intro he
    have hsame : current.metadata.requestId? = after.metadata.requestId? := by
      simp [Metadata.requestId?, Metadata.entry?, Metadata.annotation?, he]
    rw [hfree, hid] at hsame
    exact absurd hsame (by simp)
  cases h with
  | nothing he => exact absurd he hne
  | status he => exact absurd he hne
  | failed => exact .inr rfl
  | annotations =>
    obtain ⟨_, written, _, happ, _, hrest⟩ := hs.applied_of_ok ha
    exact .inl (hrest.hasId (by simp) (happ.hasId_of_annotations (by simp [hid])))
  | both =>
    obtain ⟨_, written, _, happ, _, hrest⟩ := hs.applied_of_ok ha
    refine .inl (hrest.hasId ?_ (happ.hasId_of_annotations (by simp [hid])))
    simp [Write.KeepsId]

theorem marks_of_works (hr : i.Holds a r) (hw : r.Works settings asked)
    (hd : Dispatches asked sent) (hs : Served a Stored.KeepsId i sent j)
    (hids : ∀ id ∈ accepted asked, id ≠ "") (outcome : Except Failure Action) :
    Visit.Marks ⟨r, asked, sent, outcome⟩ i j := by
  cases hw with
  | @stored seeking guarding advancing noted linking _ current after reflected _ _ henters ha
      hreflects answer hl =>
    have hseek := henters.seeks
    have hg := henters.guards
    obtain ⟨k, guarded, written, rfl, hguarding, hrest, hk, _, hsw, hinv⟩ :=
      guarded_of_served hr hseek.quiet.silent hg hd hs
    have hstores :=
      ((hrest.drop_silent ha.silent).drop_silent hreflects.quiet.silent).of_store hl.quiet.silent
    have hkept : i.HasId → k.HasId :=
      hinv Stored.HasId (fun _ _ ho => ho) fun _ _ happ hi => happ.hasId trivial hi
    have hmarks : current.metadata.Marks reflected.metadata := by
      rw [hreflects.metadata]
      exact ha.marks
    have hwrites : ∀ e ∈ guarded ++ written, e.question.KeepsId := by
      intro e he
      rcases List.mem_append.mp he with he | he
      · exact hguarding.keepsId hg.unstored e he
      · exact hstores.keepsId hmarks e he
    have hasked : accepted (seeking ++ (guarding ++ (advancing ++ (noted ++
        ⟨.storeRequest current.withStatus reflected, answer⟩ :: linking)))) =
        accepted advancing := by
      simp [accepted_of_unsubmitted hseek.quiet.unsubmitted, accepted_of_unsubmitted hg.unsubmitted,
        accepted_of_unsubmitted hreflects.quiet.unsubmitted,
        accepted_of_unsubmitted hl.quiet.unsubmitted, acceptedId?]
    rw [hasked] at hids
    rcases ha.accepted with hnone | ⟨id, hid, hfree, hrecorded⟩
    · have hnone := hasked.trans hnone
      refine ⟨hs.hasId hwrites, fun _ => hnone, ?_, fun hne => absurd hnone hne⟩
      simp [hnone]
    · have hne : id ≠ "" := hids id (by simp [hid])
      have hread : reflected.metadata.requestId? = some id := by
        rw [hreflects.metadata, hrecorded]
        exact Metadata.requestId?_recordRequestId hne hfree
      have haddress : Store.addressOf Store.requestKind reflected.metadata = a :=
        (hmarks.address _).trans hk.address
      have hnew : ¬ i.HasId := by
        intro hi
        have hsome := hk.hasId_iff.mp (hkept hi)
        rw [show current.metadata.requestId? = none from hfree] at hsome
        exact absurd hsome (by simp)
      refine ⟨fun hi => absurd hi hnew, fun hi => absurd hi hnew, ?_, fun _ => ?_⟩
      · simp [hasked, hid]
      · rcases hstores.hasId_or_lost hsw haddress hfree hread with hj | hlost
        · exact .inl hj
        · exact .inr (by simp [Visit.isUnmarked, hasked, hid, hlost])

theorem marks_of_unstored (ha : accepted asked = []) (hu : Unstored asked)
    (hd : Dispatches asked sent) (hs : Served a Stored.KeepsId i sent j)
    (outcome : Except Failure Action) : Visit.Marks ⟨r, asked, sent, outcome⟩ i j := by
  refine ⟨hs.hasId (hd.keepsId hu), fun _ => ha, ?_, fun hne => absurd ha hne⟩
  simp [ha]

theorem marks_of_yields {outcome : Except Failure Action} (hr : i.Holds a r)
    (hy : (r.reconcile settings).Yields asked outcome) (hd : Dispatches asked sent)
    (hs : Served a Stored.KeepsId i sent j) (hids : ∀ id ∈ accepted asked, id ≠ "") :
    Visit.Marks ⟨r, asked, sent, outcome⟩ i j := by
  rcases (CertificateRequest.courses_of_yields hy).works_or_unstored with hw | ⟨ha, hu⟩
  · exact marks_of_works hr hw hd hs hids outcome
  · exact marks_of_unstored (accepted_of_unsubmitted ha) hu hd hs outcome

/-- What was accepted in a run of passes. -/
def acceptedIn (visits : List Visit) : List String := visits.flatMap fun v => accepted v.asked

theorem acceptedIn_eq_nil {visits : List Visit} (h : Rounds a Stored.KeepsId i visits j)
    (hids : ∀ id ∈ acceptedIn visits, id ≠ "") (hi : i.HasId) : acceptedIn visits = [] := by
  induction h with
  | rest => rfl
  | outside ho _ ih => exact ih hids (ho hi)
  | pass hr hy hd hs _ ih =>
    have hfirst : ∀ id ∈ accepted _, id ≠ "" :=
      fun id hid => hids id (List.mem_append_left _ hid)
    have hmarks := marks_of_yields hr hy hd hs hfirst
    have hrest := ih (fun id hid => hids id (List.mem_append_right _ hid)) (hmarks.keeps hi)
    rw [acceptedIn, List.flatMap_cons, hmarks.spares hi]
    exact hrest

/-- Submissions are accepted at most once, and once more for each pass that lost the id. -/
theorem acceptedIn_length_le {visits : List Visit} (h : Rounds a Stored.KeepsId i visits j)
    (hids : ∀ id ∈ acceptedIn visits, id ≠ "") :
    (acceptedIn visits).length ≤ 1 + visits.countP Visit.isUnmarked := by
  induction h with
  | rest => simp [acceptedIn]
  | outside _ _ ih => exact ih hids
  | @pass _ _ _ r _ asked sent outcome visits hr hy hd hs h ih =>
    have hfirst : ∀ id ∈ accepted asked, id ≠ "" :=
      fun id hid => hids id (List.mem_append_left _ hid)
    have hlater : ∀ id ∈ acceptedIn visits, id ≠ "" :=
      fun id hid => hids id (List.mem_append_right _ hid)
    have hmarks := marks_of_yields hr hy hd hs hfirst
    have hsum : (acceptedIn (⟨r, asked, sent, outcome⟩ :: visits)).length =
        (accepted asked).length + (acceptedIn visits).length := by
      simp [acceptedIn]
    have hle := ih hlater
    have honce : (accepted asked).length ≤ 1 := hmarks.once
    rw [hsum, List.countP_cons]
    -- A pass that accepts marks the object, and is the last one to accept, or it is counted.
    by_cases hnone : accepted asked = []
    · rw [hnone]
      simp only [List.length_nil]
      omega
    · rcases hmarks.marks hnone with hj | hlost
      · have hrest := acceptedIn_eq_nil h hlater hj
        rw [hrest]
        simp only [List.length_nil]
        omega
      · rw [if_pos hlost]
        omega

/-- The write of the first id is refused, that of the second is not, and later passes poll. -/
def samplePlans : List Rehearsal.Plan :=
  [{ world := .sample, refuses := fun
      | .annotations _ => some (.conflict "the object has been modified")
      | _ => none },
    { world := { Simulation.World.sample with pki := { nextId := 2 } } },
    { world := .sample }]

theorem acceptedIn_length_of_lost :
    let run := rehearse Stored.sampleAddress samplePlans Stored.sample
    Rounds Stored.sampleAddress Stored.KeepsId Stored.sample run.1 run.2 ∧
      acceptedIn run.1 = ["req-1", "req-2"] ∧ run.1.map Visit.isUnmarked = [true, false, false] ∧
      (acceptedIn run.1).length ≤ 1 + run.1.countP Visit.isUnmarked :=
  ⟨rounds_rehearse _ _ _ _, by decide +kernel, by decide +kernel,
    acceptedIn_length_le (rounds_rehearse _ _ _ _) (by decide +kernel)⟩

end CertBroker
