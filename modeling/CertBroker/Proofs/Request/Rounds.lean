import CertBroker.Proofs.Cluster.Server
import CertBroker.Proofs.Pass.Course

namespace CertBroker

open Stored (Served Applied)

/-- What is sent to change the request, for the events of a pass. -/
inductive Dispatches : List Event → List Sent → Prop
  | rest : Dispatches [] []
  | silent {e : Event} {events : List Event} {sent : List Sent}
      (he : e.question.changesRequest = false) (h : Dispatches events sent) :
      Dispatches (e :: events) sent
  | write {e : Event} {events : List Event} {writes sent : List Sent}
      {p : Program Write (fun _ => Except Failure CertificateRequest) e.question.Answer}
      (hp : e.question.writes? = some p) (hw : Program.Trace p writes e.answer)
      (h : Dispatches events sent) : Dispatches (e :: events) (writes ++ sent)

namespace Dispatches

variable {events first second : List Event} {sent : List Sent}

theorem of_silent (h : Dispatches events sent) (hs : Silent events) : sent = [] := by
  induction h with
  | rest => rfl
  | silent _ _ ih => exact ih (never_cons.mp hs).2
  | write hp =>
    have hno := (never_cons.mp hs).1
    rw [Ask.changesRequest_of_writes? hp] at hno
    cases hno

/-- Without storing the request, only finalizers that are asked for are written. -/
theorem finalizer_of_unstored (h : Dispatches events sent) (hu : Unstored events) :
    ∀ e ∈ sent, (∃ r, Asked (.addFinalizer r) events ∧ e.question = .finalizer r true) ∨
      ∃ r, Asked (.removeFinalizer r) events ∧ e.question = .finalizer r false := by
  induction h with
  | rest => simp
  | silent _ _ ih =>
    intro e he
    rcases ih (never_cons.mp hu).2 e he with ⟨r, hr, hq⟩ | ⟨r, hr, hq⟩
    · exact .inl ⟨r, asked_cons.mpr (.inr hr), hq⟩
    · exact .inr ⟨r, asked_cons.mpr (.inr hr), hq⟩
  | write hp hw _ ih =>
    intro e he
    rcases List.mem_append.mp he with he | he
    · cases dispatched_of_trace hp hw with
      | stored => exact absurd (never_cons.mp hu).1 (by simp [Ask.storesRequest])
      | added r =>
        cases List.mem_singleton.mp he
        exact .inl ⟨r, asked_cons.mpr (.inl rfl), rfl⟩
      | removed r =>
        cases List.mem_singleton.mp he
        exact .inr ⟨r, asked_cons.mpr (.inl rfl), rfl⟩
    · rcases ih (never_cons.mp hu).2 e he with ⟨r, hr, hq⟩ | ⟨r, hr, hq⟩
      · exact .inl ⟨r, asked_cons.mpr (.inr hr), hq⟩
      · exact .inr ⟨r, asked_cons.mpr (.inr hr), hq⟩

theorem finalizers (h : Dispatches events sent) (hu : Unstored events) :
    ∀ e ∈ sent, ∃ r present, e.question = .finalizer r present := by
  intro e he
  rcases h.finalizer_of_unstored hu e he with ⟨r, _, hq⟩ | ⟨r, _, hq⟩
  · exact ⟨r, true, hq⟩
  · exact ⟨r, false, hq⟩

/-- For an event that changes the request, what is dispatched is what is said to the API server. -/
theorem talk {e : Event} (h : Dispatches [e] sent) (he : e.question.changesRequest = true) :
    ∃ p, e.question.talk? = some (p.lower fun w : Write => w.talk.run) ∧
      Program.Trace p sent e.answer := by
  cases h with
  | silent hno =>
    rw [he] at hno
    cases hno
  | write hp hw h =>
    cases h
    rw [List.append_nil]
    exact ⟨_, Ask.talk?_of_writes? hp, hw⟩

theorem split (h : Dispatches (first ++ second) sent) :
    ∃ before after, sent = before ++ after ∧ Dispatches first before ∧
      Dispatches second after := by
  induction first generalizing sent with
  | nil => exact ⟨[], sent, rfl, .rest, h⟩
  | cons e first ih =>
    cases h with
    | silent he h =>
      obtain ⟨before, after, rfl, hfirst, hsecond⟩ := ih h
      exact ⟨before, after, rfl, .silent he hfirst, hsecond⟩
    | @write _ _ writes _ _ hp hw h =>
      obtain ⟨before, after, rfl, hfirst, hsecond⟩ := ih h
      exact ⟨writes ++ before, after, by simp, .write hp hw hfirst, hsecond⟩

theorem drop_silent (h : Dispatches (first ++ second) sent) (hs : Silent first) :
    Dispatches second sent := by
  obtain ⟨before, after, rfl, hfirst, hsecond⟩ := h.split
  rw [hfirst.of_silent hs]
  exact hsecond

theorem of_store {before after : CertificateRequest} {answer : Except Failure Unit}
    (h : Dispatches (⟨.storeRequest before after, answer⟩ :: events) sent) (hs : Silent events) :
    Stores before after sent answer := by
  cases h with
  | silent he => exact absurd he (by simp [Ask.changesRequest])
  | write hp hw h =>
    rw [h.of_silent hs, List.append_nil]
    cases hp
    exact stores_of_trace hw

theorem of_guards {r : CertificateRequest} {issuer : Issuer}
    {outcome : Except Failure CertificateRequest} (h : Dispatches events sent)
    (hg : r.Guards issuer events outcome) :
    (sent = [] ∧ r.lacksFinalizer issuer = false ∧ outcome = .ok r) ∨
      sent = [⟨.finalizer r true, outcome⟩] := by
  cases hg with
  | content hlacks =>
    cases h
    exact .inl ⟨rfl, hlacks, rfl⟩
  | written =>
    cases h with
    | silent he => exact absurd he (by simp [Ask.changesRequest])
    | write hp hw h =>
      cases hp
      cases h
      rw [List.append_nil]
      exact .inr (trace_send.mp hw)

end Dispatches

/-- A pass over a request: the request it read, what it asked, and what it sent. -/
structure Visit where
  request : CertificateRequest
  asked : List Event
  sent : List Sent
  outcome : Except Failure Action

/-- Runs of passes over the request at an address, from the object as it is stored before to the
object afterwards. -/
inductive Rounds (a : Api.Address) (others : Stored → Stored → Prop) :
    Stored → List Visit → Stored → Prop
  | rest (i : Stored) : Rounds a others i [] i
  | outside {i j k : Stored} {visits : List Visit} (ho : others i j)
      (h : Rounds a others j visits k) : Rounds a others i visits k
  | pass {i j k : Stored} {r : CertificateRequest} {settings : Settings} {asked : List Event}
      {sent : List Sent} {outcome : Except Failure Action} {visits : List Visit}
      (hr : i.Holds a r) (hy : (r.reconcile settings).Yields asked outcome)
      (hd : Dispatches asked sent) (hs : Served a others i sent j)
      (h : Rounds a others j visits k) :
      Rounds a others i (⟨r, asked, sent, outcome⟩ :: visits) k

/-- What others keep, and every write of every pass keeps, is kept by a run. -/
theorem Rounds.invariant {a : Api.Address} {others : Stored → Stored → Prop} {i k : Stored}
    {visits : List Visit} {P : Stored → Prop} (h : Rounds a others i visits k)
    (ho : ∀ i j, others i j → P i → P j)
    (hw : ∀ v ∈ visits, ∀ e ∈ v.sent, ∀ i j, Applied i e.question j → P i → P j)
    (hi : P i) : P k := by
  induction h with
  | rest => exact hi
  | outside hstep _ ih => exact ih hw (ho _ _ hstep hi)
  | pass _ _ _ hs _ ih =>
    have hj := hs.invariant ho (fun e he _ => hw _ List.mem_cons_self e he) hi
    exact ih (fun v hv => hw v (List.mem_cons_of_mem _ hv)) hj

variable {a : Api.Address} {others : Stored → Stored → Prop} {i j : Stored}
  {r current : CertificateRequest} {issuer : Issuer} {seeking guarding rest : List Event}
  {sent : List Sent}

/-- The request that a pass goes on with is read of the object, which has the finalizer by then
where the issuer revokes. -/
theorem guarded_of_served (hr : i.Holds a r) (hq : Silent seeking)
    (hg : r.Guards issuer guarding (.ok current))
    (hd : Dispatches (seeking ++ (guarding ++ rest)) sent) (hs : Served a others i sent j) :
    ∃ k guarded later, sent = guarded ++ later ∧ Dispatches guarding guarded ∧
      Dispatches rest later ∧ k.Holds a current ∧
      (issuer.spec.revokeCertificates = true → k.HasFinalizer) ∧ Served a others k later j ∧
      ∀ P : Stored → Prop, (∀ i j, others i j → P i → P j) →
        (∀ i j, Applied i (.finalizer r true) j → P i → P j) → P i → P k := by
  obtain ⟨guarded, later, rfl, hguarding, hrest⟩ := (hd.drop_silent hq).split
  rcases hguarding.of_guards hg with ⟨rfl, hlacks, hok⟩ | rfl
  · cases hok
    refine ⟨i, [], later, rfl, hguarding, hrest, hr, fun hrevokes => ?_, hs, fun P _ _ hi => hi⟩
    apply hr.hasFinalizer_iff.mp
    simpa [CertificateRequest.lacksFinalizer, hrevokes] using hlacks
  · obtain ⟨before, after, hbefore, happlied, hafter, hlater⟩ := hs.applied_of_ok hr.address
    have hpresent : after.HasFinalizer := happlied.hasFinalizer_of_present
    refine ⟨after, _, later, rfl, hguarding, hrest, hafter, fun _ => hpresent, hlater,
      fun P ho hw hi => ?_⟩
    have hkept := hbefore.invariant ho (by simp) hi
    exact hw before after happlied hkept

end CertBroker
