import CertBroker.Proofs.Pass.Course
import CertBroker.Proofs.Pass.Growth
import CertBroker.Proofs.Pass.Health
import Mathlib.Data.List.Induction

namespace CertBroker

open Simulation (World)

namespace IssuerStatus

variable {cs : List IssuerCondition} {c : IssuerCondition} {status : ConditionStatus}
  {reason message : String} {now : Time}

/-- No condition is about Ready. -/
def Untold (cs : List IssuerCondition) : Prop := ∀ d ∈ cs, d.type ≠ ConditionType.ready

theorem readyCondition_eq_none_iff {s : IssuerStatus} :
    s.readyCondition = none ↔ Untold s.conditions := by
  simp [readyCondition, Untold]

theorem readyCondition_append (h : Untold cs) (hc : c.type = ConditionType.ready) :
    readyCondition ⟨cs ++ [c]⟩ = some c := by
  have hnone : readyCondition ⟨cs⟩ = none := readyCondition_eq_none_iff.mpr h
  rw [readyCondition] at hnone ⊢
  rw [List.find?_append, hnone]
  simp [hc]

theorem setReady_of_untold (h : Untold cs) :
    setReady status reason message now cs =
      cs ++ [⟨ConditionType.ready, status, some now, reason, message⟩] := by
  induction cs with
  | nil => rfl
  | cons d rest ih =>
    have hd : d.type ≠ ConditionType.ready := h d List.mem_cons_self
    have hrest : Untold rest := fun e he => h e (List.mem_cons_of_mem d he)
    rw [setReady, if_neg hd, ih hrest]
    rfl

theorem setReady_append (h : Untold cs) (hc : c.type = ConditionType.ready) :
    setReady status reason message now (cs ++ [c]) =
      cs ++ [⟨ConditionType.ready, status,
        if c.status = status then c.lastTransitionTime else some now, reason, message⟩] := by
  induction cs with
  | nil =>
    rw [List.nil_append, setReady, if_pos hc, ← hc]
    rfl
  | cons d rest ih =>
    have hd : d.type ≠ ConditionType.ready := h d List.mem_cons_self
    have hrest : Untold rest := fun e he => h e (List.mem_cons_of_mem d he)
    rw [List.cons_append, setReady, if_neg hd, ih hrest]
    rfl

/-- The status of an issuer that an event writes. -/
def written? : Event → Option IssuerStatus
  | ⟨.storeIssuerStatus i, .ok ()⟩ => some i.currentStatus
  | _ => none

/-- The status after a pass: the one it wrote, if it wrote one. -/
def after (s : IssuerStatus) (events : List Event) : IssuerStatus :=
  (events.filterMap written?).getLast?.getD s

end IssuerStatus

/-- A client is made, and the PKI says that it is well. -/
def Healthy (events : List Event) : Prop :=
  ∃ session, (⟨.openSession session, .ok ()⟩ : Event) ∈ events ∧
    (⟨.call session .checkHealth, .ok ()⟩ : Event) ∈ events

namespace Issuer

variable {i : Issuer} {settings : Settings} {events probing storing : List Event}
  {outcome : Except Failure Action} {probe stored : Except Failure Unit} {now : Time}

theorem Opens.not_mem_call {opened : Except Failure Pki.Session} {session : Pki.Session}
    {call : Pki.Call} {answer : (Ask.call session call).Answer}
    (h : i.Opens settings events opened) : (⟨.call session call, answer⟩ : Event) ∉ events :=
  h.quiet.not_mem_call

theorem Probes.healthy_iff (h : i.Probes settings events probe) :
    Healthy events ↔ probe = .ok () := by
  cases h with
  | unopened ho =>
    refine ⟨?_, by simp⟩
    rintro ⟨session, -, hcall⟩
    exact absurd hcall ho.not_mem_call
  | @checked opening session ho answer =>
    constructor
    · rintro ⟨session', -, hcall⟩
      rcases List.mem_append.mp hcall with hin | hin
      · exact absurd hin ho.not_mem_call
      · cases List.mem_singleton.mp hin
        rfl
    · intro hok
      obtain rfl := mapError_eq_ok.mp hok
      exact ⟨session, List.mem_append_left _ ho.built, by simp⟩

theorem Probes.readings (h : i.Probes settings events probe) :
    events.filterMap reading? = [] := by
  cases h with
  | unopened ho => cases ho <;> rfl
  | checked ho =>
    rw [List.filterMap_append]
    cases ho
    rfl

theorem Probes.written (h : i.Probes settings events probe) :
    events.filterMap IssuerStatus.written? = [] := by
  cases h with
  | unopened ho => cases ho <;> rfl
  | checked ho =>
    rw [List.filterMap_append]
    cases ho
    rfl

/-- The write succeeds if there is none that fails. -/
theorem Updates.ok {after : Issuer} (h : i.Updates after events stored)
    (hs : ∀ j answer, (⟨.storeIssuerStatus j, answer⟩ : Event) ∈ events → answer = .ok ()) :
    stored = .ok () := by
  cases h with
  | unchanged => rfl
  | written => exact hs after stored List.mem_cons_self

theorem Updates.question {after : Issuer} (h : i.Updates after events stored) :
    ∀ e ∈ events, e.question = .storeIssuerStatus after := by
  cases h <;> simp

/-- The Ready condition that a probe leaves. -/
structure Finding where
  status : ConditionStatus
  reason : String
  message : String

def finding : Except Failure Unit → Finding
  | .ok () => ⟨.yes, Reason.success, Message.healthy⟩
  | .error f => ⟨.no, Reason.error, f.message⟩

theorem currentStatus_probed (i : Issuer) (probe : Except Failure Unit) (now : Time) :
    (i.probed probe now).currentStatus = i.currentStatus.setReadyCondition (finding probe).status
      (finding probe).reason (finding probe).message now := by
  cases probe <;> rfl

/-- What a pass leaves that finds a Ready condition, if its write succeeds. -/
theorem probed_left (hp : i.Probes settings probing probe)
    (hu : i.Updates (i.probed probe now) storing stored) (hstored : stored = .ok ()) :
    i.currentStatus.after (probing ++ ⟨.now, now⟩ :: storing) = (i.probed probe now).currentStatus := by
  subst hstored
  rw [IssuerStatus.after, List.filterMap_append, hp.written, List.nil_append]
  cases hu with
  | unchanged hsame =>
    rw [hsame]
    rfl
  | written => rfl

theorem probed_readings (hp : i.Probes settings probing probe)
    (hu : i.Updates (i.probed probe now) storing stored) :
    (probing ++ ⟨.now, now⟩ :: storing).filterMap reading? = [now] := by
  rw [List.filterMap_append, hp.readings, List.nil_append]
  cases hu <;> rfl

theorem probed_healthy_iff (hp : i.Probes settings probing probe)
    (hu : i.Updates (i.probed probe now) storing stored) :
    Healthy (probing ++ ⟨.now, now⟩ :: storing) ↔ probe = .ok () := by
  rw [← hp.healthy_iff]
  -- After the probe only the time is asked, and the status written.
  have hrest : ∀ e ∈ (⟨.now, now⟩ :: storing : List Event), e.question.contactsPki = false := by
    intro e he
    rcases List.mem_cons.mp he with rfl | he
    · rfl
    · rw [hu.question e he]
      rfl
  constructor
  · rintro ⟨session, hopened, hcall⟩
    refine ⟨session, (List.mem_append.mp hopened).resolve_right ?_,
      (List.mem_append.mp hcall).resolve_right ?_⟩
    · intro hin
      cases hrest _ hin
    · intro hin
      cases hrest _ hin
  · rintro ⟨session, hopened, hcall⟩
    exact ⟨session, List.mem_append_left _ hopened, List.mem_append_left _ hcall⟩

end Issuer

/-- A pass over an issuer: the issuer it read, what it asked, and the status it left. -/
structure Checkup where
  issuer : Issuer
  asked : List Event
  outcome : Except Failure Action
  left : IssuerStatus

namespace Checkup

/-- A pass that finds a status as stored, and whose writes all succeed. -/
structure Passes (v : Checkup) (settings : Settings) (s : IssuerStatus) : Prop where
  reads : v.issuer.currentStatus = s
  yields : (v.issuer.reconcile settings).Yields v.asked v.outcome
  stored : ∀ i answer, (⟨.storeIssuerStatus i, answer⟩ : Event) ∈ v.asked → answer = .ok ()
  leaves : v.left = s.after v.asked

/-- Ready has this status after a pass. -/
def Keeps (v : Checkup) (status : ConditionStatus) : Prop :=
  v.left.readyCondition.map (·.status) = some status

/-- A Ready condition says what a pass found that probed the PKI. -/
structure Shows (v : Checkup) (c : IssuerCondition) : Prop where
  yes_iff : c.status = .yes ↔ Healthy v.asked
  healthy : Healthy v.asked → c.reason = Reason.success ∧ c.message = Message.healthy
  unhealthy : ¬ Healthy v.asked → ∃ f, v.outcome = .error f ∧ c.status = .no ∧
    c.reason = Reason.error ∧ c.message = f.message

end Checkup

/-- Of the last passes without a break that left Ready with the status it has, the first one gave
the time. -/
def Since (visits : List Checkup) (c : IssuerCondition) : Prop :=
  ∃ before first later now, visits = before ++ first :: later ∧
    (∀ v ∈ first :: later, v.Keeps c.status) ∧
    (∀ v ∈ before.getLast?, ¬ v.Keeps c.status) ∧
    first.asked.filterMap reading? = [now] ∧ c.lastTransitionTime = some now

/-- What a pass leaves of the conditions there were at first: the same ones with Ready behind them,
which nothing has told before. -/
structure Leaves (s : IssuerStatus) (done : List Checkup) (v : Checkup) (c : IssuerCondition) :
    Prop where
  conditions : v.left.conditions = s.conditions ++ [c]
  type : c.type = ConditionType.ready
  first : done = [] → Offline v.asked ∧ c.status = .unknown ∧ c.reason = Reason.firstSeen ∧
    c.message = Message.firstSeen
  probed : done ≠ [] → v.Shows c
  since : Since (done ++ [v]) c

/-- Runs of passes over an issuer, each of which finds the status that the one before left. -/
inductive Checkups (settings : Settings) (s : IssuerStatus) : List Checkup → IssuerStatus → Prop
  | rest : Checkups settings s [] s
  | pass {done : List Checkup} {t : IssuerStatus} {v : Checkup} (h : Checkups settings s done t)
      (hv : v.Passes settings t) : Checkups settings s (done ++ [v]) v.left

variable {s t : IssuerStatus} {settings : Settings} {done visits : List Checkup} {v w : Checkup}
  {c : IssuerCondition}

theorem Since.extend {d : IssuerCondition} {now : Time} (h : Since (done ++ [v]) c)
    (hw : w.Keeps d.status) (hv : v.Keeps c.status) (hreading : w.asked.filterMap reading? = [now])
    (htime : d.lastTransitionTime = if c.status = d.status then c.lastTransitionTime else some now) :
    Since (done ++ [v] ++ [w]) d := by
  by_cases hstatus : c.status = d.status
  · obtain ⟨before, first, later, time, hvisits, hkeeps, hbefore, hfirst, hlast⟩ := h
    rw [hstatus] at hkeeps hbefore
    refine ⟨before, first, later ++ [w], time, by simp [hvisits], ?_, hbefore, hfirst, ?_⟩
    · intro u hu
      rcases List.mem_append.mp (by simpa using hu : u ∈ (first :: later) ++ [w]) with hu | hu
      · exact hkeeps u hu
      · cases List.mem_singleton.mp hu
        exact hw
    · rw [htime, if_pos hstatus, hlast]
  · refine ⟨done ++ [v], w, [], now, rfl, ?_, ?_, hreading, ?_⟩
    · intro u hu
      cases List.mem_singleton.mp hu
      exact hw
    · intro u hu hkeeps
      rw [List.getLast?_concat] at hu
      cases Option.mem_some_iff.mp hu
      exact hstatus (Option.some.inj (hv.symm.trans hkeeps))
    · rw [htime, if_neg hstatus]

theorem Leaves.keeps (hs : IssuerStatus.Untold s.conditions) (h : Leaves s done v c) :
    v.Keeps c.status := by
  have hleft : v.left = ⟨s.conditions ++ [c]⟩ := by rw [← h.conditions]
  rw [Checkup.Keeps, hleft, IssuerStatus.readyCondition_append hs h.type]
  rfl

/-- The first pass. -/
theorem leaves_of_first (hs : s.readyCondition = none) (hv : v.Passes settings s) :
    ∃ c, Leaves s [] v c := by
  have huntold := IssuerStatus.readyCondition_eq_none_iff.mp hs
  obtain ⟨i, asked, outcome, left⟩ := v
  obtain ⟨hreads, hyields, hstored, hleft⟩ := hv
  simp only at hreads hyields hstored hleft
  cases Issuer.reviews_of_yields hyields with
  | probed hsome =>
    rw [hreads, hs] at hsome
    cases hsome
  | firstSeen _ now stored =>
    obtain rfl : stored = .ok () := hstored (i.seen now) stored (by simp)
    have hconditions : left.conditions = s.conditions ++
        [⟨ConditionType.ready, .unknown, some now, Reason.firstSeen, Message.firstSeen⟩] := by
      rw [hleft, ← IssuerStatus.setReady_of_untold huntold, ← hreads]
      rfl
    refine ⟨_, hconditions, rfl, fun _ => ⟨?_, rfl, rfl, rfl⟩, fun h => absurd rfl h, ?_⟩
    · simp [Ask.contactsPki]
    · refine ⟨[], _, [], now, rfl, ?_, by simp, rfl, rfl⟩
      intro u hu
      cases List.mem_singleton.mp hu
      have hstatus : left = ⟨_⟩ := congrArg IssuerStatus.mk hconditions
      rw [Checkup.Keeps, hstatus, IssuerStatus.readyCondition_append huntold rfl]
      rfl

/-- Every later one. -/
theorem Leaves.next (hs : s.readyCondition = none) (h : Leaves s done v c)
    (hw : w.Passes settings v.left) : ∃ d, Leaves s (done ++ [v]) w d := by
  have huntold := IssuerStatus.readyCondition_eq_none_iff.mp hs
  have hkeeps := h.keeps huntold
  obtain ⟨i, asked, outcome, left⟩ := w
  obtain ⟨hreads, hyields, hstored, hleft⟩ := hw
  simp only at hreads hyields hstored hleft
  cases Issuer.reviews_of_yields hyields with
  | firstSeen hnone =>
    rw [hreads] at hnone
    rw [Checkup.Keeps, hnone] at hkeeps
    cases hkeeps
  | @probed probing storing probe stored hsome hp now hu =>
    have hp := Issuer.probes_of_yields hp
    have hok : stored = .ok () := hu.ok fun j answer hj => hstored j answer (by simp [hj])
    have hconditions : left.conditions = s.conditions ++ [⟨ConditionType.ready,
        (Issuer.finding probe).status, if c.status = (Issuer.finding probe).status
          then c.lastTransitionTime else some now, (Issuer.finding probe).reason,
        (Issuer.finding probe).message⟩] := by
      rw [hleft, ← hreads, Issuer.probed_left hp hu hok, Issuer.currentStatus_probed, hreads,
        IssuerStatus.setReadyCondition, h.conditions, IssuerStatus.setReady_append huntold h.type]
    have hhealthy := Issuer.probed_healthy_iff hp hu
    refine ⟨_, hconditions, rfl, fun hnil => by simp at hnil, fun _ => ⟨?_, ?_, ?_⟩, ?_⟩
    · rw [hhealthy]
      cases probe <;> simp [Issuer.finding]
    · intro hwell
      rw [hhealthy.mp hwell]
      exact ⟨rfl, rfl⟩
    · intro hill
      rw [hhealthy] at hill
      cases probe with
      | ok => exact absurd rfl hill
      | error f =>
        subst hok
        exact ⟨f, rfl, rfl, rfl, rfl⟩
    · refine h.since.extend ?_ hkeeps (Issuer.probed_readings hp hu) rfl
      have hstatus : left = ⟨_⟩ := congrArg IssuerStatus.mk hconditions
      rw [Checkup.Keeps, hstatus, IssuerStatus.readyCondition_append huntold rfl]
      rfl

theorem Checkups.last (h : Checkups settings s (done ++ [v]) t) :
    ∃ u, Checkups settings s done u ∧ v.Passes settings u ∧ t = v.left := by
  generalize hvisits : done ++ [v] = visits at h
  cases h with
  | rest => exact absurd hvisits (by simp)
  | pass h hv =>
    obtain ⟨rfl, hlast⟩ := List.append_inj' hvisits rfl
    cases hlast
    exact ⟨_, h, hv, rfl⟩

theorem Checkups.upTo {later : List Checkup} (h : Checkups settings s (done ++ v :: later) t) :
    Checkups settings s (done ++ [v]) v.left := by
  induction later using List.reverseRecOn generalizing t with
  | nil =>
    obtain ⟨u, hu, hv, -⟩ := h.last
    exact .pass hu hv
  | append_singleton later u ih =>
    have h : Checkups settings s ((done ++ v :: later) ++ [u]) t := by simpa using h
    obtain ⟨_, h, -, -⟩ := h.last
    exact ih h

/-- By induction on the run: every pass leaves what the next one needs to find. -/
theorem Checkups.leaves (hs : s.readyCondition = none) (h : Checkups settings s visits t) :
    (visits = [] ∧ t = s) ∨ ∃ done v c, visits = done ++ [v] ∧ t = v.left ∧ Leaves s done v c := by
  induction h with
  | rest => exact .inl ⟨rfl, rfl⟩
  | @pass done t v _ hv ih =>
    rcases ih with ⟨rfl, rfl⟩ | ⟨done, u, c, rfl, rfl, hleaves⟩
    · obtain ⟨c, hc⟩ := leaves_of_first hs hv
      exact .inr ⟨[], v, c, rfl, rfl, hc⟩
    · obtain ⟨d, hd⟩ := hleaves.next hs hv
      exact .inr ⟨done ++ [u], v, d, rfl, rfl, hd⟩

/-- Passes over an issuer that nothing has told to be ready or not: the first one only notes that
the issuer was seen, and every later one notes what its probe found. There is one Ready condition
after each of them, behind all others, which stay as they are; and it dates from the first of the
last passes that left it with the same status. -/
theorem readiness_of_checkups (hs : s.readyCondition = none) (h : Checkups settings s visits t) :
    ∀ done v later, visits = done ++ v :: later → ∃ c,
      (∀ d ∈ s.conditions, d.type ≠ ConditionType.ready) ∧ Leaves s done v c := by
  rintro done v later rfl
  rcases h.upTo.leaves hs with ⟨hnil, -⟩ | ⟨before, u, c, hvisits, -, hleaves⟩
  · exact absurd hnil (by simp)
  · obtain ⟨rfl, hlast⟩ := List.append_inj' hvisits rfl
    cases hlast
    exact ⟨c, IssuerStatus.readyCondition_eq_none_iff.mp hs, hleaves⟩

theorem failing_answer (w : World) (q : Ask) : (w.answer q).2.failing = w.failing := by
  have hwrite {β : Type} (call : StoreCall) (value : β) (written : World)
      (h : written.failing = w.failing) : (w.write call value written).2.failing = w.failing := by
    unfold World.write
    split
    next => rfl
    next => exact h
  cases q <;> first | rfl | exact hwrite _ _ _ rfl

theorem stored_of_run {α : Type} {w : World} (h : w.failure? .persistIssuerStatus = none)
    (p : Pass α) : ∀ i answer,
      (⟨.storeIssuerStatus i, answer⟩ : Event) ∈ (p.run World.answer w).events →
        answer = .ok () := by
  induction p generalizing w with
  | done => simp [Program.run]
  | ask q next ih =>
    intro i answer hm
    rcases List.mem_cons.mp hm with heq | hm
    · cases heq
      simp only [World.answer, World.write, h]
    · refine ih _ ?_ i answer hm
      rw [World.failure?, failing_answer]
      exact h

/-- A pass over the sample issuer with a status. -/
def sampleCheckup (s : IssuerStatus) (w : World) : Checkup :=
  let issuer : Issuer := { World.sampleIssuer with status := some s }
  let run := (issuer.reconcile {}).result.run World.answer w
  ⟨issuer, run.events, run.value, s.after run.events⟩

theorem passes_sampleCheckup (s : IssuerStatus) {w : World}
    (h : w.failure? .persistIssuerStatus = none) : (sampleCheckup s w).Passes {} s :=
  ⟨rfl, Attempt.run_yields World.answer _ w, stored_of_run h _, rfl⟩

/-- Three passes over a new issuer, in the second and the third of which its Secret is gone. -/
def sampleCheckups : List Checkup :=
  let first := sampleCheckup {} { World.sample with clock := ⟨0, 10, 0⟩ }
  let second := sampleCheckup first.left
    { World.sample with clock := ⟨0, 20, 0⟩, secrets := .empty }
  let third := sampleCheckup second.left
    { World.sample with clock := ⟨0, 30, 0⟩, secrets := .empty }
  [first, second, third]

theorem readiness_of_lost_secret :
    ∃ done v c, sampleCheckups = done ++ [v] ∧ Checkups {} {} sampleCheckups v.left ∧
      v.left.conditions = [c] ∧ ¬ Healthy v.asked ∧ c.status = .no ∧ Since sampleCheckups c ∧
      c.lastTransitionTime = some ⟨0, 20, 0⟩ := by
  have hfirst := Checkups.pass .rest
    (passes_sampleCheckup {} (w := { World.sample with clock := ⟨0, 10, 0⟩ }) rfl)
  have hsecond := hfirst.pass
    (passes_sampleCheckup _ (w := { World.sample with clock := ⟨0, 20, 0⟩, secrets := .empty }) rfl)
  have hthird := hsecond.pass
    (passes_sampleCheckup _ (w := { World.sample with clock := ⟨0, 30, 0⟩, secrets := .empty }) rfl)
  obtain ⟨c, -, hleaves⟩ := readiness_of_checkups rfl hthird [_, _] _ [] rfl
  have htime : (sampleCheckups[2]).left.conditions = [⟨ConditionType.ready, .no, some ⟨0, 20, 0⟩,
      Reason.error, "Invalid credentials: secret shop/login not found"⟩] := by decide +kernel
  obtain rfl := List.singleton_inj.mp (htime.symm.trans hleaves.conditions)
  have hshows := hleaves.probed (by simp)
  refine ⟨[_, _], _, _, rfl, hthird, hleaves.conditions, ?_, rfl, hleaves.since, rfl⟩
  intro hwell
  cases hshows.yes_iff.mpr hwell

end CertBroker
