import CertBroker.Proofs.Pass.Course
import CertBroker.Proofs.Pass.Health

namespace CertBroker

open Simulation (World)

variable {α : Type}

namespace Failure

mutual

/-- The failures a failure is made of, through aggregates in aggregates. -/
def singles : Failure → List Failure
  | .aggregate source persistence => source.singles ++ singlesOf persistence
  | f => [f]

def singlesOf : List Failure → List Failure
  | [] => []
  | f :: rest => f.singles ++ singlesOf rest

end

theorem singlesOf_eq_flatMap (fs : List Failure) : singlesOf fs = fs.flatMap singles := by
  induction fs with
  | nil => rfl
  | cons f rest ih => rw [singlesOf, ih, List.flatMap_cons]

theorem singles_attach (f : Failure) (rest : List Failure) :
    (f.attach rest).singles = (f :: rest).flatMap singles := by
  rw [List.flatMap_cons]
  unfold attach
  split
  next hnone => rw [List.isEmpty_iff.mp hnone, List.flatMap_nil, List.append_nil]
  next => rw [singles, singlesOf_eq_flatMap]

/-- The class is that of the first failure inside, however deep it lies. -/
theorem kind_head_singles (f : Failure) : f.singles.head?.map kind = some f.kind := by
  cases f with
  | aggregate source persistence =>
    have hsource := kind_head_singles source
    obtain ⟨first, hfirst, hkind⟩ := Option.map_eq_some_iff.mp hsource
    rw [singles, List.head?_append, hfirst]
    exact congrArg some hkind
  | _ => rfl

end Failure

def failureOf : Except Failure α → List Failure
  | .ok _ => []
  | .error f => [f]

/-- The failures of an outcome and of the writes after it, in this order. -/
def failuresAfter (outcome : Except Failure α) (writes : List (Except Failure Unit)) :
    List Failure := failureOf outcome ++ writes.flatMap failureOf

/-- A result reports an outcome and what came of the writes after it: without failures it is the
outcome, and otherwise every failure is in it once, in order, behind the first one. -/
structure Reports (outcome : Except Failure α) (writes : List (Except Failure Unit))
    (result : Except Failure α) : Prop where
  ok_iff : ∀ a, result = .ok a ↔ outcome = .ok a ∧ ∀ write ∈ writes, write = .ok ()
  listed : ∀ e, result = .error e → ∃ first rest, failuresAfter outcome writes = first :: rest ∧
    e = first.attach rest ∧ e.kind = first.kind
  singles : ∀ e, result = .error e →
    e.singles = (failuresAfter outcome writes).flatMap Failure.singles ∧
      e.singles.head?.map Failure.kind = some e.kind

theorem failuresAfter_eq_nil {outcome : Except Failure α} {writes : List (Except Failure Unit)} :
    failuresAfter outcome writes = [] ↔
      (∃ a, outcome = .ok a) ∧ ∀ write ∈ writes, write = .ok () := by
  rw [failuresAfter, List.append_eq_nil_iff, List.flatMap_eq_nil_iff]
  refine and_congr ?_ (forall₂_congr fun write _ => ?_)
  · cases outcome <;> simp [failureOf]
  · cases write <;> simp [failureOf]

/-- A result that is the first failure, with the others attached, reports them. -/
theorem reports_of_attach {outcome result : Except Failure α}
    {writes : List (Except Failure Unit)}
    (hnone : failuresAfter outcome writes = [] → result = outcome)
    (hsome : ∀ first rest, failuresAfter outcome writes = first :: rest →
      result = .error (first.attach rest)) : Reports outcome writes result := by
  cases hfailures : failuresAfter outcome writes with
  | nil =>
    obtain rfl := hnone hfailures
    obtain ⟨⟨a, rfl⟩, hwrites⟩ := failuresAfter_eq_nil.mp hfailures
    refine ⟨fun b => ?_, ?_, ?_⟩
    · exact ⟨fun h => ⟨h, hwrites⟩, fun h => h.1⟩
    · rintro e ⟨⟩
    · rintro e ⟨⟩
  | cons first rest =>
    obtain rfl := hsome first rest hfailures
    refine ⟨fun a => ⟨?_, ?_⟩, ?_, ?_⟩
    · rintro ⟨⟩
    · rintro ⟨rfl, hwrites⟩
      have hnil := failuresAfter_eq_nil.mpr ⟨⟨a, rfl⟩, hwrites⟩
      rw [hfailures] at hnil
      cases hnil
    · rintro _ ⟨⟩
      exact ⟨first, rest, hfailures, rfl, Failure.kind_attach first rest⟩
    · rintro _ ⟨⟩
      exact ⟨by rw [hfailures, Failure.singles_attach], Failure.kind_head_singles _⟩

theorem reports_joinOutcome (outcome : Except Failure Action) (stored linked : Except Failure Unit) :
    Reports outcome [stored, linked] (joinOutcome outcome (failuresOf stored linked)) := by
  have hlist : failuresAfter outcome [stored, linked]
      = failureOf outcome ++ failuresOf stored linked := by
    cases stored <;> cases linked <;> rfl
  refine reports_of_attach (fun hnone => ?_) fun first rest hsome => ?_
  · obtain ⟨⟨action, rfl⟩, hwrites⟩ := failuresAfter_eq_nil.mp hnone
    rw [hwrites stored (by simp), hwrites linked (by simp)]
    rfl
  · rw [hlist] at hsome
    cases outcome with
    | ok action =>
      have hwrites : failuresOf stored linked = first :: rest := hsome
      rw [hwrites]
      rfl
    | error f =>
      obtain ⟨rfl, hwrites⟩ := List.cons.inj hsome
      have hwrites : failuresOf stored linked = rest := hwrites
      rw [hwrites]
      rfl

theorem Issuer.reports_joinProbe (settings : Settings) (probe stored : Except Failure Unit) :
    Reports (probe.map fun _ => Action.requeue settings.healthCheckInterval) [stored]
      (joinProbe settings probe stored) := by
  refine reports_of_attach ?_ ?_
  · cases probe <;> cases stored <;> simp [failuresAfter, failureOf, joinProbe, Except.map]
  · rintro first rest h
    cases probe <;> cases stored <;>
      simp_all [failuresAfter, failureOf, joinProbe, Except.map, Failure.attach]

theorem reports_write {a : α} {stored : Except Failure Unit} :
    Reports (.ok a) [stored] (stored.map fun _ => a) := by
  refine reports_of_attach ?_ ?_
  · cases stored <;> simp [failuresAfter, failureOf, Except.map]
  · rintro first rest h
    cases stored <;> simp_all [failuresAfter, failureOf, Except.map, Failure.attach]

/-- Whatever a pass over a request has come to, the request is written, then the parent is linked,
and both are tried whatever came of the other. What the pass reports is its own outcome with all
failures of the writes. A pass over an issuer reports its probe and its one write in the same way,
and the first one, without a probe, its write alone. -/
theorem reports_of_yields :
    (∀ before after outcome events result,
      (persistOutcome before after outcome).Yields events result →
      ∃ noted reflected stored linking linked,
        events = noted ++ ⟨.storeRequest before reflected, stored⟩ :: linking ∧
        after.Reflects outcome noted reflected ∧ reflected.Links linking linked ∧
        Reports outcome [stored, linked] result) ∧
    ∀ (issuer : Issuer) settings events result, (issuer.reconcile settings).Yields events result →
      (issuer.currentStatus.readyCondition.isSome = true →
        ∃ probing probe now storing stored, events = probing ++ ⟨.now, now⟩ :: storing ∧
          (issuer.probe settings).Yields probing probe ∧
          issuer.Updates (issuer.probed probe now) storing stored ∧
          Reports (probe.map fun _ => .requeue settings.healthCheckInterval) [stored] result) ∧
      (issuer.currentStatus.readyCondition = none →
        ∃ now stored, events = [⟨.now, now⟩, ⟨.storeIssuerStatus (issuer.seen now), stored⟩] ∧
          Reports (.ok .awaitChange) [stored] result) := by
  constructor
  · intro before after outcome events result h
    obtain ⟨noted, reflected, stored, linking, linked, hevents, hr, hl, rfl⟩ :=
      persistOutcome_yields h
    exact ⟨noted, reflected, stored, linking, linked, hevents, hr, hl,
      reports_joinOutcome outcome stored linked⟩
  · intro issuer settings events result h
    cases Issuer.reviews_of_yields h with
    | firstSeen hnone now stored =>
      exact ⟨fun hsome => absurd hsome (by simp [hnone]), fun _ => ⟨now, stored, rfl, reports_write⟩⟩
    | probed hsome hp now hu =>
      refine ⟨fun _ => ⟨_, _, now, _, _, rfl, hp, hu, Issuer.reports_joinProbe ..⟩, fun hnone => ?_⟩
      exact absurd hsome (by simp [hnone])

/-- A request with a certificate, made for a Certificate. -/
def samplePaired : CertificateRequest where
  metadata := {
    name := some "web", ns := some "shop"
    annotations := some ((Dict.empty.insert Annotation.certificateId "cert-1").insert
      Annotation.certificateName "web-tls") }
  spec := { request := "", issuerRef := ⟨"pki", none, some groupName⟩ }

/-- Both writes of a failed pass fail, and so does the write of a failed probe. -/
theorem reports_of_lost_writes :
    let f : Failure := .aggregate (.dnsValidation "web") [.watch "lost"]
    let lost := World.sample.fail .persistRequest (.conflict "changed")
    let persisted := (persistOutcome samplePaired samplePaired (.error f)).result.run World.answer
      (lost.fail .getCertificate (.cluster "down"))
    let silent := World.sample.fail .getSecret (.cluster "down")
    let reviewed := (World.sampleIssuer.reconcile {}).result.run World.answer
      (silent.fail .persistIssuerStatus (.conflict "changed"))
    (∃ e, persisted.value = .error e ∧ e.kind = .transient ∧ e.singles =
      [.dnsValidation "web", .watch "lost", .conflict "changed", .cluster "down"]) ∧
    ∃ e, reviewed.value = .error e ∧ e.kind = .persistence ∧
      e.singles = [.cluster "down", .conflict "changed"] := by
  intro f lost persisted silent reviewed
  obtain ⟨noted, reflected, stored, linking, linked, -, -, -, hpersisted⟩ :=
    reports_of_yields.1 _ _ _ _ _ (Attempt.run_yields World.answer
      (persistOutcome samplePaired samplePaired (.error f))
      (lost.fail .getCertificate (.cluster "down")))
  obtain ⟨probing, probe, now, storing, write, -, -, -, hreviewed⟩ :=
    (reports_of_yields.2 _ _ _ _ (Attempt.run_yields World.answer (World.sampleIssuer.reconcile {})
      (silent.fail .persistIssuerStatus (.conflict "changed")))).1 (by decide)
  refine ⟨⟨_, rfl, ?_, rfl⟩, _, rfl, ?_, rfl⟩
  · obtain ⟨first, rest, hfailures, -, hkind⟩ := hpersisted.listed _ rfl
    obtain ⟨rfl, -⟩ := List.cons.inj hfailures
    exact hkind
  · obtain ⟨-, hkind⟩ := hreviewed.singles _ rfl
    exact (Option.some.inj hkind).symm

end CertBroker
