import CertBroker.Proofs.Issuer.Readiness

namespace CertBroker

/-- All of a condition but its time. -/
def IssuerCondition.untimed (c : IssuerCondition) : IssuerCondition :=
  { c with lastTransitionTime := none }

namespace IssuerStatus

variable {status : ConditionStatus} {reason message : String} {now later : Time}

theorem setReady_of_untimed_head {c : IssuerCondition} {rest : List IssuerCondition}
    (h : c.untimed = ⟨ConditionType.ready, status, none, reason, message⟩) :
    setReady status reason message later (c :: rest) = c :: rest := by
  obtain ⟨type, status', time, reason', message'⟩ := c
  cases h
  simp [setReady, ConditionType.ready]

/-- A Ready condition that says already what is set keeps its time. -/
theorem setReady_of_untimed {cs ds : List IssuerCondition}
    (h : cs.map IssuerCondition.untimed =
      (setReady status reason message now ds).map IssuerCondition.untimed) :
    setReady status reason message later cs = cs := by
  induction ds generalizing cs with
  | nil =>
    obtain ⟨c, rest, rfl, hc, -⟩ := List.map_eq_cons_iff.mp h
    exact setReady_of_untimed_head hc
  | cons d ds ih =>
    by_cases hd : d.type = ConditionType.ready
    · rw [setReady, if_pos hd] at h
      obtain ⟨c, rest, rfl, hc, -⟩ := List.map_eq_cons_iff.mp h
      exact setReady_of_untimed_head (hc.trans (by rw [← hd]; rfl))
    · rw [setReady, if_neg hd] at h
      obtain ⟨c, rest, rfl, hc, hrest⟩ := List.map_eq_cons_iff.mp h
      have hne : c.type ≠ ConditionType.ready := fun hsame =>
        hd ((congrArg IssuerCondition.type hc).symm.trans hsame)
      rw [setReady, if_neg hne, ih hrest]

theorem readyCondition_ne_none_of_untimed {s : IssuerStatus} {ds : List IssuerCondition}
    (h : s.conditions.map IssuerCondition.untimed =
      (setReady status reason message now ds).map IssuerCondition.untimed) :
    s.readyCondition ≠ none := by
  intro hnone
  have hkept : setReady status reason message now s.conditions = s.conditions :=
    setReady_of_untimed h
  rw [setReady_of_untold (readyCondition_eq_none_iff.mp hnone)] at hkept
  exact absurd (congrArg List.length hkept) (by simp)

end IssuerStatus

namespace Issuer

variable {i : Issuer} {settings : Settings} {again : List Event}
  {probe probe' : Except Failure Unit} {outcome : Except Failure Action}

/-- A pass probes the PKI first, and this comes of it. -/
def Finds (i : Issuer) (settings : Settings) (events : List Event)
    (probe : Except Failure Unit) : Prop :=
  ∃ probing rest, events = probing ++ rest ∧ (i.probe settings).Yields probing probe

theorem finding_congr (h : probe'.mapError Failure.message = probe.mapError Failure.message) :
    finding probe' = finding probe := by
  cases probe with
  | ok =>
    cases probe' with
    | ok => rfl
    | error => cases h
  | error f =>
    cases probe' with
    | ok => cases h
    | error g =>
      have hmessage : g.message = f.message := Except.error.inj h
      rw [finding, hmessage, finding]

/-- Without the Secret a probe fails before it makes a client. -/
theorem probe_of_missing (i : Issuer) (settings : Settings) :
    (i.probe settings).Yields [⟨i.secretQuestion settings, .ok none⟩]
      (.error (.credentials ("secret " ++ i.secretNamespace settings.clusterResourceNamespace ++
        "/" ++ i.spec.authSecretName ++ " not found"))) := by
  refine Attempt.yields_bind.mpr (.inl ⟨_, Attempt.yields_bind.mpr (.inr ?_), rfl⟩)
  exact ⟨none, _, [], rfl, Attempt.yields_secret.mpr rfl, Attempt.yields_throw.mpr ⟨rfl, rfl⟩⟩

/-- A probe with the same result as the one before writes nothing. -/
theorem unwritten_of_finds {v : Checkup} {s : IssuerStatus} (h : v.Passes settings s)
    (hs : s.readyCondition.isSome = true) (hv : v.issuer.Finds settings v.asked probe)
    (hi : i.currentStatus.conditions.map IssuerCondition.untimed =
      v.left.conditions.map IssuerCondition.untimed)
    (hy : (i.reconcile settings).Yields again outcome) (hp : i.Finds settings again probe')
    (hsame : probe'.mapError Failure.message = probe.mapError Failure.message) :
    Unwritten again := by
  obtain ⟨issuer, asked, result, left⟩ := v
  obtain ⟨hreads, hyields, hstored, hleft⟩ := h
  simp only at hreads hyields hstored hleft hv hi
  cases reviews_of_yields hyields with
  | firstSeen hnone =>
    rw [hreads] at hnone
    rw [hnone] at hs
    cases hs
  | @probed probing storing found stored _ hprobe now hu =>
    obtain ⟨_, _, hevents, hfound⟩ := hv
    obtain ⟨-, hfound, -⟩ := Program.Trace.unique hprobe hfound hevents
    subst hfound
    have hok : stored = .ok () := hu.ok fun j answer hj => hstored j answer (by simp [hj])
    rw [hleft, ← hreads, probed_left (probes_of_yields hprobe) hu hok, currentStatus_probed] at hi
    cases reviews_of_yields hy with
    | firstSeen hnone => exact absurd hnone (IssuerStatus.readyCondition_ne_none_of_untimed hi)
    | @probed probing' storing' found' stored' _ hprobe' later hu' =>
      obtain ⟨_, _, hevents', hfound'⟩ := hp
      obtain ⟨-, hfound', -⟩ := Program.Trace.unique hprobe' hfound' hevents'
      subst hfound'
      have hunwritten := (probes_of_yields hprobe').unwritten
      cases hu' with
      | unchanged => simp [hunwritten, Ask.isWrite]
      | written hne =>
        refine absurd ?_ hne
        rw [currentStatus_probed, finding_congr hsame, IssuerStatus.setReadyCondition,
          IssuerStatus.setReady_of_untimed hi]

end Issuer

end CertBroker
