import CertBroker.Pass.Health
import CertBroker.Proofs.Pass.Session

namespace CertBroker.Issuer

variable {i after : Issuer} {settings : Settings} {events : List Event}

/-- What can come of a probe. -/
inductive Probes (i : Issuer) (settings : Settings) : List Event → Except Failure Unit → Prop
  | unopened {opening : List Event} {f : Failure} (ho : i.Opens settings opening (.error f)) :
      Probes i settings opening (.error f)
  | checked {opening : List Event} {session : Pki.Session}
      (ho : i.Opens settings opening (.ok session)) (answer : Except PkiError Unit) :
      Probes i settings (opening ++ [⟨.call session .checkHealth, answer⟩])
        (answer.mapError Failure.pki)

theorem probes_of_yields {probe : Except Failure Unit}
    (h : (i.probe settings).Yields events probe) : i.Probes settings events probe := by
  simp only [Issuer.probe, Attempt.yields_bind] at h
  rcases h with ⟨f, ho, rfl⟩ | ⟨session, opening, _, rfl, ho, h⟩
  · exact .unopened (opens_of_yields ho)
  · obtain ⟨answer, rfl, rfl⟩ := Attempt.yields_call.mp h
    exact .checked (opens_of_yields ho) answer

theorem Probes.unwritten {probe : Except Failure Unit} (h : i.Probes settings events probe) :
    Unwritten events := by
  cases h with
  | unopened ho => exact ho.unwritten
  | checked ho => simp [ho.unwritten, Ask.isWrite]

/-- What can come of writing the status of an issuer, if it has changed. -/
inductive Updates (i after : Issuer) : List Event → Except Failure Unit → Prop
  | unchanged (h : after.currentStatus = i.currentStatus) : Updates i after [] (.ok ())
  | written (h : after.currentStatus ≠ i.currentStatus) (stored : Except Failure Unit) :
      Updates i after [⟨.storeIssuerStatus after, stored⟩] stored

theorem updates_of_trace {stored : Except Failure Unit}
    (h : Program.Trace (storeIfChanged i after) events stored) : i.Updates after events stored := by
  unfold storeIfChanged at h
  split at h
  next hsame =>
    obtain ⟨rfl, rfl⟩ := Program.trace_done_iff.mp h
    exact .unchanged hsame
  next hne =>
    cases Ask.trace_put_iff.mp h
    exact .written hne stored

/-- The issuer as its first pass writes it. -/
def seen (i : Issuer) (now : Time) : Issuer :=
  i.setReady .unknown Reason.firstSeen Message.firstSeen now

/-- What can come of a pass over an issuer. -/
inductive Reviews (i : Issuer) (settings : Settings) : List Event → Except Failure Action → Prop
  | firstSeen (h : i.currentStatus.readyCondition = none) (now : Time)
      (stored : Except Failure Unit) :
      Reviews i settings [⟨.now, now⟩, ⟨.storeIssuerStatus (i.seen now), stored⟩]
        (stored.map fun _ => .awaitChange)
  | probed {probing storing : List Event} {probe stored : Except Failure Unit}
      (h : i.currentStatus.readyCondition.isSome = true)
      (hp : (i.probe settings).Yields probing probe) (now : Time)
      (hu : i.Updates (i.probed probe now) storing stored) :
      Reviews i settings (probing ++ ⟨.now, now⟩ :: storing) (joinProbe settings probe stored)

theorem reviews_of_yields {outcome : Except Failure Action}
    (h : (i.reconcile settings).Yields events outcome) : i.Reviews settings events outcome := by
  unfold reconcile at h
  split at h
  next hnone =>
    have hnone : i.currentStatus.readyCondition = none := by simpa using hnone
    simp only [Attempt.yields_bind, Attempt.yields_lift, Ask.trace_time_iff] at h
    rcases h with ⟨f, ⟨_, _, hf⟩, _⟩ | ⟨now, _, _, rfl, ⟨_, rfl, hok⟩, h⟩
    · cases hf
    cases hok
    rcases h with ⟨f, hs, rfl⟩ | ⟨_, _, _, rfl, hs, h⟩
    · cases Program.trace_put_iff.mp hs
      exact .firstSeen hnone now (.error f)
    · cases Program.trace_put_iff.mp hs
      obtain ⟨rfl, rfl⟩ := Attempt.yields_pure.mp h
      exact .firstSeen hnone now (.ok ())
  next hsome =>
    have hsome : i.currentStatus.readyCondition.isSome = true := by
      cases hready : i.currentStatus.readyCondition with
      | none => exact absurd (by rw [hready]; rfl) hsome
      | some c => rfl
    simp only [Attempt.yields_bind, Attempt.yields_lift, Ask.trace_time_iff] at h
    rcases h with ⟨f, ⟨_, _, hf⟩, _⟩ | ⟨probe, probing, _, rfl, ⟨_, hp, hok⟩, h⟩
    · cases hf
    cases hok
    rcases h with ⟨f, ⟨_, _, hf⟩, _⟩ | ⟨now, _, _, rfl, ⟨_, rfl, hok⟩, h⟩
    · cases hf
    cases hok
    rcases h with ⟨f, ⟨_, _, hf⟩, _⟩ | ⟨stored, storing, _, rfl, ⟨_, hs, hok⟩, h⟩
    · cases hf
    cases hok
    obtain ⟨rfl, rfl⟩ := Attempt.yields_ofExcept.mp h
    simp only [List.append_nil, List.singleton_append]
    exact .probed hsome hp now (updates_of_trace hs)

end CertBroker.Issuer
