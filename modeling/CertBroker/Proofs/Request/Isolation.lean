import CertBroker.Proofs.Pass.Confinement

namespace CertBroker

open Simulation (World)

variable {ρ : Type}

/-- The clusters may differ in every other object: neither what the pass asks and is answered, its
PKI calls and writes among it, nor its outcome tells them apart. -/
theorem run_eq_of_agree (c : Conduct ρ) (r : CertificateRequest) (settings : Settings) (e : ρ)
    {s t : Tenancies} (hown : s.tenants r.metadata.nsText = t.tenants r.metadata.nsText)
    (hcluster : r.spec.issuerRef.scope = .ok .cluster →
      s.clusterIssuers r.spec.issuerRef.name = t.clusterIssuers r.spec.issuerRef.name ∧
      (s.tenants settings.clusterResourceNamespace).secrets =
        (t.tenants settings.clusterResourceNamespace).secrets) :
    let first := (r.reconcile settings).result.run c.answer (s, e)
    let second := (r.reconcile settings).result.run c.answer (t, e)
    first.value = second.value ∧ first.events = second.events ∧
      first.state.1.tenants r.metadata.nsText = second.state.1.tenants r.metadata.nsText ∧
      first.state.2 = second.state.2 := by
  intro first second
  have hnamed {name : String} (h : (r.bounds settings).clusterIssuer = some name) :
      r.spec.issuerRef.scope = .ok .cluster ∧ r.spec.issuerRef.name = name := by
    unfold CertificateRequest.bounds at h
    simp only at h
    split at h
    next hscope => exact ⟨hscope, Option.some.inj h⟩
    next => cases h
  have hagree : Tenancies.Agree (r.bounds settings) s t := by
    refine ⟨hown, fun name hname => ?_, fun hsome => ?_⟩
    · obtain ⟨hscope, rfl⟩ := hnamed hname
      exact (hcluster hscope).1
    · obtain ⟨name, hname⟩ := Option.isSome_iff_exists.mp hsome
      exact (hcluster (hnamed hname).1).2
  have hconfined : Confined (r.bounds settings) first.events :=
    CertificateRequest.confined_of_yields (Attempt.run_yields c.answer _ (s, e))
      (c.placed_run _ (s, e))
  have halike : Tenancies.Alike (r.bounds settings) (s, e) (t, e) := ⟨hagree, rfl⟩
  obtain ⟨hvalue, hevents, hstate, hrest⟩ := Program.run_congr
    (fun _ _ _ h hq => h.answer c hq) (r.reconcile settings).result halike hconfined
  exact ⟨hvalue, hevents, hstate.own, hrest⟩

/-- Reads do not fail, and all else is as in the world. -/
def Conduct.ofWorld : Conduct World where
  fault w _ := (none, w)
  reply w q := w.answer q
  write w _ t q := ((w.answer q).1, t, (w.answer q).2)
  same_ns w _ _ r r' h := by
    have hwritten : (w.write .addFinalizer (World.guard r true)
        (w.putRequest (World.guard r true))).1 = .ok r' := h
    unfold World.write at hwritten
    split at hwritten
    next => cases hwritten
    next =>
      cases hwritten
      rfl

/-- The shop with its issuer, and any Secrets of another namespace. -/
def sampleTenancies (foreign : String → Option Secret) : Tenancies where
  tenants
    | "shop" => {
        issuers := fun
          | "pki" => some ⟨World.sampleIssuer, rfl, rfl⟩
          | _ => none
        secrets := fun name => World.sample.secrets.get? (objectKey "shop" name)
        certificates := fun
          | "web-tls" => some ⟨World.sampleParent, rfl⟩
          | _ => none }
    | _ => { secrets := foreign }

/-- Secrets of the same name as the issuer's, elsewhere. -/
def sampleForeign (name : String) : Option Secret :=
  if name = "login" then
    some { data := some ((Dict.empty.insert "username" [120]).insert "password" [121]) }
  else none

/-- An approved request for the issuer of the shop. -/
def sampleTenantRequest : CertificateRequest where
  metadata := { name := some "web", ns := some "shop" }
  spec := { request := "QQ==", issuerRef := ⟨"pki", none, some groupName⟩ }
  status := some { conditions := [⟨ConditionType.approved, .yes, none, none, none⟩] }

theorem run_eq_of_foreign :
    let s := sampleTenancies fun _ => none
    let t := sampleTenancies sampleForeign
    let first := (sampleTenantRequest.reconcile {}).result.run Conduct.ofWorld.answer
      (s, World.sample)
    let second := (sampleTenantRequest.reconcile {}).result.run Conduct.ofWorld.answer
      (t, World.sample)
    s.tenants "shop" = t.tenants "shop" ∧
      sampleTenantRequest.spec.issuerRef.scope = .ok .namespaced ∧
      (s.tenants "default").secrets "login" ≠ (t.tenants "default").secrets "login" ∧
      (calls first.events).length = 1 ∧ first.events = second.events := by
  have hown : (sampleTenancies fun _ => none).tenants sampleTenantRequest.metadata.nsText =
      (sampleTenancies sampleForeign).tenants sampleTenantRequest.metadata.nsText := rfl
  have hscope : sampleTenantRequest.spec.issuerRef.scope = .ok .namespaced := rfl
  have hrun := run_eq_of_agree Conduct.ofWorld sampleTenantRequest {} World.sample hown
    fun hno => by rw [hscope] at hno; cases hno
  exact ⟨hown, hscope, by decide, by decide +kernel, hrun.2.1⟩

end CertBroker
