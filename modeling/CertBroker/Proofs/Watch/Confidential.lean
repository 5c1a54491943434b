import CertBroker.Proofs.Pass.Discretion
import CertBroker.Proofs.Request.Admission

namespace CertBroker

variable {σ τ : Type} {pairing : Pki.Credentials.Pairing} {first : Surroundings σ}
  {second : Surroundings τ} {alike : σ → τ → Prop}

namespace Event

def write? (e : Event) : Option Event := if e.question.isWrite then some e else none

/-- The PKI call of an event, without the session it was made in. -/
def call? : Event → Option Pki.Call
  | ⟨.call _ c, _⟩ => some c
  | _ => none

theorem Twin.write?_eq {e e' : Event} (h : Event.Twin pairing e e') : e.write? = e'.write? := by
  obtain ⟨q, a⟩ := e
  cases q with
  | readSecret | openSession | call =>
    obtain ⟨_, _, rfl⟩ := h
    rfl
  | _ =>
    cases h
    rfl

theorem Twin.call?_eq {e e' : Event} (h : Event.Twin pairing e e') : e.call? = e'.call? := by
  obtain ⟨q, a⟩ := e
  cases q with
  | readSecret | openSession | call =>
    obtain ⟨_, _, rfl⟩ := h
    rfl
  | _ =>
    cases h
    rfl

/-- What is the same in twins is the same in runs of twins. -/
theorem filterMap_eq_of_twins {β : Type} {f : Event → Option β} {events events' : List Event}
    (hf : ∀ {e e'}, Event.Twin pairing e e' → f e = f e')
    (h : List.Forall₂ (Event.Twin pairing) events events') :
    events.filterMap f = events'.filterMap f := by
  induction h with
  | nil => rfl
  | cons he _ ih => simp only [List.filterMap_cons, hf he, ih]

end Event

/-- Surroundings that stay alike, and answer alike: to questions about anything but sessions, and
to twins about sessions. -/
structure Indistinct (pairing : Pki.Credentials.Pairing) (first : Surroundings σ)
    (second : Surroundings τ) (alike : σ → τ → Prop) : Prop where
  plain : ∀ {s t} (q : Ask), alike s t → q.contactsPki = false →
    (first s q).1 = (second t q).1 ∧ alike (first s q).2 (second t q).2
  opened : ∀ {s t} {x y : Pki.Session}, alike s t → x.Twin pairing y →
    (first s (.openSession x)).1 = (second t (.openSession y)).1 ∧
      alike (first s (.openSession x)).2 (second t (.openSession y)).2
  called : ∀ {s t} {x y : Pki.Session} (c : Pki.Call), alike s t → x.Twin pairing y →
    (first s (.call x c)).1 = (second t (.call y c)).1 ∧
      alike (first s (.call x c)).2 (second t (.call y c)).2

/-- The Secrets of a cluster, and all else that answers a pass. -/
structure Vault (σ : Type) where
  secrets : String → String → Option Secret
  rest : σ

namespace Vault

variable {v w : Vault σ} {v' w' : Vault τ}

/-- A read finds the Secret that is held, unless it fails; all else is for the rest to answer. -/
def answer (reply : Surroundings σ) : Surroundings (Vault σ)
  | v, .readSecret ns name =>
    let found := reply v.rest (.readSecret ns name)
    (found.1.map fun _ => v.secrets ns name, { v with rest := found.2 })
  | v, q => ((reply v.rest q).1, { v with rest := (reply v.rest q).2 })

/-- The credentials of two Secrets at one place. -/
def Counterparts (v : Vault σ) (v' : Vault τ) : Pki.Credentials.Pairing := fun c d =>
  ∃ ns name s t, v.secrets ns name = some s ∧ v'.secrets ns name = some t ∧
    s.credentials name = .ok c ∧ t.credentials name = .ok d

/-- The Secrets are alike at every place. -/
def Alike (v : Vault σ) (v' : Vault τ) : Prop :=
  ∀ ns name, Option.Rel Secret.Alike (v.secrets ns name) (v'.secrets ns name)

theorem Alike.of_one {ns name : String} {s t : Secret} (h : s.Alike t)
    (hs : v.secrets ns name = some s) (ht : v'.secrets ns name = some t)
    (helse : ∀ ns' name', (ns', name') ≠ (ns, name) →
      v'.secrets ns' name' = v.secrets ns' name') : v.Alike v' := by
  intro ns' name'
  by_cases hplace : (ns', name') = (ns, name)
  · cases hplace
    rw [hs, ht]
    exact .some h
  · rw [helse ns' name' hplace]
    cases v.secrets ns' name' with
    | none => exact .none
    | some u => exact .some (.refl u)

theorem Alike.twin (h : v.Alike v') (ns name : String) :
    Option.Rel (Secret.Twin (v.Counterparts v') name) (v.secrets ns name)
      (v'.secrets ns name) := by
  have hrel := h ns name
  generalize hs : v.secrets ns name = held at hrel ⊢
  generalize ht : v'.secrets ns name = held' at hrel ⊢
  cases hrel with
  | none => exact .none
  | some hst => exact .some ⟨hst, fun c d hc hd => ⟨ns, name, _, _, hs, ht, hc, hd⟩⟩

/-- The Secrets are as they were, and the rest is still alike. -/
structure Kept (alike : σ → τ → Prop) (v : Vault σ) (v' : Vault τ) (w : Vault σ) (w' : Vault τ) :
    Prop where
  left : w.secrets = v.secrets
  right : w'.secrets = v'.secrets
  rest : alike w.rest w'.rest

theorem step_twin (hreply : Indistinct (v.Counterparts v') first second alike)
    (hsecrets : v.Alike v') (hw : Kept alike v v' w w') {q q' : Ask}
    (hq : q.Twin (v.Counterparts v') q') :
    Event.Twin (v.Counterparts v') ⟨q, (answer first w q).1⟩ ⟨q', (answer second w' q').1⟩ ∧
      Kept alike v v' (answer first w q).2 (answer second w' q').2 := by
  obtain ⟨hleft, hright, halike⟩ := hw
  have hplain := hreply.plain q halike
  cases q with
  | openSession x =>
    obtain ⟨y, hxy, rfl⟩ := hq
    obtain ⟨ha, hrest⟩ := hreply.opened halike hxy
    exact ⟨⟨y, hxy, congrArg (Program.Event.mk (Ask.openSession y)) ha.symm⟩, hleft, hright, hrest⟩
  | call x c =>
    obtain ⟨y, hxy, rfl⟩ := hq
    obtain ⟨ha, hrest⟩ := hreply.called c halike hxy
    exact ⟨⟨y, hxy, congrArg (Program.Event.mk (Ask.call y c)) ha.symm⟩, hleft, hright, hrest⟩
  | readSecret ns name =>
    cases hq
    obtain ⟨ha, hrest⟩ := hplain rfl
    refine ⟨⟨_, ?_, rfl⟩, hleft, hright, hrest⟩
    change Agree _ ((first w.rest (.readSecret ns name)).1.map _)
      ((second w'.rest (.readSecret ns name)).1.map _)
    rw [ha, hleft, hright]
    cases (second w'.rest (.readSecret ns name)).1 with
    | ok _ => exact .ok (hsecrets.twin ns name)
    | error f => exact .error f
  | _ =>
    cases hq
    obtain ⟨ha, hrest⟩ := hplain rfl
    exact ⟨congrArg (Program.Event.mk _) ha.symm, hleft, hright, hrest⟩

theorem run_twin {α β : Type} {values : α → β → Prop} {p : Pass α} {p' : Pass β}
    (hreply : Indistinct (v.Counterparts v') first second alike) (hsecrets : v.Alike v')
    (h : Pass.Twin (v.Counterparts v') values p p') (hw : Kept alike v v' w w') :
    values (p.run (answer first) w).value (p'.run (answer second) w').value ∧
      List.Forall₂ (Event.Twin (v.Counterparts v')) (p.run (answer first) w).events
        (p'.run (answer second) w').events ∧
      Kept alike v v' (p.run (answer first) w).state (p'.run (answer second) w').state :=
  Program.Lockstep.run (Kept alike v v')
    (fun _ _ _ _ hw hq => step_twin hreply hsecrets hw hq) h hw

end Vault

/-- Of two passes over one object, with Secrets that are alike and surroundings that cannot tell
their credentials apart, the one does what the other does: the outcome, the writes and the calls are
the same, and all events are, but for the Secrets that are read and the credentials of sessions. -/
theorem Watched.confidential_of_alike {v : Vault σ} {v' : Vault τ} (o : Watched)
    (settings : Settings) (hreply : Indistinct (v.Counterparts v') first second alike)
    (hsecrets : v.Alike v') (hrest : alike v.rest v'.rest) :
    let run := (o.reconcile settings).result.run (Vault.answer first) v
    let run' := (o.reconcile settings).result.run (Vault.answer second) v'
    run.value = run'.value ∧
      run.events.filterMap Event.write? = run'.events.filterMap Event.write? ∧
      run.events.filterMap Event.call? = run'.events.filterMap Event.call? ∧
      List.Forall₂ (Event.Twin (v.Counterparts v')) run.events run'.events ∧
      Vault.Kept alike v v' run.state run'.state := by
  obtain ⟨hvalue, hevents, hkept⟩ := Vault.run_twin hreply hsecrets
    (Attempt.discreet_iff.mp (o.discreet_reconcile settings))
    (⟨rfl, rfl, hrest⟩ : Vault.Kept alike v v' v v')
  exact ⟨hvalue, Event.filterMap_eq_of_twins Event.Twin.write?_eq hevents,
    Event.filterMap_eq_of_twins Event.Twin.call?_eq hevents, hevents, hkept⟩

namespace Simulation.World

/-- The world, with a record of other clients that were made. -/
def withClients (w : World) (built : List (Pki.Endpoint × Pki.Credentials)) : World :=
  { w with pki := { w.pki with built } }

/-- Worlds that differ in what PKI clients were made with. -/
def AlikeUpToClients (w w' : World) : Prop := ∃ built, w' = w.withClients built

theorem write_withClients {α : Type} (w written : World) (c : StoreCall) (value : α)
    (built : List (Pki.Endpoint × Pki.Credentials)) :
    (w.write c value written).1 =
        ((w.withClients built).write c value (written.withClients built)).1 ∧
      AlikeUpToClients (w.write c value written).2
        ((w.withClients built).write c value (written.withClients built)).2 := by
  have hfailure : (w.withClients built).failure? c = w.failure? c := rfl
  simp only [write, hfailure]
  cases w.failure? c <;> exact ⟨rfl, built, rfl⟩

theorem call_withClients (m : Pki.InMemory) (built : List (Pki.Endpoint × Pki.Credentials))
    (c : Pki.Call) : ({ m with built } : Pki.InMemory).call c =
      ((m.call c).1, { (m.call c).2 with built }) := by
  unfold Pki.InMemory.call
  dsimp only
  cases m.failing.get? c.operation.text with
  | some e => rfl
  | none =>
    cases c with
    | poll id =>
      simp only [Pki.InMemory.perform, Pki.InMemory.record]
      cases m.requests.get? id <;> rfl
    | _ => rfl

/-- Simulated worlds never look at the credentials of a client. -/
theorem indistinct (pairing : Pki.Credentials.Pairing) :
    Indistinct pairing answer answer AlikeUpToClients where
  plain := by
    rintro w _ q ⟨built, rfl⟩ hq
    cases q with
    | storeRequest | addFinalizer | removeFinalizer | storeAnnotations | storeIssuerStatus =>
      exact write_withClients w ..
    | openSession | call => cases hq
    | _ => exact ⟨rfl, built, rfl⟩
  opened := by
    rintro w _ x y ⟨built, rfl⟩ -
    have hrefusal : (w.withClients built).pki.refusal = w.pki.refusal := rfl
    simp only [answer, Pki.InMemory.build, hrefusal]
    cases w.pki.refusal with
    | some message => exact ⟨rfl, built, rfl⟩
    | none => exact ⟨rfl, built ++ [(y.endpoint, y.credentials)], rfl⟩
  called := by
    rintro w _ x y c ⟨built, rfl⟩ -
    have hcall : (w.withClients built).pki.call c = _ := call_withClients w.pki built c
    simp only [answer, hcall]
    exact ⟨trivial, built, rfl⟩

end Simulation.World

def sampleLogin (password : Bytes) : Secret where
  data := some ((Dict.empty.insert "username" [97]).insert "password" password)

/-- The sample world, with any password of the issuer. -/
def sampleVault (password : Bytes) : Vault Simulation.World where
  secrets ns name := if (ns, name) = ("shop", "login") then some (sampleLogin password) else none
  rest := .sample

theorem alike_sampleVault : (sampleVault [98]).Alike (sampleVault [99]) := by
  have halike : (sampleLogin [98]).Alike (sampleLogin [99]) := ⟨rfl, by decide +kernel⟩
  have hheld (password : Bytes) :
      (sampleVault password).secrets "shop" "login" = some (sampleLogin password) := by
    simp [sampleVault]
  refine .of_one halike (hheld _) (hheld _) fun ns name hplace => ?_
  simp only [sampleVault, if_neg hplace]

/-- Clients are made with different passwords, and submit the same. -/
theorem confidential_of_sampleVault :
    let pass := ((Watched.request CertificateRequest.sampleApproved).reconcile {}).result
    let first := pass.run (Vault.answer Simulation.World.answer) (sampleVault [98])
    let second := pass.run (Vault.answer Simulation.World.answer) (sampleVault [99])
    first.state.rest.pki.built ≠ second.state.rest.pki.built ∧
      first.state.rest.pki.calls = [.renew "cert-0" "A"] ∧ first.value = second.value ∧
      first.events.filterMap Event.write? = second.events.filterMap Event.write? ∧
      first.events.filterMap Event.call? = second.events.filterMap Event.call? ∧
      Simulation.World.AlikeUpToClients first.state.rest second.state.rest := by
  intro pass first second
  obtain ⟨hvalue, hwrites, hcalls, -, hkept⟩ :=
    Watched.confidential_of_alike (.request CertificateRequest.sampleApproved) {}
      (Simulation.World.indistinct _) alike_sampleVault ⟨[], rfl⟩
  exact ⟨by decide +kernel, by decide +kernel, hvalue, hwrites, hcalls, hkept.rest⟩

end CertBroker
