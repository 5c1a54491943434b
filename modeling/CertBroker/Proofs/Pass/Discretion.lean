import CertBroker.Proofs.Pass.Twin
import CertBroker.Watch.Watched

namespace CertBroker

variable {pairing : Pki.Credentials.Pairing}

/-- Two Secrets that take each other's place are refused with the same words. -/
theorem Issuer.agree_credentialsIn {i : Issuer} {s t : Secret}
    (h : Secret.Twin pairing i.spec.authSecretName s t) :
    Agree pairing (i.credentialsIn s) (i.credentialsIn t) := by
  have hs := s.told_credentials i.spec.authSecretName
  have ht := t.told_credentials i.spec.authSecretName
  have hpair := h.pairing
  change Agree pairing ((s.credentials _).mapError _) ((t.credentials _).mapError _)
  rw [h.alike.fault] at ht
  generalize s.credentials i.spec.authSecretName = outcome at *
  generalize t.credentials i.spec.authSecretName = outcome' at *
  generalize s.fault? = fault at *
  cases hs with
  | value c =>
    cases ht with
    | value d => exact .ok (hpair c d rfl rfl)
  | error f =>
    cases ht
    exact .error _

theorem Attempt.twin_secret (ns name : String) :
    (Ask.secret ns name).Twin pairing (Option.Rel (Secret.Twin pairing name))
      (Ask.secret ns name) :=
  .ask rfl fun a a' h => .done (by
    obtain ⟨found, hfound, he⟩ := h
    cases he
    exact hfound)

theorem Pass.twin_opened {s t : Pki.Session} (h : s.Twin pairing t) :
    Pass.Twin pairing (· = ·) (Ask.put (.openSession s)) (Ask.put (.openSession t)) :=
  .ask ⟨t, h, rfl⟩ fun a a' htwin => .done (by
    obtain ⟨_, -, he⟩ := htwin
    cases he
    rfl)

theorem Pass.twin_called {s t : Pki.Session} (h : s.Twin pairing t) (c : Pki.Call) :
    Pass.Twin pairing (· = ·) (Ask.put (.call s c)) (Ask.put (.call t c)) :=
  .ask ⟨t, h, rfl⟩ fun a a' htwin => .done (by
    obtain ⟨_, -, he⟩ := htwin
    cases he
    rfl)

theorem Issuer.twin_openSession (i : Issuer) (settings : Settings) :
    (i.openSession settings).Twin pairing (Pki.Session.Twin pairing) (i.openSession settings) := by
  refine (Attempt.twin_secret _ _).bind fun found found' hfound => ?_
  cases hfound with
  | none => exact Attempt.twin_throw _ _
  | some h =>
    refine (Attempt.twin_ofExcept (agree_credentialsIn h)).bind fun c d hcd => ?_
    have htwin : Pki.Session.Twin pairing ⟨i.endpoint settings, c⟩ ⟨i.endpoint settings, d⟩ :=
      ⟨rfl, hcd⟩
    exact (Attempt.twin_ofPki (Pass.twin_opened htwin)).bind fun _ _ _ => Attempt.twin_pure htwin

theorem Pki.Session.twin_call {s t : Pki.Session} (h : s.Twin pairing t) (c : Pki.Call) :
    (s.call c).Twin pairing (· = ·) (t.call c) :=
  Attempt.twin_ofPki (Pass.twin_called h c)

theorem Issuer.discreet_inquire (i : Issuer) (settings : Settings) (id : String) :
    (i.inquire settings id).Discreet pairing :=
  (i.twin_openSession settings).bind fun _ _ h => Pki.Session.twin_call h (.poll id)

theorem Issuer.discreet_probe (i : Issuer) (settings : Settings) :
    (i.probe settings).Discreet pairing :=
  (i.twin_openSession settings).bind fun _ _ h => Pki.Session.twin_call h .checkHealth

theorem discreet_time : Ask.time.Discreet pairing := Pass.discreet_put rfl

open Attempt

namespace NameCheck

theorem discreet_lookUpAll (server : String) (address : Net.SocketAddress) (timeout : Nat)
    (names : List String) : (lookUpAll server address timeout names).Discreet pairing := by
  induction names with
  | nil => exact discreet_pure ()
  | cons name rest ih =>
    exact (discreet_lift (Pass.discreet_put rfl)).bind fun _ =>
      (discreet_ofExcept _).bind fun _ => ih

theorem discreet_run (server : String) (csr : Bytes) (timeout : Nat) :
    (run server csr timeout).Discreet pairing :=
  (discreet_ofExcept _).bind fun _ => (discreet_ofExcept _).bind fun _ => discreet_lookUpAll ..

end NameCheck

namespace CertificateRequest

variable (r : CertificateRequest) (issuer : Issuer) (settings : Settings)

theorem discreet_parent : r.parent.Discreet pairing := by
  unfold parent
  split
  next => exact discreet_pure none
  next name =>
    refine Discreet.bind (discreet_iff.mpr (Pass.discreet_put rfl)) fun found => ?_
    cases found with
    | some parent => exact discreet_pure _
    | none => exact discreet_throw _

theorem discreet_ingressAnnotations (parent : Option Certificate) :
    (r.ingressAnnotations parent).Discreet pairing := by
  unfold ingressAnnotations
  split
  next => exact discreet_pure none
  next name =>
    exact Discreet.bind (discreet_iff.mpr (Pass.discreet_put rfl)) fun _ => discreet_pure _

theorem discreet_send : (r.send issuer settings).Discreet pairing := by
  unfold send
  refine (discreet_ofExcept _).bind fun csr => ?_
  dsimp only
  split
  case' h_1 => refine (NameCheck.discreet_run ..).bind fun _ => ?_
  -- what follows the check of names is the same with a check and without one
  all_goals
    refine r.discreet_parent.bind fun parent =>
      (issuer.twin_openSession settings).bind fun s t h => ?_
    cases parent.bind Certificate.renewalTarget with
    | some id => exact Pki.Session.twin_call h (.renew id csr)
    | none =>
      refine Twin.bind (r.discreet_ingressAnnotations parent) fun ingress _ heq => ?_
      subst heq
      exact Pki.Session.twin_call h (.enroll _)

theorem discreet_submit : (r.submit issuer settings).Discreet pairing := by
  refine (discreet_iff.mp (r.discreet_send issuer settings)).bind fun sent =>
    discreet_time.bind fun now => ?_
  cases sent <;> exact Pass.discreet_done _

theorem discreet_poll (id : String) : (r.poll id issuer settings).Discreet pairing := by
  refine (discreet_iff.mp (issuer.discreet_inquire settings id)).bind fun answer => ?_
  cases answer with
  | error f => exact Pass.discreet_done _
  | ok answer => exact discreet_time.bind fun _ => Pass.discreet_done _

theorem discreet_advance : (r.advance issuer settings).Discreet pairing := by
  unfold advance
  dsimp only
  split
  next => exact discreet_time.bind fun _ => Pass.discreet_done _
  next =>
    split
    next _ id _ => exact r.discreet_poll issuer settings id
    next =>
      split
      next => exact r.discreet_submit issuer settings
      next => exact Pass.discreet_done _

theorem discreet_linkParent : r.linkParent.Discreet pairing := by
  unfold linkParent
  split
  next id name =>
    refine Discreet.bind (discreet_iff.mpr (Pass.discreet_put rfl)) fun found => ?_
    cases found with
    | none => exact discreet_pure ()
    | some parent =>
      dsimp only
      split
      next => exact discreet_iff.mpr (Pass.discreet_put rfl)
      next => exact discreet_pure ()
  next => exact discreet_pure ()

theorem discreet_reflect (outcome : Except Failure Action) :
    (r.reflect outcome).Discreet pairing := by
  cases outcome with
  | ok action => exact Pass.discreet_done _
  | error f => exact discreet_time.bind fun _ => Pass.discreet_done _

theorem discreet_persistOutcome (before : CertificateRequest) (outcome : Except Failure Action) :
    (persistOutcome before r outcome).Discreet pairing :=
  (discreet_lift (r.discreet_reflect outcome)).bind fun after =>
    (discreet_lift (Pass.discreet_put rfl)).bind fun _ =>
      (discreet_lift (discreet_iff.mp after.discreet_linkParent)).bind fun _ =>
        discreet_ofExcept _

theorem discreet_revoke : (r.revoke issuer settings).Discreet pairing := by
  unfold revoke
  split
  next => exact discreet_pure ()
  next _ leaf _ =>
    refine (issuer.twin_openSession settings).bind fun s t h => ?_
    have hcall : Attempt.Twin pairing (· = ·) (lift (Ask.put (.call s (.revoke leaf .unspecified))))
        (lift (Ask.put (.call t (.revoke leaf .unspecified)))) :=
      twin_lift (Pass.twin_called h _)
    refine hcall.bind fun outcome _ heq => ?_
    subst heq
    cases outcome with
    | ok _ => exact discreet_pure ()
    | error e =>
      dsimp only
      split
      next => exact discreet_pure ()
      next => exact discreet_throw _

theorem discreet_finishDeletion : (r.finishDeletion issuer settings).Discreet pairing := by
  unfold finishDeletion
  split
  next => exact discreet_pure ()
  next =>
    split
    next =>
      exact (r.discreet_revoke issuer settings).bind fun _ =>
        discreet_iff.mpr (Pass.discreet_put rfl)
    next => exact discreet_iff.mpr (Pass.discreet_put rfl)

theorem discreet_releaseWithoutIssuer : r.releaseWithoutIssuer.Discreet pairing := by
  unfold releaseWithoutIssuer
  split
  next => exact discreet_pure true
  next =>
    split
    next => exact discreet_pure false
    next =>
      exact Discreet.bind (discreet_iff.mpr (Pass.discreet_put rfl)) fun _ => discreet_pure true

theorem discreet_findIssuer : r.findIssuer.Discreet pairing := by
  refine (discreet_ofExcept _).bind fun scope =>
    Discreet.bind (discreet_iff.mpr (Pass.discreet_put rfl)) fun found => ?_
  cases found with
  | some issuer => exact discreet_pure _
  | none => exact discreet_throw _

theorem discreet_guarded : (r.guarded issuer).Discreet pairing := by
  unfold guarded
  split
  next => exact discreet_iff.mpr (Pass.discreet_put rfl)
  next => exact discreet_pure r

theorem discreet_proceed : (r.proceed issuer settings).Discreet pairing := by
  refine (r.discreet_guarded issuer).bind fun q => ?_
  dsimp only
  split
  next terminal =>
    split
    next => exact (discreet_linkParent _).bind fun _ => discreet_pure _
    next => exact discreet_pure _
  next =>
    exact (discreet_lift (discreet_advance _ issuer settings)).bind fun advanced =>
      discreet_persistOutcome advanced.1 _ advanced.2

theorem discreet_underIssuer : (r.underIssuer settings).Discreet pairing := by
  refine r.discreet_findIssuer.bind fun issuer => ?_
  split
  next => exact discreet_pure _
  next =>
    split
    next => exact (r.discreet_finishDeletion issuer settings).bind fun _ => discreet_pure _
    next => exact r.discreet_proceed issuer settings

theorem discreet_reconcile : (r.reconcile settings).Discreet pairing := by
  unfold reconcile
  split
  next => exact discreet_pure _
  next =>
    split
    next =>
      refine r.discreet_releaseWithoutIssuer.bind fun released => ?_
      cases released with
      | true => exact discreet_pure _
      | false => exact r.discreet_underIssuer settings
    next => exact r.discreet_underIssuer settings

end CertificateRequest

namespace Issuer

theorem discreet_storeIfChanged (before after : Issuer) :
    (storeIfChanged before after).Discreet pairing := by
  unfold storeIfChanged
  split
  next => exact Pass.discreet_done _
  next => exact Pass.discreet_put rfl

theorem discreet_reconcile (i : Issuer) (settings : Settings) :
    (i.reconcile settings).Discreet pairing := by
  unfold reconcile
  split
  next =>
    exact (discreet_lift discreet_time).bind fun _ =>
      Discreet.bind (discreet_iff.mpr (Pass.discreet_put rfl)) fun _ => discreet_pure _
  next =>
    exact (discreet_lift (discreet_iff.mp (i.discreet_probe settings))).bind fun _ =>
      (discreet_lift discreet_time).bind fun _ =>
        (discreet_lift (discreet_storeIfChanged ..)).bind fun _ => discreet_ofExcept _

end Issuer

/-- A pass over a watched object does the same whatever the credentials are. -/
theorem Watched.discreet_reconcile (o : Watched) (settings : Settings) :
    (o.reconcile settings).Discreet pairing := by
  cases o with
  | request r => exact r.discreet_reconcile settings
  | issuer i => exact i.discreet_reconcile settings

end CertBroker
