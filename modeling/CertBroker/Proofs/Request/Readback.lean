import CertBroker.Proofs.Pass.Growth
import CertBroker.Proofs.Request.Backing

namespace CertBroker

open Stored (Served Applied Retains)

variable {a : Api.Address} {i j k : Stored} {r q current before after : CertificateRequest}
  {settings : Settings} {asked : List Event} {sent : List Sent}
  {outcome : Except Failure Action}

/-- A request with these annotations and this status is read of the object. -/
def Stored.ReadsAs (k : Stored) (a : Api.Address) (annotations : Option (Dict String))
    (s : RequestStatus) : Prop :=
  ∃ read, k.Holds a read ∧ read.metadata.annotations = annotations ∧ read.currentStatus = s

theorem readsAs_of_rest (h : Served a (Retains a) j [] k) (hj : j.Holds a q) :
    k.ReadsAs a q.metadata.annotations q.currentStatus := by
  have hretains := Retains.of_served h
  obtain ⟨read, hread⟩ := hretains.holds ⟨q, hj⟩
  exact ⟨read, hread, hj.annotations_eq hread hretains.annotations,
    hj.currentStatus_of_status hread hretains.status⟩

theorem readsAs_of_status {version : Option String} {answer : Except Failure CertificateRequest}
    (h : Served a (Retains a) j [⟨.status after version, answer⟩] k) (hj : j.Holds a q)
    (ha : (Write.status after version).address = a) (hok : (answer.map fun _ => ()) = .ok ())
    (hgrows : q.currentStatus.Grows after.currentStatus)
    (hne : after.currentStatus.conditions ≠ []) :
    k.ReadsAs a q.metadata.annotations
      { after.currentStatus with ca := after.currentStatus.ca.or j.storedCa } := by
  obtain ⟨written, rfl⟩ : ∃ written, answer = .ok written := by
    cases answer with
    | ok written => exact ⟨written, rfl⟩
    | error => cases hok
  obtain ⟨s, hs⟩ : ∃ s, after.status = some s := by
    cases hs : after.status with
    | some s => exact ⟨s, rfl⟩
    | none => exact absurd (by rw [CertificateRequest.currentStatus, hs]; rfl) hne
  have hcurrent : after.currentStatus = s := by rw [CertificateRequest.currentStatus, hs]; rfl
  rw [hcurrent] at hgrows hne ⊢
  obtain ⟨m, n, hfirst, happlied, hn, hlast⟩ := h.applied_of_ok ha
  obtain ⟨q', hm, hannotations, hstatus⟩ := readsAs_of_rest hfirst hj
  rw [← hstatus] at hgrows
  have hwritten := happlied.readback_of_status hm hn hs (hgrows.timely hm.timely) hne
    hgrows.certificate hgrows.failureTime
  have hkept := hm.annotations_eq hn
    (happlied.member?_metadata (by simp [Stored.serverKept]) (by simp [Write.noted]))
  obtain ⟨read, hread, hannotations', hstatus'⟩ := readsAs_of_rest hlast hn
  refine ⟨read, hread, hannotations'.trans (hkept.trans hannotations), ?_⟩
  rw [hstatus', hwritten, (Retains.of_served hfirst).storedCa_eq]

/-- Annotations are written and read back, and the status is not touched. -/
theorem readsAs_of_annotations {written : CertificateRequest}
    (h : Served a (Retains a) j (⟨.annotations after, .ok written⟩ :: sent) k) (hj : j.Holds a q)
    (ha : (Write.annotations after).address = a)
    (hsome : after.metadata.annotations.isSome = true)
    (hkeys : q.metadata.KeepsKeys after.metadata) :
    ∃ n, Served a (Retains a) n sent k ∧ n.Holds a written ∧ n.storedCa = j.storedCa ∧
      written.metadata.annotations = after.metadata.annotations ∧
      written.currentStatus = q.currentStatus := by
  obtain ⟨m, n, hfirst, happlied, hn, hlast⟩ := h.applied_of_ok ha
  have hretains := Retains.of_served hfirst
  obtain ⟨q', hm, hannotations, hstatus⟩ := readsAs_of_rest hfirst hj
  have hkeys' : q'.metadata.KeepsKeys after.metadata := by
    intro key hkey
    rw [Metadata.annotation?, hannotations] at hkey
    exact hkeys key hkey
  have hkept := happlied.status?_eq rfl
  exact ⟨n, hlast, hn, (Stored.storedCa_eq_of_status hkept).trans hretains.storedCa_eq,
    happlied.readback_of_annotations hm hn hsome hkeys',
    (hm.currentStatus_of_status hn hkept).trans hstatus⟩

theorem readsAs_of_stores (h : Stores current.withStatus after sent (.ok ()))
    (hj : j.Holds a current) (hmarks : current.metadata.Marks after.metadata)
    (hgrows : current.withStatus.Grows after)
    (hne : current.withStatus.status = after.status ∨ after.currentStatus.conditions ≠ [])
    (hs : Served a (Retains a) j sent k) :
    k.ReadsAs a after.metadata.annotations
      { after.currentStatus with ca := after.currentStatus.ca.or j.storedCa } := by
  have haddress : Store.addressOf Store.requestKind after.metadata = a :=
    (hmarks.address _).trans hj.address
  have hunchanged (hsame : current.withStatus.status = after.status) :
      { after.currentStatus with ca := after.currentStatus.ca.or j.storedCa } =
        current.currentStatus := by
    have hcurrent : after.currentStatus = current.currentStatus := by
      rw [CertificateRequest.currentStatus, ← hsame]
      rfl
    rw [hcurrent]
    exact hj.ca_or_storedCa id
  generalize hstored : (Except.ok () : Except Failure Unit) = stored at h
  cases h with
  | nothing ha hsame =>
    rw [← ha, hunchanged hsame]
    exact readsAs_of_rest (q := current) hs hj
  | status ha hdiffers answer =>
    rw [← ha]
    exact readsAs_of_status (q := current) hs hj haddress hstored.symm hgrows.status
      (hne.resolve_left hdiffers)
  | failed => cases hstored
  | annotations hchanged hsame written =>
    obtain ⟨n, hlast, hn, -, hannotations, hstatus⟩ :=
      readsAs_of_annotations hs hj haddress (hmarks.isSome_annotations hchanged) hgrows.annotations
    rw [hunchanged hsame, ← hannotations, ← hstatus]
    exact readsAs_of_rest hlast hn
  | both hchanged hdiffers written answer =>
    obtain ⟨n, hlast, hn, hca, hannotations, hstatus⟩ :=
      readsAs_of_annotations hs hj haddress (hmarks.isSome_annotations hchanged) hgrows.annotations
    rw [← hannotations, ← hca]
    exact readsAs_of_status hlast hn haddress hstored.symm (hstatus ▸ hgrows.status)
      (hne.resolve_left hdiffers)

/-- The certificate and the CA are those of one answer of the PKI. -/
structure RequestStatus.TakenOf (s : RequestStatus) (c : Pki.IssuedCertificate) : Prop where
  certificate : s.certificate =
    some (Base64.encode (Utf8.encode (TrustChain.buildOrLeaf c.pem).certificate))
  ca : s.ca = ((TrustChain.buildOrLeaf c.pem).ca.map Utf8.encode).map Base64.encode

/-- The certificate and the CA are both kept, or both taken of one answer of the PKI. -/
def RequestStatus.Pairs (s t : RequestStatus) (asked : List Event) : Prop :=
  (t.certificate = s.certificate ∧ t.ca = s.ca) ∨ ∃ c ∈ delivered asked, t.TakenOf c

namespace CertificateRequest

theorem Becomes.pairs (h : before.Becomes asked after) :
    before.currentStatus.Pairs after.currentStatus asked := by
  cases h with
  | kept => exact .inl ⟨rfl, rfl⟩
  | denied => exact .inl ⟨rfl, rfl⟩
  | refused => exact .inl ⟨rfl, rfl⟩
  | accepted _ hc => exact .inr ⟨_, hc, rfl, rfl⟩
  | submitted => exact .inl ⟨rfl, rfl⟩
  | invalid => exact .inl ⟨rfl, rfl⟩

/-- Noting a failure leaves the certificate and the CA as they are. -/
theorem Reflects.pairs {noted : List Event} (h : current.Reflects outcome noted after)
    (hp : before.currentStatus.Pairs current.currentStatus asked) :
    before.currentStatus.Pairs after.currentStatus asked := by
  cases h with
  | kept => exact hp
  | failed f now =>
    have hstatus : (current.updateStatus fun s => s.applyFailure f now).currentStatus =
        current.currentStatus.applyFailure f now := rfl
    rw [hstatus, RequestStatus.applyFailure]
    rcases hp with hkept | ⟨c, hc, htaken⟩
    · split
      next => exact .inl hkept
      next => exact .inl hkept
    · split
      next => exact .inr ⟨c, hc, htaken.certificate, htaken.ca⟩
      next => exact .inr ⟨c, hc, htaken.certificate, htaken.ca⟩

end CertificateRequest

theorem RequestStatus.Pairs.mono {s t : RequestStatus} {first : List Event}
    (h : s.Pairs t first) (hsub : first ⊆ asked) : s.Pairs t asked := by
  rcases h with hkept | ⟨c, hc, htaken⟩
  · exact .inl hkept
  · exact .inr ⟨c, List.filterMap_subset _ hsub hc, htaken⟩

/-- After a pass has stored a request well, while others leave its annotations and its status
alone, the annotations that are read back are those that were stored, and so is the status, but for
a CA that the pass dropped: the stored one stays. If there is no such CA, the certificate and the
CA that are read back were both read before, or are both of one answer of the PKI. -/
theorem readback_of_pass (hr : i.Holds a r) (hy : (r.reconcile settings).Yields asked outcome)
    (ht : Timed asked)
    (hm : (⟨.storeRequest before after, .ok ()⟩ : Event) ∈ asked)
    (hd : Dispatches asked sent) (hs : Served a (Retains a) i sent k) :
    ∃ read, k.Holds a read ∧ read.metadata.annotations = after.metadata.annotations ∧
      read.currentStatus =
        { after.currentStatus with ca := after.currentStatus.ca.or i.storedCa } ∧
      ((before.currentStatus.ca.isSome = true → after.currentStatus.ca.isSome = true) →
        read.currentStatus = after.currentStatus ∧
          before.currentStatus.Pairs read.currentStatus asked) := by
  obtain ⟨seeking, guarding, advancing, noted, linking, issuer, current, moved, result, linked,
    henters, ha, hreflects, hl, rfl, rfl⟩ := CertificateRequest.works_of_stored hy hm
  obtain ⟨j, guarded, later, rfl, -, hrest, hj, -, hserved, hinv⟩ :=
    guarded_of_served hr henters.seeks.quiet.silent henters.guards hd hs
  have hstatus : j.status? = i.status? :=
    hinv (fun j => j.status? = i.status?) (fun _ _ ho hi => ho.status.trans hi)
      (fun _ _ happ hi => (happ.status?_eq rfl).trans hi) rfl
  have hca := Stored.storedCa_eq_of_status hstatus
  have hstores :=
    ((hrest.drop_silent ha.silent).drop_silent hreflects.quiet.silent).of_store hl.quiet.silent
  have hgrows : current.withStatus.Grows after :=
    (ha.grows (ht.mono fun e he => by simp [he])).trans
      (hreflects.grows (ht.mono fun e he => by simp [he]))
  have hmarks : current.withStatus.metadata.Marks after.metadata := by
    rw [hreflects.metadata]
    exact ha.marks
  have hconditions : current.withStatus.status = after.status ∨
      after.currentStatus.conditions ≠ [] := by
    rcases hreflects.eq_or_conditions with rfl | hne
    · exact ha.becomes.eq_or_conditions.imp_left fun heq => (congrArg _ heq).symm
    · exact .inr hne
  obtain ⟨read, hread, hannotations, hwritten⟩ :=
    readsAs_of_stores hstores hj hmarks hgrows hconditions hserved
  rw [hca] at hwritten
  refine ⟨read, hread, hannotations, hwritten, fun hkept => ?_⟩
  have hsame : read.currentStatus = after.currentStatus := by
    rw [hwritten, ← hca]
    exact hj.ca_or_storedCa hkept
  refine ⟨hsame, ?_⟩
  rw [hsame]
  exact (hreflects.pairs ha.becomes.pairs).mono fun e he => by simp [he]

namespace Stored

/-- A request that was submitted, and may hold a CA already. -/
def sampleHeld (ca : List (String × Json)) : Stored :=
  sampleWith (Json.member Annotation.requestId (.string "req-1"))
    (("conditions", .array [.object [("type", .string ConditionType.approved),
      ("status", .string "True")]]) :: ca)

end Stored

open Stored (sampleAddress sampleHeld)

/-- A pass over a request as it is stored, while the PKI has issued a certificate without a root. -/
def sampleStoring (ca : List (String × Json)) (r : CertificateRequest) :
    Program.Run Ask Ask.Answer (Except Failure Action) Rehearsal :=
  (r.reconcile {}).result.run (Rehearsal.answer sampleAddress fun _ => none)
    { stored := sampleHeld ca
      world := { Simulation.World.sample with
        pki := ({} : Pki.InMemory).setRequest
          { id := "req-1", status := .completed, certificate := some ⟨"cert-9", "leaf"⟩ } } }

/-- The request as a pass found and as it stored it, if the write was answered well. -/
def storedWell? : Event → Option (CertificateRequest × CertificateRequest)
  | ⟨.storeRequest before after, .ok ()⟩ => some (before, after)
  | _ => none

theorem eq_of_storedWell? {e : Event} (h : storedWell? e = some (before, after)) :
    e = ⟨.storeRequest before after, .ok ()⟩ := by
  unfold storedWell? at h
  split at h
  next =>
    cases h
    rfl
  next => cases h

theorem readback_of_rootless :
    let run := sampleStoring [] CertificateRequest.sampleSubmitted
    (sampleHeld []).Holds sampleAddress CertificateRequest.sampleSubmitted ∧ Timed run.events ∧
      ∃ before after sent read, (⟨.storeRequest before after, .ok ()⟩ : Event) ∈ run.events ∧
        Dispatches run.events sent ∧
        Served sampleAddress (Retains sampleAddress) (sampleHeld []) sent run.state.stored ∧
        run.state.stored.Holds sampleAddress read ∧
        read.metadata.annotations = after.metadata.annotations ∧
        read.currentStatus = after.currentStatus ∧
        before.currentStatus.Pairs read.currentStatus run.events := by
  intro run
  have hholds : (sampleHeld []).Holds sampleAddress CertificateRequest.sampleSubmitted :=
    ⟨by decide +kernel, by decide +kernel⟩
  have htimed : Timed run.events := by
    have hreadings : run.events.filterMap reading? = [⟨0, 0, 0⟩] := by decide +kernel
    rw [Timed, hreadings]
    intro t ht
    cases List.mem_singleton.mp ht
    exact ⟨by decide, by decide, by decide⟩
  have hstored : (run.events.filterMap storedWell?).map (fun p => p.1.currentStatus.ca) =
      [none] := by decide +kernel
  obtain ⟨⟨before, after⟩, hpair, hnone⟩ := List.map_eq_singleton_iff.mp hstored
  have hmem : (before, after) ∈ run.events.filterMap storedWell? := by simp [hpair]
  obtain ⟨e, he, hread⟩ := List.mem_filterMap.mp hmem
  cases eq_of_storedWell? hread
  obtain ⟨sent, -, hdispatches, hserved⟩ := Rehearsal.run_dispatches sampleAddress
    (Retains sampleAddress) (fun _ => none) _ _
  obtain ⟨read, hheld, hannotations, -, hsame⟩ :=
    readback_of_pass hholds (Attempt.run_yields _ _ _) htimed he hdispatches hserved
  obtain ⟨hstatus, hpairs⟩ := hsame (by simp [hnone])
  exact ⟨hholds, htimed, before, after, sent, read, he, hdispatches, hserved, hheld, hannotations,
    hstatus, hpairs⟩

/-- The PKI's answer has no CA, and the pass drops the one of the request. All writes are answered
well, and yet the former CA stands beside the new certificate. -/
theorem storedCa_of_rootless :
    let held := CertificateRequest.sampleSubmitted.updateStatus fun s =>
      { s with ca := some "T0xE" }
    let run := sampleStoring [("ca", .string "T0xE")] held
    (sampleHeld [("ca", .string "T0xE")]).Holds sampleAddress held ∧
      run.state.sent.map (fun e => e.answer.isOk) = [true, true, true] ∧
      (run.events.filterMap storedWell?).map (fun p => (p.1.currentStatus.ca,
        p.2.currentStatus.certificate, p.2.currentStatus.ca)) =
          [(some "T0xE", some "bGVhZg==", none)] ∧
      (CertificateRequest.ofJson? (.object run.state.stored)).map (fun read =>
        (read.currentStatus.certificate, read.currentStatus.ca)) =
          some (some "bGVhZg==", some "T0xE") :=
  ⟨⟨by decide +kernel, by decide +kernel⟩, by decide +kernel, by decide +kernel, by decide +kernel⟩

end CertBroker
