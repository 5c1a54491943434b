import CertBroker.Proofs.Request.Lineage

namespace CertBroker

open Simulation (World)
open Objects (ofWorld)

variable {o mid o' : Objects}

/-- Runs of passes over the requests, in any order. -/
inductive Turns : Objects → List Turn → Objects → Prop
  | rest (o : Objects) : Turns o [] o
  | pass {o mid o' : Objects} {key : String} {r : CertificateRequest} {settings : Settings}
      {asked : List Event} {outcome : Except Failure Action} {turns : List Turn}
      (hr : o.requests key = some r) (hy : (r.reconcile settings).Yields asked outcome)
      (ha : o.Answers asked mid) (h : Turns mid turns o') :
      Turns o (⟨r, asked, outcome⟩ :: turns) o'

/-- The last of some passes that ended at a parent. -/
def lastAt? (turns : List Turn) (parent : String) : Option Turn :=
  (turns.filter fun t => t.parent? = some parent).getLast?

theorem lastAt?_cons (t : Turn) (turns : List Turn) (parent : String) :
    lastAt? (t :: turns) parent =
      (lastAt? turns parent).or (if t.parent? = some parent then some t else none) := by
  rw [lastAt?, List.filter_cons, lastAt?]
  by_cases ht : t.parent? = some parent
  · rw [if_pos (by simpa using ht), if_pos ht, List.getLast?_cons]
    cases (turns.filter fun t => t.parent? = some parent).getLast? <;> rfl
  · rw [if_neg (by simpa using ht), if_neg ht, Option.or_none]

namespace Turns

variable {turns : List Turn} {t : Turn} {parent : String}

/-- One pass, and the run that is left. -/
theorem of_cons (h : Turns o (t :: turns) o') (ho : o.Orderly) :
    ∃ mid settings, o.requests t.key = some t.request ∧
      t.request.Courses settings t.asked t.outcome ∧ o.Answers t.asked mid ∧
      Turns mid turns o' := by
  cases h with
  | @pass _ mid _ key r settings _ _ _ hr hy ha h =>
    have hkey : r.metadata.key = key := (ho.request key r hr).1
    rw [← hkey] at hr
    exact ⟨mid, settings, hr, CertificateRequest.courses_of_yields hy, ha, h⟩

theorem moves (h : Turns o (t :: turns) o') (ho : o.Orderly) :
    ∃ mid, t.Moves o mid ∧ Turns mid turns o' := by
  obtain ⟨mid, settings, hr, hc, ha, hrest⟩ := h.of_cons ho
  exact ⟨mid, Turn.moves_of_course ho hr hc ha, hrest⟩

/-- Every pass of a run that leaves its request issued, and ends well, ends at the parent. -/
theorem parent?_of_issued (h : Turns o turns o') (ho : o.Orderly)
    (hparent : (o.certificates parent).isSome = true) :
    ∀ t ∈ turns, t.Issued parent → t.parent? = some parent := by
  induction turns generalizing o with
  | nil =>
    intro t ht
    cases ht
  | cons first turns ih =>
    obtain ⟨mid, settings, hr, hc, ha, hrest⟩ := h.of_cons ho
    have horderly := (Turn.moves_of_course ho hr hc ha).orderly
    intro t ht hi
    rcases List.mem_cons.mp ht with rfl | ht
    · exact Turn.parent?_of_issued ho hr hc ha hi hparent
    · exact ih hrest horderly (ha.isSome_certificates hparent) t ht hi

end Turns

theorem Turn.Moves.holds {t : Turn} {key id : String} (h : t.Moves o o') (hid : o.Holds key id) :
    o'.Holds key id := by
  by_cases hkey : key = t.key
  · rw [hkey] at hid ⊢
    exact h.issued id hid
  · obtain ⟨r, hr, hrest⟩ := hid
    exact ⟨r, (h.others key hkey).trans hr, hrest⟩

theorem Turns.holds {turns : List Turn} {key id : String} (h : Turns o turns o') (ho : o.Orderly)
    (hid : o.Holds key id) : o'.Holds key id := by
  induction turns generalizing o with
  | nil =>
    cases h
    exact hid
  | cons t turns ih =>
    obtain ⟨mid, hmoves, hrest⟩ := h.moves ho
    exact ih hrest hmoves.orderly (hmoves.holds hid)

theorem Objects.Holds.lastId?_eq_iff {parent key id : String} (h : o.Holds key id)
    (hlast : o.lastId? parent = some id) (hd : o.Distinct) (other : String) :
    o.lastId? parent = o.idAt? other ↔ other = key := by
  obtain ⟨r, hr, -, -, hid⟩ := h
  have hat : o.idAt? key = some id := by rw [Objects.idAt?, hr, Option.bind_some, hid]
  rw [hlast]
  constructor
  · intro hother
    exact hd other key id hother.symm hat
  · rintro rfl
    exact hat.symm

namespace Simulation.World

open Objects (ofWorld)

/-- Passes over the requests under these keys, one after the other. -/
def tour (settings : Settings) : List String → World → List Turn × World
  | [], w => ([], w)
  | key :: rest, w =>
    match w.requests.get? key with
    | none => tour settings rest w
    | some r =>
      let run := (r.reconcile settings).result.run answer w
      let later := tour settings rest run.state
      (⟨r, run.events, run.value⟩ :: later.1, later.2)

theorem turns_tour (settings : Settings) (keys : List String) {w : World} (h : w.failing = []) :
    Turns (ofWorld w) (tour settings keys w).1 (ofWorld (tour settings keys w).2) := by
  induction keys generalizing w with
  | nil => exact .rest _
  | cons key rest ih =>
    unfold tour
    split
    next => exact ih h
    next r hr =>
      obtain ⟨hanswers, hfine⟩ := Objects.answers_run (r.reconcile settings).result h
      exact .pass hr (Attempt.run_yields answer _ w) hanswers (ih hfine)

def sampleRevision (name id : String) : CertificateRequest where
  metadata := {
    name := some name, ns := some "shop"
    annotations := some ((Dict.empty.insert Annotation.requestId id).insert
      Annotation.certificateName "web-tls") }
  spec := { request := "QQ==", issuerRef := ⟨"pki", none, some groupName⟩ }
  status := some { conditions := [⟨ConditionType.approved, .yes, none, none, none⟩] }

/-- Two revisions of a Certificate; the PKI has issued a certificate for each. -/
def sampleRevisions : World :=
  let completed (id certificate : String) : Pki.Request :=
    { id, status := .completed, certificate := some ⟨certificate, "leaf"⟩ }
  { (sample.putRequest (sampleRevision "web-1" "req-1")).putRequest
      (sampleRevision "web-2" "req-2") with
    pki := (({} : Pki.InMemory).setRequest (completed "req-1" "cert-1")).setRequest
      (completed "req-2" "cert-2") }

theorem orderly_sampleRevisions : (ofWorld sampleRevisions).Orderly :=
  Objects.orderly_ofWorld (by decide +kernel) (by decide +kernel)

end Simulation.World

/-- The last certificate id of a parent stays until a pass ends at it, and then is that of the
request whose pass was the last to do so. -/
theorem Turns.lastId?_eq {turns : List Turn} {parent : String} (h : Turns o turns o')
    (ho : o.Orderly) : (lastAt? turns parent = none → o'.lastId? parent = o.lastId? parent) ∧
      ∀ t, lastAt? turns parent = some t →
        ∃ id, o'.Holds t.key id ∧ o'.lastId? parent = some id := by
  induction turns generalizing o with
  | nil =>
    cases h
    refine ⟨fun _ => rfl, fun t ht => ?_⟩
    cases ht
  | cons first turns ih =>
    obtain ⟨mid, hmoves, hrest⟩ := h.moves ho
    obtain ⟨hkept, hlast⟩ := ih hrest hmoves.orderly
    rw [lastAt?_cons]
    cases hat : lastAt? turns parent with
    | some t => simpa [hat] using hlast t hat
    | none =>
      -- No later pass ends at the parent, so what this one leaves there stays to the end.
      rw [Option.none_or]
      by_cases hparent : first.parent? = some parent
      · rw [if_pos hparent]
        refine ⟨fun hnone => ?_, fun t ht => ?_⟩
        · cases hnone
        cases ht
        obtain ⟨id, hid, hmid⟩ := hmoves.linked parent hparent
        exact ⟨id, hrest.holds hmoves.orderly hid, (hkept hat).trans hmid⟩
      · rw [if_neg hparent]
        refine ⟨fun _ => (hkept hat).trans (hmoves.parents parent hparent), fun t ht => ?_⟩
        cases ht

/-- Over every run of passes in which no write fails, a pass that leaves its request issued and
ends well ends at the parent, and the last certificate id of the parent is that of the request
whose pass was the last to end there. So of requests with different certificate ids, the one that
was issued last has the id of the parent only if it was passed over last, too. -/
theorem lastId_of_turns {turns : List Turn} (ho : o.Orderly) (h : Turns o turns o')
    (parent : String) (hparent : (o.certificates parent).isSome = true) :
    (∀ t ∈ turns, t.Issued parent → t.parent? = some parent) ∧
    (lastAt? turns parent = none → o'.lastId? parent = o.lastId? parent) ∧
      ∀ t, lastAt? turns parent = some t →
        ∃ id, o'.Holds t.key id ∧ o'.lastId? parent = some id ∧
          (o'.Distinct → ∀ key, o'.lastId? parent = o'.idAt? key ↔ key = t.key) := by
  obtain ⟨hnone, hsome⟩ := h.lastId?_eq ho
  refine ⟨h.parent?_of_issued ho hparent, hnone, fun t ht => ?_⟩
  obtain ⟨id, hid, hlast⟩ := hsome t ht
  exact ⟨id, hid, hlast, fun hd => hid.lastId?_eq_iff hlast hd⟩

theorem lastId_of_revisions :
    let run := World.tour {} ["shop/web-1", "shop/web-2"] .sampleRevisions
    (ofWorld .sampleRevisions).Orderly ∧ Turns (ofWorld .sampleRevisions) run.1 (ofWorld run.2) ∧
      ((ofWorld .sampleRevisions).certificates "shop/web-tls").isSome = true ∧
      (ofWorld run.2).Distinct ∧
      (lastAt? run.1 "shop/web-tls").map Turn.key = some "shop/web-2" ∧
      ∀ key, (ofWorld run.2).lastId? "shop/web-tls" = (ofWorld run.2).idAt? key ↔
        key = "shop/web-2" := by
  intro run
  have hrun : Turns (ofWorld .sampleRevisions) run.1 (ofWorld run.2) := World.turns_tour _ _ rfl
  have hdistinct : (ofWorld run.2).Distinct := Objects.distinct_ofWorld (by decide +kernel)
  have hlast : (lastAt? run.1 "shop/web-tls").map Turn.key = some "shop/web-2" := by
    decide +kernel
  obtain ⟨t, ht, hkey⟩ := Option.map_eq_some_iff.mp hlast
  have hparent : ((ofWorld .sampleRevisions).certificates "shop/web-tls").isSome = true := by
    decide +kernel
  obtain ⟨-, -, hreached⟩ :=
    lastId_of_turns World.orderly_sampleRevisions hrun "shop/web-tls" hparent
  obtain ⟨id, -, -, hiff⟩ := hreached t ht
  refine ⟨World.orderly_sampleRevisions, hrun, hparent, hdistinct, hlast, ?_⟩
  rw [← hkey]
  exact hiff hdistinct

/-- A pass over the first revision again, after the second was issued, links the parent back. -/
theorem lastId_of_repeated :
    let run := World.tour {} ["shop/web-1", "shop/web-2", "shop/web-1"] .sampleRevisions
    Turns (ofWorld .sampleRevisions) run.1 (ofWorld run.2) ∧ (ofWorld run.2).Distinct ∧
      (run.1.filter fun t => t.asked.any CertificateRequest.storesReady).map Turn.key =
        ["shop/web-1", "shop/web-2"] ∧
      (ofWorld run.2).idAt? "shop/web-2" = some "cert-2" ∧
      (ofWorld run.2).lastId? "shop/web-tls" = some "cert-1" := by
  refine ⟨World.turns_tour _ _ rfl, Objects.distinct_ofWorld ?_, ?_, ?_, ?_⟩
  · decide +kernel
  · decide +kernel
  · decide +kernel
  · decide +kernel

end CertBroker
