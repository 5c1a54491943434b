import CertBroker.Proofs.Request.Rounds

namespace CertBroker

open Stored (Answered Served)
open Simulation (World)

/-- How the server answers a write, and what it keeps. -/
def Stored.serve (a : Api.Address) (refuses : Write → Option Failure) :
    Program.Surroundings Write (fun _ => Except Failure CertificateRequest) Stored
  | i, w =>
    match refuses w with
    | some f => (.error f, i)
    | none =>
      if w.address = a then
        let j := Json.mergeMembers i w.change
        match CertificateRequest.ofJson? (.object j) with
        | some r =>
          if Store.addressOf Store.requestKind r.metadata = a then (.ok r, j)
          else (.error (.cluster "unexpected answer"), j)
        | none => (.error (.cluster "unexpected answer"), j)
      else (.error (.cluster "not found"), i)

theorem Stored.answered_serve (a : Api.Address) (refuses : Write → Option Failure) (i : Stored)
    (w : Write) : Answered a i w (i.serve a refuses w).1 (i.serve a refuses w).2 := by
  cases hr : refuses w with
  | some f =>
    simp only [Stored.serve, hr]
    exact .refused f
  | none =>
    simp only [Stored.serve, hr]
    split
    next ha =>
      have happlied : i.Applied w (Json.mergeMembers i w.change) := ⟨fun _ _ => rfl, fun _ _ => rfl⟩
      split
      next r hread =>
        split
        next haddress => exact .applied ha happlied ⟨hread, haddress⟩
        next => exact .lost ha happlied _
      next => exact .lost ha happlied _
    next ha => exact .elsewhere ha _

namespace Stored

variable {a : Api.Address} {others : Stored → Stored → Prop} {α : Type}

theorem served_run (a : Api.Address) (others : Stored → Stored → Prop)
    (refuses : Write → Option Failure)
    (p : Program Write (fun _ => Except Failure CertificateRequest) α) (i : Stored) :
    Served a others i (p.run (Stored.serve a refuses) i).events
      (p.run (Stored.serve a refuses) i).state := by
  induction p generalizing i with
  | done => exact .rest i
  | ask w next ih => exact .write (answered_serve a refuses i w) (ih _ _)

end Stored

/-- What a pass runs against: the object, what was sent so far, and everything else. -/
structure Rehearsal where
  stored : Stored
  sent : List Sent := []
  world : World

namespace Rehearsal

/-- Runs writes against the server, and notes what they send. -/
def perform (a : Api.Address) (refuses : Write → Option Failure) (s : Rehearsal)
    (p : Program Write (fun _ => Except Failure CertificateRequest) α) : α × Rehearsal :=
  let run := p.run (Stored.serve a refuses) s.stored
  (run.value, { s with stored := run.state, sent := s.sent ++ run.events })

/-- Changes of the request go to the server, all other questions to the world. -/
def answer (a : Api.Address) (refuses : Write → Option Failure) : Surroundings Rehearsal :=
  fun s q =>
    match q.writes? with
    | some p => s.perform a refuses p
    | none =>
      let (answer, world) := s.world.answer q
      (answer, { s with world })

/-- What a pass sends to the server is served. -/
theorem run_dispatches (a : Api.Address) (others : Stored → Stored → Prop)
    (refuses : Write → Option Failure) {α : Type} (p : Pass α) (s : Rehearsal) :
    let run := p.run (answer a refuses) s
    ∃ sent, run.state.sent = s.sent ++ sent ∧ Dispatches run.events sent ∧
      Served a others s.stored sent run.state.stored := by
  induction p generalizing s with
  | done => exact ⟨[], by simp [Program.run], .rest, .rest _⟩
  | ask q next ih =>
    simp only [Program.run]
    obtain ⟨sent, hsent, hdispatches, hserved⟩ :=
      ih (answer a refuses s q).1 (answer a refuses s q).2
    cases hp : q.writes? with
    | some p =>
      have hfirst := Stored.served_run a others refuses p s.stored
      have htrace := Program.run_trace (Stored.serve a refuses) p s.stored
      have hanswer : answer a refuses s q = s.perform a refuses p := by rw [answer, hp]
      rw [hanswer] at hsent hdispatches hserved ⊢
      refine ⟨_ ++ sent, ?_, .write hp htrace hdispatches,
        Served.append_iff.mpr ⟨_, hfirst, hserved⟩⟩
      exact hsent.trans (List.append_assoc _ _ _)
    | none =>
      have hanswer : answer a refuses s q =
          ((s.world.answer q).1, { s with world := (s.world.answer q).2 }) := by rw [answer, hp]
      rw [hanswer] at hsent hdispatches hserved ⊢
      exact ⟨sent, hsent, .silent (Ask.changesRequest_of_unwritten hp) hdispatches, hserved⟩

end Rehearsal

/-- A pass that is rehearsed: the settings, the world, and the writes that are refused. -/
structure Rehearsal.Plan where
  settings : Settings := {}
  world : World
  refuses : Write → Option Failure := fun _ => none

/-- Runs passes one after the other, each over the object as it is stored. A pass over an object
that cannot be read, or is somewhere else, does not take place. -/
def rehearse (a : Api.Address) : List Rehearsal.Plan → Stored → List Visit × Stored
  | [], i => ([], i)
  | plan :: rest, i =>
    match CertificateRequest.ofJson? (.object i) with
    | none => rehearse a rest i
    | some r =>
      if Store.addressOf Store.requestKind r.metadata = a then
        let run := (r.reconcile plan.settings).result.run (Rehearsal.answer a plan.refuses)
          { stored := i, world := plan.world }
        let later := rehearse a rest run.state.stored
        (⟨r, run.events, run.state.sent, run.value⟩ :: later.1, later.2)
      else rehearse a rest i

/-- Passes that are rehearsed are a run of passes, whatever others might do. -/
theorem rounds_rehearse (a : Api.Address) (others : Stored → Stored → Prop)
    (plans : List Rehearsal.Plan) (i : Stored) :
    Rounds a others i (rehearse a plans i).1 (rehearse a plans i).2 := by
  induction plans generalizing i with
  | nil => exact .rest i
  | cons plan rest ih =>
    unfold rehearse
    split
    next => exact ih i
    next r hread =>
      split
      next ha =>
        obtain ⟨sent, hsent, hdispatches, hserved⟩ := Rehearsal.run_dispatches a others
          plan.refuses (r.reconcile plan.settings).result { stored := i, world := plan.world }
        refine .pass ⟨hread, ha⟩ (Attempt.run_yields _ _ _) ?_ ?_ (ih _)
        · rw [hsent]
          exact hdispatches
        · rw [hsent]
          exact hserved
      next => exact ih i

namespace Stored

open Json

/-- A request for the issuer of the sample world. -/
def sampleWith (annotations status : List (String × Json)) : Stored :=
  [("metadata", .object [("name", .string "web"), ("namespace", .string "shop"),
      ("annotations", .object annotations)]),
    ("spec", .object [("request", .string "QQ=="),
      ("issuerRef", .object [("name", .string "pki"), ("group", .string groupName)])]),
    ("status", .object status)]

def sample : Stored :=
  sampleWith [] [("conditions",
    .array [.object [("type", .string ConditionType.approved), ("status", .string "True")]])]

def sampleAddress : Api.Address := ⟨Store.requestKind, some "shop", "web"⟩

end Stored

end CertBroker
