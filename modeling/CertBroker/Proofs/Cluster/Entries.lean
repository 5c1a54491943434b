import CertBroker.Proofs.Cluster.Ledger

namespace CertBroker

/-- An entry to be made in the ledger of an object. -/
inductive LedgerEntry where
  | requestId (id : String)
  | certificateId (id : String)
  | lastCertificateId (id : String)
deriving DecidableEq

namespace LedgerEntry

/-- The annotation that the entry is made in. -/
def key : LedgerEntry → String
  | .requestId _ => Annotation.requestId
  | .certificateId _ => Annotation.certificateId
  | .lastCertificateId _ => Annotation.lastCertificateId

def id : LedgerEntry → String
  | .requestId id => id
  | .certificateId id => id
  | .lastCertificateId id => id

/-- The id that an entry brings to an annotation, if any: an empty id is none. -/
def idUnder? (key : String) (e : LedgerEntry) : Option String :=
  if e.key = key ∧ e.id ≠ "" then some e.id else none

theorem idUnder?_key {e : LedgerEntry} (h : e.id ≠ "") : e.idUnder? e.key = some e.id :=
  if_pos ⟨rfl, h⟩

theorem idUnder?_of_ne {key : String} {e : LedgerEntry} (h : e.key ≠ key) :
    e.idUnder? key = none :=
  if_neg fun he => h he.1

theorem idUnder?_of_empty {e : LedgerEntry} (h : e.id = "") (key : String) :
    e.idUnder? key = none :=
  if_neg fun he => he.2 h

end LedgerEntry

namespace Metadata

variable {m : Metadata} {e : LedgerEntry}

/-- Makes an entry, and says whether that changed anything. -/
def record (m : Metadata) : LedgerEntry → Metadata × Bool
  | .requestId id => m.recordRequestId id
  | .certificateId id => m.recordCertificateId id
  | .lastCertificateId id => m.linkLastCertificateId id

def recordAll (m : Metadata) (entries : List LedgerEntry) : Metadata :=
  entries.foldl (fun m e => (m.record e).1) m

/-- The ids that entries bring to an annotation, in their order. -/
def idsUnder (key : String) (entries : List LedgerEntry) : List String :=
  entries.filterMap (·.idUnder? key)

theorem idsUnder_cons (key : String) (e : LedgerEntry) (entries : List LedgerEntry) :
    idsUnder key (e :: entries) = (e.idUnder? key).toList ++ idsUnder key entries := by
  rw [idsUnder, List.filterMap_cons, ← idsUnder]
  cases e.idUnder? key <;> rfl

theorem annotate_told (m : Metadata) (key value : String) :
    (m.annotate key value).2 = true ↔ (m.annotate key value).1 ≠ m := by
  by_cases hsame : (m.annotations.getD .empty).get? key = some value
  · rw [annotate, if_pos hsame]
    obtain ⟨annotations, hsome⟩ : ∃ annotations, m.annotations = some annotations := by
      cases hm : m.annotations with
      | none =>
        rw [hm] at hsame
        cases hsame
      | some annotations => exact ⟨annotations, rfl⟩
    have hrest : { m with annotations := some (m.annotations.getD .empty) } = m := by
      cases m
      cases hsome
      rfl
    simp [hrest]
  · have hwritten : (m.annotate key value).1.annotation? key = some value := by
      rw [annotation?_annotate, if_pos rfl]
    have hchanged : (m.annotate key value).1 ≠ m := by
      intro heq
      rw [heq] at hwritten
      exact hsame ((get?_annotations m key).trans hwritten)
    have htold : (m.annotate key value).2 = true := by rw [annotate, if_neg hsame]
    exact iff_of_true htold hchanged

/-- Whether an entry is passed over: its id is empty, or it is a request id and there is one. -/
def ignores (m : Metadata) (e : LedgerEntry) : Bool :=
  e.id.isEmpty || (e.key = Annotation.requestId && m.requestId?.isSome)

theorem record_eq (m : Metadata) (e : LedgerEntry) :
    m.record e = if m.ignores e then (m, false) else m.annotate e.key e.id := by
  cases e with
  | requestId id => simp [record, recordRequestId, ignores, LedgerEntry.key, LedgerEntry.id]
  | certificateId id =>
    have hkey : Annotation.certificateId ≠ Annotation.requestId := by decide
    simp [record, recordCertificateId, ignores, LedgerEntry.key, LedgerEntry.id, hkey]
  | lastCertificateId id =>
    have hkey : Annotation.lastCertificateId ≠ Annotation.requestId := by decide
    simp [record, linkLastCertificateId, ignores, LedgerEntry.key, LedgerEntry.id, hkey]

/-- An entry is passed over or written in its annotation. -/
theorem record_cases (m : Metadata) (e : LedgerEntry) :
    m.ignores e = true ∧ m.record e = (m, false)
      ∨ m.ignores e = false ∧ m.record e = m.annotate e.key e.id := by
  rw [record_eq]
  cases m.ignores e <;> simp

theorem id_ne_empty_of_ignores (h : m.ignores e = false) : e.id ≠ "" := by
  simpa using (Bool.or_eq_false_iff.mp h).1

/-- What is read in an annotation other than that of the request id is the id of the entry, if it
brings one. -/
theorem entry?_record {key : String} (hkey : key ≠ Annotation.requestId) (m : Metadata)
    (e : LedgerEntry) : entry? (m.record e).1 key = (e.idUnder? key).or (m.entry? key) := by
  rcases m.record_cases e with ⟨hignores, hrecord⟩ | ⟨hignores, hrecord⟩
  · have hnone : e.idUnder? key = none := by
      by_cases hown : e.key = key
      · have hid : e.id = "" := by simpa [ignores, hown, hkey] using hignores
        exact LedgerEntry.idUnder?_of_empty hid key
      · exact LedgerEntry.idUnder?_of_ne hown
    rw [hrecord, hnone, Option.none_or]
  · rw [hrecord]
    by_cases hown : e.key = key
    · subst hown
      have hid := id_ne_empty_of_ignores hignores
      rw [entry?_annotate_self hid, LedgerEntry.idUnder?_key hid, Option.some_or]
    · rw [entry?_annotate_of_ne hown, LedgerEntry.idUnder?_of_ne hown, Option.none_or]

/-- A request id is read if there was none. -/
theorem requestId?_record (m : Metadata) (e : LedgerEntry) :
    (m.record e).1.requestId? = m.requestId?.or (e.idUnder? Annotation.requestId) := by
  rcases m.record_cases e with ⟨hignores, hrecord⟩ | ⟨hignores, hrecord⟩
  · rw [hrecord]
    cases hread : m.requestId? with
    | some id => rfl
    | none =>
      have hid : e.id = "" := by simpa [ignores, hread] using hignores
      rw [LedgerEntry.idUnder?_of_empty hid, Option.none_or]
  · rw [hrecord]
    have hid := id_ne_empty_of_ignores hignores
    by_cases hown : e.key = Annotation.requestId
    · have hread : m.requestId? = none := by simpa [ignores, hown, hid] using hignores
      rw [hread, ← hown, LedgerEntry.idUnder?_key hid, Option.none_or, requestId?, ← hown]
      exact entry?_annotate_self hid m e.key
    · rw [LedgerEntry.idUnder?_of_ne hown, Option.or_none]
      exact entry?_annotate_of_ne hown m e.id

/-- What an entry does to the metadata: it says whether it changed them, no annotation is removed,
none but its own is touched, and nothing else is. -/
structure Admits (m : Metadata) (e : LedgerEntry) : Prop where
  told : (m.record e).2 = true ↔ (m.record e).1 ≠ m
  kept : m.KeepsKeys (m.record e).1
  others : ∀ key, key ≠ e.key → (m.record e).1.annotation? key = m.annotation? key
  rest : ∃ annotations, (m.record e).1 = { m with annotations }

theorem admits (m : Metadata) (e : LedgerEntry) : m.Admits e := by
  rcases m.record_cases e with ⟨-, hrecord⟩ | ⟨-, hrecord⟩
  · exact ⟨by simp [hrecord], fun _ h => hrecord ▸ h, by simp [hrecord], m.annotations,
      by rw [hrecord]⟩
  · refine ⟨?_, ?_, fun key hkey => ?_, ?_⟩
    · rw [hrecord]
      exact annotate_told m e.key e.id
    · rw [hrecord]
      exact keepsKeys_annotate m e.key e.id
    · rw [hrecord, annotation?_annotate, if_neg (Ne.symm hkey)]
    · rw [hrecord]
      exact annotate_eq m e.key e.id

theorem recordAll_append (m : Metadata) (first second : List LedgerEntry) :
    m.recordAll (first ++ second) = (m.recordAll first).recordAll second :=
  List.foldl_append

theorem entry?_recordAll {key : String} (hkey : key ≠ Annotation.requestId) (m : Metadata)
    (entries : List LedgerEntry) :
    entry? (m.recordAll entries) key = (idsUnder key entries).getLast?.or (m.entry? key) := by
  induction entries generalizing m with
  | nil => rfl
  | cons e entries ih =>
    have hstep : entry? (m.recordAll (e :: entries)) key =
        (idsUnder key entries).getLast?.or ((e.idUnder? key).or (m.entry? key)) := by
      rw [← entry?_record hkey]
      exact ih (m.record e).1
    rw [hstep, idsUnder_cons, List.getLast?_append, Option.or_assoc]
    cases e.idUnder? key <;> rfl

theorem requestId?_recordAll (m : Metadata) (entries : List LedgerEntry) :
    (m.recordAll entries).requestId? =
      m.requestId?.or (idsUnder Annotation.requestId entries).head? := by
  induction entries generalizing m with
  | nil => exact (Option.or_none ..).symm
  | cons e entries ih =>
    have hstep : (m.recordAll (e :: entries)).requestId? =
        (m.requestId?.or (e.idUnder? Annotation.requestId)).or
          (idsUnder Annotation.requestId entries).head? := by
      rw [← requestId?_record]
      exact ih (m.record e).1
    rw [hstep, Option.or_assoc, idsUnder_cons, List.head?_append]
    cases e.idUnder? Annotation.requestId <;> rfl

/-- After any entries the request id is the one that was there, or the first that was entered, and
it stays; the ids of the certificate and of the last certificate are the latest that were entered,
or those that were there. Each entry says whether it changed the metadata, and touches nothing but
its annotation. -/
theorem ledger_of_entries (m : Metadata) (entries : List LedgerEntry) :
    (m.recordAll entries).requestId? =
        m.requestId?.or (idsUnder Annotation.requestId entries).head?
      ∧ (∀ id later, (m.recordAll entries).requestId? = some id →
          (m.recordAll (entries ++ later)).requestId? = some id)
      ∧ (m.recordAll entries).certificateId? =
        (idsUnder Annotation.certificateId entries).getLast?.or m.certificateId?
      ∧ (m.recordAll entries).lastCertificateId? =
        (idsUnder Annotation.lastCertificateId entries).getLast?.or m.lastCertificateId?
      ∧ ∀ e, (m.recordAll entries).Admits e := by
  refine ⟨requestId?_recordAll m entries, fun id later h => ?_, ?_, ?_, fun e => admits _ e⟩
  · rw [recordAll_append, requestId?_recordAll, h, Option.some_or]
  · exact entry?_recordAll (by decide) m entries
  · exact entry?_recordAll (by decide) m entries

/-- The first request id stays, the latest certificate id is read, and the empty ones leave no
trace; what another had written stays. -/
theorem ledger_of_sampleEntries :
    let annotations := (Dict.empty.insert Annotation.requestId "").insert Annotation.team "web"
    let m : Metadata := { annotations := some annotations }
    let after := m.recordAll [.requestId "", .requestId "r-1", .certificateId "c-1",
      .requestId "r-2", .certificateId "c-2", .certificateId ""]
    after.requestId? = some "r-1" ∧ after.certificateId? = some "c-2"
      ∧ (after.recordAll [.requestId "r-3"]).requestId? = some "r-1"
      ∧ (after.record (.certificateId "c-2")).2 = false
      ∧ (after.record (.certificateId "c-3")).1.annotation? Annotation.team = some "web" := by
  intro annotations m after
  obtain ⟨hrequest, hstays, hcertificate, -, hentry⟩ := ledger_of_entries m
    [.requestId "", .requestId "r-1", .certificateId "c-1", .requestId "r-2",
      .certificateId "c-2", .certificateId ""]
  have hread : after.requestId? = some "r-1" := hrequest.trans (by decide)
  refine ⟨hread, hcertificate.trans (by decide), ?_, ?_, ?_⟩
  · have hlater := hstays "r-1" [.requestId "r-3"] hread
    rwa [recordAll_append] at hlater
  · decide
  · exact ((hentry (.certificateId "c-3")).others Annotation.team (by decide)).trans (by decide)

end Metadata

end CertBroker
