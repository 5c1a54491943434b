import CertBroker.Proofs.Pki.Addressing
import CertBroker.Proofs.Pki.Wire

namespace CertBroker.Pki

open Json

/-- The text that a call submits. -/
def Call.bodyText? (c : Call) : Option String := c.submission?.map fun s => s.toJson.toText

/-- Enrollments, renewals and revocations submit something, other calls only ask. -/
def Call.submits : Call → Bool
  | .enroll _ => true
  | .renew _ _ => true
  | .revoke _ _ => true
  | _ => false

/-- The names of the labels in a body, in the order written. -/
def labelNames (body : Json) : List String :=
  match (body.get? "template").bind (·.get? "labels") with
  | some (.array labels) => labels.filterMap fun label => (label.get? "label").bind text?
  | _ => []

theorem Submission.readText_toText (s : Submission) :
    readText ofJson? s.toJson.toText = some s := by
  have htrips : RoundTrips ofJson? toJson fun _ => True :=
    roundTrips_of_legible (fun s _ => s.legible _) fun _ _ _ => trivial
  exact htrips.readText_write s trivial

/-- The call that a submission stands for. -/
def Submission.call? (s : Submission) : Option Call :=
  match s.workflow, s.profile, s.certificateId, s.certificatePem, s.revocationReason,
      s.template with
  | .enroll, some profile, _, _, _, some t =>
    some (.enroll {
      profile
      csr := t.csr
      labels := .ofList (t.labels.map fun l => (l.label, l.value))
      owner := t.owner
      team := t.team
      contactEmail := t.contactEmail })
  | .renew, _, some certificateId, _, _, some t => some (.renew certificateId t.csr)
  | .revoke, _, _, some certificate, some reason, _ => some (.revoke certificate reason)
  | _, _, _, _, _, _ => none

theorem Submission.call?_of_submission? {c : Call} {s : Submission}
    (h : c.submission? = some s) : s.call? = some c := by
  cases c with
  | checkHealth => cases h
  | poll => cases h
  | enroll e =>
    cases h
    have hlabels : Dict.ofList ((e.labels.entries.map fun l => (⟨l.1, l.2⟩ : Label)).map
        fun l => (l.label, l.value)) = e.labels := by
      rw [List.map_map]
      exact (congrArg _ (List.map_id _)).trans e.labels.ofList_entries
    simp only [enroll, call?, hlabels]
  | renew => cases h; rfl
  | revoke => cases h; rfl

/-- Reads a call from the text that it submits. -/
def Call.ofBody? (text : String) : Option Call := (readText Submission.ofJson? text).bind (·.call?)

theorem Call.ofBody?_bodyText? {c : Call} {text : String} (h : c.bodyText? = some text) :
    ofBody? text = some c := by
  obtain ⟨s, hs, rfl⟩ := Option.map_eq_some_iff.mp h
  rw [ofBody?, s.readText_toText, Option.bind_some, Submission.call?_of_submission? hs]

theorem Call.exists_bodyText? {c : Call} (h : c.submits = true) :
    ∃ text, c.bodyText? = some text := by
  cases c with
  | checkHealth => cases h
  | poll => cases h
  | enroll => exact ⟨_, rfl⟩
  | renew => exact ⟨_, rfl⟩
  | revoke => exact ⟨_, rfl⟩

theorem get?_membersOf {fields : List (String × Slot)} (h : (fields.map (·.1)).Nodup)
    {name : String} {slot : Slot} (hf : (name, slot) ∈ fields) :
    (Json.object (membersOf fields)).get? name = slot := by
  have hnamed := membersNamed_membersOf h hf
  rw [Json.get?, member?, hnamed]
  cases slot <;> rfl

theorem Template.labels_toJson (t : Template) :
    t.toJson.get? "labels" =
      slotUnless t.labels.isEmpty (fun ls => .array (ls.map Label.toJson)) t.labels := by
  rw [t.toJson_eq]
  exact get?_membersOf (by simp [fields]) (by simp [fields])

theorem Submission.template_toJson (s : Submission) :
    s.toJson.get? "template" = s.template.map Template.toJson := by
  rw [s.toJson_eq]
  exact get?_membersOf (by simp [fields]) (by simp [fields])

theorem labelNames_toJson {s : Submission} {t : Template} (h : s.template = some t) :
    labelNames s.toJson = t.labels.map (·.label) := by
  have hname : ∀ l : Label, (l.toJson.get? "label").bind text? = some l.label := fun _ => rfl
  rw [labelNames, s.template_toJson, h, Option.map_some, Option.bind_some, t.labels_toJson]
  cases hempty : t.labels.isEmpty with
  | true =>
    rw [List.isEmpty_iff.mp hempty]
    rfl
  | false =>
    simp only [slotUnless, Bool.false_eq_true, if_false, List.filterMap_map, Function.comp_def,
      hname, List.filterMap_eq_map']

theorem labelNames_enroll (e : Enrollment) :
    labelNames (Submission.enroll e).toJson = e.labels.keys := by
  rw [labelNames_toJson (s := .enroll e) rfl, List.map_map]
  rfl

theorem Submission.parse?_toText (s : Submission) : parse? s.toJson.toText = some s.toJson :=
  Json.parse?_toText (s.legible _).written

/-- Each call that submits something has a text of its own, which is what is sent if anything is;
and an enrollment names its labels in ascending order there, each once. -/
theorem body_determines_call [HostName.Rules] {c c' : Call} (h : c.submits = true)
    (h' : c'.submits = true) :
    (∃ text, c.bodyText? = some text)
      ∧ (c.bodyText? = c'.bodyText? ↔ c = c')
      ∧ (∀ (k : Client) (m : Message), k.message? c = some m →
          m.body.map Json.toText = c.bodyText?)
      ∧ ∀ e, c = .enroll e → ∃ text body, c.bodyText? = some text ∧ parse? text = some body
          ∧ (labelNames body).Pairwise (Text.before · ·)
          ∧ ∀ name, (labelNames body).count name = if e.labels.contains name then 1 else 0 := by
  obtain ⟨text, htext⟩ := Call.exists_bodyText? h
  obtain ⟨text', htext'⟩ := Call.exists_bodyText? h'
  refine ⟨⟨text, htext⟩, ⟨fun hsame => ?_, congrArg _⟩, fun k m hm => ?_, fun e he => ?_⟩
  · have hread := Call.ofBody?_bodyText? htext
    rw [htext, htext', Option.some.injEq] at hsame
    rw [hsame, Call.ofBody?_bodyText? htext'] at hread
    exact (Option.some.inj hread).symm
  · obtain ⟨url, -, -, rfl⟩ := Client.message?_eq_some_iff.mp hm
    exact Option.map_map ..
  · subst he
    refine ⟨_, _, rfl, Submission.parse?_toText _, ?_, fun name => ?_⟩
    · rw [labelNames_enroll]
      exact List.pairwise_map.mpr e.labels.ascending
    · rw [labelNames_enroll, e.labels.nodup_keys.count]
      exact if_congr Dict.contains_iff.symm rfl rfl

def sampleEnrollment (owner : Option String) : Enrollment where
  profile := "tls"
  csr := "PEM"
  labels := .ofList [("env", "prod"), ("app", "")]
  owner

/-- An empty owner is not an absent one, and a label with an empty value is a label. -/
theorem body_of_sampleEnrollments :
    let call (owner : Option String) := Call.enroll (sampleEnrollment owner)
    (call "").bodyText? ≠ (call none).bodyText?
      ∧ ∃ text body, (call "").bodyText? = some text ∧ parse? text = some body
        ∧ (labelNames body).count "app" = 1 := by
  intro call
  have hsubmits (owner : Option String) : (call owner).submits = true := rfl
  obtain ⟨-, hsame, -, hlabels⟩ := body_determines_call (hsubmits "") (hsubmits none)
  refine ⟨fun h => absurd (hsame.mp h) (by decide), ?_⟩
  obtain ⟨text, body, htext, hbody, -, hcount⟩ := hlabels (sampleEnrollment "") rfl
  exact ⟨text, body, htext, hbody, (hcount "app").trans (by decide)⟩

end CertBroker.Pki
