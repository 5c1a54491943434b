import CertBroker.Pass.Basic

namespace CertBroker

namespace Ask

def isCall : Ask → Bool
  | .call _ _ => true
  | _ => false

/-- Whether a question submits a request to the PKI. -/
def isSubmission : Ask → Bool
  | .call _ (.enroll _) => true
  | .call _ (.renew _ _) => true
  | _ => false

/-- Whether a question makes a PKI client, or calls the PKI. -/
def contactsPki : Ask → Bool
  | .openSession _ => true
  | .call _ _ => true
  | _ => false

def storesRequest : Ask → Bool
  | .storeRequest _ _ => true
  | _ => false

/-- Whether a question changes the request at the API server. -/
def changesRequest : Ask → Bool
  | .storeRequest _ _ => true
  | .addFinalizer _ => true
  | .removeFinalizer _ => true
  | _ => false

def isWrite : Ask → Bool
  | .storeRequest _ _ => true
  | .addFinalizer _ => true
  | .removeFinalizer _ => true
  | .storeAnnotations _ => true
  | .storeIssuerStatus _ => true
  | _ => false

/-- Whether a question reads or writes a Certificate. -/
def concernsParent : Ask → Bool
  | .readCertificate _ _ => true
  | .storeAnnotations _ => true
  | _ => false

/-- Whether a question changes the request, or calls the PKI. -/
def disturbs (q : Ask) : Bool := q.changesRequest || q.isCall

end Ask

variable {events first second : List Event}

/-- No question is of this kind. -/
def Never (kind : Ask → Bool) (events : List Event) : Prop :=
  ∀ e ∈ events, kind e.question = false

@[simp] theorem never_nil (kind : Ask → Bool) : Never kind [] := by simp [Never]

@[simp] theorem never_cons {kind : Ask → Bool} {e : Event} {rest : List Event} :
    Never kind (e :: rest) ↔ kind e.question = false ∧ Never kind rest := by simp [Never]

@[simp] theorem never_append {kind : Ask → Bool} :
    Never kind (first ++ second) ↔ Never kind first ∧ Never kind second := by
  simp [Never, or_imp, forall_and]

theorem Never.mono {kind kind' : Ask → Bool} (h : Never kind events)
    (hle : ∀ q, kind q = false → kind' q = false) : Never kind' events :=
  fun e he => hle e.question (h e he)

theorem Never.filter_eq_nil {kind : Ask → Bool} (h : Never kind events) :
    events.filter (fun e => kind e.question) = [] := by
  apply List.filter_eq_nil_iff.mpr
  intro e he
  rw [h e he]
  exact Bool.false_ne_true

abbrev Silent : List Event → Prop := Never Ask.changesRequest

abbrev Unstored : List Event → Prop := Never Ask.storesRequest

abbrev Unwritten : List Event → Prop := Never Ask.isWrite

/-- No Certificate is read or written. -/
abbrev Alone : List Event → Prop := Never Ask.concernsParent

/-- No PKI client is made, and none called. -/
abbrev Offline : List Event → Prop := Never Ask.contactsPki

abbrev Unsubmitted : List Event → Prop := Never Ask.isSubmission

/-- Nothing changes the request, and the PKI is not called. -/
abbrev Quiet : List Event → Prop := Never Ask.disturbs

theorem Silent.unstored (h : Silent events) : Unstored events := by
  refine h.mono fun q hq => ?_
  cases q <;> first | rfl | cases hq

theorem Quiet.silent (h : Quiet events) : Silent events :=
  h.mono fun _ hq => (Bool.or_eq_false_iff.mp hq).1

def calls (events : List Event) : List Event := events.filter (·.question.isCall)

@[simp] theorem calls_nil : calls [] = [] := rfl

@[simp] theorem calls_append (first second : List Event) :
    calls (first ++ second) = calls first ++ calls second := List.filter_append ..

@[simp] theorem calls_cons (e : Event) (rest : List Event) :
    calls (e :: rest) = if e.question.isCall then e :: calls rest else calls rest :=
  List.filter_cons

theorem Quiet.calls (h : Quiet events) : calls events = [] := by
  apply List.filter_eq_nil_iff.mpr
  intro e he
  rw [(Bool.or_eq_false_iff.mp (h e he)).2]
  exact Bool.false_ne_true

theorem mem_calls {s : Pki.Session} {k : Pki.Call} {a : (Ask.call s k).Answer} :
    (⟨.call s k, a⟩ : Event) ∈ CertBroker.calls events ↔ (⟨.call s k, a⟩ : Event) ∈ events := by
  simp [CertBroker.calls, Ask.isCall]

theorem Quiet.not_mem_call {s : Pki.Session} {k : Pki.Call} {a : (Ask.call s k).Answer}
    (h : Quiet events) : (⟨.call s k, a⟩ : Event) ∉ events := by
  rw [← mem_calls, h.calls]
  exact List.not_mem_nil

theorem unsubmitted_of_calls (h : calls events = []) : Unsubmitted events := by
  intro e he
  have hcall : e.question.isCall ≠ true := List.filter_eq_nil_iff.mp h e he
  generalize e.question = q at hcall
  cases q <;> first | rfl | exact absurd rfl hcall

theorem Quiet.unsubmitted (h : Quiet events) : Unsubmitted events := unsubmitted_of_calls h.calls

def acceptedId? : Event → Option String
  | ⟨.call _ (.enroll _), .ok id⟩ => some id
  | ⟨.call _ (.renew _ _), .ok id⟩ => some id
  | _ => none

/-- The ids of the submissions that were accepted. -/
def accepted (events : List Event) : List String := events.filterMap acceptedId?

@[simp] theorem accepted_nil : accepted [] = [] := rfl

@[simp] theorem accepted_append (first second : List Event) :
    accepted (first ++ second) = accepted first ++ accepted second := List.filterMap_append ..

@[simp] theorem accepted_cons (e : Event) (rest : List Event) :
    accepted (e :: rest) = (acceptedId? e).toList ++ accepted rest := by
  rw [accepted, List.filterMap_cons]
  cases acceptedId? e <;> rfl

theorem isSubmission_of_acceptedId? {e : Event} {id : String} (h : acceptedId? e = some id) :
    e.question.isSubmission = true := by
  unfold acceptedId? at h
  split at h
  next => rfl
  next => rfl
  next => exact absurd h (by simp)

theorem accepted_of_unsubmitted (h : Unsubmitted events) : accepted events = [] := by
  rw [accepted, List.filterMap_eq_nil_iff]
  intro e he
  cases hid : acceptedId? e with
  | none => rfl
  | some id => exact absurd (isSubmission_of_acceptedId? hid) (by simp [h e he])

/-- The certificate in an answer to a poll. -/
def CertificateRequest.polledCertificate? : Event → Option Pki.IssuedCertificate
  | ⟨.call _ (.poll _), .ok answer⟩ => answer.certificate
  | _ => none

/-- The certificates in the PKI's answers about requests. -/
def delivered (events : List Event) : List Pki.IssuedCertificate :=
  events.filterMap CertificateRequest.polledCertificate?

def Asked (q : Ask) (events : List Event) : Prop := ∃ e ∈ events, e.question = q

@[simp] theorem not_asked_nil (q : Ask) : ¬ Asked q [] := by simp [Asked]

@[simp] theorem asked_cons {q : Ask} {e : Event} {rest : List Event} :
    Asked q (e :: rest) ↔ e.question = q ∨ Asked q rest := by simp [Asked]

@[simp] theorem asked_append {q : Ask} :
    Asked q (first ++ second) ↔ Asked q first ∨ Asked q second := by
  simp [Asked, or_and_right, exists_or]

end CertBroker
