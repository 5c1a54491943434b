import CertBroker.Pki.Credentials

namespace CertBroker.Pki.Credentials

/-- Why the data of a Secret give no credentials. -/
inductive Fault where
  | missing (key : String)
  | unreadable (key : String)
  | unsupported (type : String)
deriving DecidableEq

def Fault.error (secret : String) : Fault → PkiError
  | .missing key => .invalidConfig ("Missing " ++ key ++ " in secret " ++ secret)
  | .unreadable key => .invalidConfig (key ++ " in secret " ++ secret ++ " is not valid UTF-8")
  | .unsupported type => .invalidConfig
    ("Unsupported secret type " ++ Text.quoted type ++ " for secret " ++ secret)

def fieldFault? (data : Dict Bytes) (key : String) : Option Fault :=
  match data.get? key with
  | some _ => none
  | none => some (.missing key)

def textFault? (data : Dict Bytes) (key : String) : Option Fault :=
  match data.get? key with
  | some value =>
    match Utf8.decode value with
    | .ok _ => none
    | .error _ => some (.unreadable key)
  | none => some (.missing key)

/-- The first fault of data for a type. -/
def fault? (type : Option String) (data : Dict Bytes) : Option Fault :=
  let type := type.getD opaqueType
  if type = tlsType then (fieldFault? data "tls.crt").or (fieldFault? data "tls.key")
  else if type = opaqueType then (textFault? data "username").or (textFault? data "password")
  else some (.unsupported type)

variable {α β : Type} {secret : String}

/-- An outcome is as a fault says: its error, or a value where there is none. -/
inductive Told (secret : String) : Except PkiError α → Option Fault → Prop
  | value (a : α) : Told secret (.ok a) none
  | error (f : Fault) : Told secret (.error (f.error secret)) (some f)

theorem Told.bind {outcome : Except PkiError α} {next : α → Except PkiError β}
    {first second : Option Fault} (h : Told secret outcome first)
    (hnext : ∀ a, Told secret (next a) second) :
    Told secret (outcome >>= next) (first.or second) := by
  cases h with
  | value a => exact hnext a
  | error f => exact .error f

theorem Told.map {outcome : Except PkiError α} {fault : Option Fault}
    (h : Told secret outcome fault) (f : α → β) :
    Told secret (outcome >>= fun a => pure (f a)) fault := by
  have hbind : Told secret (outcome >>= fun a => pure (f a)) (fault.or none) :=
    h.bind fun a => .value (f a)
  rwa [Option.or_none] at hbind

theorem told_field (secret : String) (data : Dict Bytes) (key : String) :
    Told secret (field secret data key) (fieldFault? data key) := by
  unfold field fieldFault?
  cases data.get? key with
  | none => exact .error (.missing key)
  | some value => exact .value value

theorem told_textField (secret : String) (data : Dict Bytes) (key : String) :
    Told secret (textField secret data key) (textFault? data key) := by
  unfold textField textFault? field
  cases data.get? key with
  | none => exact .error (.missing key)
  | some value =>
    simp only [Except.bind, bind]
    cases Utf8.decode value with
    | ok text => exact .value text
    | error _ => exact .error (.unreadable key)

/-- A Secret is refused for its fault, and for nothing else. -/
theorem told_ofSecret (secret : String) (type : Option String) (data : Dict Bytes) :
    Told secret (ofSecret secret type data) (fault? type data) := by
  simp only [ofSecret, fault?]
  split
  next => exact (told_field ..).bind fun _ => (told_field ..).map _
  next =>
    split
    next => exact (told_textField ..).bind fun _ => (told_textField ..).map _
    next => exact .error (.unsupported _)

end CertBroker.Pki.Credentials
