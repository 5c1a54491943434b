import CertBroker.Pass.Ask
import CertBroker.Program

namespace CertBroker

abbrev Pass (α : Type) : Type := Program Ask Ask.Answer α

/-- A question of a pass with its answer. -/
abbrev Event : Type := Program.Event Ask Ask.Answer

/-- How surroundings answer the questions of passes. -/
abbrev Surroundings (σ : Type) : Type := Program.Surroundings Ask Ask.Answer σ

/-- What to do with an object after a pass that did not fail. -/
inductive Action where
  | awaitChange
  | requeue (seconds : Nat)
deriving DecidableEq, Repr

/-- A pass that may fail. -/
abbrev Attempt (α : Type) : Type := ExceptT Failure (Program Ask Ask.Answer) α

namespace Ask

def put (q : Ask) : Pass q.Answer := Program.put q

def time : Pass Time := put .now

def issuer (scope : IssuerScope) (ns name : String) : Attempt (Option Issuer) :=
  put (.readIssuer scope ns name)

def secret (ns name : String) : Attempt (Option Secret) := put (.readSecret ns name)

def certificate (ns name : String) : Attempt (Option Certificate) :=
  put (.readCertificate ns name)

def ingress (ns name : String) : Attempt (Option Ingress) := put (.readIngress ns name)

end Ask

namespace Attempt

/-- An attempt with a known outcome. -/
def ofExcept (r : Except Failure α) : Attempt α := ExceptT.mk (.done r)

/-- A pass that does not fail, whatever its value is. -/
def lift (p : Pass α) : Attempt α := ExceptT.lift p

/-- A question the PKI answers; its errors are failures. -/
def ofPki (p : Pass (Except PkiError α)) : Attempt α :=
  ExceptT.mk do return (← p).mapError Failure.pki

/-- The outcome of an attempt, as a value. -/
def result (a : Attempt α) : Pass (Except Failure α) := a.run

end Attempt

end CertBroker
