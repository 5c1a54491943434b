import CertBroker.Text.Blank
import CertBroker.Text.Digits

namespace CertBroker

/-- Intervals and timeouts are in seconds. -/
structure Settings where
  /-- Holds the Secrets of cluster issuers. -/
  clusterResourceNamespace : String := "default"
  /-- Restricts what is watched to one namespace. -/
  watchNamespace : Option String := none
  healthCheckInterval : Nat := 60
  pendingPollInterval : Nat := 15
  pkiTimeout : Nat := 30
  dnsCheckTimeout : Nat := 10
  probePort : Nat := 8081
deriving DecidableEq, Repr

namespace Settings

/-- A number of decimal digits after an optional plus sign, below a limit. -/
def number? (limit : Nat) (s : String) : Option Nat :=
  let ds := match s.toList with
    | '+' :: rest => rest
    | cs => cs
  if ds.isEmpty || !ds.all Text.isDigit then none
  else
    let n := ds.foldl (fun n c => n * 10 + (c.toNat - 48)) 0
    if n < limit then some n else none

/-- A variable that does not consist of blanks. -/
def nonBlank (lookup : String → Option String) (key : String) : Option String :=
  (lookup key).filter fun v => !(Text.trim v).isEmpty

def numberOr (default limit : Nat) (value : Option String) : Nat :=
  (value.bind fun v => number? limit (Text.trim v)).getD default

/-- The settings under a lookup of variables. A variable of blanks counts as unset, and a number
that cannot be read gives way to its default. The namespace of the service account stands in for an
unset cluster resource namespace. -/
def ofLookup (lookup : String → Option String) (serviceAccountNamespace : Option String) :
    Settings :=
  let standard : Settings := {}
  let seconds (key : String) (default : Nat) :=
    numberOr default 0x10000000000000000 (nonBlank lookup key)
  { clusterResourceNamespace :=
      match nonBlank lookup "CLUSTER_RESOURCE_NAMESPACE" with
      | some ns => ns
      | none =>
        match serviceAccountNamespace with
        | some ns => if ns.isEmpty then standard.clusterResourceNamespace else ns
        | none => standard.clusterResourceNamespace
    watchNamespace := nonBlank lookup "WATCH_NAMESPACE"
    healthCheckInterval := seconds "HEALTH_CHECK_INTERVAL_SECS" standard.healthCheckInterval
    pendingPollInterval := seconds "PENDING_POLL_INTERVAL_SECS" standard.pendingPollInterval
    pkiTimeout := seconds "PKI_TIMEOUT_SECS" standard.pkiTimeout
    dnsCheckTimeout := seconds "DNS_CHECK_TIMEOUT_SECS" standard.dnsCheckTimeout
    probePort := numberOr standard.probePort 65536 (nonBlank lookup "PROBE_PORT") }

end Settings

end CertBroker
