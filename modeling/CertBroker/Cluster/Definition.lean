import CertBroker.Cluster.Condition
import CertBroker.Cluster.Schema
import CertBroker.Cluster.Store

namespace CertBroker.IssuerDefinition

open Json SchemaField

def template : Schema := .record [
  mk .optional "labels" "Labels attached to the certificate on the PKI side" .table,
  mk .nullable "owner" "Certificate owner" .text,
  mk .nullable "team" "Owning team" .text,
  mk .nullable "contactEmail" "Contact email for the certificate" .text]

def dnsChecker : Schema := .record [
  mk .required "server" "Address of the DNS server (\"10.0.0.53\" or \"10.0.0.53:53\")" .text]

def spec : Schema := .record [
  mk .required "url" "Base URL of the PKI (e.g., \"https://pki.example.com\")" .text,
  mk .nullable "proxy" "Proxy URL used to reach the PKI" .text,
  mk .required "profile" "Enrollment profile on the PKI side" .text,
  mk .required "authSecretName" ("Name of the Secret holding the PKI credentials.\n\n"
    ++ "For an Issuer the Secret lives in the Issuer's namespace; for a\n"
    ++ "ClusterIssuer it lives in the cluster resource namespace.") .text,
  mk .nullable "caBundle" "PEM bundle used to trust the PKI endpoint certificate" .text,
  mk .optional "skipTLSVerify" "Accept untrusted PKI endpoint certificates" (.flag false),
  mk .optional "revokeCertificates"
    "Revoke the issued certificate when its CertificateRequest is deleted" (.flag false),
  mk .nullable "defaultTemplate"
    "Attributes applied unless a Certificate (or its Ingress) sets them" template,
  mk .nullable "overrideTemplate" "Attributes that always win over annotations and defaults"
    template,
  mk .nullable "dnsChecker" "Require every subject name of a CSR to resolve before submission"
    dnsChecker]

def condition : Schema := .record [
  mk .required "type" "Condition type (only \x60Ready\x60 is used)" .text,
  mk .required "status" "True, False or Unknown"
    (.choice ([ConditionStatus.yes, .no, .unknown].map ConditionStatus.text)),
  mk .nullable "lastTransitionTime" "Last time the status changed" .time,
  mk .optional "reason" "Machine readable reason" .text,
  mk .optional "message" "Human readable message" .text]

def status : Schema := .record [
  mk .optional "conditions" "Known condition types are \x60Ready\x60"
    (.list "Issuer condition" condition)]

/-- What is said of the specification of a kind. -/
def aboutSpec : IssuerScope → String
  | .namespaced =>
    "IssuerSpec describes how to reach the PKI and which enrollment attributes to apply"
  | .cluster => "ClusterIssuer is the cluster-scoped twin of [\x60Issuer\x60]"

def fields (scope : IssuerScope) : List SchemaField := [
  mk .required "spec" (aboutSpec scope) spec,
  mk .nullable "status" "IssuerStatus holds the issuer readiness condition" status]

/-- A column of a listing: its title, and where its text stands. -/
def column (title path : String) : Json :=
  .object (member "name" (.string title) ++ member "type" (.string "string")
    ++ member "jsonPath" (.string path))

def columns : List Json := [
  column "Profile" ".spec.profile",
  column "URL" ".spec.url",
  column "Ready" ".status.conditions[?(@.type=='Ready')].status"]

def schema (scope : IssuerScope) : Json :=
  .object (member "title" (.string scope.kind)
    ++ member "description" (.string ("Auto-generated derived type for " ++ scope.kind
      ++ "Spec via \x60CustomResource\x60"))
    ++ (Schema.record (fields scope)).members)

def version (scope : IssuerScope) : Json :=
  .object (member "name" (.string (Store.issuerKind scope).version)
    ++ member "served" (.bool true) ++ member "storage" (.bool true)
    ++ member "schema" (.object (member "openAPIV3Schema" (schema scope)))
    ++ member "additionalPrinterColumns" (.array columns)
    ++ member "subresources" (.object (member "status" (.object []))))

def names (scope : IssuerScope) : Json :=
  .object (member "categories" (.array []) ++ member "kind" (.string scope.kind)
    ++ member "plural" (.string (Store.issuerKind scope).plural)
    ++ member "shortNames" (.array [])
    ++ member "singular" (.string scope.kind.toLower))

def ofScope (scope : IssuerScope) : Json :=
  let kind := Store.issuerKind scope
  .object (member "apiVersion" (.string "apiextensions.k8s.io/v1")
    ++ member "kind" (.string "CustomResourceDefinition")
    ++ member "metadata" (.object (member "name" (.string (kind.plural ++ "." ++ kind.group))))
    ++ member "spec" (.object (member "group" (.string kind.group)
      ++ member "names" (names scope) ++ member "scope" (.string scope.text)
      ++ member "versions" (.array [version scope]))))

def all : List Json := [ofScope .namespaced, ofScope .cluster]

theorem fields_name (scope : IssuerScope) :
    (fields scope).map SchemaField.name = ["spec", "status"] := by
  cases scope <;> rfl

end CertBroker.IssuerDefinition
