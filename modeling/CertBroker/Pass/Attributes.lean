import CertBroker.Cluster.Issuer
import CertBroker.Pki.Protocol

namespace CertBroker

structure Attributes where
  owner : Option String := none
  team : Option String := none
  contactEmail : Option String := none
  labels : Dict String := .empty
deriving DecidableEq

namespace Attributes

/-- A later value unless it is absent or empty. -/
def preferred (current value : Option String) : Option String :=
  match value with
  | some v => if v.isEmpty then current else some v
  | none => current

/-- Labels without a key or value are skipped. -/
def addLabels (labels : Dict String) (added : List (String × String)) : Dict String :=
  added.foldl (fun d l => if l.1.isEmpty || l.2.isEmpty then d else d.insert l.1 l.2) labels

def withTemplate (a : Attributes) (template : Option AttributeTemplate) : Attributes :=
  match template with
  | none => a
  | some t =>
    { owner := preferred a.owner t.owner
      team := preferred a.team t.team
      contactEmail := preferred a.contactEmail t.contactEmail
      labels := addLabels a.labels t.labels.entries }

/-- The label that an annotation carries, if its key says so. -/
def label? (key : String) : Option String :=
  if Annotation.labelStart.toList.isPrefixOf key.toList then
    some (String.ofList (key.toList.drop Annotation.labelStart.toList.length))
  else none

def withAnnotations (a : Attributes) (annotations : Option (Dict String)) : Attributes :=
  match annotations with
  | none => a
  | some d =>
    { owner := preferred a.owner (d.get? Annotation.owner)
      team := preferred a.team (d.get? Annotation.team)
      contactEmail := preferred a.contactEmail (d.get? Annotation.contactEmail)
      labels := addLabels a.labels
        (d.entries.filterMap fun e => (label? e.1).map fun l => (l, e.2)) }

/-- Later layers win: the issuer's default template, the annotations of the Ingress, those of the
Certificate, the issuer's override template. -/
def resolve (spec : IssuerSpec) (ingress certificate : Option (Dict String)) : Attributes :=
  let base : Attributes := {}
  (((base.withTemplate spec.defaultTemplate).withAnnotations ingress).withAnnotations
    certificate).withTemplate spec.overrideTemplate

def toEnrollment (a : Attributes) (profile csr : String) : Pki.Enrollment where
  profile := profile
  csr := csr
  labels := a.labels
  owner := a.owner
  team := a.team
  contactEmail := a.contactEmail

end Attributes

end CertBroker
