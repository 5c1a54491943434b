import CertBroker.Cluster.Metadata

namespace CertBroker.Resource

open Json

/-- Reads metadata, specification and status. As an array all three must be there. -/
def frame? (spec : Json → Option σ) (status : Json → Option τ) (j : Json) :
    Option (Metadata × σ × Option τ) := do
  match ← record? ["metadata", "spec", "status"] j with
  | [m, s, t] =>
    if t.isNone && j.members?.isNone then none
    else return (← required Metadata.ofJson? m, ← required spec s, ← optional status t)
  | _ => none

def frame (apiVersion kind : String) (metadata : Metadata) (spec : Json) (status : Option Json) :
    Json :=
  .object (member "apiVersion" (.string apiVersion)
    ++ member "kind" (.string kind)
    ++ member "metadata" metadata.toJson
    ++ member "spec" spec
    ++ memberIf "status" id status)

end CertBroker.Resource
