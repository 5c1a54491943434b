import CertBroker.Cluster.Metadata
import CertBroker.Cluster.Names

namespace CertBroker.Metadata

def annotation? (m : Metadata) (key : String) : Option String :=
  m.annotations.bind (·.get? key)

/-- An annotation with a value that is not empty. -/
def entry? (m : Metadata) (key : String) : Option String :=
  (m.annotation? key).filter (fun v => !v.isEmpty)

/-- Writes an annotation, and says whether that changed anything. -/
def annotate (m : Metadata) (key value : String) : Metadata × Bool :=
  let annotations := m.annotations.getD .empty
  if annotations.get? key = some value then ({ m with annotations := some annotations }, false)
  else ({ m with annotations := some (annotations.insert key value) }, true)

def requestId? (m : Metadata) : Option String := m.entry? Annotation.requestId

def certificateId? (m : Metadata) : Option String := m.entry? Annotation.certificateId

def lastCertificateId? (m : Metadata) : Option String := m.entry? Annotation.lastCertificateId

/-- The name of the Certificate a request was made for. -/
def parentName? (m : Metadata) : Option String := m.entry? Annotation.certificateName

/-- Records the PKI's request id; the first one stays. -/
def recordRequestId (m : Metadata) (id : String) : Metadata × Bool :=
  if id.isEmpty || m.requestId?.isSome then (m, false) else m.annotate Annotation.requestId id

/-- Records the PKI's certificate id. -/
def recordCertificateId (m : Metadata) (id : String) : Metadata × Bool :=
  if id.isEmpty then (m, false) else m.annotate Annotation.certificateId id

/-- Links a Certificate to the certificate last issued for it. -/
def linkLastCertificateId (m : Metadata) (id : String) : Metadata × Bool :=
  if id.isEmpty then (m, false) else m.annotate Annotation.lastCertificateId id

def hasFinalizer (m : Metadata) : Bool :=
  m.finalizers.any (fun fs => fs.any (fun f => f = finalizerName))

/-- The finalizers with ours at the end, or without ours. -/
def finalizersWith (m : Metadata) (present : Bool) : List String :=
  (m.finalizers.getD []).filter (fun f => f ≠ finalizerName)
    ++ if present then [finalizerName] else []

end CertBroker.Metadata
