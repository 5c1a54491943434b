import CertBroker.Cluster.Store
import CertBroker.Pass.Basic

namespace CertBroker

/-- What is said to the API server for a question, if it is one to the store. -/
def Ask.talk? : (q : Ask) →
    Option (Program Api.Request (fun _ => Option Http.Response) q.Answer)
  | .readIssuer scope ns name => some (Store.issuer scope ns name).run
  | .readSecret ns name => some (Store.secret ns name).run
  | .readCertificate ns name => some (Store.certificate ns name).run
  | .readIngress ns name => some (Store.ingress ns name).run
  | .storeRequest before after => some (Store.storeRequest before after).run
  | .addFinalizer r => some (Store.addFinalizer r).run
  | .removeFinalizer r => some (Store.removeFinalizer r).run
  | .storeAnnotations c => some (Store.storeAnnotations c).run
  | .storeIssuerStatus i => some (Store.storeIssuerStatus i).run
  | _ => none

end CertBroker
