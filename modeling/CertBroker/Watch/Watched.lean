import CertBroker.Cluster.Store
import CertBroker.Pass.Health
import CertBroker.Pass.Request

namespace CertBroker

inductive WatchedKind where
  | request
  | issuer (scope : IssuerScope)
deriving DecidableEq, Repr

namespace WatchedKind

def all : List WatchedKind := [.request, .issuer .namespaced, .issuer .cluster]

def api : WatchedKind → Api.Kind
  | .request => Store.requestKind
  | .issuer scope => Store.issuerKind scope

def text : WatchedKind → String
  | .request => CertificateRequest.kind
  | .issuer scope => scope.kind

/-- The namespace a watch is restricted to; kinds of the whole cluster are never restricted. -/
def watchedNamespace (k : WatchedKind) (settings : Settings) : Option String :=
  match k with
  | .issuer .cluster => none
  | _ => settings.watchNamespace

/-- Where the objects of a kind are listed, if that can be asked for. -/
def listing? (k : WatchedKind) (settings : Settings) : Option Http.Target :=
  Http.Target.parse? (k.api.path (k.watchedNamespace settings))

end WatchedKind

inductive Watched where
  | request (r : CertificateRequest)
  | issuer (i : Issuer)
deriving DecidableEq

/-- What tells watched objects apart: two versions of one object have the same identity. -/
structure Identity where
  kind : WatchedKind
  ns : Option String
  name : String
deriving DecidableEq, Repr

/-- The key under which the failures of an object are counted. -/
def Identity.key (id : Identity) : String :=
  match id.ns with
  | some ns => id.kind.text ++ "/" ++ ns ++ "/" ++ id.name
  | none => id.kind.text ++ "/" ++ id.name

/-- The name, or else what a name is to be generated from. -/
def Metadata.anyName (m : Metadata) : String :=
  match m.name with
  | some name => name
  | none => m.generateName.getD ""

namespace Watched

def kind : Watched → WatchedKind
  | .request _ => .request
  | .issuer i => .issuer i.scope

def metadata : Watched → Metadata
  | .request r => r.metadata
  | .issuer i => i.metadata

def identity (o : Watched) : Identity := ⟨o.kind, o.metadata.ns, o.metadata.anyName⟩

def ofJson? (k : WatchedKind) (j : Json) : Option Watched :=
  match k with
  | .request => (CertificateRequest.ofJson? j).map .request
  | .issuer scope => (Issuer.ofJson? scope j).map .issuer

def reconcile (o : Watched) (settings : Settings) : Attempt Action :=
  match o with
  | .request r => r.reconcile settings
  | .issuer i => i.reconcile settings

end Watched

end CertBroker
