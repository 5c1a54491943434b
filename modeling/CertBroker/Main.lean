import CertBroker.Cluster.Definition
import CertBroker.Json.Yaml

/-- Prints the definitions of both kinds of issuers, for a cluster to load. -/
def main : IO Unit :=
  IO.print (CertBroker.Json.Yaml.stream CertBroker.IssuerDefinition.all)
