import CertBroker.Backoff
import CertBroker.Base64
import CertBroker.Cluster.Api
import CertBroker.Cluster.Certificate
import CertBroker.Cluster.CertificateRequest
import CertBroker.Cluster.Definition
import CertBroker.Cluster.Ingress
import CertBroker.Cluster.Issuer
import CertBroker.Cluster.Ledger
import CertBroker.Cluster.Schema
import CertBroker.Cluster.Store
import CertBroker.Crypto.Modular
import CertBroker.Crypto.PrivateKey
import CertBroker.Crypto.Sha1
import CertBroker.Crypto.Sha256
import CertBroker.Crypto.Sha512
import CertBroker.Der.Strict
import CertBroker.Failure
import CertBroker.Json.MergePatch
import CertBroker.Json.Parser
import CertBroker.Json.Printer
import CertBroker.Json.Yaml
import CertBroker.Main
import CertBroker.Net.HostName
import CertBroker.Net.Http
import CertBroker.Net.PercentCode
import CertBroker.Net.Punycode
import CertBroker.Net.Url
import CertBroker.Pass.Attributes
import CertBroker.Pass.Basic
import CertBroker.Pass.Health
import CertBroker.Pass.Request
import CertBroker.Pass.Verdict
import CertBroker.Pem.Section
import CertBroker.Pki.Client
import CertBroker.Pki.InMemory
import CertBroker.Pki.Wire
import CertBroker.Probe
import CertBroker.Settings
import CertBroker.Simulation.Controller
import CertBroker.Simulation.Edit
import CertBroker.Simulation.World
import CertBroker.Text.Digits
import CertBroker.TrustChain
import CertBroker.Watch.Retry
import CertBroker.Watch.Watched
import CertBroker.X509.Anchor
import CertBroker.X509.Certificate
import CertBroker.X509.Extension
import CertBroker.X509.Name
import CertBroker.X509.SigningRequest
import CertBroker.Proofs.Pass.Yield
import CertBroker.Proofs.Pass.Session
import CertBroker.Proofs.Pass.Outcome
import CertBroker.Proofs.Pass.Submission
import CertBroker.Proofs.Pass.Advance
import CertBroker.Proofs.Pass.Course
import CertBroker.Proofs.Request.Deletion
import CertBroker.Proofs.Json.Merge
import CertBroker.Proofs.Cluster.Stored
import CertBroker.Proofs.Cluster.Write
import CertBroker.Proofs.Cluster.Server
import CertBroker.Proofs.Request.Rounds
import CertBroker.Proofs.Request.SingleSubmission
import CertBroker.Proofs.Request.Rehearsal
import CertBroker.Proofs.Cluster.Status
import CertBroker.Proofs.Request.Settled
import CertBroker.Proofs.Text.Utf8
import CertBroker.Proofs.Pass.Admission
import CertBroker.Proofs.Request.Admission
import CertBroker.Proofs.Cluster.Version
import CertBroker.Proofs.Text.Base64
import CertBroker.Proofs.TrustChain
import CertBroker.Proofs.Pass.Verdict
import CertBroker.Proofs.Request.Issued
import CertBroker.Proofs.Pass.Genuine
import CertBroker.Proofs.Request.Refusal
import CertBroker.Proofs.Cluster.Objects
import CertBroker.Proofs.Request.Lineage
import CertBroker.Proofs.Request.Revisions
import CertBroker.Proofs.Request.Backing
import CertBroker.Proofs.Cluster.Tenancy
import CertBroker.Proofs.Pass.Confinement
import CertBroker.Proofs.Request.Isolation
import CertBroker.Proofs.Pem.Framing
import CertBroker.Proofs.Pem.Block
import CertBroker.Proofs.Request.Revocation
import CertBroker.Proofs.Text.Blank
import CertBroker.Proofs.Time.Calendar
import CertBroker.Proofs.Time.Text
import CertBroker.Proofs.Cluster.Readback
import CertBroker.Proofs.Pass.Growth
import CertBroker.Proofs.Request.Readback
import CertBroker.Proofs.Pass.Health
import CertBroker.Proofs.Pass.Report
import CertBroker.Proofs.Issuer.Readiness
import CertBroker.Proofs.Request.NameGate
import CertBroker.Proofs.Cluster.Constant
import CertBroker.Proofs.Pass.Survey
import CertBroker.Proofs.Request.Quiescence
import CertBroker.Proofs.Watch.Backoff
import CertBroker.Proofs.Watch.Delays
import CertBroker.Proofs.Pki.Trouble
import CertBroker.Proofs.Request.Trouble
import CertBroker.Proofs.Cluster.Holdings
import CertBroker.Proofs.Cluster.Merged
import CertBroker.Proofs.Pass.Tending
import CertBroker.Proofs.Watch.Frame
import CertBroker.Proofs.Program.Lockstep
import CertBroker.Proofs.Pki.Credentials
import CertBroker.Proofs.Pass.Twin
import CertBroker.Proofs.Pass.Discretion
import CertBroker.Proofs.Watch.Confidential
import CertBroker.Proofs.TrustChain.Ordering
import CertBroker.Proofs.X509.SubjectNames
import CertBroker.Proofs.Request.Polling
import CertBroker.Proofs.Json.Text
import CertBroker.Proofs.Json.Fields
import CertBroker.Proofs.Cluster.Wire
import CertBroker.Proofs.Pki.Wire
import CertBroker.Proofs.Der.Written
import CertBroker.Proofs.X509.Written
import CertBroker.Proofs.Pass.Attributes
import CertBroker.Proofs.TrustChain.Leaf
import CertBroker.Proofs.Net.PercentCode
import CertBroker.Proofs.Net.UrlPath
import CertBroker.Proofs.Net.UrlParts
import CertBroker.Proofs.Pki.BaseUrl
import CertBroker.Proofs.Pki.Addressing
import CertBroker.Proofs.Pki.RequestPath
import CertBroker.Proofs.Cluster.Entries
import CertBroker.Proofs.Pass.Conditions
import CertBroker.Proofs.Pki.Body
