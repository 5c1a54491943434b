
namespace CertBroker

/-- The API group of the issuers served. -/
def groupName : String := "pki.microscaler.io"

namespace Annotation

/-- The PKI's id of the submitted request. -/
def requestId : String := "pki.microscaler.io/request-id"

/-- The PKI's id of the issued certificate. -/
def certificateId : String := "pki.microscaler.io/certificate-id"

/-- On a Certificate: the id of the last certificate issued for it. -/
def lastCertificateId : String := "pki.microscaler.io/last-certificate-id"

def owner : String := "pki.microscaler.io/owner"

def team : String := "pki.microscaler.io/team"

def contactEmail : String := "pki.microscaler.io/contact-email"

/-- The beginning of the keys that carry labels. -/
def labelStart : String := "pki.microscaler.io/labels."

/-- On a request: the name of the Certificate it was made for. -/
def certificateName : String := "cert-manager.io/certificate-name"

end Annotation

/-- Keeps a request from disappearing before its certificate is revoked. -/
def finalizerName : String := "pki.microscaler.io/finalizer"

namespace ConditionType

def ready : String := "Ready"

def approved : String := "Approved"

def denied : String := "Denied"

def invalidRequest : String := "InvalidRequest"

def issuing : String := "Issuing"

end ConditionType

namespace Reason

def pending : String := "Pending"

def issued : String := "Issued"

def failed : String := "Failed"

def denied : String := "Denied"

/-- Marks what was decided on the PKI's side. -/
def pki : String := groupName

def firstSeen : String := "FirstSeen"

def success : String := "Success"

def error : String := "Error"

end Reason

end CertBroker
