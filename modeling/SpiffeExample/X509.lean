import Mathlib.Data.Finset.Card

namespace SpiffeExample
set_option autoImplicit true

abbrev Bytes := List UInt8

abbrev Date := Int

inductive Throwable where
  | nullPointerException
  | classCastException
  | arrayIndexOutOfBoundsException
  | ioException
  | certificateParsingException
  | certPathValidatorException
  | invalidAlgorithmParameterException
  | noSuchAlgorithmException
  | invalidKeySpecException
  | illegalArgumentException (message : String)
  | illegalAccessError (message : String)
  | certificateException (message : String)
  | certificateExceptionOf (cause : Throwable)
  | illegalStateException (cause : Throwable)
  | runtimeException (cause : Throwable)
  deriving DecidableEq

/-- Instances of `java.security.cert.CertificateException`, subclasses included. -/
def Throwable.isCertificateException : Throwable → Bool
  | .certificateException _ | .certificateExceptionOf _ | .certificateParsingException => true
  | _ => false

def dereference : Option α → Except Throwable α
  | none => .error .nullPointerException
  | some a => .ok a

/-- The kinds of general name, in the order of their numbers 0 to 8. -/
inductive GeneralNameType where
  | otherName
  | rfc822Name
  | dNSName
  | x400Address
  | directoryName
  | ediPartyName
  | uniformResourceIdentifier
  | iPAddress
  | registeredID
  deriving DecidableEq

inductive SanValue where
  | string (s : String)
  | bytes (b : Bytes)
  deriving DecidableEq

structure GeneralName where
  type : GeneralNameType
  value : SanValue
  deriving DecidableEq

def GeneralName.stringValue (san : GeneralName) : Except Throwable String :=
  match san.value with
  | .string s => .ok s
  | .bytes _ => .error .classCastException

theorem GeneralName.stringValue_eq_ok {san : GeneralName} :
    san.stringValue = .ok s ↔ san.value = .string s := by
  cases h : san.value with
  | string v =>
    simp only [GeneralName.stringValue, h, Except.ok.injEq, SanValue.string.injEq]
  | bytes b =>
    simp only [GeneralName.stringValue, h, reduceCtorEq]

inductive SanExtension where
  | malformed
  | absent
  | names (sans : List GeneralName)
  deriving DecidableEq

/-- Two certificates are equal when their encodings are; the other fields are read from it. -/
structure X509Certificate where
  encoded : Bytes
  notAfter : Date
  san : SanExtension
  deriving DecidableEq

def X509Certificate.getSubjectAlternativeNames (certificate : X509Certificate) :
    Except Throwable (Option (List GeneralName)) :=
  match certificate.san with
  | .malformed => .error .certificateParsingException
  | .absent => .ok none
  | .names sans => .ok (some sans)

structure PrivateKey where
  algorithm : String
  encoded : Bytes
  deriving DecidableEq

structure TrustAnchor where
  trustedCert : X509Certificate
  nameConstraints : Option Bytes
  deriving DecidableEq

structure PKIXParameters where
  trustAnchors : Finset TrustAnchor
  revocationEnabled : Bool
  deriving DecidableEq

/-- The constructor refuses an empty set of anchors. -/
def PKIXParameters.new (trustAnchors : Finset TrustAnchor) : Except Throwable PKIXParameters :=
  if trustAnchors.card = 0 then .error .invalidAlgorithmParameterException
  else .ok ⟨trustAnchors, true⟩

structure Jca where
  generateCertificate : Bytes → Except Throwable X509Certificate
  generateCertificates : Bytes → Except Throwable (List X509Certificate)
  generatePrivate : Bytes → Except Throwable PrivateKey
  certPathValidator : List X509Certificate → PKIXParameters → Except Throwable Unit

/-- `StringUtils.startsWith` on a string that is not null. -/
def startsWith (str start : String) : Bool := start.toList.isPrefixOf str.toList

end SpiffeExample
