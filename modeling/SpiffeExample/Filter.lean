import SpiffeExample.CertificateUtils

namespace SpiffeExample
set_option autoImplicit true

structure SpiffeFilter where
  acceptSpiffeId : Option String

/-- What the container answers to the two calls a request can lead to. The compiler excludes
the checked exception that `sendError` does not declare. -/
structure Servlet where
  sendError : Nat → Except Throwable Unit
  chain : Except Throwable Unit
  checked : ∀ status, sendError status ≠ .error .certificateParsingException

def Servlet.silent : Servlet := ⟨fun _ => .ok (), .ok (), fun _ h => nomatch h⟩

namespace SpiffeFilter

inductive Effect where
  | printStackTrace (e : Throwable)
  | sendError (status : Nat)
  | doFilter
  deriving DecidableEq

def init (getInitParameter : String → Option String) : SpiffeFilter :=
  ⟨getInitParameter "accept-spiffe-id"⟩

def spiffeIds (sans : List GeneralName) : Except Throwable (List String) :=
  Pipeline.collect GeneralName.stringValue (startsWith · "spiffe://") sans

def getSpiffeId (certificate : X509Certificate) : Except Throwable (Option String) := do
  let names ← certificate.getSubjectAlternativeNames
  let sans ← dereference names
  let spiffeIds ← spiffeIds sans
  if spiffeIds.length > 1 then
    .error (.illegalArgumentException "Certificate contains multiple SpiffeID. Not Supported ")
  else return spiffeIds.head?

/-- The body of the `try` block, with the calls it made. -/
def authorize (f : SpiffeFilter) (servlet : Servlet) (certificate : X509Certificate) :
    List Effect × Except Throwable Unit :=
  match getSpiffeId certificate with
  | .error e => ([], .error e)
  | .ok none => ([], .error (.illegalAccessError "SpiffeID not found"))
  | .ok (some spiffeID) =>
    if some spiffeID ≠ f.acceptSpiffeId then
      match servlet.sendError 403 with
      | .error e => ([.sendError 403], .error e)
      | .ok () => ([.sendError 403], .error (.illegalAccessError "SpiffeID not authorized"))
    else ([], .ok ())

/-- The request is passed on after the `if`, whichever way it was left. -/
def doFilter (f : SpiffeFilter) (servlet : Servlet)
    (certificates : Option (List X509Certificate)) : List Effect × Except Throwable Unit :=
  match certificates with
  | none => ([], .error .nullPointerException)
  | some [] => ([.doFilter], servlet.chain)
  | some (certificate :: _) =>
    match f.authorize servlet certificate with
    | (effects, .ok ()) => (effects ++ [.doFilter], servlet.chain)
    | (effects, .error .certificateParsingException) =>
      (effects ++ [.printStackTrace .certificateParsingException, .doFilter], servlet.chain)
    | (effects, .error e) => (effects, .error e)

def Passes (f : SpiffeFilter) (servlet : Servlet) (certificates : Option (List X509Certificate)) :
    Prop :=
  Effect.doFilter ∈ (f.doFilter servlet certificates).1

end SpiffeFilter
end SpiffeExample
