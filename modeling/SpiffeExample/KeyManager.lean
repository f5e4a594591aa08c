import SpiffeExample.SvidManager

namespace SpiffeExample
set_option autoImplicit true

def ALIAS : String := "Spiffe"

structure SpiffeKeyManager where
  spiffeSVIDManager : SpiffeSVIDManager

namespace SpiffeKeyManager

def getCertificateChain (km : SpiffeKeyManager) (_keyAlias : Option String) :
    List (Option X509Certificate) :=
  [km.spiffeSVIDManager.getSvid]

def getPrivateKey (km : SpiffeKeyManager) (keyAlias : Option String) : Option PrivateKey :=
  if keyAlias ≠ some ALIAS then none else km.spiffeSVIDManager.getPrivateKey

/-- The body of `getAlias`, given what reading the manager's private key returned. -/
def aliasFor (privateKey : Option PrivateKey) (keyTypes : List String) :
    Except Throwable (Option String) := do
  let privateKey ← dereference privateKey
  return if keyTypes.contains privateKey.algorithm then some ALIAS else none

def getAlias (km : SpiffeKeyManager) (keyTypes : List String) :
    Except Throwable (Option String) :=
  aliasFor km.spiffeSVIDManager.getPrivateKey keyTypes

def getAliases (km : SpiffeKeyManager) (keyType : String) :
    Except Throwable (List (Option String)) := do
  let spiffeAlias ← km.getAlias [keyType]
  return [spiffeAlias]

def getClientAliases (km : SpiffeKeyManager) (keyType : String) (_issuers : List Principal) :
    Except Throwable (List (Option String)) := km.getAliases keyType

def chooseClientAlias (km : SpiffeKeyManager) (keyTypes : List String)
    (_issuers : List Principal) (_socket : Socket) : Except Throwable (Option String) :=
  km.getAlias keyTypes

def chooseEngineClientAlias (km : SpiffeKeyManager) (keyTypes : List String)
    (_issuers : List Principal) (_sslEngine : SSLEngine) : Except Throwable (Option String) :=
  km.getAlias keyTypes

def getServerAliases (km : SpiffeKeyManager) (keyType : String) (_issuers : List Principal) :
    Except Throwable (List (Option String)) := km.getAliases keyType

def chooseEngineServerAlias (km : SpiffeKeyManager) (keyType : String)
    (_issuers : List Principal) (_sslEngine : SSLEngine) : Except Throwable (Option String) :=
  km.getAlias [keyType]

def chooseServerAlias (km : SpiffeKeyManager) (keyType : String) (_issuers : List Principal)
    (_socket : Socket) : Except Throwable (Option String) :=
  km.getAlias [keyType]

theorem getPrivateKey_held {km : SpiffeKeyManager}
    (h : km.spiffeSVIDManager.spiffeSVID = some spiffeSVID) :
    km.getPrivateKey (some ALIAS) = some spiffeSVID.privateKey := by
  rw [getPrivateKey, if_neg (not_not_intro rfl), SpiffeSVIDManager.getPrivateKey, h]
  rfl

theorem getAlias_empty {km : SpiffeKeyManager} (h : km.spiffeSVIDManager.spiffeSVID = none)
    (keyTypes : List String) : km.getAlias keyTypes = .error .nullPointerException := by
  rw [getAlias, SpiffeSVIDManager.getPrivateKey, h]
  rfl

theorem getAlias_held {km : SpiffeKeyManager}
    (h : km.spiffeSVIDManager.spiffeSVID = some spiffeSVID) (keyTypes : List String) :
    km.getAlias keyTypes =
      .ok (if keyTypes.contains spiffeSVID.privateKey.algorithm then some ALIAS else none) := by
  rw [getAlias, SpiffeSVIDManager.getPrivateKey, h]
  rfl

theorem getAlias_eq_ok {km : SpiffeKeyManager} (h : km.getAlias keyTypes = .ok (some a)) :
    a = ALIAS ∧ km.spiffeSVIDManager.spiffeSVID ≠ none := by
  cases hm : km.spiffeSVIDManager.spiffeSVID with
  | none =>
    rw [getAlias_empty hm] at h
    cases h
  | some spiffeSVID =>
    rw [getAlias_held hm, Except.ok.injEq, Option.ite_none_right_eq_some] at h
    exact ⟨(Option.some.inj h.2).symm, Option.some_ne_none _⟩

end SpiffeKeyManager
end SpiffeExample
