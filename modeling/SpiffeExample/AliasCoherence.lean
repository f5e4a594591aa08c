import SpiffeExample.KeyManager

namespace SpiffeExample.SpiffeKeyManager
set_option autoImplicit true

/-- What a peer that asks for one of the key types finds behind the alias `a`. -/
structure Presents (km : SpiffeKeyManager) (keyTypes : List String) (a : String) : Prop where
  getPrivateKey : ∃ privateKey, km.getPrivateKey (some a) = some privateKey ∧
    privateKey.algorithm ∈ keyTypes
  getCertificateChain : none ∉ km.getCertificateChain (some a)
  leaf : ∃ svid, km.spiffeSVIDManager.getSvid = some svid ∧
    (km.getCertificateChain (some a)).head? = some (some svid)

/-- There is no SVID, or its key is of none of the types. -/
def Unmatched (km : SpiffeKeyManager) (keyTypes : List String) : Prop :=
  ∀ privateKey, km.spiffeSVIDManager.getPrivateKey = some privateKey →
    privateKey.algorithm ∉ keyTypes

structure Chooses (km : SpiffeKeyManager) (keyTypes : List String)
    (result : Except Throwable (Option String)) : Prop where
  returns : ∃ r, result = .ok r
  presents : ∀ a, result = .ok (some a) → km.Presents keyTypes a
  unmatched : km.Unmatched keyTypes → result = .ok none

structure Lists (km : SpiffeKeyManager) (keyTypes : List String)
    (result : Except Throwable (List (Option String))) : Prop where
  returns : ∃ r, result = .ok r
  presents : ∀ aliases, result = .ok aliases →
    none ∉ aliases ∧ ∀ a, some a ∈ aliases → km.Presents keyTypes a
  unmatched : km.Unmatched keyTypes → result = .ok []

theorem getAlias_matched {km : SpiffeKeyManager}
    (h : km.spiffeSVIDManager.spiffeSVID = some spiffeSVID)
    (hk : spiffeSVID.privateKey.algorithm ∈ keyTypes) :
    km.getAlias keyTypes = .ok (some ALIAS) := by
  rw [getAlias_held h, if_pos (List.contains_iff_mem.2 hk)]

theorem getAlias_unmatched {km : SpiffeKeyManager}
    (h : km.spiffeSVIDManager.spiffeSVID = some spiffeSVID)
    (hk : spiffeSVID.privateKey.algorithm ∉ keyTypes) : km.getAlias keyTypes = .ok none := by
  rw [getAlias_held h, if_neg (fun hc => hk (List.contains_iff_mem.1 hc))]

theorem presents_alias {km : SpiffeKeyManager}
    (h : km.spiffeSVIDManager.spiffeSVID = some spiffeSVID)
    (hk : spiffeSVID.privateKey.algorithm ∈ keyTypes) : km.Presents keyTypes ALIAS := by
  have hs : km.spiffeSVIDManager.getSvid = some spiffeSVID.svid := by
    rw [SpiffeSVIDManager.getSvid, h]
    rfl
  have hc : km.getCertificateChain (some ALIAS) = [some spiffeSVID.svid] := by
    rw [getCertificateChain, hs]
  apply Presents.mk
  · exact ⟨spiffeSVID.privateKey, getPrivateKey_held h, hk⟩
  · rw [hc, List.mem_singleton]
    exact (Option.some_ne_none _).symm
  · exact ⟨spiffeSVID.svid, hs, hc ▸ rfl⟩

theorem unmatched_held {km : SpiffeKeyManager}
    (h : km.spiffeSVIDManager.spiffeSVID = some spiffeSVID) (hu : km.Unmatched keyTypes) :
    spiffeSVID.privateKey.algorithm ∉ keyTypes := by
  apply hu
  rw [SpiffeSVIDManager.getPrivateKey, h]
  rfl

theorem chooses_held {km : SpiffeKeyManager}
    (h : km.spiffeSVIDManager.spiffeSVID = some spiffeSVID) (keyTypes : List String) :
    km.Chooses keyTypes (km.getAlias keyTypes) := by
  by_cases hk : spiffeSVID.privateKey.algorithm ∈ keyTypes
  · rw [getAlias_matched h hk]
    refine ⟨⟨_, rfl⟩, ?_, fun hu => absurd hk (unmatched_held h hu)⟩
    intro a ha
    cases ha
    exact presents_alias h hk
  · rw [getAlias_unmatched h hk]
    refine ⟨⟨_, rfl⟩, ?_, fun _ => rfl⟩
    intro a ha
    cases ha

theorem lists_matched {km : SpiffeKeyManager}
    (h : km.spiffeSVIDManager.spiffeSVID = some spiffeSVID) :
    km.Lists [spiffeSVID.privateKey.algorithm]
      (km.getAliases spiffeSVID.privateKey.algorithm) := by
  have hk := List.mem_singleton_self spiffeSVID.privateKey.algorithm
  rw [getAliases, getAlias_matched h hk]
  refine ⟨⟨_, rfl⟩, ?_, fun hu => absurd hk (unmatched_held h hu)⟩
  intro aliases ha
  cases ha
  apply And.intro
  · intro hm
    cases List.mem_singleton.1 hm
  · intro a ha
    cases List.mem_singleton.1 ha
    exact presents_alias h hk

/-- The helper of the `choose` methods is coherent once there is an SVID. -/
theorem chooses_getAlias (km : SpiffeKeyManager) (keyTypes : List String) :
    km.Chooses keyTypes (km.getAlias keyTypes) ↔ km.spiffeSVIDManager.spiffeSVID ≠ none := by
  apply Iff.intro
  · intro hc h
    obtain ⟨r, hr⟩ := hc.returns
    rw [getAlias_empty h] at hr
    cases hr
  · intro hn
    obtain ⟨spiffeSVID, h⟩ := Option.ne_none_iff_exists'.1 hn
    exact chooses_held h keyTypes

/-- The helper of the `get` methods always lists one entry, which is null without a match. -/
theorem lists_getAliases (km : SpiffeKeyManager) (keyType : String) :
    km.Lists [keyType] (km.getAliases keyType) ↔
      ∃ spiffeSVID, km.spiffeSVIDManager.spiffeSVID = some spiffeSVID ∧
        spiffeSVID.privateKey.algorithm = keyType := by
  apply Iff.intro
  · intro hl
    cases h : km.spiffeSVIDManager.spiffeSVID with
    | none =>
      obtain ⟨r, hr⟩ := hl.returns
      rw [getAliases, getAlias_empty h] at hr
      cases hr
    | some spiffeSVID =>
      refine ⟨spiffeSVID, rfl, ?_⟩
      by_contra hk
      have hu := getAlias_unmatched h (fun hm => hk (List.mem_singleton.1 hm))
      rw [getAliases, hu] at hl
      exact (hl.presents _ rfl).1 (List.mem_singleton_self none)
  · intro hs
    obtain ⟨spiffeSVID, h, rfl⟩ := hs
    exact lists_matched h

/-- After any run the `choose` methods are coherent exactly when some push has published, and
the `get` methods exactly when the key then published has the type that is asked for. -/
theorem aliases_coherent_iff (km : SpiffeKeyManager) (hi : (Identity.system jca).init s)
    (hr : (Identity.system jca).run s events = some ⟨now, km.spiffeSVIDManager⟩) :
    (∀ keyTypes (issuers : List Principal) (socket : Socket),
      km.Chooses keyTypes (km.chooseClientAlias keyTypes issuers socket) ↔
        lastPush jca s.clock events ≠ none) ∧
    (∀ keyTypes (issuers : List Principal) (sslEngine : SSLEngine),
      km.Chooses keyTypes (km.chooseEngineClientAlias keyTypes issuers sslEngine) ↔
        lastPush jca s.clock events ≠ none) ∧
    (∀ keyType (issuers : List Principal) (socket : Socket),
      km.Chooses [keyType] (km.chooseServerAlias keyType issuers socket) ↔
        lastPush jca s.clock events ≠ none) ∧
    (∀ keyType (issuers : List Principal) (sslEngine : SSLEngine),
      km.Chooses [keyType] (km.chooseEngineServerAlias keyType issuers sslEngine) ↔
        lastPush jca s.clock events ≠ none) ∧
    (∀ keyType (issuers : List Principal),
      km.Lists [keyType] (km.getClientAliases keyType issuers) ↔
        ∃ p, lastPush jca s.clock events = some p ∧ p.2.privateKey.algorithm = keyType) ∧
    ∀ keyType (issuers : List Principal),
      km.Lists [keyType] (km.getServerAliases keyType issuers) ↔
        ∃ p, lastPush jca s.clock events = some p ∧ p.2.privateKey.algorithm = keyType := by
  have hm : km.spiffeSVIDManager.spiffeSVID = (lastPush jca s.clock events).map Prod.snd :=
    Identity.run_lastPush hi hr
  have hc (keyTypes : List String) : km.Chooses keyTypes (km.getAlias keyTypes) ↔
      lastPush jca s.clock events ≠ none := by
    rw [chooses_getAlias, hm, Ne, Option.map_eq_none_iff]
  have hl (keyType : String) : km.Lists [keyType] (km.getAliases keyType) ↔
      ∃ p, lastPush jca s.clock events = some p ∧ p.2.privateKey.algorithm = keyType := by
    rw [lists_getAliases, hm]
    apply Iff.intro
    · intro h
      obtain ⟨spiffeSVID, hs, hk⟩ := h
      obtain ⟨p, hp, rfl⟩ := Option.map_eq_some_iff.1 hs
      exact ⟨p, hp, hk⟩
    · intro h
      obtain ⟨p, hp, hk⟩ := h
      exact ⟨p.2, hp ▸ rfl, hk⟩
  exact ⟨fun keyTypes _ _ => hc keyTypes, fun keyTypes _ _ => hc keyTypes,
    fun keyType _ _ => hc [keyType], fun keyType _ _ => hc [keyType],
    fun keyType _ => hl keyType, fun keyType _ => hl keyType⟩

theorem aliases_coherent_after_push :
    Chooses ⟨Identity.sample.manager⟩ ["RSA", "EC"]
      (chooseEngineClientAlias ⟨Identity.sample.manager⟩ ["RSA", "EC"] ([] : List Unit) ()) ∧
    Lists ⟨Identity.sample.manager⟩ ["EC"]
      (getServerAliases ⟨Identity.sample.manager⟩ "EC" ([] : List Unit)) := by
  have hi : (Identity.system .sample).init ⟨0, ⟨none⟩⟩ := rfl
  have hr : (Identity.system .sample).run ⟨0, ⟨none⟩⟩ [.push [.sample], .push []] =
      some .sample := rfl
  have hl : ∃ p, lastPush .sample 0 [.push [.sample], .push []] = some p ∧
      p.2.privateKey.algorithm = "EC" := ⟨_, rfl, rfl⟩
  obtain ⟨_, hc, _, _, _, hs⟩ :=
    @aliases_coherent_iff _ _ _ _ Unit Unit Unit ⟨Identity.sample.manager⟩ hi hr
  refine ⟨(hc ["RSA", "EC"] [] ()).2 ?_, (hs "EC" []).2 hl⟩
  obtain ⟨p, hp, _⟩ := hl
  intro hn
  cases hn.symm.trans hp

/-- Before the first push the key manager throws, and afterwards it lists a null alias to a peer
that asks for another type of key. -/
theorem aliases_incoherent :
    (∃ km : SpiffeKeyManager, km.spiffeSVIDManager.spiffeSVID = none ∧
      ¬ km.Chooses ["EC"] (km.chooseEngineServerAlias "EC" ([] : List Unit) ())) ∧
    ¬ Lists ⟨Identity.sample.manager⟩ ["RSA"]
      (getServerAliases ⟨Identity.sample.manager⟩ "RSA" ([] : List Unit)) := by
  apply And.intro
  · refine ⟨⟨⟨none⟩⟩, rfl, ?_⟩
    intro h
    obtain ⟨r, hr⟩ := h.returns
    cases hr
  · intro h
    exact (h.presents [none] rfl).1 (List.mem_singleton_self none)

end SpiffeExample.SpiffeKeyManager
