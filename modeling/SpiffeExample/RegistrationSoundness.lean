import SpiffeExample.RegistrationExchanges
import Mathlib.Data.Set.Insert

namespace SpiffeExample.Registration
set_option autoImplicit true
open GoJson

/-- The text decodes to a list of these entries without error. -/
def Lists (dat : String) (entries : List (Option RegistrationEntry)) : Prop :=
  ∃ target, unmarshal (.pointer .zero (.struct RegistrationEntries.Target.fields)) dat
      (some .zero) = (some target, none) ∧ target.read.entries.getD [] = entries

/-- Each entry was created, and the one that was then fetched is equal to it, where the response
to the first is related to the second request. -/
inductive Rounds (Under : String → Request → Prop) :
    List (Option RegistrationEntry) → List Exchange → Prop where
  | nil : Rounds Under [] []
  | cons (hu : Under created req) (hf : Shows fetched registeredEntry)
      (h : Rounds Under entries trace) :
      Rounds Under (registeredEntry :: entries)
        ((posted registeredEntry, .ok created) :: (req, .ok fetched) :: trace)

/-- The request is made under an ID that the response gives. -/
def UnderGivenID (created : String) (req : Request) : Prop :=
  ∃ entityID, givenID created = some entityID ∧ entityID ≠ "" ∧ Names req entityID

/-- Success is only reported of a file that was decoded, and of entries that were registered. -/
def Sound (srv : Server σ) (file : Except String String) (server : σ) : Prop :=
  allOK ∈ (main srv file server).2.printed →
    ∃ dat entries, file = .ok dat ∧ Lists dat entries ∧
      Rounds UnderGivenID entries (main srv file server).2.exchanges

theorem lists_of_decodeFile (h : decodeFile dat = (some entries, none)) :
    Lists dat (entries.entries.getD []) := by
  rw [decodeFile] at h
  cases hu : unmarshal (.pointer .zero (.struct RegistrationEntries.Target.fields)) dat
      (some .zero) with
  | mk target err =>
    rw [hu] at h
    cases target with
    | none => cases h
    | some target =>
      cases h
      exact ⟨target, hu, rfl⟩

theorem decoded_of_lists (h : Lists dat entries) : (decodeFile dat).2 = none := by
  obtain ⟨target, hu, _⟩ := h
  rw [decodeFile, hu]

theorem Rounds.imp (h : Rounds P entries trace)
    (hi : ∀ registeredEntry created req, (posted registeredEntry, .ok created) ∈ trace →
      P created req → Q created req) : Rounds Q entries trace := by
  induction h with
  | nil => exact .nil
  | cons hu hf _ ih =>
    refine .cons (hi _ _ _ List.mem_cons_self hu) hf (ih ?_)
    intro registeredEntry created req hm hp
    exact hi _ _ _ (List.mem_cons_of_mem _ (List.mem_cons_of_mem _ hm)) hp

/-- The response decodes, and the ID that it gives, or the empty one, makes a URL. -/
def Taken (respStr : String) : Prop :=
  DecodesAsID respStr ∧ ∃ url, fetchURL ((givenID respStr).getD "") = .ok url

theorem taken_iff :
    Taken respStr ↔ ∃ entityID url, decodeID respStr = .ok entityID ∧
      fetchURL entityID = .ok url := by
  apply Iff.intro
  · rintro ⟨hd, url, hurl⟩
    exact ⟨_, url, decodeID_eq_ok.2 ⟨hd, rfl⟩, hurl⟩
  · rintro ⟨entityID, url, hid, hurl⟩
    obtain ⟨hd, rfl⟩ := decodeID_eq_ok.1 hid
    exact ⟨hd, url, hurl⟩

/-- The request is made under the ID that the response decodes to. -/
def UnderDecodedID (created : String) (req : Request) : Prop :=
  ∃ entityID url, decodeID created = .ok entityID ∧ fetchURL entityID = .ok url ∧ req = got url

theorem Attempted.rounds (h : Attempted entries trace .allOK) :
    Rounds UnderDecodedID entries trace := by
  generalize he : Ending.allOK = ending at h
  induction h with
  | done => exact .nil
  | notCreated | notAsked | notFetched | mismatch => cases he
  | registered hc hurl hf _ ih =>
    obtain ⟨created, rfl, hid⟩ := hc
    obtain ⟨fetched, rfl, hfound⟩ := hf
    exact .cons ⟨_, _, decodeID_eq_ok.2 hid, hurl, rfl⟩ hfound (ih he)

/-- All that the server answers when an entry is to be created. -/
def AnswersIn (answers : Set String) (srv : Server σ) : Prop :=
  ∀ server registeredEntry respStr,
    (srv server (posted registeredEntry)).1 = .ok respStr → respStr ∈ answers

def entriesOf (dat : String) : List (Option RegistrationEntry) :=
  ((decodeFile dat).1.bind RegistrationEntries.entries).getD []

/-- The file decodes without error where success can be reported at all, and each answer that the
tool goes on with gives an ID, which can stand in a path. -/
structure Soundly (answers : Set String) (dat : String) : Prop where
  decoded : (entriesOf dat = [] ∨ ∃ respStr ∈ answers, Taken respStr) → (decodeFile dat).2 = none
  given : entriesOf dat ≠ [] → ∀ respStr ∈ answers, Taken respStr →
    ∃ entityID, givenID respStr = some entityID ∧ entityID ≠ "" ∧ Plain entityID

theorem entriesOf_eq (h : (decodeFile dat).1 = some entries) :
    entriesOf dat = entries.entries.getD [] := by
  rw [entriesOf, h, Option.bind_some]

theorem answered_mem {srv : Server σ} (ha : AnswersIn answers srv)
    (h : Answered srv (posted registeredEntry, .ok respStr)) : respStr ∈ answers := by
  obtain ⟨server, hs⟩ := h
  exact ha server registeredEntry respStr hs

theorem Rounds.taken {srv : Server σ} (h : Rounds UnderDecodedID entries trace)
    (ha : AnswersIn answers srv) (hans : ∀ x ∈ trace, Answered srv x) (hne : entries ≠ []) :
    ∃ respStr ∈ answers, Taken respStr := by
  cases h with
  | nil => exact absurd rfl hne
  | cons hu _ _ =>
    obtain ⟨id, url, hid, hurl, _⟩ := hu
    exact ⟨_, answered_mem ha (hans _ List.mem_cons_self), taken_iff.2 ⟨id, url, hid, hurl⟩⟩

theorem Rounds.ne_nil (h : Rounds P entries trace) (hx : x ∈ trace) : entries ≠ [] := by
  cases h with
  | nil => cases hx
  | cons => exact List.cons_ne_nil _ _

theorem sound_of_soundly {srv : Server σ} (ha : AnswersIn answers srv) (h : Soundly answers dat) :
    Sound srv (.ok dat) server := by
  intro hp
  cases hd : (decodeFile dat).1 with
  | none =>
    rw [main, hd] at hp
    cases hp
  | some entries =>
    obtain ⟨ending, ht, hans, _, hok⟩ := main_reports srv hd server
    rw [hok.1 hp] at ht
    have hr := ht.rounds
    have he := entriesOf_eq hd
    have hdec : (decodeFile dat).2 = none := by
      apply h.decoded
      rw [he]
      by_cases hnil : entries.entries.getD [] = []
      · exact .inl hnil
      · exact .inr (hr.taken ha hans hnil)
    refine ⟨dat, _, rfl, lists_of_decodeFile (Prod.ext hd hdec), hr.imp ?_⟩
    intro registeredEntry created req hm hu
    have hmem := answered_mem ha (hans _ hm)
    obtain ⟨id, url, hid, hurl, rfl⟩ := hu
    have hnil : entriesOf dat ≠ [] := by
      rw [he]
      exact hr.ne_nil hm
    obtain ⟨id', hgiven, hne, hplain⟩ := h.given hnil created hmem
      (taken_iff.2 ⟨id, url, hid, hurl⟩)
    have hg := (decodeID_eq_ok.1 hid).2
    rw [hgiven] at hg
    cases hg
    exact ⟨_, hgiven, hne, (names_iff_plain hurl).2 hplain⟩

/-- A server that answers every creation alike, and then gives the entries back in turn. -/
def scripted (respStr : String) : Server (List (Option RegistrationEntry)) := fun entries req =>
  match req.method, entries with
  | .post, entries => (.ok respStr, entries)
  | .get, [] => (.error "EOF", [])
  | .get, registeredEntry :: entries =>
    (.ok (marshal (encodePointer RegistrationEntry.encodeExact registeredEntry)), entries)

theorem decodeEntry_exact (registeredEntry : Option RegistrationEntry) :
    decodeEntry (marshal (encodePointer RegistrationEntry.encodeExact registeredEntry)) =
      .ok registeredEntry := by
  cases registeredEntry with
  | none =>
    rw [decodeEntry, unmarshal_marshal]
    rfl
  | some x => exact decodeEntry_marshal Json.Value.noConfusion x.decode_encodeExact

theorem scripted_answers (h : respStr ∈ answers) : AnswersIn answers (scripted respStr) := by
  intro entries registeredEntry respStr' hs
  cases entries <;> cases hs <;> exact h

theorem registerFrom_scripted (h : Taken respStr)
    {w : Tool (List (Option RegistrationEntry))} (hw : w.server = entries) :
    allOK ∈ (registerFrom (scripted respStr) index entries w).2.printed := by
  obtain ⟨entityID, url, hid, hurl⟩ := taken_iff.1 h
  induction entries generalizing index w with
  | nil => exact List.mem_append_right _ (List.mem_singleton.2 rfl)
  | cons registeredEntry entries ih =>
    have hc : scripted respStr w.server (posted registeredEntry) =
        (.ok respStr, registeredEntry :: entries) := by
      rw [hw]
      rfl
    obtain ⟨w', hs, _, he⟩ := registerFrom_answered hc hid hurl rfl
      (decodeEntry_exact registeredEntry) index entries
    rw [he, if_pos rfl]
    exact ih hs

theorem decodeFile_none (h : (decodeFile dat).1 = none) : (decodeFile dat).2 = none := by
  rw [decodeFile, unmarshal] at h ⊢
  cases hp : Json.parse dat.toList with
  | none =>
    rw [hp] at h
    cases h
  | some v =>
    rw [hp] at h
    rw [Decoder.pointer_eq_none (Option.map_eq_none_iff.1 h)]
    rfl

theorem Rounds.head (h : Rounds P entries ((x, .ok created) :: (req, y) :: trace)) :
    P created req := by
  cases h with
  | cons hu _ _ => exact hu

/-- A file that some answer brings to a report is sound with this answer. -/
theorem taken_sound {answers : Set String} (hd : (decodeFile dat).1 = some entries)
    (h : ∀ (srv : Server (List (Option RegistrationEntry))) server, AnswersIn answers srv →
      Sound srv (.ok dat) server)
    (hm : respStr ∈ answers) (ht : Taken respStr) :
    (decodeFile dat).2 = none ∧ (entries.entries.getD [] ≠ [] →
      ∃ entityID, givenID respStr = some entityID ∧ entityID ≠ "" ∧ Plain entityID) := by
  have hp : allOK ∈
      (main (scripted respStr) (.ok dat) (entries.entries.getD [])).2.printed := by
    rw [main, hd]
    exact registerFrom_scripted ht rfl
  obtain ⟨_, entries', hdat, hl, hr⟩ := h _ _ (scripted_answers hm) hp
  cases hdat
  refine ⟨decoded_of_lists hl, fun hne => ?_⟩
  obtain ⟨ending, hat, hans, _, hok⟩ :=
    main_reports (scripted respStr) hd (entries.entries.getD [])
  rw [hok.1 hp] at hat
  have hru := hat.rounds
  generalize (main (scripted respStr) (.ok dat) (entries.entries.getD [])).2.exchanges = trace
    at hr hru hans
  generalize entries.entries.getD [] = es at hru hne
  cases hru with
  | nil => exact absurd rfl hne
  | cons hu _ _ =>
    obtain ⟨id, hgiven, hid, hn⟩ := hr.head
    obtain ⟨id', url, hdec, hurl, rfl⟩ := hu
    have hone := answered_mem (scripted_answers (Set.mem_singleton respStr))
      (hans _ List.mem_cons_self)
    rw [Set.mem_singleton_iff.1 hone] at hgiven hdec
    have hg := (decodeID_eq_ok.1 hdec).2
    rw [hgiven] at hg
    cases hg
    exact ⟨_, hgiven, hid, (names_iff_plain hurl).1 hn⟩

def refusing : Server Unit := fun server _ => (.error "EOF", server)

theorem soundly_of_sound (h : ∀ (σ : Type) (srv : Server σ) (server : σ), AnswersIn answers srv →
    Sound srv (.ok dat) server) : Soundly answers dat := by
  cases hd : (decodeFile dat).1 with
  | none =>
    refine ⟨fun _ => decodeFile_none hd, fun hne => ?_⟩
    rw [entriesOf, hd] at hne
    exact absurd rfl hne
  | some entries =>
    have he := entriesOf_eq hd
    constructor
    · rintro (hnil | ⟨respStr, hm, ht⟩)
      · rw [he] at hnil
        have hp : allOK ∈ (main refusing (.ok dat) ()).2.printed := by
          rw [main, hd]
          dsimp only
          rw [hnil]
          exact List.mem_append_right _ (List.mem_singleton.2 rfl)
        have ha : AnswersIn answers refusing := by
          intro server registeredEntry respStr hs
          cases hs
        obtain ⟨_, entries', hdat, hl, _⟩ := h Unit refusing () ha hp
        cases hdat
        exact decoded_of_lists hl
      · exact (taken_sound hd (h _) hm ht).1
    · intro hne respStr hm ht
      rw [he] at hne
      exact (taken_sound hd (h _) hm ht).2 hne

/-- The reports over a file are sound, whatever a server answers, under just these conditions. -/
theorem sound_iff (file : Except String String) (answers : Set String) :
    (∀ (σ : Type) (srv : Server σ) (server : σ), AnswersIn answers srv →
      Sound srv file server) ↔ ∀ dat, file = .ok dat → Soundly answers dat := by
  apply Iff.intro
  · intro h dat hf
    subst hf
    exact soundly_of_sound h
  · intro h σ srv server ha
    cases file with
    | error err =>
      intro hp
      cases hp
    | ok dat => exact sound_of_soundly ha (h dat rfl)

theorem truncated_reported :
    ¬ Sound canned (.ok "\x7b\"entries\": [") [] := by
  have hd : decodeFile "\x7b\"entries\": [" = (some ⟨none⟩, some .syntaxError) := by
    rw [decodeFile, unmarshal]
    rfl
  intro h
  obtain ⟨dat, entries, he, hl, _⟩ := h (by rw [main, hd]; exact List.mem_singleton.2 rfl)
  cases he
  have hn := decoded_of_lists hl
  rw [hd] at hn
  cases hn

end SpiffeExample.Registration
