import SpiffeExample.RegistrationEncoding
import SpiffeExample.RegistrationResponses

namespace SpiffeExample.Registration
set_option autoImplicit true
open GoJson
open GoUrl (bytes)

def allOK : String := "All OK!\n"

def postRequest (body : String) : Request where
  method := .post
  url := ⟨bytes "http", bytes "spire:8080", bytes "/entry", bytes "/entry", none, []⟩
  contentType := "application/json"
  body := body

/-- The request that creates an entry. -/
def posted (registeredEntry : Option RegistrationEntry) : Request :=
  postRequest (marshal (encodePointer RegistrationEntry.encode registeredEntry))

/-- The request that fetches an entry. -/
def got (url : GoUrl.URL) : Request := ⟨.get, url, "application/json", ""⟩

def fetchURL (entityID : String) : Except GoUrl.ParseError GoUrl.URL :=
  GoUrl.parse (bytes (entryURL ++ "/" ++ entityID))

/-- The request asks for the entry with this ID. -/
structure Names (req : Request) (entityID : String) : Prop where
  method : req.method = .get
  host : req.url.host = bytes "spire:8080"
  path : req.url.path = bytes "/entry/" ++ bytes entityID
  query : req.url.query = none

/-- An ID that can stand in a path as it is. -/
def Plain (entityID : String) : Prop := GoUrl.Plain (bytes entityID)

theorem entryURL_authority :
    GoUrl.Authority (bytes "http") (bytes "spire:8080") := by
  constructor <;> decide +kernel

theorem bytes_entryURL : bytes entryURL =
    GoUrl.absolute (bytes "http") (bytes "spire:8080") (bytes "entry") := by
  decide +kernel

theorem bytes_entryURL_slash : bytes (entryURL ++ "/") =
    GoUrl.absolute (bytes "http") (bytes "spire:8080") (bytes "entry/") := by
  decide +kernel

theorem bytes_entry : bytes "/entry" = GoUrl.slash :: bytes "entry" := by
  decide +kernel

theorem bytes_entry_slash :
    bytes "/entry/" = GoUrl.slash :: bytes "entry/" := by
  decide +kernel

theorem bytes_fetch (entityID : String) : bytes (entryURL ++ "/" ++ entityID) =
    GoUrl.absolute (bytes "http") (bytes "spire:8080")
      (bytes "entry/" ++ bytes entityID) := by
  rw [GoUrl.bytes_append, bytes_entryURL_slash]
  simp only [GoUrl.absolute, List.append_assoc, List.cons_append]

theorem createRequest_eq (registeredEntry : Option RegistrationEntry) :
    createRequest registeredEntry = .ok (posted registeredEntry) := by
  have hp : GoUrl.Plain (bytes "entry") := by constructor <;> decide +kernel
  rw [createRequest, newRequest, bytes_entryURL, GoUrl.parse_of_plain entryURL_authority hp,
    ← bytes_entry]
  rfl

theorem plain_path (entityID : String) :
    GoUrl.Plain (bytes "entry/" ++ bytes entityID) ↔ Plain entityID := by
  have hn : ∀ c : UInt8, c ∉ bytes "entry/" →
      (c ∈ bytes "entry/" ++ bytes entityID ↔ c ∈ bytes entityID) := by
    intro c hc
    rw [List.mem_append, or_iff_right hc]
  have hpercent := hn GoUrl.percent (by decide +kernel)
  have hquestion := hn GoUrl.question (by decide +kernel)
  have hhash := hn GoUrl.hash (by decide +kernel)
  apply Iff.intro
  · intro h
    exact ⟨hpercent.not.1 h.percent, hquestion.not.1 h.question, hhash.not.1 h.hash⟩
  · intro h
    exact ⟨hpercent.not.2 h.percent, hquestion.not.2 h.question, hhash.not.2 h.hash⟩

theorem fetchRequest_eq (entityID : String) :
    fetchRequest entityID = (fetchURL entityID).map got := by
  rw [fetchRequest, newRequest]
  rfl

/-- An entry is asked for under a plain ID. -/
theorem fetchURL_plain (h : Plain entityID) :
    ∃ url, fetchURL entityID = .ok url ∧ Names (got url) entityID := by
  rw [fetchURL, bytes_fetch, GoUrl.parse_of_plain entryURL_authority ((plain_path entityID).2 h)]
  refine ⟨_, rfl, rfl, rfl, ?_, rfl⟩
  rw [bytes_entry_slash, List.cons_append]
  rfl

theorem plain_of_fetchURL (h : fetchURL entityID = .ok url)
    (hpath : url.path = bytes "/entry/" ++ bytes entityID) : Plain entityID := by
  rw [bytes_entry_slash, List.cons_append] at hpath
  rw [fetchURL, bytes_fetch] at h
  exact (plain_path entityID).1 (GoUrl.plain_of_parse entryURL_authority h hpath)

/-- What is asked for under an ID is the entry with this ID where the ID is plain only. -/
theorem names_iff_plain (h : fetchURL entityID = .ok url) :
    Names (got url) entityID ↔ Plain entityID := by
  apply Iff.intro
  · intro hn
    exact plain_of_fetchURL h hn.path
  · intro hp
    obtain ⟨url', hurl, hn⟩ := fetchURL_plain hp
    rw [h] at hurl
    cases hurl
    exact hn

theorem line_ne_allOK (hp : (p.toList.head?.any fun c => c ≠ 'A') = true) :
    p ++ s ++ t ≠ allOK := by
  intro h
  have ha : allOK.toList.head? = some 'A' := rfl
  rw [← h] at ha
  cases hl : p.toList with
  | nil =>
    rw [hl] at hp
    cases hp
  | cons c cs =>
    rw [hl] at hp
    rw [String.toList_append, String.toList_append, hl] at ha
    cases ha
    cases hp

theorem printf_quiet {σ : Type} {w : Tool σ} (h : line ≠ allOK) :
    allOK ∈ (w.printf line).printed ↔ allOK ∈ w.printed := by
  simp only [Tool.printf, List.mem_append, List.mem_singleton, h.symm, or_false]

section
variable {σ : Type} {srv : Server σ} {w : Tool σ} {decode : String → Except Failure α}

theorem invoke_quiet (h : invoke srv req invoking returned decode w = (r, w'))
    (hi : invoking ≠ allOK) (hr : ∀ respStr, returned ++ respStr ++ "\n" ≠ allOK) :
    allOK ∈ w'.printed ↔ allOK ∈ w.printed := by
  have hq := @printf_quiet invoking σ w hi
  cases req with
  | error err =>
    cases h
    exact hq
  | ok req =>
    rw [invoke, Tool.exchange] at h
    cases he : (srv (w.printf invoking).server req).1 with
    | error err =>
      rw [he] at h
      cases h
      exact hq
    | ok respStr =>
      rw [he] at h
      cases h
      exact (printf_quiet (hr respStr)).trans hq

theorem createEntry_quiet (h : createEntry srv registeredEntry w = (r, w')) :
    allOK ∈ w'.printed ↔ allOK ∈ w.printed := by
  apply invoke_quiet h
  · exact line_ne_allOK rfl
  · intro respStr
    exact line_ne_allOK rfl

theorem validateEntry_quiet (h : validateEntry srv entityID registeredEntry w = (r, w')) :
    allOK ∈ w'.printed ↔ allOK ∈ w.printed := by
  apply invoke_quiet h
  · exact line_ne_allOK rfl
  · intro respStr
    exact line_ne_allOK rfl

end

theorem fetched_ne_allOK (entityID verdict : String) :
    "Fetched entity " ++ entityID ++ verdict ≠ allOK :=
  line_ne_allOK rfl

/-- A request that is answered. -/
theorem invoke_answered {srv : Server σ} {decode : String → Except Failure α} {w : Tool σ}
    (h : srv w.server req = (.ok respStr, server)) (hd : decode respStr = .ok a) :
    ∃ w', invoke srv (.ok req) invoking returned decode w = (.ok a, w') ∧
      w'.server = server := by
  have hs : srv (w.printf invoking).server req = (.ok respStr, server) := h
  rw [invoke, Tool.exchange, hs]
  exact ⟨_, Prod.ext hd rfl, rfl⟩

theorem createEntry_answered {srv : Server σ} {w : Tool σ}
    (h : srv w.server (posted registeredEntry) = (.ok respStr, server))
    (hid : decodeID respStr = .ok entityID) :
    ∃ w', createEntry srv registeredEntry w = (.ok entityID, w') ∧ w'.server = server := by
  rw [createEntry, createRequest_eq]
  exact invoke_answered h hid

abbrev creating (index : Nat) : String := "Creating entry #" ++ (index + 1).repr ++ "...\n"

theorem creating_ne_allOK (index : Nat) : creating index ≠ allOK :=
  line_ne_allOK rfl

section
variable {σ : Type} {srv : Server σ} {w w₁ w₂ : Tool σ}

theorem registerFrom_notCreated
    (hc : createEntry srv e (w.printf (creating index)) = (.error err, w₁))
    (es : List (Option RegistrationEntry)) :
    registerFrom srv index (e :: es) w = (.panicked, w₁) := by
  rw [registerFrom, hc]

theorem registerFrom_notFetched
    (hc : createEntry srv e (w.printf (creating index)) = (.ok entityID, w₁))
    (hv : validateEntry srv entityID e w₁ = (.error err, w₂))
    (es : List (Option RegistrationEntry)) :
    registerFrom srv index (e :: es) w = (.panicked, w₂) := by
  rw [registerFrom, hc]
  dsimp only
  rw [hv]

/-- What comes back is compared, and only then it is said whether the round is the last one. -/
theorem registerFrom_fetched
    (hc : createEntry srv e (w.printf (creating index)) = (.ok entityID, w₁))
    (hv : validateEntry srv entityID e w₁ = (.ok (deepEqual found e), w₂))
    (es : List (Option RegistrationEntry)) :
    ∃ verdict, registerFrom srv index (e :: es) w =
      if found = e then
        registerFrom srv (index + 1) es (w₂.printf ("Fetched entity " ++ entityID ++ verdict))
      else (.returned, w₂.printf ("Fetched entity " ++ entityID ++ verdict)) := by
  rw [registerFrom, hc]
  dsimp only
  rw [hv]
  by_cases he : found = e
  · have hd : deepEqual found e = true := decide_eq_true he
    refine ⟨" is OK!\n\n", ?_⟩
    rw [if_pos he, hd]
  · have hd : deepEqual found e = false := decide_eq_false he
    refine ⟨" mismatch! Aborting...\n", ?_⟩
    rw [if_neg he, hd]

/-- A round with a server that answers goes on exactly when it gives the entry back. -/
theorem registerFrom_answered
    (hc : srv w.server (posted registeredEntry) = (.ok created, server₁))
    (hid : decodeID created = .ok entityID) (hurl : fetchURL entityID = .ok url)
    (hv : srv server₁ (got url) = (.ok fetched, server₂))
    (hf : decodeEntry fetched = .ok found) (index : Nat)
    (entries : List (Option RegistrationEntry)) :
    ∃ w', w'.server = server₂ ∧ (allOK ∈ w'.printed ↔ allOK ∈ w.printed) ∧
      registerFrom srv index (registeredEntry :: entries) w =
        if found = registeredEntry then registerFrom srv (index + 1) entries w'
        else (.returned, w') := by
  have hq := @printf_quiet _ σ w (creating_ne_allOK index)
  obtain ⟨w₁, hce, rfl⟩ := createEntry_answered (w := w.printf (creating index)) hc hid
  have hve : ∃ w₂, validateEntry srv entityID registeredEntry w₁ =
      (.ok (deepEqual found registeredEntry), w₂) ∧ w₂.server = server₂ := by
    rw [validateEntry, fetchRequest_eq, hurl]
    apply invoke_answered hv
    rw [hf]
    rfl
  obtain ⟨w₂, hve, hs₂⟩ := hve
  have hq₂ := (validateEntry_quiet hve).trans ((createEntry_quiet hce).trans hq)
  obtain ⟨verdict, he⟩ := registerFrom_fetched hce hve entries
  exact ⟨w₂.printf ("Fetched entity " ++ entityID ++ verdict), hs₂,
    (printf_quiet (fetched_ne_allOK entityID verdict)).trans hq₂, he⟩

/-- A round whose fetch fails. -/
theorem registerFrom_unfetched
    (hc : srv w.server (posted registeredEntry) = (.ok created, server₁))
    (hid : decodeID created = .ok entityID)
    (hf : ∀ url, fetchURL entityID = .ok url → ∃ err, (srv server₁ (got url)).1 = .error err)
    (index : Nat) (entries : List (Option RegistrationEntry)) :
    (registerFrom srv index (registeredEntry :: entries) w).1 = .panicked := by
  obtain ⟨w₁, hce, rfl⟩ := createEntry_answered (w := w.printf (creating index)) hc hid
  have hve : ∃ err w₂, validateEntry srv entityID registeredEntry w₁ = (.error err, w₂) := by
    rw [validateEntry, fetchRequest_eq]
    cases hurl : fetchURL entityID with
    | error err => exact ⟨_, _, rfl⟩
    | ok url =>
      obtain ⟨err, he⟩ := hf url hurl
      have he' : (srv (w₁.printf ("Invoking FetchEntry: " ++ entityID ++ "\n")).server
          (got url)).1 = .error err := he
      rw [Except.map, invoke, Tool.exchange, he']
      exact ⟨_, _, rfl⟩
  obtain ⟨err, w₂, hve⟩ := hve
  rw [registerFrom_notFetched hce hve]

end

/-- What a response decodes to, where there is one and it decodes. -/
def reply (decode : String → Except Failure α) : Except HttpError String → Option α
  | .error _ => none
  | .ok respStr => (decode respStr).toOption

theorem reply_eq_some {decode : String → Except Failure α} :
    reply decode resp = some a ↔ ∃ respStr, resp = .ok respStr ∧ decode respStr = .ok a := by
  apply Iff.intro
  · intro h
    cases resp with
    | error err => cases h
    | ok respStr =>
      rw [reply] at h
      cases hd : decode respStr with
      | error err =>
        rw [hd] at h
        cases h
      | ok b =>
        rw [hd] at h
        cases h
        exact ⟨respStr, rfl, hd⟩
  · rintro ⟨respStr, rfl, hd⟩
    rw [reply, hd]
    rfl

/-- The response comes and decodes; where it gives no ID, the ID is the empty one. -/
def Gives (resp : Except HttpError String) (entityID : String) : Prop :=
  ∃ respStr, resp = .ok respStr ∧ DecodesAsID respStr ∧ (givenID respStr).getD "" = entityID

/-- The response comes and is this entry. -/
def Brings (resp : Except HttpError String) (registeredEntry : Option RegistrationEntry) : Prop :=
  ∃ respStr, resp = .ok respStr ∧ Shows respStr registeredEntry

theorem reply_decodeID : reply decodeID resp = some entityID ↔ Gives resp entityID := by
  simp only [reply_eq_some, decodeID_eq_ok, Gives]

theorem reply_decodeEntry :
    reply decodeEntry resp = some registeredEntry ↔ Brings resp registeredEntry := by
  simp only [reply_eq_some, decodeEntry_eq_ok, Brings]

inductive Ending where
  | allOK
  | mismatch
  | panicked
  deriving DecidableEq

def Ending.outcome : Ending → Outcome
  | .allOK | .mismatch => .returned
  | .panicked => .panicked

/-- All that the tool sends, by what comes back. -/
inductive Attempted : List (Option RegistrationEntry) → List Exchange → Ending → Prop where
  | done : Attempted [] [] .allOK
  | notCreated (hc : ∀ entityID, ¬ Gives created entityID) :
      Attempted (e :: es) [(posted e, created)] .panicked
  | notAsked (hc : Gives created entityID) (hurl : fetchURL entityID = .error err) :
      Attempted (e :: es) [(posted e, created)] .panicked
  | notFetched (hc : Gives created entityID) (hurl : fetchURL entityID = .ok url)
      (hf : ∀ found, ¬ Brings fetched found) :
      Attempted (e :: es) [(posted e, created), (got url, fetched)] .panicked
  | mismatch (hc : Gives created entityID) (hurl : fetchURL entityID = .ok url)
      (hf : Brings fetched found) (hne : found ≠ e) :
      Attempted (e :: es) [(posted e, created), (got url, fetched)] .mismatch
  | registered (hc : Gives created entityID) (hurl : fetchURL entityID = .ok url)
      (hf : Brings fetched e) (h : Attempted es trace ending) :
      Attempted (e :: es) ((posted e, created) :: (got url, fetched) :: trace) ending

/-- The server has answered the request with this in some state. -/
def Answered (srv : Server σ) (x : Exchange) : Prop := ∃ server, (srv server x.1).1 = x.2

/-- A request that could be made is sent. -/
theorem invoke_reply {srv : Server σ} {decode : String → Except Failure α} {w : Tool σ}
    (h : invoke srv (.ok req) invoking returned decode w = (r, w')) :
    ∃ resp, w'.exchanges = w.exchanges ++ [(req, resp)] ∧ reply decode resp = r.toOption ∧
      Answered srv (req, resp) := by
  rw [invoke, Tool.exchange] at h
  cases he : (srv (w.printf invoking).server req).1 with
  | error err =>
    rw [he] at h
    cases h
    exact ⟨.error err, rfl, rfl, _, he⟩
  | ok respStr =>
    rw [he] at h
    cases h
    exact ⟨.ok respStr, rfl, rfl, _, he⟩

theorem createEntry_reply {srv : Server σ} {w : Tool σ}
    (h : createEntry srv registeredEntry w = (r, w')) :
    ∃ resp, w'.exchanges = w.exchanges ++ [(posted registeredEntry, resp)] ∧
      reply decodeID resp = r.toOption ∧ Answered srv (posted registeredEntry, resp) := by
  rw [createEntry, createRequest_eq] at h
  exact invoke_reply h

theorem reply_map {decode : String → Except Failure α} {f : α → β} :
    reply (fun respStr => (decode respStr).map f) resp = (reply decode resp).map f := by
  cases resp with
  | error err => rfl
  | ok respStr =>
    rw [reply, reply]
    cases decode respStr <;> rfl

theorem validateEntry_reply {srv : Server σ} {w : Tool σ} (hurl : fetchURL entityID = .ok url)
    (h : validateEntry srv entityID registeredEntry w = (r, w')) :
    ∃ resp, w'.exchanges = w.exchanges ++ [(got url, resp)] ∧
      (reply decodeEntry resp).map (deepEqual · registeredEntry) = r.toOption ∧
      Answered srv (got url, resp) := by
  rw [validateEntry, fetchRequest_eq, hurl] at h
  obtain ⟨resp, hx, hr, ha⟩ := invoke_reply h
  rw [reply_map] at hr
  exact ⟨resp, hx, hr, ha⟩

/-- What a run adds to the exchanges, how it ends, and what it reports. -/
structure Reports (srv : Server σ) (index : Nat) (es : List (Option RegistrationEntry))
    (w : Tool σ) (trace : List Exchange) (ending : Ending) : Prop where
  exchanges : (registerFrom srv index es w).2.exchanges = w.exchanges ++ trace
  answered : ∀ x ∈ trace, Answered srv x
  outcome : (registerFrom srv index es w).1 = ending.outcome
  allOK : allOK ∈ (registerFrom srv index es w).2.printed ↔
    ending = .allOK ∨ allOK ∈ w.printed

/-- A run that ends with its first entry, without a success. -/
theorem Reports.of_eq {srv : Server σ} {w w' : Tool σ} {trace : List Exchange}
    (he : registerFrom srv index es w = (ending.outcome, w'))
    (hx : w'.exchanges = w.exchanges ++ trace) (ha : ∀ x ∈ trace, Answered srv x)
    (hq : Registration.allOK ∈ w'.printed ↔ Registration.allOK ∈ w.printed)
    (hn : ending ≠ .allOK) : Reports srv index es w trace ending where
  exchanges := by
    rw [he]
    exact hx
  answered := ha
  outcome := by rw [he]
  allOK := by
    rw [he]
    exact hq.trans (or_iff_right hn).symm

/-- A round whose entry comes back, before a run. -/
theorem Reports.cons {srv : Server σ} {w w' : Tool σ} {round trace : List Exchange}
    (he : registerFrom srv index (e :: es) w = registerFrom srv (index + 1) es w')
    (hx : w'.exchanges = w.exchanges ++ round) (ha : ∀ x ∈ round, Answered srv x)
    (hq : Registration.allOK ∈ w'.printed ↔ Registration.allOK ∈ w.printed)
    (h : Reports srv (index + 1) es w' trace ending) :
    Reports srv index (e :: es) w (round ++ trace) ending where
  exchanges := by rw [he, h.exchanges, hx, List.append_assoc]
  answered := List.forall_mem_append.2 ⟨ha, h.answered⟩
  outcome := by rw [he, h.outcome]
  allOK := by rw [he, h.allOK, hq]

theorem registerFrom_attempted (srv : Server σ) (index : Nat)
    (es : List (Option RegistrationEntry)) (w : Tool σ) :
    ∃ trace ending, Attempted es trace ending ∧ Reports srv index es w trace ending := by
  induction es generalizing index w with
  | nil =>
    refine ⟨[], .allOK, .done, (List.append_nil _).symm, fun _ hx => absurd hx List.not_mem_nil,
      rfl, ?_⟩
    exact ⟨fun _ => .inl rfl, fun _ => List.mem_append_right _ (List.mem_singleton.2 rfl)⟩
  | cons e es ih =>
    have hq := @printf_quiet _ σ w (creating_ne_allOK index)
    cases hc : createEntry srv e (w.printf (creating index)) with
    | mk r w₁ =>
      have hq₁ := (createEntry_quiet hc).trans hq
      obtain ⟨created, hx₁, hr₁, ha₁⟩ := createEntry_reply hc
      have hl₁ := List.forall_mem_singleton.2 ha₁
      cases r with
      | error err =>
        have he := registerFrom_notCreated hc es
        have hn : ∀ entityID, ¬ Gives created entityID := by
          intro entityID hg
          cases hr₁.symm.trans (reply_decodeID.2 hg)
        exact ⟨_, .panicked, .notCreated hn, .of_eq he hx₁ hl₁ hq₁ Ending.noConfusion⟩
      | ok entityID =>
        have hg : Gives created entityID := reply_decodeID.1 hr₁
        cases hv : validateEntry srv entityID e w₁ with
        | mk r w₂ =>
          have hq₂ := (validateEntry_quiet hv).trans hq₁
          cases hurl : fetchURL entityID with
          | error err =>
            have hn := hv
            rw [validateEntry, fetchRequest_eq, hurl] at hn
            cases hn
            have he := registerFrom_notFetched hc hv es
            exact ⟨_, .panicked, .notAsked hg hurl, .of_eq he hx₁ hl₁ hq₂ Ending.noConfusion⟩
          | ok url =>
            obtain ⟨fetched, hx₂, hr₂, ha₂⟩ := validateEntry_reply hurl hv
            rw [hx₁, List.append_assoc] at hx₂
            have hl₂ := List.forall_mem_cons.2 ⟨ha₁, List.forall_mem_singleton.2 ha₂⟩
            cases r with
            | error err =>
              have he := registerFrom_notFetched hc hv es
              have hf : ∀ found, ¬ Brings fetched found := by
                intro found hb
                cases (Option.map_eq_none_iff.1 hr₂).symm.trans (reply_decodeEntry.2 hb)
              exact ⟨_, .panicked, .notFetched hg hurl hf,
                .of_eq he hx₂ hl₂ hq₂ Ending.noConfusion⟩
            | ok valid =>
              obtain ⟨found, hr, hd⟩ := Option.map_eq_some_iff.1 hr₂
              have hf : Brings fetched found := reply_decodeEntry.1 hr
              rw [← hd] at hv
              obtain ⟨verdict, he⟩ := registerFrom_fetched hc hv es
              have hq₃ := (printf_quiet (fetched_ne_allOK entityID verdict)).trans hq₂
              by_cases hfound : found = e
              · rw [if_pos hfound] at he
                rw [hfound] at hf
                obtain ⟨trace, ending, ht, hR⟩ := ih (index + 1)
                  (w₂.printf ("Fetched entity " ++ entityID ++ verdict))
                exact ⟨_, ending, .registered hg hurl hf ht, hR.cons he hx₂ hl₂ hq₃⟩
              · rw [if_neg hfound] at he
                exact ⟨_, .mismatch, .mismatch hg hurl hf hfound,
                  .of_eq he hx₂ hl₂ hq₃ Ending.noConfusion⟩

/-- The requests that create an entry. -/
def isPost (x : Exchange) : Bool :=
  match x.1.method with
  | .post => true
  | .get => false

theorem Attempted.posts (h : Attempted es trace ending) :
    (trace.filter isPost).map Prod.fst <+: es.map posted ∧
      (ending = .allOK → (trace.filter isPost).map Prod.fst = es.map posted) := by
  induction h with
  | done => exact ⟨List.prefix_rfl, fun _ => rfl⟩
  | notCreated | notAsked | notFetched | mismatch =>
    refine ⟨?_, Ending.noConfusion⟩
    exact List.prefix_append [posted _] _
  | registered _ _ _ _ ih =>
    obtain ⟨hp, hl⟩ := ih
    refine ⟨List.cons_prefix_cons.2 ⟨rfl, hp⟩, fun he => ?_⟩
    exact congrArg (posted _ :: ·) (hl he)

/-- The whole of a run of the tool over a file that it can read entries from. -/
theorem main_reports (srv : Server σ) (hd : (decodeFile dat).1 = some entries) (server : σ) :
    ∃ ending, Attempted (entries.entries.getD []) (main srv (.ok dat) server).2.exchanges ending ∧
      (∀ x ∈ (main srv (.ok dat) server).2.exchanges, Answered srv x) ∧
      (main srv (.ok dat) server).1 = ending.outcome ∧
      (allOK ∈ (main srv (.ok dat) server).2.printed ↔ ending = .allOK) := by
  have hm : main srv (.ok dat) server =
      registerFrom srv 0 (entries.entries.getD []) ⟨server, [], []⟩ := by rw [main, hd]
  obtain ⟨trace, ending, ht, hR⟩ :=
    registerFrom_attempted srv 0 (entries.entries.getD []) ⟨server, [], []⟩
  have hx := hR.exchanges
  rw [List.nil_append] at hx
  rw [hm, hx]
  exact ⟨ending, ht, hR.answered, hR.outcome, hR.allOK.trans (or_iff_left List.not_mem_nil)⟩

/-- With any server the entries are created in the order of the file, each is fetched under the ID
that it was given before the next one is created, nothing is sent after the first that fails, and
success is reported if and only if all came back. -/
theorem main_attempted (srv : Server σ) (hd : (decodeFile dat).1 = some entries) (server : σ) :
    ∃ ending, Attempted (entries.entries.getD []) (main srv (.ok dat) server).2.exchanges ending ∧
      (main srv (.ok dat) server).1 = ending.outcome ∧
      (allOK ∈ (main srv (.ok dat) server).2.printed ↔ ending = .allOK) ∧
      ((main srv (.ok dat) server).2.exchanges.filter isPost).map Prod.fst <+:
        (entries.entries.getD []).map posted ∧
      (ending = .allOK → ((main srv (.ok dat) server).2.exchanges.filter isPost).map Prod.fst =
        (entries.entries.getD []).map posted) := by
  obtain ⟨ending, ht, _, ho, ha⟩ := main_reports srv hd server
  exact ⟨ending, ht, ho, ha, ht.posts⟩

/-- A server that gives the responses of a list and then no more. -/
def canned : Server (List String)
  | [], _ => (.error "EOF", [])
  | respStr :: responses, _ => (.ok respStr, responses)

def sampleFile : String :=
  "\x7b\"entries\": [\x7b\"spiffe_id\": \"a\"\x7d, \x7b\"selectors\": []\x7d, \x7b\x7d]\x7d"

def sampleEntries : List (Option RegistrationEntry) :=
  [some ⟨none, "", "a", 0, none⟩, some ⟨some [], "", "", 0, none⟩, some .zero]

theorem decodeFile_sample : (decodeFile sampleFile).1 = some ⟨some sampleEntries⟩ := by
  rfl

/-- The first entry is given an ID that is no part of a URL. -/
def malformedID : List String := ["\x7b\"id\": \"%zz\"\x7d"]

theorem main_attempted_sample :
    (main canned (.ok sampleFile) malformedID).2.exchanges.length = 1 ∧
    ∃ ending, Attempted sampleEntries (main canned (.ok sampleFile) malformedID).2.exchanges
        ending ∧
      (main canned (.ok sampleFile) malformedID).1 = ending.outcome ∧
      (allOK ∈ (main canned (.ok sampleFile) malformedID).2.printed ↔ ending = .allOK) ∧
      ((main canned (.ok sampleFile) malformedID).2.exchanges.filter isPost).map Prod.fst <+:
        sampleEntries.map posted ∧
      (ending = .allOK → ((main canned (.ok sampleFile) malformedID).2.exchanges.filter
        isPost).map Prod.fst = sampleEntries.map posted) := by
  refine ⟨?_, main_attempted canned decodeFile_sample malformedID⟩
  decide +kernel

end SpiffeExample.Registration
