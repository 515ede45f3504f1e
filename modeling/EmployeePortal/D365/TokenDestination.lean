import EmployeePortal.Core.Config
import EmployeePortal.D365.RetryProtocol

/-!
# Where a token travels

The scope a token is acquired for comes from `D365_BASE_URL`, the requests that carry it
go to `D365_ODATA_URL`. Nothing compares the two: the token stays with the host it was
issued for exactly when the settings happen to agree.
-/

namespace EmployeePortal.D365

open EmployeePortal.Python EmployeePortal.Framework

namespace D365TokenService

/-- `_build_application`. -/
def buildApplication (settings : Settings) : Except Exc Unit :=
  if settings.D365_TOKEN_AUTH_MODE ≠ .secret then
    .error (.d365 .authentication
      "Certificate authentication is selected but certificate settings are not configured")
  else if settings.TENANT_ID = "" ∨ settings.D365_CLIENT_ID = "" ∨
      settings.D365_CLIENT_SECRET = "" then
    .error (.d365 .authentication "D365 client credential settings are incomplete")
  else .ok ()

/-- What production insists on is enough to build the application from a secret. -/
theorem buildApplication_ok {settings : Settings}
    (hvalid : settings.validateSecuritySettings = .ok settings)
    (hproduction : settings.APP_ENV = .production)
    (hmode : settings.D365_TOKEN_AUTH_MODE = .secret) : buildApplication settings = .ok () := by
  have hmissing : settings.missing = [] := by
    unfold Settings.validateSecuritySettings at hvalid
    rw [if_pos hproduction] at hvalid
    split at hvalid
    · cases hvalid
    · split at hvalid
      · cases hvalid
      · rename_i hnone
        exact not_not.mp hnone
  simp only [Settings.missing, List.append_eq_nil_iff, ite_eq_right_iff, List.cons_ne_nil,
    imp_false, not_and] at hmissing
  obtain ⟨⟨⟨⟨⟨⟨htenant, -⟩, -⟩, hclient⟩, -⟩, hsecret⟩, -⟩ := hmissing
  rw [buildApplication, if_neg (not_not.mpr hmode), if_neg]
  rintro (h | h | h)
  · exact htenant h
  · exact hclient h
  · exact hsecret hmode h

end D365TokenService

namespace D365Client

/-- `base_url` of the client. -/
def baseUrl (settings : D365Settings) : String :=
  rstripSlash settings.D365_ODATA_URL.text ++ "/"

/-- `D365Client(settings, D365TokenService(settings)).get_entity(entity, query)`. -/
def requestEntity [UnicodeData] (settings : D365Settings) (entity : String) (query : ODataQuery) :
    Prog ClientOp ClientOp.Answer Exc (Dict Json) := do
  D365TokenService.buildApplication settings.toSettings
  fetchEntity calls settings.D365_MAX_RETRIES entity query

section Destination

variable [UrlData] {settings : D365Settings}

/-- The host of a URL. -/
def hostOf (url : AnyHttpUrl) : Option String := ParsedUrl.hostname ⟨url.scheme.text, url.netloc⟩

/-- The request goes over https to the host of `D365_BASE_URL`. -/
structure SentHome (settings : D365Settings) (request : GetRequest) : Prop where
  secure : (mergeUrl (baseUrl settings) request.path).scheme = "https"
  host : (mergeUrl (baseUrl settings) request.path).hostname = hostOf settings.D365_BASE_URL

/-- The scope names the host of `D365_BASE_URL`. -/
theorem scope_host : ∀ scope ∈ settings.d365Scope,
    (readUrl scope).hostname = hostOf settings.D365_BASE_URL := by
  intro scope hscope
  obtain rfl := List.mem_singleton.mp hscope
  have hread := readUrl_rstripSlash settings.D365_BASE_URL ".default"
  rw [String.append_assoc] at hread
  have hsuffix : "/" ++ ".default" = "/.default" := by decide
  rw [hsuffix] at hread
  rw [hread, hostOf]

omit [UrlData] in
theorem readUrl_baseUrl : readUrl (baseUrl settings) =
    ⟨settings.D365_ODATA_URL.scheme.text, settings.D365_ODATA_URL.netloc⟩ := by
  have hread := readUrl_rstripSlash settings.D365_ODATA_URL ""
  rwa [String.append_empty] at hread

/-- An entity name cannot leave the host of the client. -/
theorem sentHome_iff {request : GetRequest} (hpath : isIdentifier request.path = true) :
    SentHome settings request ↔ settings.D365_ODATA_URL.scheme = .https ∧
      hostOf settings.D365_ODATA_URL = hostOf settings.D365_BASE_URL := by
  have hcolon : ':' ∉ request.path.toList := by
    intro hmem
    have hchar := isIdentifier_chars hpath _ hmem
    revert hchar
    decide
  have hmerge := mergeUrl_path (baseUrl settings) hcolon
  rw [readUrl_baseUrl] at hmerge
  constructor
  · rintro ⟨hsecure, hhost⟩
    rw [hmerge] at hsecure hhost
    refine ⟨?_, hhost⟩
    cases hscheme : settings.D365_ODATA_URL.scheme with
    | https => rfl
    | http =>
      rw [hscheme] at hsecure
      have hhttp : "http" = "https" := hsecure
      exact absurd hhttp (by decide)
  · rintro ⟨hscheme, hhost⟩
    refine ⟨?_, ?_⟩
    · rw [hmerge, hscheme]
      rfl
    · rw [hmerge]
      exact hhost

end Destination

/-! ## The requests of one call -/

/-- All requests of the loop are for the path it was called for. -/
theorem attempts_only {n : ℤ} {request : String → GetRequest} {path : String}
    (hpath : ∀ token, (request token).path = path) (left : List ℕ) (refreshed forced : Bool) :
    (attempts calls n request left refreshed forced).Only
      fun o => ∀ r, o = .get r → r.path = path := by
  induction left generalizing refreshed forced with
  | nil => trivial
  | cons attempt rest ih =>
    rw [attempts]
    refine Prog.Only.bind (Prog.Only.perform fun _ h => by cases h) fun token => ?_
    refine Prog.Only.bind (Prog.Only.attempt (Prog.Only.perform ?_)) fun outcome => ?_
    · rintro r h
      cases h
      exact hpath token
    cases verdict n attempt refreshed outcome with
    | done result => exact Prog.Only.ofExcept _
    | wait delay =>
      exact Prog.Only.bind (Prog.Only.perform fun _ h => by cases h) fun _ => ih refreshed false
    | renew => exact Prog.Only.bind (Prog.Only.tell fun _ h => by cases h) fun _ => ih true true

section Call

variable [UnicodeData] {settings : D365Settings} {entity : String} {query : ODataQuery}

theorem requestEntity_only :
    (requestEntity settings entity query).Only fun o => ∀ r, o = .get r → r.path = entity := by
  unfold requestEntity fetchEntity
  refine Prog.Only.bind (Prog.Only.ofExcept _) fun _ => ?_
  cases hentity : validateIdentifier entity with
  | error e =>
    simp only [Prog.liftM_eq, Prog.ofExcept_error, Prog.raise_bind]
    trivial
  | ok path =>
    obtain ⟨-, rfl⟩ := validateIdentifier_ok.mp hentity
    simp only [Prog.liftM_eq, Prog.ofExcept_ok, Prog.ret_bind]
    refine Prog.Only.bind (Prog.Only.ofExcept _) fun params => ?_
    refine Prog.Only.bind ?_ fun _ => Prog.Only.ofExcept _
    refine attempts_only ?_ _ _ _
    exact fun _ => rfl

/-- Without an application or an attempt nothing goes out. -/
theorem requestEntity_silent {trace : List Call} {result : Except Exc (Dict Json)}
    (h : settings.D365_TOKEN_AUTH_MODE = .certificate ∨ settings.D365_MAX_RETRIES < 0)
    (hrun : (requestEntity settings entity query).Run trace result) : trace = [] := by
  unfold requestEntity at hrun
  rcases Prog.run_ofExcept_bind.mp hrun with ⟨_, hbuild, hrun⟩ | ⟨e, -, hnone, -⟩
  swap
  · exact hnone
  rcases h with hmode | hnegative
  · unfold D365TokenService.buildApplication at hbuild
    rw [hmode] at hbuild
    cases hbuild
  unfold fetchEntity at hrun
  rcases Prog.run_ofExcept_bind.mp hrun with ⟨path, -, hrun⟩ | ⟨e, -, hnone, -⟩
  swap
  · exact hnone
  rcases Prog.run_ofExcept_bind.mp hrun with ⟨params, -, hrun⟩ | ⟨e, -, hnone, -⟩
  swap
  · exact hnone
  have hget : get calls settings.D365_MAX_RETRIES path (some params) none =
      .raise retriesExhausted := by
    rw [get, Int.toNat_of_nonpos (by omega)]
    rfl
  rw [hget, Prog.raise_bind] at hrun
  exact hrun.1

/-- An identity provider with one token, and a D365 that answers every request. -/
def obliging : (o : ClientOp) → Unit → Except Exc o.Answer × Unit
  | .getAccessToken _, _ => (.ok "token", ())
  | .invalidate, _ => (.ok (), ())
  | .get _, _ => (.ok ⟨200, none, .ok (.obj [])⟩, ())
  | .sleep _, _ => (.ok (), ())

/-- A call that has an attempt sends a request. -/
theorem requestEntity_sends {params : Dict String}
    (hbuild : D365TokenService.buildApplication settings.toSettings = .ok ())
    (hretries : 0 ≤ settings.D365_MAX_RETRIES) (hentity : isIdentifier entity = true)
    (hquery : query.toParams = .ok params) :
    ∃ trace result, (requestEntity settings entity query).Run trace result ∧
      ∃ request outcome, ⟨.get request, outcome⟩ ∈ trace ∧ request.path = entity := by
  refine ⟨_, _, Prog.consult_run obliging _ (), ⟨entity, some params, "token", none⟩,
    .ok ⟨200, none, .ok (.obj [])⟩, ?_, rfl⟩
  obtain ⟨k, hk⟩ : ∃ k, (settings.D365_MAX_RETRIES + 1).toNat = k + 1 :=
    ⟨settings.D365_MAX_RETRIES.toNat, by omega⟩
  have hname : validateIdentifier entity = .ok entity := validateIdentifier_ok.mpr ⟨hentity, rfl⟩
  rw [requestEntity, fetchEntity, hbuild, hname, hquery]
  simp only [Prog.liftM_eq, Prog.ofExcept_ok, Prog.ret_bind]
  rw [get, hk, List.range_succ_eq_map, attempts, bind_assoc]
  have htoken : calls.getAccessToken false = Prog.perform (ClientOp.getAccessToken false) := rfl
  rw [htoken, Prog.consult_perform_bind rfl, bind_assoc]
  have hget : ∀ request, calls.get request = Prog.perform (ClientOp.get request) := fun _ => rfl
  rw [hget, Prog.consult_attempt_bind rfl, Prog.after_fst, Prog.after_fst]
  exact List.mem_append_right _ (List.mem_append_left _ List.mem_cons_self)

variable [UrlData]

/-- Every request of every run of the call goes home. -/
def StaysHome (settings : D365Settings) (entity : String) (query : ODataQuery) : Prop :=
  ∀ trace result, (requestEntity settings entity query).Run trace result →
    ∀ request outcome, ⟨.get request, outcome⟩ ∈ trace → SentHome settings request

/-- **Where a token travels.** For all settings that validate in production, every entity
name and every query that are accepted: the scope of the tokens names the host of
`D365_BASE_URL`, and all requests that carry one go over https to this host if and only if
`D365_ODATA_URL` is an https URL of this host, or no request is ever made: certificates are
selected, which the token service refuses, or there is no attempt. -/
theorem staysHome_iff (hvalid : settings.validateSecuritySettings = .ok settings.toSettings)
    (hproduction : settings.APP_ENV = .production) (hentity : isIdentifier entity = true)
    {params : Dict String} (hquery : query.toParams = .ok params) :
    (∀ scope ∈ settings.d365Scope, (readUrl scope).hostname = hostOf settings.D365_BASE_URL) ∧
      (StaysHome settings entity query ↔
        settings.D365_TOKEN_AUTH_MODE = .certificate ∨ settings.D365_MAX_RETRIES < 0 ∨
          (settings.D365_ODATA_URL.scheme = .https ∧
            hostOf settings.D365_ODATA_URL = hostOf settings.D365_BASE_URL)) := by
  refine ⟨scope_host, fun hhome => ?_, fun hsettings trace result hrun request outcome hmem => ?_⟩
  · cases hmode : settings.D365_TOKEN_AUTH_MODE with
    | certificate => exact Or.inl rfl
    | secret =>
      rcases lt_or_ge settings.D365_MAX_RETRIES 0 with hnegative | hretries
      · exact Or.inr (Or.inl hnegative)
      · have hbuild := D365TokenService.buildApplication_ok hvalid hproduction hmode
        obtain ⟨trace, result, hrun, request, outcome, hmem, rfl⟩ :=
          requestEntity_sends hbuild hretries hentity hquery
        exact Or.inr (Or.inr ((sentHome_iff hentity).mp (hhome _ _ hrun _ _ hmem)))
  · have hpath : request.path = entity := requestEntity_only.run hrun _ hmem request rfl
    rcases or_assoc.mpr hsettings with hsilent | hagree
    · rw [requestEntity_silent hsilent hrun] at hmem
      cases hmem
    · exact (sentHome_iff (hpath ▸ hentity)).mpr hagree

end Call

/-! ### A base URL of another host -/

section Example

open scoped Ascii

/-- Everything production insists on. -/
def productionSettings : D365Settings where
  APP_ENV := .production
  TENANT_ID := "contoso"
  PORTAL_CLIENT_ID := "portal"
  PORTAL_API_AUDIENCE := "api://portal"
  PORTAL_ALLOWED_CLIENT_IDS := ["portal"]
  D365_CLIENT_ID := "d365"
  D365_CLIENT_SECRET := "secret"
  SESSION_SECRET := "0123456789abcdef0123456789abcdef"

/-- The OData URL names a host of its own, over plain http. -/
def strayingSettings : D365Settings :=
  { productionSettings with
    D365_ODATA_URL := ⟨.http, "proxy.example.org", "/data", by decide, by decide, by decide⟩ }

/-- The settings validate, and the first request takes the token to the other host. -/
theorem not_staysHome :
    ¬ ∀ (settings : D365Settings) (entity : String) (query : ODataQuery) (params : Dict String),
      settings.validateSecuritySettings = .ok settings.toSettings →
      settings.APP_ENV = .production → isIdentifier entity = true → query.toParams = .ok params →
      StaysHome settings entity query := by
  intro hall
  have hvalid : strayingSettings.validateSecuritySettings = .ok strayingSettings.toSettings := by
    decide +kernel
  have hbuild : D365TokenService.buildApplication strayingSettings.toSettings = .ok () := by
    decide +kernel
  have hretries : 0 ≤ strayingSettings.D365_MAX_RETRIES := by decide
  have hentity : isIdentifier "Workers" = true := by decide
  have hquery : ({} : ODataQuery).toParams = .ok [] := rfl
  obtain ⟨trace, result, hrun, request, outcome, hmem, hpath⟩ :=
    requestEntity_sends hbuild hretries hentity hquery
  have hhome := hall strayingSettings "Workers" {} [] hvalid rfl hentity hquery trace result hrun
    request outcome hmem
  obtain ⟨hscheme, -⟩ := (sentHome_iff (hpath ▸ hentity)).mp hhome
  cases hscheme

/-- The defaults agree. -/
theorem staysHome_default : StaysHome productionSettings "Workers" {} := by
  have hvalid : productionSettings.validateSecuritySettings =
      .ok productionSettings.toSettings := by
    decide +kernel
  have hquery : ({} : ODataQuery).toParams = .ok [] := rfl
  exact (staysHome_iff hvalid rfl (by decide) hquery).2.mpr
    (Or.inr (Or.inr ⟨rfl, by decide +kernel⟩))

end Example

end D365Client

end EmployeePortal.D365
