import EmployeePortal.Core.Exceptions
import EmployeePortal.Python.Url

/-!
# `Settings`

The settings the modelled code reads, how they come from environment strings, and
what a production process insists on.
-/

namespace EmployeePortal

open EmployeePortal.Python

inductive AppEnv where
  | development
  | test
  | production
deriving DecidableEq, Repr

inductive TokenAuthMode where
  | secret
  | certificate
deriving DecidableEq, Repr

structure Settings where
  APP_ENV : AppEnv := .development
  TENANT_ID : String := ""
  PORTAL_CLIENT_ID : String := ""
  PORTAL_API_AUDIENCE : String := ""
  PORTAL_ALLOWED_CLIENT_IDS : List String := []
  PORTAL_REQUIRED_SCOPE : String := "access_as_user"
  ENTRA_ACCEPTED_TOKEN_VERSION : String := "2.0"
  ENTRA_METADATA_CACHE_SECONDS : ℤ := 86400
  D365_CLIENT_ID : String := ""
  D365_CLIENT_SECRET : String := ""
  D365_TOKEN_AUTH_MODE : TokenAuthMode := .secret
  CORS_ORIGINS : List String := ["http://localhost"]
  SESSION_SECRET : String := ""
deriving DecidableEq

namespace Settings

/-! ## Environment strings -/

/-- `split_csv`. -/
def splitCsv (value : String) : List String :=
  ((value.toList.splitOn ',').map fun item => strip (String.ofList item)).filter (· ≠ "")

/-- A field from its environment string, or its default. -/
def read {β : Type} (env : Dict String) (field : String) (default : β)
    (validate : String → Option β) : Except Exc β :=
  match env.get? field with
  | none => .ok default
  | some value =>
      match validate value with
      | some x => .ok x
      | none => .error .validationError

def appEnv : String → Option AppEnv
  | "development" => some .development
  | "test" => some .test
  | "production" => some .production
  | _ => none

def tokenAuthMode : String → Option TokenAuthMode
  | "secret" => some .secret
  | "certificate" => some .certificate
  | _ => none

/-! ## Production -/

/-- The names of the settings a production process misses. -/
def missing (settings : Settings) : List String :=
  (if settings.TENANT_ID = "" then ["TENANT_ID"] else []) ++
  (if settings.PORTAL_CLIENT_ID = "" then ["PORTAL_CLIENT_ID"] else []) ++
  (if settings.PORTAL_API_AUDIENCE = "" then ["PORTAL_API_AUDIENCE"] else []) ++
  (if settings.D365_CLIENT_ID = "" then ["D365_CLIENT_ID"] else []) ++
  (if settings.PORTAL_ALLOWED_CLIENT_IDS = [] then ["PORTAL_ALLOWED_CLIENT_IDS"] else []) ++
  (if settings.D365_TOKEN_AUTH_MODE = .secret ∧ settings.D365_CLIENT_SECRET = "" then
    ["D365_CLIENT_SECRET"] else []) ++
  (if settings.SESSION_SECRET.length < 32 then ["SESSION_SECRET (minimum 32 characters)"] else [])

def validateSecuritySettings (settings : Settings) : Except Exc Settings :=
  if settings.APP_ENV = .production then
    if "*" ∈ settings.CORS_ORIGINS then
      .error (.valueError "CORS_ORIGINS cannot contain '*' in production")
    else if settings.missing ≠ [] then
      .error (.valueError ("Missing required production settings: " ++
        ", ".intercalate settings.missing))
    else .ok settings
  else .ok settings

/-- `Settings()` with these environment strings; `readInt` is what pydantic makes of a
text where it wants an `int`. -/
def load (readInt : String → Option ℤ) (env : Dict String) : Except Exc Settings := do
  let APP_ENV ← read env "APP_ENV" .development appEnv
  let TENANT_ID ← read env "TENANT_ID" "" some
  let PORTAL_CLIENT_ID ← read env "PORTAL_CLIENT_ID" "" some
  let PORTAL_API_AUDIENCE ← read env "PORTAL_API_AUDIENCE" "" some
  let PORTAL_ALLOWED_CLIENT_IDS ←
    read env "PORTAL_ALLOWED_CLIENT_IDS" [] fun value => some (splitCsv value)
  let PORTAL_REQUIRED_SCOPE ← read env "PORTAL_REQUIRED_SCOPE" "access_as_user" some
  let ENTRA_ACCEPTED_TOKEN_VERSION ← read env "ENTRA_ACCEPTED_TOKEN_VERSION" "2.0"
    fun value => if value = "2.0" then some value else none
  let ENTRA_METADATA_CACHE_SECONDS ← read env "ENTRA_METADATA_CACHE_SECONDS" 86400
    fun value => (readInt value).filter fun n => 300 ≤ n ∧ n ≤ 86400
  let D365_CLIENT_ID ← read env "D365_CLIENT_ID" "" some
  let D365_CLIENT_SECRET ← read env "D365_CLIENT_SECRET" "" some
  let D365_TOKEN_AUTH_MODE ← read env "D365_TOKEN_AUTH_MODE" .secret tokenAuthMode
  let CORS_ORIGINS ← read env "CORS_ORIGINS" ["http://localhost"]
    fun value => some (splitCsv value)
  let SESSION_SECRET ← read env "SESSION_SECRET" "" some
  validateSecuritySettings
    { APP_ENV, TENANT_ID, PORTAL_CLIENT_ID, PORTAL_API_AUDIENCE, PORTAL_ALLOWED_CLIENT_IDS,
      PORTAL_REQUIRED_SCOPE, ENTRA_ACCEPTED_TOKEN_VERSION, ENTRA_METADATA_CACHE_SECONDS,
      D365_CLIENT_ID, D365_CLIENT_SECRET, D365_TOKEN_AUTH_MODE, CORS_ORIGINS, SESSION_SECRET }

def entraIssuer (settings : Settings) : String :=
  "https://login.microsoftonline.com/" ++ settings.TENANT_ID ++ "/v2.0"

def entraDiscoveryUrl (settings : Settings) : String :=
  settings.entraIssuer ++ "/.well-known/openid-configuration"

end Settings

/-! ## D365 -/

/-- The settings a `D365Client` and its token service read besides. -/
structure D365Settings extends Settings where
  D365_BASE_URL : AnyHttpUrl :=
    ⟨.https, "sssa.operations.dynamics.com", "/", by decide, by decide, by decide⟩
  D365_ODATA_URL : AnyHttpUrl :=
    ⟨.https, "sssa.operations.dynamics.com", "/data", by decide, by decide, by decide⟩
  D365_MAX_RETRIES : ℤ := 3

/-- `d365_scope`. -/
def D365Settings.d365Scope (settings : D365Settings) : List String :=
  [rstripSlash settings.D365_BASE_URL.text ++ "/.default"]

end EmployeePortal
