import EmployeePortal.Auth.User
import EmployeePortal.Core.Config
import EmployeePortal.Framework.EventLoop
import EmployeePortal.Python.Documents
import EmployeePortal.Python.Float
import EmployeePortal.Python.Url

/-!
# `EntraTokenValidator`

`validate`, `_get_key` and `_refresh_keys` over the validator's fields, its lock and
the identity provider's two endpoints. PyJWT comes in as a parameter.
-/

namespace EmployeePortal.Auth

open EmployeePortal.Python EmployeePortal.Framework

/-- What the validator calls of PyJWT, for keys `κ`. -/
class Jwt (κ : Type) where
  get_unverified_header : (token : String) → Except Exc (Dict Json)
  /-- `PyJWK.from_dict`. -/
  from_dict : Json → Except Exc κ
  /-- `jwt.decode` with every check of the validator's options on. -/
  decode : (now : ℚ) → (token : String) → (key : κ) → (audience issuer : String) →
    Except Exc (Dict Json)

/-- What an endpoint answers: its status and `response.json()`, which may raise. -/
structure HttpResponse where
  status_code : ℕ
  json : Except Exc Json

/-- `raise_for_status`. -/
def HttpResponse.raiseForStatus (response : HttpResponse) : Except Exc Unit :=
  if 200 ≤ response.status_code ∧ response.status_code < 300 then .ok ()
  else .error (.httpx .status)

/-- What the validator does, operation by operation. -/
inductive AuthOp (κ : Type) where
  /-- `time.monotonic()`. -/
  | monotonic
  /-- The time of day, which `jwt.decode` looks at. -/
  | time
  /-- `self._keys`. -/
  | keys
  /-- `self._expires_at`. -/
  | expiresAt
  | setKeys (keys : Dict κ)
  | setExpiresAt (time : Extended)
  | lockAcquire
  | lockRelease
  /-- `self._client.get(url)`. -/
  | get (url : String)

abbrev AuthOp.Answer {κ : Type} : AuthOp κ → Type
  | .monotonic | .time => ℚ
  | .expiresAt => Extended
  | .keys => Dict κ
  | .get _ => HttpResponse
  | _ => Unit

abbrev AuthTask (κ α : Type) : Type := Prog (AuthOp κ) AuthOp.Answer Exc α

namespace EntraTokenValidator

def invalid : Exc := .portal ⟨"INVALID_TOKEN", "Authentication token validation failed.", 401⟩

def identityProviderUnavailable : Exc := .portal
  ⟨"IDENTITY_PROVIDER_UNAVAILABLE", "Sign-in validation is temporarily unavailable.", 503⟩

def clientNotAllowed : Exc :=
  .portal ⟨"CLIENT_NOT_ALLOWED", "The calling application is not allowed.", 403⟩

def scopeDenied : Exc :=
  .portal ⟨"SCOPE_DENIED", "The token does not grant portal API access.", 403⟩

/-- `httpx.HTTPError`, `KeyError`, `TypeError` and `ValueError`, with their subclasses. -/
def refreshCatches : Exc → Bool
  | .httpx kind => kind.isHttpError
  | .keyError _ | .typeError | .valueError _ | .validationError => true
  | _ => false

/-! ## The key document -/

/-- The condition of the comprehension over the listed keys. -/
def isSigningKey (item : Json) : Except Exc Bool := do
  if ¬ (← item.get "kty").isText "RSA" then return false
  if ¬ (← item.get "use").isText "sig" then return false
  if ¬ (← item.get "alg" (.str "RS256")).isText "RS256" then return false
  return ((← item.get "kid").asText).isSome

section Code

variable {κ : Type} [Jwt κ] [UnicodeData] [UrlData]

/-- One step of the comprehension. -/
def addKey (keys : Dict κ) (item : Json) : Except Exc (Dict κ) := do
  if ← isSigningKey item then
    let kid := (← item.item "kid").text
    return keys.set kid (← Jwt.from_dict item)
  else return keys

def signingKeys (raw_keys : Json) : Except Exc (Dict κ) := do
  (← raw_keys.iterate).foldlM addKey []

/-- The address of the key document in a discovery document. -/
def readDiscovery (settings : Settings) (discovery : Json) : Except Exc String := do
  if ¬ (← discovery.get "issuer").isText settings.entraIssuer then
    throw (.valueError "issuer mismatch")
  let jwks_uri := (← discovery.item "jwks_uri").text
  let parsed ← urlparse jwks_uri
  if parsed.scheme ≠ "https" ∨ parsed.hostname ≠ some "login.microsoftonline.com" then
    throw (.valueError "untrusted JWKS URI")
  return jwks_uri

/-- The signing keys in a key document. -/
def readKeys (document : Json) : Except Exc (Dict κ) := do
  let keys ← signingKeys (← document.get "keys" (.arr []))
  if keys.isEmpty then throw (.valueError "no signing keys")
  return keys

/-- The body of an answer with a good status. -/
def readBody (response : HttpResponse) : Except Exc Json := do
  response.raiseForStatus
  response.json

/-- What `_refresh_keys` tries. -/
def fetchKeys (settings : Settings) : AuthTask κ (Dict κ) := do
  let discovery_response ← Prog.perform (AuthOp.get settings.entraDiscoveryUrl)
  let discovery ← readBody discovery_response
  let jwks_uri ← readDiscovery settings discovery
  let keys_response ← Prog.perform (AuthOp.get jwks_uri)
  let document ← readBody keys_response
  readKeys document

/-! ## The validator -/

/-- `time.monotonic() + self._settings.ENTRA_METADATA_CACHE_SECONDS`, a sum of floats: the
setting is a day of seconds at most, and its own float. -/
def expiry (settings : Settings) (now : ℚ) : Extended :=
  (Extended.ofRat now).plus settings.ENTRA_METADATA_CACHE_SECONDS

/-- `_refresh_keys` inside its lock. -/
def refreshLocked (settings : Settings) (force : Bool) : AuthTask κ Unit := do
  let valid ← (do
    if force then return false
    let now ← Prog.perform AuthOp.monotonic
    let expires_at ← Prog.perform AuthOp.expiresAt
    let keys ← Prog.perform AuthOp.keys
    return (decide (Extended.ofRat now < expires_at) && !keys.isEmpty : Bool))
  if valid then return ()
  let keys ← tryCatchThe Exc (fetchKeys settings) fun e =>
    if refreshCatches e then throw identityProviderUnavailable else throw e
  Prog.tell (AuthOp.setKeys keys)
  let now ← Prog.perform AuthOp.monotonic
  Prog.tell (AuthOp.setExpiresAt (expiry settings now))

def refreshKeys (settings : Settings) (force : Bool) : AuthTask κ Unit :=
  Prog.inside (Prog.perform AuthOp.lockAcquire) (Prog.tell AuthOp.lockRelease)
    (refreshLocked settings force)

def getKey (settings : Settings) (kid : String) : AuthTask κ κ := do
  let now ← Prog.perform AuthOp.monotonic
  let expires_at ← Prog.perform AuthOp.expiresAt
  let keys ← Prog.perform AuthOp.keys
  let expired := decide (expires_at ≤ Extended.ofRat now)
  let unknown := (keys.get? kid).isNone
  if expired || unknown then refreshKeys settings (!expired && unknown)
  let keys ← Prog.perform AuthOp.keys
  match keys.get? kid with
  | some key => return key
  | none => throw invalid

/-! ## Tokens -/

/-- The key id of a token that claims to be signed with RS256. -/
def readHeader (κ : Type) [Jwt κ] (token : String) : Except Exc String :=
  match Jwt.get_unverified_header κ token with
  | .error .invalidTokenError => .error invalid
  | .error e => .error e
  | .ok header =>
      if (header.getD "alg" .null).isText "RS256" then
        match (header.getD "kid" .null).asText with
        | some kid => .ok kid
        | none => .error invalid
      else .error invalid

/-- `_string_set`. -/
def stringSet : Json → Finset String
  | .arr xs => (xs.filterMap Json.asText).toFinset
  | _ => ∅

/-- `_scope_set`. -/
def scopeSet : Json → Finset String
  | .str s => (((s.toList.splitOnP isSpace).filter (· ≠ [])).map String.ofList).toFinset
  | _ => ∅

/-- `claims.get("azp") or claims.get("appid")`. -/
def callingClient (claims : Dict Json) : Json :=
  (claims.getD "azp" .null).orElse (claims.getD "appid" .null)

/-- The user of verified claims. -/
def readClaims (settings : Settings) (claims : Dict Json) : Except Exc AuthenticatedUser := do
  if ¬ (claims.getD "tid" .null).isText settings.TENANT_ID then throw invalid
  if ¬ (claims.getD "ver" .null).isText settings.ENTRA_ACCEPTED_TOKEN_VERSION then throw invalid
  let client_id := callingClient claims
  let allowed_clients := settings.PORTAL_ALLOWED_CLIENT_IDS
  if allowed_clients ≠ [] ∧ ¬ ∃ client ∈ allowed_clients, client_id.isText client = true then
    throw clientNotAllowed
  let scopes := scopeSet (claims.getD "scp" .null)
  if settings.PORTAL_REQUIRED_SCOPE ∉ scopes then throw scopeDenied
  match claims.getD "oid" .null with
  | .str oid =>
      if oid = "" then throw invalid
      return {
        oid
        tid := (← (Json.obj claims).item "tid").text
        name := (claims.getD "name" .null).asText
        preferred_username := ((claims.getD "preferred_username" .null).orElse
          (claims.getD "upn" .null)).asText
        email := (claims.getD "email" .null).asText
        roles := stringSet (claims.getD "roles" .null)
        groups := stringSet (claims.getD "groups" .null)
        scopes
        client_id := client_id.asText }
  | _ => throw invalid

/-- What `validate` makes of a token and the key under its key id. -/
def checkToken (settings : Settings) (token : String) (key : κ) (now : ℚ) :
    Except Exc AuthenticatedUser :=
  match Jwt.decode now token key settings.PORTAL_API_AUDIENCE settings.entraIssuer with
  | .error .invalidTokenError => .error invalid
  | .error e => .error e
  | .ok claims => readClaims settings claims

def validate (settings : Settings) (token : String) : AuthTask κ AuthenticatedUser := do
  let kid ← readHeader κ token
  let key ← getKey settings kid
  let now ← Prog.perform AuthOp.time
  checkToken settings token key now

end Code

end EntraTokenValidator

end EmployeePortal.Auth
