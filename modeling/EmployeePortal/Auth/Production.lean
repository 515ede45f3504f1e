import EmployeePortal.Auth.Claims
import EmployeePortal.Auth.FreshKeys
import Mathlib.Tactic.Linarith

/-!
# Who gets in in production

`validate` skips the check of the calling application when the list of allowed ones is
empty. A production process cannot be configured so: what its settings insist on
closes the gap.
-/

namespace EmployeePortal

open EmployeePortal.Python

/-! ## Production settings -/

namespace Settings

/-- What a production process insists on, as far as tokens go. -/
structure Secured (settings : Settings) : Prop where
  tenant : settings.TENANT_ID ≠ ""
  clients : settings.PORTAL_ALLOWED_CLIENT_IDS ≠ []
  version : settings.ENTRA_ACCEPTED_TOKEN_VERSION = "2.0"

theorem validateSecuritySettings_ok {settings settings' : Settings}
    (h : validateSecuritySettings settings = .ok settings') :
    settings' = settings ∧ (settings.APP_ENV = .production → settings.missing = []) := by
  unfold validateSecuritySettings at h
  by_cases hprod : settings.APP_ENV = .production
  · rw [if_pos hprod] at h
    by_cases hcors : "*" ∈ settings.CORS_ORIGINS
    · rw [if_pos hcors] at h
      cases h
    · rw [if_neg hcors] at h
      by_cases hmissing : settings.missing ≠ []
      · rw [if_pos hmissing] at h
        cases h
      · rw [if_neg hmissing] at h
        exact ⟨(Except.ok.inj h).symm, fun _ => not_not.mp hmissing⟩
  · rw [if_neg hprod] at h
    exact ⟨(Except.ok.inj h).symm, fun hp => absurd hp hprod⟩

theorem read_ok {β : Type} {env : Dict String} {field : String} {default x : β}
    {validate : String → Option β} (h : read env field default validate = .ok x) :
    x = default ∨ ∃ value, validate value = some x := by
  unfold read at h
  split at h
  · exact Or.inl (Except.ok.inj h).symm
  · split at h
    · rename_i value hvalue
      exact Or.inr ⟨_, hvalue.trans (congrArg some (Except.ok.inj h))⟩
    · cases h

/-- Settings that come from environment strings accept one token version. -/
theorem load_ok {readInt : String → Option ℤ} {env : Dict String} {settings : Settings}
    (h : load readInt env = .ok settings) :
    settings.ENTRA_ACCEPTED_TOKEN_VERSION = "2.0" ∧
      (settings.APP_ENV = .production → settings.missing = []) := by
  simp only [load, bind_eq_ok] at h
  obtain ⟨_, -, _, -, _, -, _, -, _, -, _, -, version, hversion, _, -, _, -, _, -, _, -, _, -, _, -,
    hvalid⟩ := h
  obtain ⟨rfl, hmissing⟩ := validateSecuritySettings_ok hvalid
  refine ⟨?_, hmissing⟩
  rcases read_ok hversion with rfl | ⟨value, hvalue⟩
  · rfl
  · obtain ⟨haccepted, hsame⟩ := Option.ite_none_right_eq_some.mp hvalue
    exact (Option.some.inj hsame).symm.trans haccepted

theorem load_secured {readInt : String → Option ℤ} {env : Dict String} {settings : Settings}
    (h : load readInt env = .ok settings) (hprod : settings.APP_ENV = .production) :
    Secured settings := by
  obtain ⟨hversion, hmissing⟩ := load_ok h
  have hnone := hmissing hprod
  simp only [missing, List.append_eq_nil_iff] at hnone
  refine ⟨?_, ?_, hversion⟩
  · intro hempty
    simp [hempty] at hnone
  · intro hempty
    simp [hempty] at hnone

end Settings

/-! ## Accepted tokens -/

namespace Auth.EntraTokenValidator

open EmployeePortal.Framework

/-- The registered claims that `jwt.decode` checks, with a minute's leeway. -/
structure Passes [UnicodeData] [FloatData] (now : ℚ) (audience issuer : String)
    (claims : Dict Json) : Prop where
  exp : ∃ value time, claims.get? "exp" = some value ∧ value.toInt = .ok time ∧ now < time + 60
  nbf : ∀ value, claims.get? "nbf" = some value → ∃ time, value.toInt = .ok time ∧ time ≤ now + 60
  iat : ∃ value time, claims.get? "iat" = some value ∧ value.toInt = .ok time ∧ time ≤ now + 60
  aud : claims.get? "aud" = some (.str audience) ∨
    ∃ audiences, claims.get? "aud" = some (.arr audiences) ∧ .str audience ∈ audiences
  iss : claims.get? "iss" = some (.str issuer)

/-- `jwt.decode` returns only claims that the token carries, signed by the holder of the
key, and that pass its checks. -/
def DecodeVerifies (κ : Type) [Jwt κ] [UnicodeData] [FloatData]
    (Signed : String → κ → Dict Json → Prop) : Prop :=
  ∀ now token (key : κ) audience issuer claims,
    Jwt.decode now token key audience issuer = .ok claims →
    Signed token key claims ∧ Passes now audience issuer claims

/-- The calling application of a token: its `azp` or, when that is missing or empty, its
`appid`. -/
def CalledBy (claims : Dict Json) (client : String) : Prop :=
  claims.getD "azp" .null = .str client ∨
    ((claims.getD "azp" .null).truth = false ∧ claims.getD "appid" .null = .str client)

theorem calledBy_of_callingClient {claims : Dict Json} {client : String}
    (h : callingClient claims = .str client) : CalledBy claims client := by
  unfold callingClient Json.orElse at h
  by_cases hazp : (claims.getD "azp" .null).truth = true
  · rw [if_pos hazp] at h
    exact Or.inl h
  · rw [if_neg hazp] at h
    exact Or.inr ⟨by simpa using hazp, h⟩

theorem mem_stringSet {value : Json} {s : String} (h : s ∈ stringSet value) :
    ∃ items, value = .arr items ∧ .str s ∈ items := by
  cases value with
  | arr items =>
    obtain ⟨item, hitem, htext⟩ := List.mem_filterMap.mp (List.mem_toFinset.mp h)
    rw [Json.asText_eq_some.mp htext] at hitem
    exact ⟨items, rfl, hitem⟩
  | _ => cases h

theorem mem_scopeSet {value : Json} {s : String} (h : s ∈ scopeSet value) :
    ∃ text, value = .str text ∧
      s.toList ∈ text.toList.splitOnP isSpace ∧ s.toList ≠ [] := by
  cases value with
  | str text =>
    obtain ⟨entry, hentry, rfl⟩ := List.mem_map.mp (List.mem_toFinset.mp h)
    obtain ⟨hmem, hne⟩ := List.mem_filter.mp hentry
    refine ⟨text, rfl, ?_⟩
    rw [String.toList_ofList]
    exact ⟨hmem, by simpa using hne⟩
  | _ => cases h

/-- What a production process knows about an accepted token and its user. -/
structure Admitted (settings : Settings) (claims : Dict Json) (user : AuthenticatedUser) :
    Prop where
  client : ∃ client ∈ settings.PORTAL_ALLOWED_CLIENT_IDS, CalledBy claims client
  tid : claims.getD "tid" .null = .str settings.TENANT_ID
  tenant : settings.TENANT_ID ≠ ""
  ver : claims.getD "ver" .null = .str "2.0"
  scope : ∃ text, claims.getD "scp" .null = .str text ∧
    settings.PORTAL_REQUIRED_SCOPE.toList ∈ text.toList.splitOnP isSpace
  user_oid : claims.getD "oid" .null = .str user.oid
  user_tid : claims.getD "tid" .null = .str user.tid
  roles : ∀ role ∈ user.roles, ∃ items, claims.getD "roles" .null = .arr items ∧ .str role ∈ items
  groups : ∀ group ∈ user.groups, ∃ items,
    claims.getD "groups" .null = .arr items ∧ .str group ∈ items

theorem Accepted.admitted {settings : Settings} {claims : Dict Json} {user : AuthenticatedUser}
    (h : Accepted settings claims user) (hsecured : settings.Secured) :
    Admitted settings claims user where
  client := by
    rcases h.client with hnone | ⟨client, hmem, hcalling⟩
    · exact absurd hnone hsecured.clients
    · exact ⟨client, hmem, calledBy_of_callingClient hcalling⟩
  tid := h.tid
  tenant := hsecured.tenant
  ver := hsecured.version ▸ h.ver
  scope := by
    obtain ⟨text, htext, hmem, -⟩ := mem_scopeSet h.scope
    exact ⟨text, htext, hmem⟩
  user_oid := h.oid
  user_tid := h.user_tid ▸ h.tid
  roles := by
    intro role hrole
    rw [h.roles] at hrole
    exact mem_stringSet hrole
  groups := by
    intro group hgroup
    rw [h.groups] at hgroup
    exact mem_stringSet hgroup

section Main

variable {κ : Type} [Jwt κ] [UnicodeData] [UrlData] [FloatData]

/-- **Nobody else gets in in production.** With settings that validate in production, in
every order of turns and whatever the identity provider answers, a user that `validate`
returns comes from claims that are signed by a fresh key, pass `jwt.decode` and meet
every requirement of the settings. -/
theorem production_admits {Signed : String → κ → Dict Json → Prop}
    (hdecode : DecodeVerifies κ Signed) {readInt : String → Option ℤ} {env : Dict String}
    {settings : Settings} (hload : Settings.load readInt env = .ok settings)
    (hprod : settings.APP_ENV = .production) {clock : Clock} {wall : ℕ → ℚ}
    (hclock : Monotone clock) {P}
    (h : (authLoop κ settings).Reaches ⟨KeyCache.start clock wall, []⟩ P) {t} (ht : t ∈ P.threads)
    {token : String} (hcall : t.call = .validate token) {user : AuthenticatedUser}
    (hret : t.prog = .ret (.inr user)) :
    settings.PORTAL_ALLOWED_CLIENT_IDS ≠ [] ∧
      ∃ (kid : String) (key : κ) (time : ℚ) (claims : Dict Json),
        readHeader κ token = .ok kid ∧ Fresh settings kid key t.sess ∧ Signed token key claims ∧
        Passes time settings.PORTAL_API_AUDIENCE settings.entraIssuer claims ∧
        Admitted settings claims user := by
  have hsecured := Settings.load_secured hload hprod
  refine ⟨hsecured.clients, ?_⟩
  have hended := Loop.post_of_ret (authLoop_kept hclock h) ht hret
  rw [hcall] at hended
  obtain ⟨x, hx, hvalidated⟩ := hended
  cases hvalidated with
  | header hheader hnew => cases hx
  | keyless hheader hkey hdecoded => cases hx
  | @checked kid key time hheader hkey hdecoded =>
    cases hcheck : checkToken settings token key time with
    | error e =>
      rw [hcheck] at hx
      cases hx
    | ok accepted =>
      rw [hcheck] at hx
      obtain rfl := Sum.inr.inj (Except.ok.inj hx)
      obtain ⟨claims, hclaims, haccepted⟩ := checkToken_ok hcheck
      obtain ⟨hsigned, hpasses⟩ := hdecode _ _ _ _ _ _ hclaims
      exact ⟨kid, key, time, claims, hheader, hkey.fresh rfl, hsigned, hpasses,
        haccepted.admitted hsecured⟩

end Main

/-! ## A run -/

section Example

open Ascii RsaKeys

def productionEnv : Dict String := [("APP_ENV", "production"),
  ("TENANT_ID", "11111111-1111-1111-1111-111111111111"),
  ("PORTAL_CLIENT_ID", "33333333-3333-3333-3333-333333333333"),
  ("PORTAL_API_AUDIENCE", "api://portal-test"),
  ("PORTAL_ALLOWED_CLIENT_IDS", " 33333333-3333-3333-3333-333333333333 , "),
  ("D365_CLIENT_ID", "22222222-2222-2222-2222-222222222222"),
  ("D365_CLIENT_SECRET", "unit-test-secret"),
  ("SESSION_SECRET", "0123456789abcdef0123456789abcdef")]

def productionSettings : Settings :=
  { testSettings with APP_ENV := .production, SESSION_SECRET := "0123456789abcdef0123456789abcdef" }

/-- The one token there is carries these claims under this key. -/
def TestSigned (token : String) (key : String × String) (claims : Dict Json) : Prop :=
  token = signedToken ∧ key = (publicModulus, "AQAB") ∧ claims = signedClaims

theorem rsaKeys_verifies : DecodeVerifies (String × String) TestSigned := by
  intro now token key audience issuer claims h
  change (if _ then _ else _) = _ at h
  split at h
  · rename_i hvalid
    obtain ⟨rfl, rfl, rfl, rfl, hfrom, huntil⟩ := hvalid
    obtain rfl := Except.ok.inj h
    refine ⟨⟨rfl, rfl, rfl⟩, ?_⟩
    refine ⟨⟨_, 1760000300, rfl, rfl, huntil⟩, ?_, ⟨_, 1760000000, rfl, rfl, ?_⟩, Or.inl rfl, rfl⟩
    · intro value hvalue
      obtain rfl : Json.int 1759999999 = value := Option.some.inj hvalue
      refine ⟨1759999999, rfl, ?_⟩
      push_cast
      linarith
    · push_cast
      linarith
  · cases h

def testUser : AuthenticatedUser where
  oid := "aaaaaaaa-aaaa-aaaa-aaaa-aaaaaaaaaaaa"
  tid := "11111111-1111-1111-1111-111111111111"
  name := some "Test Employee"
  preferred_username := some "employee@example.test"
  roles := {"employee"}
  scopes := {"access_as_user"}
  client_id := some "33333333-3333-3333-3333-333333333333"

/-- An employee's token, a minute after it was issued. -/
theorem production_admits_employee :
    ∃ P, (authLoop (String × String) productionSettings).Reaches
        ⟨KeyCache.start Clock.ticking (fun _ => 1760000060), []⟩ P ∧
      ∃ t ∈ P.threads, t.prog = .ret (.inr testUser) ∧
        productionSettings.PORTAL_ALLOWED_CLIENT_IDS ≠ [] ∧
        ∃ (kid : String) (key : String × String) (time : ℚ) (claims : Dict Json),
          readHeader (String × String) signedToken = .ok kid ∧
          Fresh productionSettings kid key t.sess ∧ TestSigned signedToken key claims ∧
          Passes time productionSettings.PORTAL_API_AUDIENCE productionSettings.entraIssuer claims ∧
          Admitted productionSettings claims testUser := by
  have hload : Settings.load String.toInt? productionEnv = .ok productionSettings := by
    decide +kernel
  have hrun : (Loop.play (authLoop (String × String) productionSettings) answer (fun _ _ => none)
      [.spawn (.validate signedToken), .run 0 keysResponse, .run 0 discoveryResponse,
        .run 0 keysResponse]
      ⟨KeyCache.start Clock.ticking (fun _ => 1760000060), []⟩).any (fun P =>
        P.threads.any fun t => t.call = .validate signedToken ∧
          t.prog.result = some (.ok (.inr testUser))) = true := by
    decide +kernel
  obtain ⟨P, hplay, hP⟩ := (Option.any_eq_true _ _).mp hrun
  obtain ⟨t, ht, hresult⟩ := List.any_eq_true.mp hP
  obtain ⟨hcall, huser⟩ := of_decide_eq_true hresult
  have hret := Prog.result_eq_ok.mp huser
  have hreaches := Loop.play_reaches answer_awaited (fun _ _ _ h => by cases h) hplay
  have hadmits := production_admits rsaKeys_verifies hload rfl
    Clock.ticking_monotone hreaches ht hcall hret
  exact ⟨P, hreaches, t, ht, hret, hadmits⟩

end Example

end Auth.EntraTokenValidator

end EmployeePortal
