import EmployeePortal.Auth.Service

/-!
# What accepted claims say

The checks of `validate` on verified claims, whatever JSON values they hold: either
one of three errors, or a user whose every field is read off the claims.
-/

namespace EmployeePortal.Auth.EntraTokenValidator

open EmployeePortal.Python

/-- The claims pass every check, and `user` is the user they name. -/
structure Accepted (settings : Settings) (claims : Dict Json) (user : AuthenticatedUser) :
    Prop where
  tid : claims.getD "tid" .null = .str settings.TENANT_ID
  ver : claims.getD "ver" .null = .str settings.ENTRA_ACCEPTED_TOKEN_VERSION
  client : settings.PORTAL_ALLOWED_CLIENT_IDS = [] ∨
    ∃ client ∈ settings.PORTAL_ALLOWED_CLIENT_IDS, callingClient claims = .str client
  scope : settings.PORTAL_REQUIRED_SCOPE ∈ scopeSet (claims.getD "scp" .null)
  oid : claims.getD "oid" .null = .str user.oid
  named : user.oid ≠ ""
  user_tid : user.tid = settings.TENANT_ID
  roles : user.roles = stringSet (claims.getD "roles" .null)
  groups : user.groups = stringSet (claims.getD "groups" .null)

section Claims

variable [UnicodeData] {settings : Settings} {claims : Dict Json}

/-- Refused with 401 or 403, or accepted. -/
theorem readClaims_cases (settings : Settings) (claims : Dict Json) :
    readClaims settings claims = .error invalid ∨
      readClaims settings claims = .error clientNotAllowed ∨
      readClaims settings claims = .error scopeDenied ∨
      ∃ user, readClaims settings claims = .ok user ∧ Accepted settings claims user := by
  unfold readClaims
  -- the checks in the order of the source; what passes all of them is accepted
  by_cases htid : (claims.getD "tid" .null).isText settings.TENANT_ID = true
  swap
  · rw [if_pos htid]
    exact Or.inl rfl
  rw [if_neg (not_not.mpr htid)]
  by_cases hver : (claims.getD "ver" .null).isText settings.ENTRA_ACCEPTED_TOKEN_VERSION = true
  swap
  · rw [if_pos hver]
    exact Or.inl rfl
  rw [if_neg (not_not.mpr hver)]
  by_cases hclient : settings.PORTAL_ALLOWED_CLIENT_IDS ≠ [] ∧
      ¬ ∃ client ∈ settings.PORTAL_ALLOWED_CLIENT_IDS,
        (callingClient claims).isText client = true
  · dsimp only
    rw [if_pos hclient]
    exact Or.inr (Or.inl rfl)
  dsimp only
  rw [if_neg hclient]
  by_cases hscope : settings.PORTAL_REQUIRED_SCOPE ∉ scopeSet (claims.getD "scp" .null)
  · rw [if_pos hscope]
    exact Or.inr (Or.inr (Or.inl rfl))
  rw [if_neg hscope, Json.item_of_getD (Json.isText_iff.mp htid)]
  cases hoid : claims.getD "oid" .null with
  | str oid =>
    dsimp only
    by_cases hempty : oid = ""
    · rw [if_pos hempty]
      exact Or.inl rfl
    · rw [if_neg hempty]
      refine Or.inr (Or.inr (Or.inr ⟨_, rfl, ?_⟩))
      refine ⟨Json.isText_iff.mp htid, Json.isText_iff.mp hver, ?_, not_not.mp hscope, hoid,
        hempty, rfl, rfl, rfl⟩
      by_cases hnone : settings.PORTAL_ALLOWED_CLIENT_IDS = []
      · exact Or.inl hnone
      · obtain ⟨client, hmem, htext⟩ := not_not.mp fun hno => hclient ⟨hnone, hno⟩
        exact Or.inr ⟨client, hmem, Json.isText_iff.mp htext⟩
  | _ => exact Or.inl rfl

theorem readClaims_ok {user : AuthenticatedUser} (h : readClaims settings claims = .ok user) :
    Accepted settings claims user := by
  rcases readClaims_cases settings claims with he | he | he | ⟨user', huser, haccepted⟩
  · rw [h] at he
    cases he
  · rw [h] at he
    cases he
  · rw [h] at he
    cases he
  · rw [h] at huser
    obtain rfl := Except.ok.inj huser
    exact haccepted

/-- A user comes from decoded claims. -/
theorem checkToken_ok {κ : Type} [Jwt κ] {token : String} {key : κ} {time : ℚ}
    {user : AuthenticatedUser} (h : checkToken settings token key time = .ok user) :
    ∃ claims, Jwt.decode time token key settings.PORTAL_API_AUDIENCE settings.entraIssuer =
        .ok claims ∧ Accepted settings claims user := by
  unfold checkToken at h
  split at h
  · cases h
  · cases h
  · rename_i claims hdecode
    exact ⟨claims, hdecode, readClaims_ok h⟩

end Claims

end EmployeePortal.Auth.EntraTokenValidator
