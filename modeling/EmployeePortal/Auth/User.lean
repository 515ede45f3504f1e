import EmployeePortal.Core.Exceptions
import Mathlib.Data.Finset.Sort
import Mathlib.Data.String.Basic

/-!
# Who is calling

The user a validated token stands for, the role check of the routes and the
answer of `/me`.
-/

namespace EmployeePortal

structure AuthenticatedUser where
  oid : String
  tid : String
  name : Option String := none
  preferred_username : Option String := none
  email : Option String := none
  roles : Finset String := ∅
  groups : Finset String := ∅
  scopes : Finset String := ∅
  client_id : Option String := none
deriving DecidableEq

structure MeResponse where
  oid : String
  name : Option String
  username : Option String
  roles : List String
  mapping_status : String

/-- `require_roles(*required)`. -/
def requireRoles (required : List String) (user : AuthenticatedUser) :
    Except Exc AuthenticatedUser :=
  if ∃ role ∈ required, role ∈ user.roles then .ok user
  else .error (.portal ⟨"ROLE_DENIED", "You are not authorized for this resource.", 403⟩)

theorem requireRoles_ok {required : List String} {user user' : AuthenticatedUser}
    (h : requireRoles required user = .ok user') : user' = user := by
  unfold requireRoles at h
  split at h
  · exact (Except.ok.inj h).symm
  · cases h

end EmployeePortal
