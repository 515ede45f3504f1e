import EmployeePortal.Core.Exceptions
import EmployeePortal.Python.Decimal

/-!
# What the routes return
-/

namespace EmployeePortal.Employees

open EmployeePortal.Python

structure EmployeeProfile where
  personnelNumber : String
  displayName : Option String
  email : Option String
  phone : Option String
  officeLocation : Option String
  professionalTitle : Option String
  legalEntity : Option String
  employmentStartDate : Option String
  employmentEndDate : Option String

structure EmployeeProfileResponse where
  employee : EmployeeProfile

structure LeaveBalance where
  leaveType : String
  available : Option Decimal
  taken : Option Decimal
  total : Option Decimal

structure LeaveBalancesResponse where
  balances : List LeaveBalance

/-- `EmployeeProfile(personnelNumber=.., **values)`. -/
def EmployeeProfile.ofValues (personnelNumber : String) (values : Dict (Option String)) :
    EmployeeProfile where
  personnelNumber := personnelNumber
  displayName := values.getD "displayName" none
  email := values.getD "email" none
  phone := values.getD "phone" none
  officeLocation := values.getD "officeLocation" none
  professionalTitle := values.getD "professionalTitle" none
  legalEntity := values.getD "legalEntity" none
  employmentStartDate := values.getD "employmentStartDate" none
  employmentEndDate := values.getD "employmentEndDate" none

/-- `LeaveBalance(..)`: a `Decimal` field takes no infinity and no NaN. -/
def LeaveBalance.validated (b : LeaveBalance) : Except Exc LeaveBalance :=
  if [b.available, b.taken, b.total].all (fun n => n.all Decimal.isFinite) then .ok b
  else .error .validationError

end EmployeePortal.Employees
