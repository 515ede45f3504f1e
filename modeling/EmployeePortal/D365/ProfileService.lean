import EmployeePortal.D365.IdentityFilter
import EmployeePortal.Employees.Schemas

/-!
# `D365ProfileService`
-/

namespace EmployeePortal.D365

open EmployeePortal.Python EmployeePortal.Framework EmployeePortal.Employees

def profileFieldNames : List String :=
  ["personnelNumber", "displayName", "email", "phone", "officeLocation",
    "professionalTitle", "legalEntity", "employmentStartDate", "employmentEndDate"]

def profileNotConfigured (message : String) : PortalError :=
  ⟨"PROFILE_NOT_CONFIGURED", message, 503⟩

section Profile

variable [UnicodeData]

/-- `_validated_fields`. -/
def profileFields (raw : Dict Json) : Except Exc (Dict String) := do
  let fields ← selectFields profileFieldNames raw
  if (fields.get? "personnelNumber").isSome then return fields
  else throw (.portal (profileNotConfigured "Profile field mapping is incomplete."))

/-- `_optional_scalar`. -/
def optionalScalar : Json → Option String
  | .null | .arr _ | .obj _ => none
  | value => some value.text

/-- The profile of a record, if its personnel number is the row's. -/
def readProfile (fields : Dict String) (identity : Mapping) (record : Dict Json) :
    Except Exc EmployeeProfileResponse :=
  let values : Dict (Option String) := fields.map fun (logical, field) =>
    (logical, optionalScalar (record.getD field .null))
  match values.get? "personnelNumber" with
  | some (some personnel_number) =>
      if personnel_number = identity.d365_personnel_number then
        .ok ⟨.ofValues personnel_number values⟩
      else .error (.portal ⟨"PROFILE_CONFLICT", "Employee record identity validation failed.", 409⟩)
  | _ => .error (.portal ⟨"PROFILE_CONFLICT", "Employee record identity validation failed.", 409⟩)

/-- The answer's one record, read. -/
def readProfileAnswer (fields : Dict String) (identity : Mapping) (payload : Dict Json) :
    Except Exc EmployeeProfileResponse :=
  match payload.get? "value" with
  | some (.arr (_ :: _ :: _)) => .error (.portal ⟨"PROFILE_CONFLICT",
      "Multiple employee records require administrator review.", 409⟩)
  | some (.arr [.obj record]) => readProfile fields identity record
  | some (.arr _) =>
      .error (.portal ⟨"PROFILE_NOT_FOUND", "Your employee profile was not found.", 404⟩)
  | _ => .error (.portal ⟨"PROFILE_UNAVAILABLE", "Your employee information is unavailable.", 503⟩)

def getProfile (identity : Mapping) : Coroutine EmployeeProfileResponse := do
  let configuration ← requiredConfiguration "profile"
    (profileNotConfigured "Employee profile integration has not been enabled.")
  let fields ← profileFields configuration.field_mapping
  let personnel_field ← requiredIdentifier
    (profileNotConfigured "Profile identity field is missing.")
    configuration.personnel_number_field
  let filter ← filterOf (identityPairs personnel_field configuration identity)
  let payload ← getEntity configuration.entity_name
    { select := (fields.map Prod.snd).eraseDups, filter_expression := some filter,
      top := some 2, cross_company := some (companyClause configuration identity).isSome }
  readProfileAnswer fields identity payload

/-- The profile is what an answer to a request for the row says, field by field, and carries the
row's personnel number. -/
structure ProfileOf (identity : Mapping) (l : Session) (response : EmployeeProfileResponse) :
    Prop where
  personnel_number : response.employee.personnelNumber = identity.d365_personnel_number
  asked : ∃ configuration ∈ l.loaded, ∃ x ∈ l.answered, AskedFor configuration identity x ∧
    ∃ fields, profileFields configuration.field_mapping = .ok fields ∧
      readProfileAnswer fields identity x.payload = .ok response

theorem ProfileOf.congr {identity : Mapping} {l l' : Session}
    {response : EmployeeProfileResponse} (h : ProfileOf identity l response)
    (hloaded : l'.loaded = l.loaded) (hanswered : l'.answered = l.answered) :
    ProfileOf identity l' response :=
  ⟨h.personnel_number, hloaded ▸ hanswered ▸ h.asked⟩

theorem readProfileAnswer_ok {fields : Dict String} {identity : Mapping} {payload : Dict Json}
    {response : EmployeeProfileResponse}
    (h : readProfileAnswer fields identity payload = .ok response) :
    response.employee.personnelNumber = identity.d365_personnel_number := by
  unfold readProfileAnswer at h
  split at h
  · cases h
  · unfold readProfile at h
    dsimp only at h
    split at h
    · split at h
      · rename_i heq
        cases h
        exact heq
      · cases h
    · cases h
  · cases h
  · cases h

section Rules

variable {K : Contract Database} {sem : OpSem Op Op.Answer Exc Database Session}
  (hK : Conforms K sem) {s : Database} {l : Session}

include hK

/-- A profile is the profile of the row it was fetched for. -/
theorem getProfile_safe (identity : Mapping) :
    Safe K sem (getProfile identity) (fun r _ l' => l.Idle l' ∧ ∀ response,
      r = .ok response → ProfileOf identity l' response) s l := by
  unfold getProfile
  refine Safe.bind (requiredConfiguration_safe hK _ _) ?_
    fun _ _ _ h => ⟨h.1, fun _ h => by cases h⟩
  rintro configuration s₁ l₁ ⟨hidle₁, hloaded⟩
  cases hfields : profileFields configuration.field_mapping with
  | error e => exact ⟨hidle₁, fun _ h => by cases h⟩
  | ok fields =>
  cases hfield : requiredIdentifier
      (profileNotConfigured "Profile identity field is missing.")
      configuration.personnel_number_field with
  | error e =>
    simp only [Prog.liftM_eq, Prog.ofExcept_ok, Prog.ret_bind, Prog.ofExcept_error,
      Prog.raise_bind]
    exact ⟨hidle₁, fun _ h => by cases h⟩
  | ok personnel_field =>
  simp only [Prog.liftM_eq, Prog.ofExcept_ok, Prog.ret_bind]
  cases hfilter : filterOf (identityPairs personnel_field configuration identity) with
  | error e => exact ⟨hidle₁, fun _ h => by cases h⟩
  | ok filter =>
  simp only [Prog.ofExcept_ok, Prog.ret_bind]
  refine Safe.bind (getEntity_safe hK _ _) ?_
    fun _ _ _ h => ⟨hidle₁.trans h.1, fun _ h => by cases h⟩
  rintro payload s₂ l₂ ⟨hidle₂, hanswered⟩
  obtain ⟨params, hparams, hmem⟩ := hanswered payload rfl
  refine Safe.ofExcept ⟨hidle₁.trans hidle₂, fun response hresponse => ?_⟩
  exact ⟨readProfileAnswer_ok hresponse, configuration,
    hidle₂.loaded (hloaded configuration rfl), _, hmem, askedFor hfield hfilter rfl hparams,
    fields, hfields, hresponse⟩

end Rules

end Profile

end EmployeePortal.D365
