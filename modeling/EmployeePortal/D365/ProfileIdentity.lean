import EmployeePortal.D365.Balances
import EmployeePortal.D365.ProfileService

/-!
# Whose profile it is

Both services ask for one row's records. The leave service then compares each record
with the row, personnel number and company; the profile service compares the mapped
personnel number only, and leaves the rest to the filter it sent.
-/

namespace EmployeePortal.D365

open EmployeePortal.Python EmployeePortal.Framework EmployeePortal.Employees

/-- The call loaded this configuration, and D365 answered its request. -/
structure ProfileAnswer (events : List (Event Op Op.Answer Exc)) (configuration : EntityMapping)
    (payload : Dict Json) : Prop where
  loaded : ⟨.configuration "profile", .ok (some configuration)⟩ ∈ events
  answered : (configuration.entity_name, .ok payload) ∈ requests events

def profileConflict (message : String) : Exc := .portal ⟨"PROFILE_CONFLICT", message, 409⟩

/-- Loading the configuration is no answer from D365. -/
theorem not_profileAnswer_singleton {mapping_key : String}
    {found : Except Exc (Option EntityMapping)} {configuration : EntityMapping}
    {payload : Dict Json} :
    ¬ ProfileAnswer [⟨.configuration mapping_key, found⟩] configuration payload :=
  fun h => List.not_mem_nil h.answered

theorem profileAnswer_iff {c configuration : EntityMapping} {params : Dict String}
    {answer payload : Dict Json} :
    ProfileAnswer [⟨.configuration "profile", .ok (some c)⟩,
      ⟨.getEntity c.entity_name params, .ok answer⟩] configuration payload ↔
    configuration = c ∧ payload = answer := by
  constructor
  · rintro ⟨hloaded, hanswered⟩
    have hpayload := congrArg Prod.snd (List.mem_singleton.mp hanswered)
    refine ⟨?_, Except.ok.inj hpayload⟩
    rcases List.mem_pair.mp hloaded with heq | heq
    · exact Option.some.inj (Except.ok.inj (eq_of_heq (Sigma.mk.inj heq).2))
    · cases (Sigma.mk.inj heq).1
  · rintro ⟨rfl, rfl⟩
    exact ⟨List.mem_cons_self, List.mem_singleton.mpr rfl⟩

section Profile

variable [UnicodeData] {identity : Mapping} {events : List (Event Op Op.Answer Exc)}
  {result : Except Exc EmployeeProfileResponse}

/-- A profile is read from the answer's one record, which is a record of the row as the
leave service understands it, and a record that is not is rejected. -/
structure ProfileValidated (identity : Mapping) (events : List (Event Op Op.Answer Exc))
    (result : Except Exc EmployeeProfileResponse) : Prop where
  returned : ∀ response, result = .ok response → ∃ configuration payload fields record,
    ProfileAnswer events configuration payload ∧
    payload.get? "value" = some (.arr [.obj record]) ∧
    profileFields configuration.field_mapping = .ok fields ∧
    readProfile fields identity record = .ok response ∧
    RecordOf configuration identity record
  rejected : ∀ configuration payload record, ProfileAnswer events configuration payload →
    payload.get? "value" = some (.arr [.obj record]) →
    ¬ RecordOf configuration identity record →
    ∃ message, result = .error (profileConflict message)

/-- A record with the row's personnel number in the mapped column satisfies the filter
that was sent. -/
def FilterObeyed (identity : Mapping) (events : List (Event Op Op.Answer Exc)) : Prop :=
  ∀ configuration payload (record : Dict Json) fields field,
    ProfileAnswer events configuration payload →
    payload.get? "value" = some (.arr [.obj record]) →
    profileFields configuration.field_mapping = .ok fields →
    fields.get? "personnelNumber" = some field →
    optionalScalar (record.getD field .null) = some identity.d365_personnel_number →
    RecordOf configuration identity record

/-! ## One call -/

/-- A call that D365 answers reads the answer, with the mapped columns. -/
theorem getProfile_run (hrun : (getProfile identity).Run events result) :
    (∃ e, result = .error e ∧ ∀ configuration payload,
      ¬ ProfileAnswer events configuration payload) ∨
    ∃ configuration fields params payload,
      events = [⟨.configuration "profile", .ok (some configuration)⟩,
        ⟨.getEntity configuration.entity_name params, .ok payload⟩] ∧
      profileFields configuration.field_mapping = .ok fields ∧
      result = readProfileAnswer fields identity payload := by
  unfold getProfile requiredConfiguration await at hrun
  simp only [Prog.liftM_eq, bind_assoc] at hrun
  rcases Prog.run_perform_bind.mp hrun with ⟨found, rest, rfl, hrest⟩ | ⟨e, rfl, rfl⟩
  swap; · exact Or.inl ⟨e, rfl, fun _ _ => not_profileAnswer_singleton⟩
  cases found with
  | none =>
    obtain ⟨rfl, rfl⟩ := hrest
    exact Or.inl ⟨_, rfl, fun _ _ => not_profileAnswer_singleton⟩
  | some c =>
    -- until the request is sent, an exception leaves nothing but the configuration
    have hstop : ∀ e, rest = [] → result = .error e → (∃ e, result = .error e ∧
        ∀ configuration payload, ¬ ProfileAnswer
          (⟨.configuration "profile", .ok (some c)⟩ :: rest) configuration payload) := by
      rintro e rfl rfl
      exact ⟨e, rfl, fun _ _ => not_profileAnswer_singleton⟩
    simp only [bind_assoc, pure_bind] at hrest
    rcases Prog.run_ofExcept_bind.mp hrest with ⟨_, -, hrest⟩ | ⟨e, -, hnil, he⟩
    swap; · exact Or.inl (hstop e hnil he)
    rcases Prog.run_ofExcept_bind.mp hrest with ⟨fields, hfields, hrest⟩ | ⟨e, -, hnil, he⟩
    swap; · exact Or.inl (hstop e hnil he)
    rcases Prog.run_ofExcept_bind.mp hrest with ⟨personnel_field, -, hrest⟩ | ⟨e, -, hnil, he⟩
    swap; · exact Or.inl (hstop e hnil he)
    rcases Prog.run_ofExcept_bind.mp hrest with ⟨filter, -, hrest⟩ | ⟨e, -, hnil, he⟩
    swap; · exact Or.inl (hstop e hnil he)
    unfold getEntity await at hrest
    simp only [Prog.liftM_eq, bind_assoc] at hrest
    rcases Prog.run_ofExcept_bind.mp hrest with ⟨entity, hentity, hrest⟩ | ⟨e, -, hnil, he⟩
    swap; · exact Or.inl (hstop e hnil he)
    obtain ⟨-, rfl⟩ := validateIdentifier_ok.mp hentity
    rcases Prog.run_ofExcept_bind.mp hrest with ⟨params, -, hrest⟩ | ⟨e, -, hnil, he⟩
    swap; · exact Or.inl (hstop e hnil he)
    rcases Prog.run_perform_bind.mp hrest with ⟨payload, rest, rfl, hanswered⟩ | ⟨e, rfl, rfl⟩
    · obtain ⟨rfl, rfl⟩ := Prog.run_ofExcept.mp hanswered
      exact Or.inr ⟨c, fields, params, payload, rfl, hfields, rfl⟩
    · refine Or.inl ⟨e, rfl, fun configuration payload h => ?_⟩
      cases congrArg Prod.snd (List.mem_singleton.mp h.answered)

/-- What the call makes of a record, by the mapped personnel number. -/
theorem readProfile_eq {fields : Dict String} {field : String} (record : Dict Json)
    (hfield : fields.get? "personnelNumber" = some field) :
    (optionalScalar (record.getD field .null) = some identity.d365_personnel_number ∧
      ∃ response, readProfile fields identity record = .ok response) ∨
    (optionalScalar (record.getD field .null) ≠ some identity.d365_personnel_number ∧
      ∃ message, readProfile fields identity record = .error (profileConflict message)) := by
  have hvalues : Dict.get? (fields.map fun p => (p.1, optionalScalar (record.getD p.2 .null)))
      "personnelNumber" = some (optionalScalar (record.getD field .null)) := by
    rw [Dict.get?_map fun column => optionalScalar (record.getD column .null), hfield]
    rfl
  unfold readProfile
  dsimp only
  rw [hvalues]
  cases optionalScalar (record.getD field .null) with
  | none =>
    refine Or.inr ⟨fun h => ?_, _, rfl⟩
    cases h
  | some number =>
    dsimp only
    by_cases hnumber : number = identity.d365_personnel_number
    · rw [if_pos hnumber]
      exact Or.inl ⟨congrArg some hnumber, _, rfl⟩
    · rw [if_neg hnumber]
      exact Or.inr ⟨fun h => hnumber (Option.some.inj h), _, rfl⟩

/-- For every row, whatever D365 answers: the profile service checks a record as the leave
service would exactly when a record with the row's personnel number in the mapped column
obeys the filter. -/
theorem profile_validated_iff (hrun : (getProfile identity).Run events result) :
    ProfileValidated identity events result ↔ FilterObeyed identity events := by
  rcases getProfile_run hrun with ⟨e, rfl, hnone⟩ | ⟨c, fields, params, payload, rfl, hfields, rfl⟩
  · refine iff_of_true ⟨fun _ h => ?_, fun c payload _ h => ?_⟩ fun c payload _ _ _ h => ?_
    · cases h
    · exact absurd h (hnone c payload)
    · exact absurd h (hnone c payload)
  obtain ⟨field, hfield⟩ := Option.isSome_iff_exists.mp (selectFields_of_checked hfields).2
  constructor
  · -- an accepted record is the one the profile was read from
    intro hvalidated c' payload' record fields' field' hanswer hvalue hfields' hfield' hnumber
    obtain ⟨rfl, rfl⟩ := profileAnswer_iff.mp hanswer
    obtain rfl := Except.ok.inj (hfields.symm.trans hfields')
    obtain rfl := Option.some.inj (hfield.symm.trans hfield')
    rcases readProfile_eq record hfield with ⟨-, response, hread⟩ | ⟨hother, -⟩
    · have hresult : readProfileAnswer fields identity payload' = .ok response := by
        rw [readProfileAnswer, hvalue]
        exact hread
      obtain ⟨c₁, payload₁, -, record₁, hanswer₁, hvalue₁, -, -, hof⟩ :=
        hvalidated.returned response hresult
      obtain ⟨rfl, rfl⟩ := profileAnswer_iff.mp hanswer₁
      rw [hvalue] at hvalue₁
      cases hvalue₁
      exact hof
    · exact absurd hnumber hother
  · intro hobeyed
    constructor
    · intro response hresponse
      unfold readProfileAnswer at hresponse
      split at hresponse
      · cases hresponse
      · rename_i record hvalue
        refine ⟨c, payload, fields, record, profileAnswer_iff.mpr ⟨rfl, rfl⟩, hvalue, hfields,
          hresponse, ?_⟩
        rcases readProfile_eq record hfield with ⟨hnumber, -⟩ | ⟨-, message, hread⟩
        · exact hobeyed c payload record fields field (profileAnswer_iff.mpr ⟨rfl, rfl⟩) hvalue
            hfields hfield hnumber
        · rw [hread] at hresponse
          cases hresponse
      · cases hresponse
      · cases hresponse
    · intro c' payload' record hanswer hvalue hstranger
      obtain ⟨rfl, rfl⟩ := profileAnswer_iff.mp hanswer
      rw [readProfileAnswer, hvalue]
      rcases readProfile_eq record hfield with ⟨hnumber, -⟩ | ⟨-, message, hread⟩
      · exact absurd
          (hobeyed c' payload' record fields field hanswer hvalue hfields hfield hnumber) hstranger
      · exact ⟨message, hread⟩

end Profile

/-! ## A run -/

section Example

open scoped Ascii

def workerProfile : EntityMapping where
  mapping_key := "profile"
  entity_name := "EmployeesV2"
  personnel_number_field := some "PersonnelNumber"
  company_field := some "EmploymentLegalEntityId"
  field_mapping := [("personnelNumber", .str "PersonnelNumber"), ("displayName", .str "Name")]
  enabled := true

/-- The row's personnel number, with this company. -/
def workerRecord (company : String) : Dict Json :=
  [("PersonnelNumber", .str "6666"), ("EmploymentLegalEntityId", .str company),
    ("Name", .str "Ada")]

def profileReply (company : String) (o : Op) (_ : Unit) : Option (Except Exc o.Answer) :=
  match o with
  | .configuration _ => some (.ok (some workerProfile))
  | .getEntity _ _ => some (.ok [("value", .arr [.obj (workerRecord company)])])
  | _ => none

/-- The trace of the call that D365 answers with this company's record. -/
def profileRun (company : String) :
    Option (List (Event Op Op.Answer Exc) × Except Exc EmployeeProfileResponse) :=
  Prog.drive (profileReply company) (getProfile exampleRow) [(), ()]

def isReturned (result : Except Exc EmployeeProfileResponse) : Bool :=
  match result with
  | .ok _ => true
  | .error _ => false

theorem profileRun_eq {company : String} {events : List (Event Op Op.Answer Exc)}
    {response : EmployeeProfileResponse} (h : profileRun company = some (events, .ok response)) :
    ∃ params, events = [⟨.configuration "profile", .ok (some workerProfile)⟩,
      ⟨.getEntity workerProfile.entity_name params,
        .ok [("value", .arr [.obj (workerRecord company)])]⟩] := by
  rcases getProfile_run (Prog.drive_run h) with ⟨e, he, -⟩ | ⟨c, fields, params, payload, rfl, -, -⟩
  · cases he
  obtain ⟨hint, hloaded⟩ := Prog.drive_mem h _ List.mem_cons_self
  obtain rfl := Option.some.inj (Except.ok.inj (Option.some.inj hloaded))
  obtain ⟨hint, hanswered⟩ := Prog.drive_mem h _ (List.mem_cons_of_mem _ List.mem_cons_self)
  obtain rfl := Except.ok.inj (Option.some.inj hanswered)
  exact ⟨params, rfl⟩

/-- The row is one of SSSA, and D365 answers with a record of USMF: it is returned. -/
theorem profile_other_company : ∃ events response,
    (getProfile exampleRow).Run events (.ok response) ∧
    ¬ ProfileValidated exampleRow events (.ok response) := by
  have hreturned : (profileRun "USMF").any (fun x => isReturned x.2) = true := by
    decide +kernel
  obtain ⟨⟨events, _ | response⟩, hdrive, hresult⟩ := (Option.any_eq_true _ _).mp hreturned
  · cases hresult
  obtain ⟨params, rfl⟩ := profileRun_eq hdrive
  refine ⟨_, response, Prog.drive_run hdrive, fun hvalidated => ?_⟩
  have hstranger : ¬ RecordOf workerProfile exampleRow (workerRecord "USMF") := by
    intro hof
    exact absurd (hof.company "EmploymentLegalEntityId" "SSSA" rfl (by decide) rfl (by decide))
      (by decide +kernel)
  obtain ⟨message, herror⟩ := hvalidated.rejected _ _ _ (profileAnswer_iff.mpr ⟨rfl, rfl⟩) rfl
    hstranger
  cases herror

/-- A record of the row's own company, in other case. -/
theorem profile_validated_own_company : ∃ events response,
    (getProfile exampleRow).Run events (.ok response) ∧
    ProfileValidated exampleRow events (.ok response) := by
  have hreturned : (profileRun "sssa").any (fun x => isReturned x.2) = true := by
    decide +kernel
  obtain ⟨⟨events, _ | response⟩, hdrive, hresult⟩ := (Option.any_eq_true _ _).mp hreturned
  · cases hresult
  obtain ⟨params, rfl⟩ := profileRun_eq hdrive
  refine ⟨_, response, Prog.drive_run hdrive, ?_⟩
  refine (profile_validated_iff (Prog.drive_run hdrive)).mpr ?_
  intro c payload record fields field hanswer hvalue _ _ _
  obtain ⟨rfl, rfl⟩ := profileAnswer_iff.mp hanswer
  cases hvalue
  refine ⟨⟨"PersonnelNumber", rfl, by decide +kernel⟩, ?_⟩
  rintro field company ⟨⟩ - ⟨⟩ -
  decide +kernel

end Example

end EmployeePortal.D365
