import EmployeePortal.D365.FilterReading
import EmployeePortal.Portal.ConfirmedIdentity
import EmployeePortal.Tools.CreateIdentityMapping

/-!
# Whether a stored mapping can be asked for

Both writers of a mapping strip its texts and bound their lengths. A literal of a filter
takes no NUL, CR or LF either, and no writer looks for one: a row with such a character
inside one of its texts is stored as verified, and no filter can be built for it.
-/

namespace EmployeePortal

open EmployeePortal.Python EmployeePortal.Framework EmployeePortal.D365 EmployeePortal.Employees
  EmployeePortal.Tools

/-! ## Configurations and filters -/

/-- The columns a profile or leave configuration compares, as the services accept them. -/
structure ComparedBy (c : EntityMapping) (personnel_field : String) : Prop where
  personnel_number_field : c.personnel_number_field = some personnel_field
  personnel_identifier : isIdentifier personnel_field = true
  company_identifier : ∀ field, c.company_field = some field → field ≠ "" →
    isIdentifier field = true

/-- The configuration compares this text of a row. -/
def Compares (c : EntityMapping) (key : String) : Prop :=
  key = "personnelNumber" ∨ key = "company" ∧ ∃ field, c.company_field = some field ∧ field ≠ ""

section Filter

variable [UnicodeData] {c : EntityMapping} {personnel_field : String} {m : Mapping}

/-- The filter for the row can be built. -/
def Queryable (c : EntityMapping) (personnel_field : String) (m : Mapping) : Prop :=
  ∃ filter, filterOf (identityPairs personnel_field c m) = .ok filter

theorem queryable_iff {company : String} (hc : ComparedBy c personnel_field)
    (hcompany : m.d365_company = some company) (hne : company ≠ "") :
    Queryable c personnel_field m ↔ hasControl m.d365_personnel_number = false ∧
      (Compares c "company" → hasControl company = false) := by
  rw [Queryable, filterOf_ok_iff, identityPairs]
  constructor
  · rintro ⟨-, hpairs⟩
    refine ⟨(hpairs _ List.mem_cons_self).2, ?_⟩
    rintro (h | ⟨-, field, hfield⟩)
    · exact absurd h (by decide)
    · have hclause := companyClause_eq_some.mpr ⟨hfield, hcompany, hne⟩
      exact (hpairs (field, company)
        (List.mem_cons_of_mem _ (Option.mem_toList.mpr hclause))).2
  · rintro ⟨hnumber, hplain⟩
    refine ⟨List.cons_ne_nil _ _, fun p hp => ?_⟩
    rcases List.mem_cons.mp hp with rfl | hp
    · exact ⟨hc.personnel_identifier, hnumber⟩
    · obtain ⟨hfield, hcompany', -⟩ := companyClause_eq_some.mp (Option.mem_toList.mp hp)
      obtain rfl := Option.some.inj (hcompany.symm.trans hcompany')
      exact ⟨hc.company_identifier _ hfield.1 hfield.2, hplain (Or.inr ⟨rfl, _, hfield⟩)⟩

end Filter

/-! ## The two writers -/

inductive Writer
  | provision (user : AuthenticatedUser)
  | create_identity_mapping (args : Args)

section Writers

variable [UnicodeData]

/-- A run of the writer, whatever the database and D365 do. -/
def Writer.Run : Writer → List (Event Op Op.Answer Exc) → Prop
  | .provision user, events => ∃ result, (Employees.provision user).Run events result
  | .create_identity_mapping args, events =>
      ∃ result, (createIdentityMapping args).Run events result

/-- The text the run is given for a column of the row: D365's, or an argument. -/
def Writer.Given : Writer → List (Event Op Op.Answer Exc) → String → String → Prop
  | .provision _, events, key, text =>
      ∃ c ∈ loadedIn events, ∃ payload ∈ answeredIn events, ∃ record value,
        payload.get? "value" = some (.arr [.obj record]) ∧ Holds c record key value ∧
        text = value.text
  | .create_identity_mapping args, _, key, text =>
      (key, text) ∈ [("personnelNumber", args.personnel_number), ("company", args.company)]

/-- What a writer makes of the texts it is given. -/
structure MadeOf (w : Writer) (events : List (Event Op Op.Answer Exc)) (m : Mapping)
    (number company : String) : Prop where
  number_given : ∀ text, w.Given events "personnelNumber" text ↔ text = number
  company_given : ∀ text, w.Given events "company" text ↔ text = company
  number_stored : m.d365_personnel_number = strip number
  company_stored : m.d365_company = some (strip company)
  company_ne : strip company ≠ ""

variable {events : List (Event Op Op.Answer Exc)} {m : Mapping}

/-- What is committed was confirmed before, by one answer under one configuration. -/
theorem provision_made {user : AuthenticatedUser} (hdistinct : DistinctFields events)
    (hrun : (Writer.provision user).Run events) (hcommit : commitEvent ∈ events) :
    ∃ m number company, addedIn events = [m] ∧
      MadeOf (.provision user) events m number company := by
  obtain ⟨result, hrun⟩ := hrun
  rcases provision_run hrun hdistinct with ⟨x, hconfirming, -⟩ |
    ⟨w, es, es', rfl, hconfirming, hsettling⟩
  · exact absurd hcommit hconfirming.not_committed
  have hlater := (List.mem_append.mp hcommit).resolve_left hconfirming.not_committed
  cases hsettling with
  | looked h => simp [commitEvent, conflictQuery] at hlater
  | broken h hnone => exact absurd hlater hnone
  | @inserted id =>
  cases hconfirming with
  | refused h hr => exact absurd rfl (hr w)
  | @answered c params payload r h =>
  obtain ⟨record, hvalue, hconfirmed⟩ := ((h w).mp rfl).record
  obtain ⟨number, hnumber, hnumber_eq⟩ := hconfirmed.personnel_number
  obtain ⟨company, hcompany, hcompany_eq⟩ := hconfirmed.company
  have hgiven : ∀ {key value}, Holds c record key value → ∀ text,
      (∃ c' ∈ [c], ∃ payload' ∈ [payload], ∃ record' value',
        payload'.get? "value" = some (.arr [.obj record']) ∧ Holds c' record' key value' ∧
        text = value'.text) ↔ text = value.text := by
    intro key value hholds text
    constructor
    · rintro ⟨c', hc', payload', hpayload', record', value', hvalue', hholds', rfl⟩
      obtain rfl := List.mem_singleton.mp hc'
      obtain rfl := List.mem_singleton.mp hpayload'
      obtain rfl : record' = record := by
        rw [hvalue'] at hvalue
        simpa using hvalue
      rw [hholds'.unique hholds]
    · rintro rfl
      exact ⟨c, List.mem_singleton_self c, payload, List.mem_singleton_self payload, record,
        value, hvalue, hholds, rfl⟩
  refine ⟨autoMapping id user w, number.text, company.text, rfl, hgiven hnumber,
    hgiven hcompany, hnumber_eq, ?_, ?_⟩
  · exact congrArg some hcompany_eq
  · rw [← hcompany_eq]
    exact ne_of_length_pos hconfirmed.company_length.1

theorem createApproved_run {args : Args} {oid approved_by : Uuid} {result : Except Exc ℤ}
    (hrun : (createApproved args oid approved_by).Run events result)
    (hcommit : commitEvent ∈ events) : ∃ id, addedIn events = [manualMapping id args oid] := by
  unfold createApproved await at hrun
  rcases Prog.run_perform_bind.mp hrun with ⟨found, rest, rfl, hfree⟩ | ⟨e, rfl, -⟩
  swap
  · simp [commitEvent] at hcommit
  cases found with
  | some row =>
    obtain ⟨rfl, -⟩ := hfree
    simp [commitEvent] at hcommit
  | none =>
  rcases Prog.run_perform_bind.mp hfree with ⟨id, rest, rfl, hadd⟩ | ⟨e, rfl, -⟩
  swap
  · simp [commitEvent] at hcommit
  rcases Prog.run_perform_bind.mp hadd with ⟨⟨⟩, rest, rfl, hhistory⟩ | ⟨e, rfl, -⟩
  swap
  · simp [commitEvent] at hcommit
  rcases Prog.run_perform_bind.mp hhistory with ⟨⟨⟩, rest, rfl, hdone⟩ | ⟨e, rfl, -⟩
  swap
  · simp [commitEvent] at hcommit
  rcases Prog.run_perform_bind.mp hdone with ⟨⟨⟩, rest, rfl, hret⟩ | ⟨e, rfl, -⟩
  · obtain ⟨rfl, -⟩ := hret
    exact ⟨id, rfl⟩
  · exact ⟨id, rfl⟩

theorem createIdentityMapping_made {args : Args}
    (hrun : (Writer.create_identity_mapping args).Run events) (hcommit : commitEvent ∈ events) :
    ∃ m, addedIn events = [m] ∧
      MadeOf (.create_identity_mapping args) events m args.personnel_number args.company := by
  obtain ⟨result, hrun⟩ := hrun
  have hnothing : ∀ {e : Exc}, ¬ (Prog.raise e : Coroutine ℤ).Run events result := by
    rintro e ⟨rfl, -⟩
    exact absurd hcommit List.not_mem_nil
  unfold createIdentityMapping at hrun
  simp only [Prog.liftM_eq] at hrun
  rcases Prog.run_ofExcept_bind.mp hrun with ⟨oid, -, hrun⟩ | ⟨e, -, hraise⟩
  swap
  · exact absurd hraise hnothing
  rcases Prog.run_ofExcept_bind.mp hrun with ⟨approved_by, -, hrun⟩ | ⟨e, -, hraise⟩
  swap
  · exact absurd hraise hnothing
  by_cases hnumber : strip args.personnel_number = "" ∨ 64 < (strip args.personnel_number).length
  · rw [if_pos hnumber] at hrun
    exact absurd hrun hnothing
  rw [if_neg hnumber] at hrun
  by_cases hcompany : strip args.company = "" ∨ 32 < (strip args.company).length
  · rw [if_pos hcompany] at hrun
    exact absurd hrun hnothing
  rw [if_neg hcompany] at hrun
  obtain ⟨id, hcreated⟩ := createApproved_run hrun hcommit
  refine ⟨_, hcreated, fun text => ?_, fun text => ?_, rfl, rfl, fun h => hcompany (Or.inl h)⟩
  · simp [Writer.Given]
  · simp [Writer.Given]

/-- A run that commits adds one row. -/
theorem Writer.made (w : Writer) (hdistinct : DistinctFields events) (hrun : w.Run events)
    (hcommit : commitEvent ∈ events) :
    ∃ m number company, addedIn events = [m] ∧ MadeOf w events m number company := by
  cases w with
  | provision user => exact provision_made hdistinct hrun hcommit
  | create_identity_mapping args =>
    obtain ⟨m, hadded, hmade⟩ := createIdentityMapping_made hrun hcommit
    exact ⟨m, _, _, hadded, hmade⟩

/-- **Which stored mappings can be queried.** In every run of either writer that creates a
row, and for every configuration the services accept: the filter for that row can be built
exactly when the stripped texts the writer was given, of the columns the configuration
compares, have no NUL, CR or LF. -/
theorem created_queryable_iff (w : Writer) (hdistinct : DistinctFields events)
    (hrun : w.Run events) (hcommit : commitEvent ∈ events) (hadded : m ∈ addedIn events)
    {c : EntityMapping} {personnel_field : String} (hc : ComparedBy c personnel_field) :
    Queryable c personnel_field m ↔
      ∀ key text, w.Given events key text → Compares c key → hasControl (strip text) = false := by
  obtain ⟨m', number, company, hone, hmade⟩ := w.made hdistinct hrun hcommit
  rw [hone] at hadded
  obtain rfl := List.mem_singleton.mp hadded
  rw [queryable_iff hc hmade.company_stored hmade.company_ne, hmade.number_stored]
  constructor
  · rintro ⟨hnumber, hcompany⟩ key text hgiven hcompares
    rcases hcompares with rfl | ⟨rfl, hfield⟩
    · rwa [(hmade.number_given text).mp hgiven]
    · rw [(hmade.company_given text).mp hgiven]
      exact hcompany (Or.inr ⟨rfl, hfield⟩)
  · intro hplain
    refine ⟨hplain _ _ ((hmade.number_given number).mpr rfl) (Or.inl rfl), fun hcompares => ?_⟩
    exact hplain _ _ ((hmade.company_given company).mpr rfl) hcompares

end Writers

/-! ### A line break inside a personnel number -/

section Example

open scoped Ascii

def exampleProfile : EntityMapping :=
  exampleConfiguration "profile" [("personnelNumber", "PersonnelNumber")]

theorem exampleProfile_compared : ComparedBy exampleProfile "PersonnelNumber" where
  personnel_number_field := rfl
  personnel_identifier := by decide
  company_identifier := by
    intro field hfield hne
    obtain rfl := Option.some.inj hfield
    decide

section Worker

variable {user : AuthenticatedUser} {personnel_number : Json}
  {events : List (Event Op Op.Answer Exc)} (hcolumns : ColumnsLoaded events)
  (hanswered : ∀ payload ∈ answeredIn events, payload = workerAnswer personnel_number)

include hcolumns hanswered

/-- The texts `provision` is given when D365 answers with this worker. -/
theorem worker_given :
    (∀ text, (Writer.provision user).Given events "personnelNumber" text →
      text = personnel_number.text) ∧
    ∀ text, (Writer.provision user).Given events "company" text → text = " usmf " := by
  have hrecord : ∀ {key text}, (Writer.provision user).Given events key text →
      ∃ c value record, (column c "personnelNumber" = some "PersonnelNumber" ∧
        column c "company" = some "DataArea") ∧
        (workerAnswer personnel_number).get? "value" = some (.arr [.obj record]) ∧
        Holds c record key value ∧ text = value.text := by
    rintro key text ⟨c, hc, payload, hpayload, record, value, hvalue, hholds, htext⟩
    obtain rfl := hanswered payload hpayload
    exact ⟨c, value, record, hcolumns c hc, hvalue, hholds, htext⟩
  constructor
  · intro text hgiven
    obtain ⟨c, value, record, ⟨hfield, -⟩, hvalue, ⟨field, hfield', hget⟩, rfl⟩ := hrecord hgiven
    obtain rfl := Option.some.inj (hfield.symm.trans hfield')
    cases hvalue
    cases hget
    rfl
  · intro text hgiven
    obtain ⟨c, value, record, ⟨-, hfield⟩, hvalue, ⟨field, hfield', hget⟩, rfl⟩ := hrecord hgiven
    obtain rfl := Option.some.inj (hfield.symm.trans hfield')
    cases hvalue
    cases hget
    rfl

theorem worker_added {result : Except Exc (Option Mapping)} (hdistinct : DistinctFields events)
    (hrun : (provision user).Run events result) (hcommit : commitEvent ∈ events) :
    ∃ m ∈ addedIn events, m.d365_personnel_number = strip personnel_number.text ∧
      ∃ company, m.d365_company = some company ∧ company ≠ "" := by
  obtain ⟨m, number, company, hadded, hmade⟩ :=
    (Writer.provision user).made hdistinct ⟨result, hrun⟩ hcommit
  have hnumber := (worker_given hcolumns hanswered).1 number ((hmade.number_given number).mpr rfl)
  refine ⟨m, hadded ▸ List.mem_cons_self, ?_, _, hmade.company_stored, hmade.company_ne⟩
  rw [hmade.number_stored, hnumber]

end Worker

theorem broken_play : (workerPlay (.str "66\n66")).any (fun x =>
    x.1.any isCommit && ColumnsLoaded x.1) = true := by
  decide +kernel

/-- D365 answers with the personnel number `66`, a line break, `66`: the row is stored as
verified, and the profile's filter for it cannot be built. -/
theorem created_unqueryable : ∃ events m, (Writer.provision exampleUser).Run events ∧
    DistinctFields events ∧ commitEvent ∈ events ∧ m ∈ addedIn events ∧
    m.d365_personnel_number = "66\n66" ∧ ComparedBy exampleProfile "PersonnelNumber" ∧
    ¬ Queryable exampleProfile "PersonnelNumber" m := by
  obtain ⟨events, result, hrun, hdistinct, hcommit, hcolumns, hanswered⟩ :=
    workerPlay_spec broken_play
  obtain ⟨m, hmem, hnumber, company, hcompany, hne⟩ :=
    worker_added hcolumns hanswered hdistinct hrun hcommit
  rw [show strip (Json.text (.str "66\n66")) = "66\n66" by decide +kernel] at hnumber
  refine ⟨events, m, ⟨result, hrun⟩, hdistinct, hcommit, hmem, hnumber,
    exampleProfile_compared, fun hqueryable => ?_⟩
  have hplain := (queryable_iff exampleProfile_compared hcompany hne).mp hqueryable
  rw [hnumber] at hplain
  exact absurd hplain.1 (by decide)

/-- The personnel number `000123`: the filter can be built. -/
theorem created_queryable_text : ∃ events m, (Writer.provision exampleUser).Run events ∧
    m ∈ addedIn events ∧ Queryable exampleProfile "PersonnelNumber" m := by
  obtain ⟨events, result, hrun, hdistinct, hcommit, hcolumns, hanswered⟩ :=
    workerPlay_spec text_play
  -- nothing below looks into the caller
  generalize exampleUser = user at hrun ⊢
  obtain ⟨m, hmem, -⟩ := worker_added hcolumns hanswered hdistinct hrun hcommit
  obtain ⟨hnumber, hcompany⟩ := worker_given hcolumns hanswered
  refine ⟨events, m, ⟨result, hrun⟩, hmem, (created_queryable_iff (.provision user)
    hdistinct ⟨result, hrun⟩ hcommit hmem exampleProfile_compared).mpr ?_⟩
  intro key text htext hcompares
  rcases hcompares with rfl | ⟨rfl, -⟩
  · rw [hnumber text htext]
    decide +kernel
  · rw [hcompany text htext]
    decide +kernel

end Example

end EmployeePortal
