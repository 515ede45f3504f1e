import EmployeePortal.Employees.ProvisioningTrace
import EmployeePortal.Tools.CreateIdentityMapping

/-!
# `lookup_identity_candidate`

The administrator's look at what D365 says of an Entra user. It requires the object ID of
the record only, while `provision` wants its UPN, personnel number and company as well.
-/

namespace EmployeePortal.Tools.LookupIdentityCandidate

open EmployeePortal.Python EmployeePortal.Framework EmployeePortal.D365 EmployeePortal.Employees

def ENTITY : String := "EssWorkerDetails"

def OID_FIELD : String := "AadUserObjectId"

def UPN_FIELD : String := "AadUserPrincipalName"

def OUTPUT_FIELDS : List String :=
  ["AadUserObjectId", "AadUserPrincipalName", "PersonnelNumber", "company", "Name"]

section Tool

variable [UnicodeData]

/-- The exit code for an answer. -/
def verdict (entra_oid : String) (payload : Dict Json) : ℤ :=
  match payload.get? "value" with
  | some (.arr []) => 2
  | some (.arr [.obj worker]) =>
      match Uuid.parse (Dict.getD worker OID_FIELD .null).text with
      | some returned_oid => if returned_oid.toText ≠ entra_oid then 3 else 0
      | none => 3
  | some (.arr _) => 3
  | _ => 1

def candidateQuery (filter_expression : String) : ODataQuery where
  select := OUTPUT_FIELDS
  filter_expression := some filter_expression
  top := some 2

/-- `run`: the exit code. -/
def run (raw_oid : String) (raw_upn : Option String) : Coroutine ℤ := do
  let entra_oid := (← uuidOf raw_oid).toText
  let upn := (truthy raw_upn).map fun name => strip (casefold name)
  let filter_expression ←
    match truthy upn with
    | some upn => equals UPN_FIELD upn
    | none => equals OID_FIELD entra_oid
  try
    let payload ← getEntity ENTITY (candidateQuery filter_expression)
    pure (verdict entra_oid payload)
  catch
    | .d365 _ _ | .valueError _ => pure 1
    | e => throw e

/-- The checked-in row for `identity`. -/
def identityMapping : EntityMapping where
  mapping_key := "identity"
  entity_name := "EssWorkerDetails"
  personnel_number_field := some "PersonnelNumber"
  company_field := some "company"
  field_mapping := [("entraOid", .str "AadUserObjectId"), ("entraUpn", .str "AadUserPrincipalName"),
    ("personnelNumber", .str "PersonnelNumber"), ("company", .str "company"),
    ("displayName", .str "Name")]
  enabled := true

/-- The columns `provision` reads. -/
def identityColumns : Dict String :=
  [("entraOid", "AadUserObjectId"), ("entraUpn", "AadUserPrincipalName"),
    ("personnelNumber", "PersonnelNumber"), ("company", "company")]

/-! ## One lookup -/

variable {user : AuthenticatedUser} {u : Uuid} {events : List (Event Op Op.Answer Exc)}

/-- A user with a name that can be quoted is asked for once, and the answer decides. -/
theorem run_answered {raw_upn : Option String} {raw_oid upn : String}
    (hoid : Uuid.parse raw_oid = some u)
    (hupn : truthy ((truthy raw_upn).map fun name => strip (casefold name)) = some upn)
    (hplain : hasControl upn = false) {result : Except Exc ℤ}
    (hrun : (run raw_oid raw_upn).Run events result) :
    ∃ params answer, events = [⟨.getEntity ENTITY params, answer⟩] ∧
      (∀ payload, answer = .ok payload → result = .ok (verdict u.toText payload)) ∧
      ∀ kind message, answer = .error (.d365 kind message) → result = .ok 1 := by
  unfold run at hrun
  have huuid : uuidOf raw_oid = .ok u := by rw [uuidOf, hoid]
  have hfilter : ∃ filter, equals UPN_FIELD upn = .ok filter := by
    rw [equals, validateIdentifier_ok.mpr ⟨by decide, rfl⟩, ok_bind, quoteOdataString, hplain]
    exact ⟨_, rfl⟩
  obtain ⟨filter, hfilter⟩ := hfilter
  have hparams : ∃ params, (candidateQuery filter).toParams = .ok params := by
    have hselect : ∀ n ∈ OUTPUT_FIELDS, isIdentifier n = true := by decide
    refine toParams_ok hselect rfl rfl (fun n hn => ?_) rfl
    obtain rfl := Option.some.inj hn
    decide
  obtain ⟨params, hparams⟩ := hparams
  have hask : getEntity ENTITY (candidateQuery filter) = await (.getEntity ENTITY params) := by
    rw [getEntity, validateIdentifier_ok.mpr ⟨by decide, rfl⟩]
    simp only [Prog.liftM_eq, Prog.ofExcept_ok, Prog.ret_bind, hparams]
  simp only [Prog.liftM_eq, huuid, Prog.ofExcept_ok, Prog.ret_bind, hupn, hfilter, hask] at hrun
  unfold await at hrun
  rcases Prog.run_tryCatch.mp hrun with ⟨code, rfl, hbody⟩ | ⟨e, es, es', rfl, hbody, hhandler⟩
  · rcases Prog.run_perform_bind.mp hbody with ⟨payload, rest, rfl, hret⟩ | ⟨e, -, he⟩
    · obtain ⟨rfl, hcode⟩ := hret
      refine ⟨params, .ok payload, rfl, fun payload' h => ?_, fun _ _ h => ?_⟩
      · rw [← Except.ok.inj h, hcode]
      · cases h
    · cases he
  · rcases Prog.run_perform_bind.mp hbody with ⟨payload, rest, -, hret⟩ | ⟨e', rfl, he⟩
    · cases hret.2
    · obtain rfl := Except.error.inj he
      cases e with
      | d365 kind message =>
        obtain ⟨rfl, rfl⟩ := hhandler
        refine ⟨params, _, rfl, fun _ h => ?_, fun _ _ _ => rfl⟩
        cases h
      | valueError message =>
        obtain ⟨rfl, rfl⟩ := hhandler
        refine ⟨params, _, rfl, fun _ h => ?_, fun _ _ h => ?_⟩
        · cases h
        · cases h
      | _ =>
        obtain ⟨rfl, rfl⟩ := hhandler
        refine ⟨params, _, rfl, fun _ h => ?_, fun _ _ h => ?_⟩
        · cases h
        · cases h

/-! ## One provisioning -/

/-- Where D365 is asked, this is its answer; the checked-in row is the configuration, no
stored row is in the way and the database refuses nothing. -/
structure Answered (answer : Except Exc (Dict Json)) (events : List (Event Op Op.Answer Exc)) :
    Prop where
  d365 : ∀ entity params r, ⟨.getEntity entity params, r⟩ ∈ events → r = answer
  configuration : ∀ mapping_key r, ⟨.configuration mapping_key, r⟩ ∈ events →
    r = .ok (some identityMapping)
  conflicts : ∀ row r, ⟨.scalars row, r⟩ ∈ events → r = .ok []
  database : ¬ Broken events

/-- A new mapping was added and committed. -/
def Creates (events : List (Event Op Op.Answer Exc)) (result : Except Exc (Option Mapping)) :
    Prop :=
  ∃ m, result = .ok (some m) ∧ m ∈ addedIn events ∧ commitEvent ∈ events

/-- What `provision` makes of an answer to its request. -/
def confirmed (user : AuthenticatedUser) (u : Uuid) (answer : Except Exc (Dict Json)) :
    Except Exc (Option Worker) :=
  match answer with
  | .ok payload => readAnswer payload identityColumns u.toText (callerUpn user)
  | .error (.d365 _ _) => .error provisioningUnavailable
  | .error e => .error e

theorem identityFields_identityMapping :
    identityFields identityMapping.field_mapping = .ok identityColumns := by
  rfl

theorem confirm_answered {answer : Except Exc (Dict Json)} {r : Except Exc (Option Worker)}
    (hoid : Uuid.parse user.oid = some u) (hnamed : callerUpn user ≠ "")
    (hplain : hasControl (callerUpn user) = false) (hrun : (confirm user).Run events r)
    (hd365 : ∀ entity params x, ⟨.getEntity entity params, x⟩ ∈ events → x = answer)
    (hconfiguration : ∀ mapping_key x, ⟨.configuration mapping_key, x⟩ ∈ events →
      x = .ok (some identityMapping)) : r = confirmed user u answer := by
  unfold confirm at hrun
  simp only [if_neg hnamed, hoid] at hrun
  unfold requiredConfiguration await at hrun
  simp only [Prog.liftM_eq, bind_assoc] at hrun
  rcases Prog.run_perform_bind.mp hrun with ⟨found, rest, rfl, hrest⟩ | ⟨e, rfl, -⟩
  swap
  · cases hconfiguration _ _ List.mem_cons_self
  obtain rfl := Except.ok.inj (hconfiguration _ _ List.mem_cons_self)
  have hentity : validateIdentifier identityMapping.entity_name =
      .ok identityMapping.entity_name := validateIdentifier_ok.mpr ⟨by decide, rfl⟩
  simp only [hentity, identityFields_identityMapping, Prog.ofExcept_ok, Prog.ret_bind,
    pure_bind] at hrest
  have hcolumns : IdentityColumns identityMapping := ⟨by decide, by decide⟩
  have hfields : ∀ key ∈ requiredIdentityFields,
      identityColumns.get? key = column identityMapping key := by decide
  have hidentifiers : ∀ p ∈ identityColumns, isIdentifier p.2 = true := by decide
  -- the caller's name can be quoted, so the request is sent and has the answer
  have hasked : ∀ {es : List (Event Op Op.Answer Exc)} {x : Except Exc (Dict Json)},
      es ⊆ rest → (identityQuery identityMapping identityColumns (callerUpn user)).Run es x →
      x = answer := by
    intro es x hsub hquery
    rcases identityQuery_run hfields hidentifiers hcolumns hquery with
      ⟨hcontrol, -⟩ | ⟨-, params, rfl⟩
    · rw [hplain] at hcontrol
      cases hcontrol
    · exact hd365 _ _ _ (List.mem_cons_of_mem _ (hsub List.mem_cons_self))
  rcases Prog.run_bind.mp hrest with ⟨payload, es, es', rfl, hquery, hread⟩ | ⟨e, rfl, hquery⟩
  · obtain ⟨rfl, rfl⟩ := Prog.run_ofExcept.mp hread
    rcases Prog.run_tryCatch.mp hquery with ⟨a, ha, hbody⟩ | ⟨e, es₁, es₂, -, -, hraise⟩
    · obtain rfl := Except.ok.inj ha
      rw [← hasked (List.subset_append_left _ _) hbody]
      rfl
    · have hnever : ∃ e', (Except.ok payload : Except Exc (Dict Json)) = .error e' := by
        cases e <;> exact ⟨_, hraise.2⟩
      obtain ⟨e', he'⟩ := hnever
      cases he'
  · rcases Prog.run_tryCatch.mp hquery with ⟨a, ha, -⟩ | ⟨e', es₁, es₂, rfl, hbody, hraise⟩
    · cases ha
    · rw [← hasked (List.subset_append_left _ _) hbody]
      cases e' with
      | _ =>
        rw [Except.error.inj hraise.2]
        rfl

/-- The record has all that `provision` asks of a caller besides the object ID. -/
structure Complete (user : AuthenticatedUser) (worker : Dict Json) : Prop where
  entra_upn : strip (casefold (worker.getD UPN_FIELD (.str "")).text) = callerUpn user
  personnel_number : strip (worker.getD "PersonnelNumber" (.str "")).text ≠ "" ∧
    (strip (worker.getD "PersonnelNumber" (.str "")).text).length ≤ 64
  company : strip (worker.getD "company" (.str "")).text ≠ "" ∧
    (strip (worker.getD "company" (.str "")).text).length ≤ 32

theorem verifyRecord_complete {worker : Dict Json} :
    (∃ w, verifyRecord worker identityColumns u.toText (callerUpn user) = .ok w) ↔
      (∃ returned, Uuid.parse (worker.getD OID_FIELD .null).text = some returned ∧
        returned.toText = u.toText) ∧ Complete user worker := by
  constructor
  · rintro ⟨⟨personnel_number, company⟩, h⟩
    obtain ⟨hoid, hupn, rfl, rfl, hnumber, hcompany⟩ := (verifyRecord_eq_ok rfl rfl rfl rfl).mp h
    exact ⟨hoid, hupn, hnumber, hcompany⟩
  · rintro ⟨hoid, hupn, hnumber, hcompany⟩
    exact ⟨(_, _), (verifyRecord_eq_ok rfl rfl rfl rfl).mpr
      ⟨hoid, hupn, rfl, rfl, hnumber, hcompany⟩⟩

/-- The checks of a record fail with one exception. -/
theorem verifyRecord_error {worker : Dict Json} {upn : String} {e : Exc}
    (h : verifyRecord worker identityColumns u.toText upn = .error e) : e = mappingConflict := by
  have hoid : item identityColumns "entraOid" = .ok OID_FIELD := rfl
  have hupn : item identityColumns "entraUpn" = .ok UPN_FIELD := rfl
  have hnumber : item identityColumns "personnelNumber" = .ok "PersonnelNumber" := rfl
  have hcompany : item identityColumns "company" = .ok "company" := rfl
  rw [verifyRecord, hoid, hupn, hnumber, hcompany] at h
  simp only [ok_bind] at h
  cases hparse : Uuid.parse (worker.getD OID_FIELD .null).text with
  | none =>
    rw [hparse] at h
    exact (Except.error.inj h).symm
  | some returned =>
    rw [hparse] at h
    dsimp only at h
    split at h
    · exact (Except.error.inj h).symm
    split at h
    · exact (Except.error.inj h).symm
    split at h
    · exact (Except.error.inj h).symm
    · cases h

/-! ## The two together -/

/-- The record's object ID is the one looked for. -/
def Identified (u : Uuid) (worker : Dict Json) : Prop :=
  ∃ returned, Uuid.parse (worker.getD OID_FIELD .null).text = some returned ∧
    returned.toText = u.toText

/-- The exit code for one record. -/
theorem verdict_record {payload : Dict Json} {worker : Dict Json}
    (hvalue : payload.get? "value" = some (.arr [.obj worker])) :
    (Identified u worker ∧ verdict u.toText payload = 0) ∨
      ¬ Identified u worker ∧ verdict u.toText payload = 3 := by
  rw [verdict, hvalue]
  dsimp only
  cases hparse : Uuid.parse (worker.getD OID_FIELD .null).text with
  | none =>
    refine Or.inr ⟨?_, rfl⟩
    rintro ⟨returned, hreturned, -⟩
    rw [hparse] at hreturned
    cases hreturned
  | some returned =>
    dsimp only
    by_cases hsame : returned.toText = u.toText
    · exact Or.inl ⟨⟨returned, hparse, hsame⟩, if_neg (not_not.mpr hsame)⟩
    · refine Or.inr ⟨?_, if_pos hsame⟩
      rintro ⟨returned', hreturned, hsame'⟩
      rw [hparse] at hreturned
      exact hsame (Option.some.inj hreturned ▸ hsame')

/-- What `confirm` makes of an answer, by the exit code of the lookup. -/
inductive Verdicts (user : AuthenticatedUser) (u : Uuid) (payload : Dict Json) :
    ℤ → Except Exc (Option Worker) → Prop
  | nobody : Verdicts user u payload 2 (.ok none)
  | conflict (h : ∀ worker, payload.get? "value" = some (.arr [.obj worker]) →
      ¬ Identified u worker) : Verdicts user u payload 3 (.error mappingConflict)
  | unavailable : Verdicts user u payload 1 (.error provisioningUnavailable)
  | found {worker w} (hvalue : payload.get? "value" = some (.arr [.obj worker]))
      (h : Complete user worker) : Verdicts user u payload 0 (.ok (some w))
  | incomplete {worker} (hvalue : payload.get? "value" = some (.arr [.obj worker]))
      (h : ¬ Complete user worker) : Verdicts user u payload 0 (.error mappingConflict)

theorem readAnswer_record {payload : Dict Json} {worker : Dict Json}
    (hvalue : payload.get? "value" = some (.arr [.obj worker])) :
    Verdicts user u payload (verdict u.toText payload)
      (readAnswer payload identityColumns u.toText (callerUpn user)) := by
  have hverify : (∃ w, verifyRecord worker identityColumns u.toText (callerUpn user) = .ok w) ↔
      Identified u worker ∧ Complete user worker := verifyRecord_complete
  have hread : readAnswer payload identityColumns u.toText (callerUpn user) =
      verifyRecord worker identityColumns u.toText (callerUpn user) >>= fun w =>
        .ok (some ⟨u.toText, callerUpn user, w.1, w.2⟩) := by
    rw [readAnswer, hvalue]
    rfl
  rw [hread]
  cases hrecord : verifyRecord worker identityColumns u.toText (callerUpn user) with
  | ok w =>
    obtain ⟨hidentified, hcomplete⟩ := hverify.mp ⟨w, hrecord⟩
    rcases verdict_record hvalue with ⟨-, hcode⟩ | ⟨hnot, -⟩
    · rw [hcode]
      exact .found hvalue hcomplete
    · exact absurd hidentified hnot
  | error e =>
    obtain rfl := verifyRecord_error hrecord
    rcases verdict_record hvalue with ⟨hidentified, hcode⟩ | ⟨hnot, hcode⟩
    · rw [hcode]
      refine .incomplete hvalue fun hcomplete => ?_
      obtain ⟨w, hok⟩ := hverify.mpr ⟨hidentified, hcomplete⟩
      rw [hrecord] at hok
      cases hok
    · rw [hcode]
      refine .conflict fun worker' hworker' => ?_
      obtain rfl : worker = worker' := by
        rw [hvalue] at hworker'
        simpa using hworker'
      exact hnot

theorem readAnswer_verdict (user : AuthenticatedUser) (u : Uuid) (payload : Dict Json) :
    Verdicts user u payload (verdict u.toText payload)
      (readAnswer payload identityColumns u.toText (callerUpn user)) := by
  have hnot : ∀ {value : Json}, payload.get? "value" = some value →
      (∀ worker, value ≠ .arr [.obj worker]) → ∀ worker,
        payload.get? "value" = some (.arr [.obj worker]) → ¬ Identified u worker := by
    intro value hvalue hne worker hworker
    exact absurd (Option.some.inj (hvalue.symm.trans hworker)) (hne worker)
  cases hvalue : payload.get? "value" with
  | none =>
    rw [verdict, readAnswer, hvalue]
    exact .unavailable
  | some value =>
    cases value with
    | arr items =>
      cases items with
      | nil =>
        rw [verdict, readAnswer, hvalue]
        exact .nobody
      | cons first items =>
        cases items with
        | cons second items =>
          have hconflict := hnot hvalue (by simp)
          rw [verdict, readAnswer, hvalue]
          cases first <;> exact .conflict hconflict
        | nil =>
          cases first with
          | obj worker => exact readAnswer_record hvalue
          | _ =>
            have hconflict := hnot hvalue (by simp)
            rw [verdict, readAnswer, hvalue]
            exact .conflict hconflict
    | _ =>
      rw [verdict, readAnswer, hvalue]
      exact .unavailable

theorem settle_answered {w : Worker} {r : Except Exc (Option Mapping)}
    (hrun : (settle user w).Run events r)
    (hconflicts : ∀ row x, ⟨.scalars row, x⟩ ∈ events → x = .ok []) (hdatabase : ¬ Broken events) :
    Creates events r := by
  cases settle_run hrun with
  | looked hrows => exact absurd (Except.ok.inj (hconflicts _ _ List.mem_cons_self)) hrows
  | broken hbroken _ => exact absurd hbroken hdatabase
  | inserted => exact ⟨_, rfl, List.mem_cons_self, by simp⟩

omit [UnicodeData] in
theorem mem_addedIn_append {m : Mapping} (es : List (Event Op Op.Answer Exc))
    {es' : List (Event Op Op.Answer Exc)} (h : m ∈ addedIn es') : m ∈ addedIn (es ++ es') := by
  fun_induction addedIn es with
  | case1 => exact h
  | case2 m' x es ih => exact List.mem_cons_of_mem _ ih
  | case3 event es hne ih =>
    rw [List.cons_append, addedIn]
    · exact ih
    · exact hne

/-- How `provision` ends after `confirm` has ended so. -/
def Follows (events : List (Event Op Op.Answer Exc)) (result : Except Exc (Option Mapping)) :
    Except Exc (Option Worker) → Prop
  | .error e => result = .error e
  | .ok none => result = .ok none
  | .ok (some _) => Creates events result

theorem provision_answered {answer : Except Exc (Dict Json)} {result : Except Exc (Option Mapping)}
    (hoid : Uuid.parse user.oid = some u) (hnamed : callerUpn user ≠ "")
    (hplain : hasControl (callerUpn user) = false) (hrun : (provision user).Run events result)
    (h : Answered answer events) : Follows events result (confirmed user u answer) := by
  unfold provision at hrun
  rcases Prog.run_bind.mp hrun with ⟨found, es, es', rfl, hconfirm, hrest⟩ | ⟨e, rfl, hconfirm⟩
  · have hfound := confirm_answered hoid hnamed hplain hconfirm
      (fun entity params x hx => h.d365 _ _ _ (List.mem_append_left _ hx))
      fun key x hx => h.configuration _ _ (List.mem_append_left _ hx)
    rw [← hfound]
    cases found with
    | none => exact hrest.2
    | some w =>
      have hdatabase : ¬ Broken es' := by
        rintro ⟨o, e, hmem, ho⟩
        exact h.database ⟨o, e, List.mem_append_right _ hmem, ho⟩
      obtain ⟨m, hm, hadded, hcommit⟩ := settle_answered hrest
        (fun row x hx => h.conflicts _ _ (List.mem_append_right _ hx)) hdatabase
      exact ⟨m, hm, mem_addedIn_append es hadded, List.mem_append_right _ hcommit⟩
  · have hfound := confirm_answered hoid hnamed hplain hconfirm h.d365 h.configuration
    rw [← hfound]
    exact rfl

/-- The answer is this one record. -/
def Single (answer : Except Exc (Dict Json)) (worker : Dict Json) : Prop :=
  ∃ payload, answer = .ok payload ∧ payload.get? "value" = some (.arr [.obj worker])

omit [UnicodeData] in
theorem Single.unique {answer : Except Exc (Dict Json)} {worker worker' : Dict Json}
    (h : Single answer worker) (h' : Single answer worker') : worker = worker' := by
  obtain ⟨payload, rfl, hvalue⟩ := h
  obtain ⟨payload', hpayload, hvalue'⟩ := h'
  obtain rfl := Except.ok.inj hpayload
  rw [hvalue] at hvalue'
  simpa using hvalue'

omit [UnicodeData] in
theorem Creates.ne_error {e : Exc} : ¬ Creates events (.error e) := by
  rintro ⟨m, hm, -⟩
  cases hm

omit [UnicodeData] in
theorem Creates.ne_none : ¬ Creates events (.ok none) := by
  rintro ⟨m, hm, -⟩
  cases hm

/-- **The lookup and provisioning.** For one object ID, one name and one answer to both
requests, with the checked-in configuration, no row in the way and a database that works:
the lookup finds nobody exactly when `provision` returns nothing. A mapping is created
exactly when the lookup finds a record that is also complete, and a conflict raised exactly
when the lookup reports one or the record it finds is not complete. -/
theorem lookup_provision_iff {answer : Except Exc (Dict Json)}
    (hoid : Uuid.parse user.oid = some u) (hnamed : callerUpn user ≠ "")
    (hplain : hasControl (callerUpn user) = false)
    (hfails : ∀ e, answer = .error e → ∃ kind message, e = .d365 kind message)
    {events' : List (Event Op Op.Answer Exc)} {code : Except Exc ℤ}
    {result : Except Exc (Option Mapping)}
    (hlookup : (run user.oid user.preferred_username).Run events code)
    (hprovision : (provision user).Run events' result)
    (hasked : ∀ entity params r, ⟨.getEntity entity params, r⟩ ∈ events → r = answer)
    (hanswered : Answered answer events') :
    (code = .ok 2 ↔ result = .ok none) ∧
    (Creates events' result ↔
      code = .ok 0 ∧ ∃ worker, Single answer worker ∧ Complete user worker) ∧
    (result = .error mappingConflict ↔
      code = .ok 3 ∨ code = .ok 0 ∧ ∃ worker, Single answer worker ∧ ¬ Complete user worker) := by
  have hupn : truthy ((truthy user.preferred_username).map fun name => strip (casefold name)) =
      some (callerUpn user) := by
    unfold callerUpn at hnamed ⊢
    cases hname : truthy user.preferred_username with
    | none =>
      rw [hname] at hnamed
      exact absurd rfl hnamed
    | some name =>
      rw [hname] at hnamed
      exact truthy_eq_some.mpr ⟨rfl, hnamed⟩
  obtain ⟨params, answer', rfl, hread, hfailed⟩ := run_answered hoid hupn hplain hlookup
  obtain rfl := hasked _ _ _ List.mem_cons_self
  have hend := provision_answered hoid hnamed hplain hprovision hanswered
  have hunavailable : provisioningUnavailable ≠ mappingConflict := by decide
  cases answer' with
  | error e =>
    obtain ⟨kind, message, rfl⟩ := hfails e rfl
    obtain rfl := hfailed kind message rfl
    obtain rfl : result = .error provisioningUnavailable := hend
    refine ⟨by simp, iff_of_false Creates.ne_error (by simp), ?_⟩
    exact iff_of_false (fun h => hunavailable (Except.error.inj h)) (by simp)
  | ok payload =>
    obtain rfl := hread payload rfl
    have hverdict := readAnswer_verdict user u payload
    replace hend : Follows events' result
      (readAnswer payload identityColumns u.toText (callerUpn user)) := hend
    generalize verdict u.toText payload = code at hverdict ⊢
    generalize readAnswer payload identityColumns u.toText (callerUpn user) = found
      at hverdict hend
    cases hverdict with
    | nobody =>
      obtain rfl : result = .ok none := hend
      exact ⟨iff_of_true rfl rfl, iff_of_false Creates.ne_none (by simp), by simp⟩
    | conflict h =>
      obtain rfl : result = .error mappingConflict := hend
      exact ⟨by simp, iff_of_false Creates.ne_error (by simp), iff_of_true rfl (Or.inl rfl)⟩
    | unavailable =>
      obtain rfl : result = .error provisioningUnavailable := hend
      refine ⟨by simp, iff_of_false Creates.ne_error (by simp), ?_⟩
      exact iff_of_false (fun h => hunavailable (Except.error.inj h)) (by simp)
    | @found worker w hvalue h =>
      have hcreates : Creates events' result := hend
      obtain ⟨m, rfl, -⟩ := id hcreates
      have hsingle : Single (.ok payload) worker := ⟨payload, rfl, hvalue⟩
      refine ⟨by simp, iff_of_true hcreates ⟨rfl, worker, hsingle, h⟩,
        iff_of_false (by simp) ?_⟩
      rintro (hthree | ⟨-, worker', hworker', hnot⟩)
      · simp at hthree
      · exact hnot (hsingle.unique hworker' ▸ h)
    | @incomplete worker hvalue h =>
      obtain rfl : result = .error mappingConflict := hend
      have hsingle : Single (.ok payload) worker := ⟨payload, rfl, hvalue⟩
      refine ⟨by simp, iff_of_false Creates.ne_error ?_,
        iff_of_true rfl (Or.inr ⟨rfl, worker, hsingle, h⟩)⟩
      rintro ⟨-, worker', hworker', hcomplete⟩
      exact h (hsingle.unique hworker' ▸ hcomplete)

end Tool

/-! ## Two records -/

section Example

open scoped Ascii

def exampleOid : String := "0a0b0c0d-0000-4000-8000-000000000001"

def exampleUser : AuthenticatedUser where
  oid := exampleOid
  tid := "tenant"
  preferred_username := some "Ada@example.ae"

/-- A record of the user with this personnel number. -/
def exampleWorker (personnel_number : String) : Dict Json :=
  [("AadUserObjectId", .str exampleOid), ("AadUserPrincipalName", .str "ada@example.ae"),
    ("PersonnelNumber", .str personnel_number), ("company", .str "SSSA")]

def workerPayload (personnel_number : String) : Dict Json :=
  [("value", .arr [.obj (exampleWorker personnel_number)])]

/-- A database with the checked-in row and no mapping, and D365 with one record. -/
def workerReply (personnel_number : String) (o : Op) (_ : Unit) : Option (Except Exc o.Answer) :=
  match o with
  | .configuration _ => some (.ok (some identityMapping))
  | .getEntity _ _ => some (.ok (workerPayload personnel_number))
  | .scalars _ => some (.ok [])
  | .uuid4 => some (.ok ⟨7, by decide⟩)
  | .add _ => some (.ok ())
  | .commit => some (.ok ())
  | _ => none

theorem workerReply_answered {personnel_number : String} {hs : List Unit}
    {p : Coroutine (Option Mapping)} {events : List (Event Op Op.Answer Exc)}
    {result : Except Exc (Option Mapping)}
    (h : Prog.drive (workerReply personnel_number) p hs = some (events, result)) :
    Answered (.ok (workerPayload personnel_number)) events := by
  have hreply : ∀ o r, ⟨o, r⟩ ∈ events → ∃ hint, workerReply personnel_number o hint = some r :=
    fun o r hmem => Prog.drive_mem h _ hmem
  refine ⟨fun entity params r hmem => ?_, fun mapping_key r hmem => ?_, fun row r hmem => ?_, ?_⟩
  · obtain ⟨hint, hr⟩ := hreply _ _ hmem
    exact (Option.some.inj hr).symm
  · obtain ⟨hint, hr⟩ := hreply _ _ hmem
    exact (Option.some.inj hr).symm
  · obtain ⟨hint, hr⟩ := hreply _ _ hmem
    exact (Option.some.inj hr).symm
  · rintro ⟨o, e, hmem, -⟩
    obtain ⟨hint, hr⟩ := hreply _ _ hmem
    cases o <;> cases hr

theorem workerReply_asked {personnel_number : String} {hs : List Unit} {p : Coroutine ℤ}
    {events : List (Event Op Op.Answer Exc)} {code : Except Exc ℤ}
    (h : Prog.drive (workerReply personnel_number) p hs = some (events, code))
    (entity : String) (params : Dict String) (r : Except Exc (Dict Json))
    (hmem : ⟨.getEntity entity params, r⟩ ∈ events) : r = .ok (workerPayload personnel_number) := by
  obtain ⟨hint, hr⟩ := Prog.drive_mem h _ hmem
  exact (Option.some.inj hr).symm

/-- The lookup finds a worker without a personnel number, and `provision` refuses them. -/
theorem found_not_created : ∃ events events' code result,
    (run exampleUser.oid exampleUser.preferred_username).Run events code ∧
    (provision exampleUser).Run events' result ∧
    (∀ entity params r, ⟨.getEntity entity params, r⟩ ∈ events → r = .ok (workerPayload "")) ∧
    Answered (.ok (workerPayload "")) events' ∧
    ¬ ((code = .ok 0 ↔ Creates events' result) ∧ (code = .ok 2 ↔ result = .ok none) ∧
      (code = .ok 3 ↔ result = .error mappingConflict)) := by
  have hlookup : (Prog.drive (workerReply "")
      (run exampleUser.oid exampleUser.preferred_username) [()]).any
        (fun x => x.2 = .ok 0) = true := by
    decide +kernel
  have hprovision : (Prog.drive (workerReply "") (provision exampleUser) [(), ()]).any
      (fun x => x.2 = .error mappingConflict) = true := by
    decide +kernel
  obtain ⟨⟨events, code⟩, hdrive, hcode⟩ := (Option.any_eq_true _ _).mp hlookup
  obtain ⟨⟨events', result⟩, hdrive', hresult⟩ := (Option.any_eq_true _ _).mp hprovision
  have hzero : code = .ok 0 := of_decide_eq_true hcode
  have hconflict : result = .error mappingConflict := of_decide_eq_true hresult
  refine ⟨events, events', code, result, Prog.drive_run hdrive, Prog.drive_run hdrive',
    workerReply_asked hdrive, workerReply_answered hdrive', ?_⟩
  rintro ⟨hcreates, -, -⟩
  obtain ⟨m, hm, -⟩ := hcreates.mp hzero
  rw [hconflict] at hm
  cases hm

/-- A worker with a number is found and gets a mapping. -/
theorem lookup_provision_found : ∃ events events' code result,
    (run exampleUser.oid exampleUser.preferred_username).Run events code ∧
    (provision exampleUser).Run events' result ∧ code = .ok 0 ∧ Creates events' result := by
  have hlookup : (Prog.drive (workerReply "6666")
      (run exampleUser.oid exampleUser.preferred_username) [()]).any
        (fun x => x.2 = .ok 0) = true := by
    decide +kernel
  have hprovision : (Prog.drive (workerReply "6666") (provision exampleUser)
      (List.replicate 7 ())).isSome = true := by
    decide +kernel
  obtain ⟨⟨events, code⟩, hdrive, hcode⟩ := (Option.any_eq_true _ _).mp hlookup
  obtain ⟨⟨events', result⟩, hdrive'⟩ := Option.isSome_iff_exists.mp hprovision
  have hzero : code = .ok 0 := of_decide_eq_true hcode
  have hparse : (Uuid.parse exampleUser.oid).isSome = true := by decide +kernel
  obtain ⟨u, hoid⟩ := Option.isSome_iff_exists.mp hparse
  have hcomplete : Complete exampleUser (exampleWorker "6666") := by
    refine ⟨by decide +kernel, ?_, ?_⟩ <;> decide +kernel
  refine ⟨events, events', code, result, Prog.drive_run hdrive, Prog.drive_run hdrive', hzero, ?_⟩
  have hanswered : ∀ e : Exc, (.ok (workerPayload "6666") : Except Exc (Dict Json)) = .error e →
      ∃ kind message, e = .d365 kind message := by
    intro e he
    cases he
  have hsingle : Single (.ok (workerPayload "6666")) (exampleWorker "6666") :=
    ⟨workerPayload "6666", rfl, rfl⟩
  have hnamed : callerUpn exampleUser ≠ "" := by decide +kernel
  have hplain : hasControl (callerUpn exampleUser) = false := by decide +kernel
  have hagree := lookup_provision_iff hoid hnamed hplain hanswered (Prog.drive_run hdrive)
    (Prog.drive_run hdrive') (workerReply_asked hdrive) (workerReply_answered hdrive')
  exact hagree.2.1.mpr ⟨hzero, exampleWorker "6666", hsingle, hcomplete⟩

end Example

end EmployeePortal.Tools.LookupIdentityCandidate
