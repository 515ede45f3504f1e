import EmployeePortal.D365.RetryDelay
import EmployeePortal.Framework.Budgets
import EmployeePortal.Server

/-!
# On what terms a request runs

Function by function: which refusals it may raise of its own, and how many questions to
D365 it asks at most. An exception of a class that is not the application's own goes
through everything that does not catch it; what `D365Client` raises is caught by the
provisioning alone.
-/

namespace EmployeePortal

open EmployeePortal.Python EmployeePortal.Framework EmployeePortal.D365 EmployeePortal.Employees
  EmployeePortal.Audit

/-! ## Refusals -/

/-- A code and its status. -/
abbrev Refusal : Type := String × ℕ

/-- One of the refusals, or what `F` allows besides. -/
def Fails (F : Exc → Prop) (refusals : List Refusal) (e : Exc) : Prop :=
  F e ∨ ∃ error, e = .portal error ∧ (error.code, error.status_code) ∈ refusals

/-- Every class but the application's own is allowed. -/
def Foreign (F : Exc → Prop) : Prop := ∀ e, isForeign e = true → F e

/-- What `D365Client` raises besides. -/
def orD365 (F : Exc → Prop) (e : Exc) : Prop := F e ∨ e.IsD365

theorem orD365_of {F : Exc → Prop} (e : Exc) (h : F e) : orD365 F e := Or.inl h

theorem Foreign.orD365 {F : Exc → Prop} (hF : Foreign F) : Foreign (orD365 F) :=
  fun e h => orD365_of e (hF e h)

/-- `find_verified`, `_verify_record` and `_find_conflicts` refuse alike. -/
def conflictRefusals : List Refusal := [("MAPPING_CONFLICT", 409)]

def provisionRefusals : List Refusal := conflictRefusals ++
  [("IDENTITY_PROVISIONING_NOT_CONFIGURED", 503), ("IDENTITY_PROVISIONING_UNAVAILABLE", 503)]

def identityRefusals (required : Bool) : List Refusal :=
  provisionRefusals ++ if required then [("MAPPING_REQUIRED", 403)] else []

def profileRefusals : List Refusal :=
  [("PROFILE_NOT_CONFIGURED", 503), ("PROFILE_CONFLICT", 409), ("PROFILE_NOT_FOUND", 404),
    ("PROFILE_UNAVAILABLE", 503)]

def leaveRefusals : List Refusal :=
  [("LEAVE_NOT_CONFIGURED", 503), ("LEAVE_CONFLICT", 409), ("LEAVE_UNAVAILABLE", 503)]

section Pure

variable {F : Exc → Prop} {refusals : List Refusal}

theorem Fails.mono {refusals' : List Refusal} {F' : Exc → Prop} {e : Exc}
    (h : Fails F refusals e) (hF : ∀ e, F e → F' e) (hsub : refusals ⊆ refusals') :
    Fails F' refusals' e :=
  h.imp (hF e) fun ⟨error, he, hmem⟩ => ⟨error, he, hsub hmem⟩

theorem Fails.portal {error : PortalError}
    (h : (error.code, error.status_code) ∈ refusals) : Fails F refusals (.portal error) :=
  Or.inr ⟨error, rfl, h⟩

variable (hF : Foreign F)

include hF

theorem Fails.of_foreign {e : Exc} (h : isForeign e = true) : Fails F refusals e :=
  Or.inl (hF e h)

/-- What raises nothing of the application's own classes. -/
theorem raises_of_foreign {α : Type} {x : Except Exc α} (h : Raises (isForeign · = true) x) :
    Raises (Fails F refusals) x :=
  h.mono fun _ he => .of_foreign hF he

omit hF

/-! ### What the encoders raise -/

theorem item_foreign {β : Type} (d : Dict β) (key : String) :
    Raises (isForeign · = true) (item d key) := by
  unfold item
  split
  · exact .ok _
  · exact .error rfl

section Encode

variable [UnicodeData]

theorem validateIdentifier_foreign (value : String) :
    Raises (isForeign · = true) (validateIdentifier value) := by
  unfold validateIdentifier
  split
  · exact .ok _
  · exact .error rfl

omit [UnicodeData] in
theorem mapM_raises {α β : Type} {P : Exc → Prop} {f : α → Except Exc β}
    (hf : ∀ x, Raises P (f x)) (xs : List α) : Raises P (xs.mapM f) := by
  intro e he
  obtain ⟨x, -, hx⟩ := exists_of_mapM_error he
  exact hf x e hx

omit [UnicodeData] in
theorem foldlM_raises {α β : Type} {P : Exc → Prop} {f : β → α → Except Exc β}
    (hf : ∀ b x, Raises P (f b x)) (xs : List α) (b : β) : Raises P (xs.foldlM f b) := by
  induction xs generalizing b with
  | nil => exact .ok b
  | cons x xs ih =>
    rw [List.foldlM_cons]
    exact (hf b x).bind fun b' _ => ih b'

theorem selectFields_foreign (keys : List String) (raw : Dict Json) :
    Raises (isForeign · = true) (selectFields keys raw) := by
  intro e he
  obtain ⟨p, -, hp⟩ := exists_of_mapM_error he
  exact (validateIdentifier_foreign p.2).bind (fun _ _ => .ok _) e hp

theorem equals_foreign (field value : String) :
    Raises (isForeign · = true) (equals field value) := by
  refine (validateIdentifier_foreign field).bind fun _ _ => ?_
  refine Raises.bind ?_ fun _ _ => .ok _
  unfold quoteOdataString
  split
  · exact .error rfl
  · exact .ok _

theorem filterOf_foreign (pairs : List (String × String)) :
    Raises (isForeign · = true) (filterOf pairs) := by
  unfold filterOf
  have hequals := mapM_raises (fun p : String × String => equals_foreign p.1 p.2) pairs
  refine hequals.bind fun _ _ => ?_
  unfold andAll
  split
  · exact .error rfl
  · exact .ok _

theorem joinIdentifiers_foreign (key : String) (names : List String) :
    Raises (isForeign · = true) (joinIdentifiers key names) := by
  unfold joinIdentifiers
  split
  · exact .ok _
  · exact (mapM_raises validateIdentifier_foreign names).bind fun _ _ => .ok _

theorem toParams_foreign (q : ODataQuery) : Raises (isForeign · = true) q.toParams := by
  refine (joinIdentifiers_foreign _ _).bind fun _ _ => (joinIdentifiers_foreign _ _).bind
    fun _ _ => (joinIdentifiers_foreign _ _).bind fun _ _ => ?_
  refine Raises.bind ?_ fun _ _ => Raises.bind ?_ fun _ _ => .ok _
  · unfold topParam
    split
    · exact .ok _
    · split
      · exact .ok _
      · exact .error rfl
  · unfold skipParam
    split
    · exact .ok _
    · split
      · exact .error rfl
      · exact (intString_raises _).mono (fun e ⟨_, he⟩ => he ▸ rfl) |>.bind fun _ _ => .ok _

/-! ### What the services raise of their own -/

include hF

/-- `_required_identifier`. -/
theorem requiredIdentifier_fails {missing : PortalError}
    (h : (missing.code, missing.status_code) ∈ refusals) (value : Option String) :
    Raises (Fails F refusals) (requiredIdentifier missing value) := by
  unfold requiredIdentifier
  split
  · exact .error (.portal h)
  · exact raises_of_foreign hF (validateIdentifier_foreign _)

/-- The three `_validated_fields`. -/
theorem checkedFields_fails {C : Dict String → Prop} [DecidablePred C] {missing : PortalError}
    (h : (missing.code, missing.status_code) ∈ refusals) (keys : List String) (raw : Dict Json) :
    Raises (Fails F refusals) (do
      let fields ← selectFields keys raw
      if C fields then return fields else throw (.portal missing)) := by
  refine (raises_of_foreign hF (selectFields_foreign keys raw)).bind fun fields _ => ?_
  split
  · exact .ok _
  · exact .error (.portal h)

omit [UnicodeData] hF in
theorem mappingConflict_fails : Fails F provisionRefusals mappingConflict :=
  .portal (by decide)

theorem verifyRecord_fails (record : Dict Json) (fields : Dict String) (entra_oid upn : String) :
    Raises (Fails F provisionRefusals) (verifyRecord record fields entra_oid upn) := by
  have hitem : ∀ key, Raises (Fails F provisionRefusals) (item fields key) :=
    fun key => raises_of_foreign hF (item_foreign fields key)
  have hconflict : ∀ {α : Type}, Raises (Fails F provisionRefusals)
      (throw mappingConflict : Except Exc α) := .error mappingConflict_fails
  unfold verifyRecord
  refine (hitem _).bind fun _ _ => ?_
  split
  · refine (hitem _).bind fun _ _ => ?_
    extract_lets returned_upn checked
    split
    · exact hconflict
    refine (hitem _).bind fun _ _ => ?_
    extract_lets personnel_number
    refine (hitem _).bind fun _ _ => ?_
    extract_lets company unlocked
    split
    · exact hconflict
    change Raises _ (if company = "" ∨ 32 < company.length then _ else _)
    split
    · exact hconflict
    · exact .ok _
  · exact hconflict

theorem readAnswer_fails (payload : Dict Json) (fields : Dict String) (entra_oid upn : String) :
    Raises (Fails F provisionRefusals) (Employees.readAnswer payload fields entra_oid upn) := by
  unfold Employees.readAnswer
  split
  · exact .ok _
  · exact (verifyRecord_fails hF _ _ _ _).bind fun _ _ => .ok _
  · exact .error mappingConflict_fails
  · exact .error (.portal (by decide))

omit hF in
theorem readProfileAnswer_fails (fields : Dict String) (identity : Mapping) (payload : Dict Json) :
    Raises (Fails F profileRefusals) (readProfileAnswer fields identity payload) := by
  have hrefused : ∀ {error : PortalError}, (error.code, error.status_code) ∈ profileRefusals →
      Raises (Fails F profileRefusals) (.error (.portal error) : Except Exc EmployeeProfileResponse) :=
    fun h => .error (.portal h)
  unfold readProfileAnswer
  split
  · exact hrefused (by decide)
  · unfold readProfile
    dsimp only
    split
    · split
      · exact .ok _
      · exact hrefused (by decide)
    · exact hrefused (by decide)
  · exact hrefused (by decide)
  · exact hrefused (by decide)

omit [UnicodeData] hF in
theorem leaveConflict_fails (message : String) : Fails F leaveRefusals (leaveConflict message) :=
  .portal (by simp [leaveRefusals])

omit hF in
theorem readLeaveAnswer_fails (personnel_field : String) (configuration : EntityMapping)
    (identity : Mapping) (payload : Dict Json) : Raises (Fails F leaveRefusals)
      (readLeaveAnswer personnel_field configuration identity payload) := by
  unfold readLeaveAnswer
  split
  · refine mapM_raises (fun record => ?_) _
    unfold validateRecord
    split
    · split
      · exact .error (leaveConflict_fails _)
      · split
        · split
          · exact .error (leaveConflict_fails _)
          · exact .ok _
        · exact .ok _
    · exact .error (leaveConflict_fails _)
  · exact .error (.portal (by decide))

omit hF in
theorem isHidden_fails (value : Json) : Raises (Fails F leaveRefusals) (isHidden value) := by
  unfold isHidden
  split
  · exact .ok _
  · exact .ok _
  · exact .ok _
  · dsimp only
    split
    · exact .ok _
    · split
      · exact .ok _
      · exact .error (leaveConflict_fails _)
  · exact .error (leaveConflict_fails _)

omit [UnicodeData] hF in
theorem requiredValue_fails (value : Json) :
    Raises (Fails F leaveRefusals) (requiredValue value) := by
  unfold requiredValue
  split
  · split
    · exact .error (leaveConflict_fails _)
    · exact .ok _
  · exact .error (leaveConflict_fails _)

omit hF in
theorem number_fails (value : Json) : Raises (Fails F leaveRefusals) (number value) := by
  unfold number
  split
  · exact .ok _
  · exact .ok _
  · exact .error (leaveConflict_fails _)
  · split
    · exact .ok _
    · exact .error (leaveConflict_fails _)

theorem readBalance_fails (fields : Dict String) (raw : Dict Json) :
    Raises (Fails F leaveRefusals) (readBalance fields raw) := by
  have hvalues : ∀ hidden : Bool, Raises (Fails F leaveRefusals) (if hidden = true then pure none
      else do
        let leaveType ← requiredValue (raw.getD (← item fields "leaveType") .null)
        let available ← number (raw.getD (fields.getD "available" "") .null)
        let taken ← number (raw.getD (fields.getD "taken" "") .null)
        let total ← number (raw.getD (fields.getD "total" "") .null)
        return some (← LeaveBalance.validated ⟨leaveType, available, taken, total⟩)) := by
    intro hidden
    split
    · exact .ok _
    refine (raises_of_foreign hF (item_foreign _ _)).bind fun _ _ => ?_
    refine (requiredValue_fails _).bind fun _ _ => (number_fails _).bind fun _ _ => ?_
    refine (number_fails _).bind fun _ _ => (number_fails _).bind fun _ _ => ?_
    refine Raises.bind (raises_of_foreign hF ?_) fun _ _ => .ok _
    unfold LeaveBalance.validated
    split
    · exact .ok _
    · exact .error rfl
  unfold readBalance
  dsimp only
  split
  · exact (isHidden_fails _).bind fun hidden _ => hvalues hidden
  · exact hvalues false

theorem readBalances_fails (fields : Dict String) (records : List (Dict Json)) :
    Raises (Fails F leaveRefusals) (readBalances fields records) := by
  induction records with
  | nil => exact .ok _
  | cons raw records ih =>
    refine (readBalance_fails hF fields raw).bind fun balance _ => ?_
    cases balance with
    | none => exact ih
    | some balance => exact ih.bind fun _ _ => .ok _

end Encode

end Pure

/-! ## Terms -/

/-- A question to D365 costs one, and may fail as `D365Client` fails; the rows that may be
added are those in `V`. -/
def portalTerms (F : Exc → Prop) (V : Row → Prop) : Terms Op Op.Answer Exc ℕ where
  allowed
    | .add row => V row
    | _ => True
  price
    | .getEntity _ _ => 1
    | _ => 0
  grants
    | .getEntity _ _, r => Raises (orD365 F) r
    | _, r => Raises F r

/-- At most `n` questions, and no other failures. -/
abbrev Runs {α : Type} (F : Exc → Prop) (V : Row → Prop) (G : Exc → Prop) (refusals : List Refusal)
    (n : ℕ) (p : Coroutine α) : Prop :=
  p.Spends (portalTerms F V) (Fails G refusals) n

theorem Runs.allow {F G G' : Exc → Prop} {V : Row → Prop} {refusals refusals' : List Refusal}
    {α : Type} {n : ℕ} {p : Coroutine α} (h : Runs F V G refusals n p) (hG : ∀ e, G e → G' e)
    (hsub : refusals ⊆ refusals') : Runs F V G' refusals' n p :=
  h.mono le_rfl fun _ he => he.mono hG hsub

/-! ## Function by function -/

section Code

open Prog

variable [UnicodeData] {F : Exc → Prop} {V : Row → Prop} (hF : Foreign F)

omit [UnicodeData] in
theorem findVerified_runs (entra_oid : String) :
    Runs F V F conflictRefusals 0 (findVerified entra_oid) := by
  unfold findVerified
  refine Spends.perform_bind trivial rfl (fun _ hr => hr.mono fun _ => Or.inl) fun rows => ?_
  match rows with
  | [] => exact .ret _
  | [mapping] => exact .ret _
  | _ :: _ :: _ => exact .raise (.portal (by decide))

include hF

theorem getEntity_runs {refusals : List Refusal} (entity : String) (query : ODataQuery) :
    Runs F V (orD365 F) refusals 1 (getEntity entity query) := by
  unfold getEntity
  simp only [Prog.liftM_eq]
  refine .ofExcept_bind (raises_of_foreign hF.orD365 (validateIdentifier_foreign _)) fun name => ?_
  refine .ofExcept_bind (raises_of_foreign hF.orD365 (toParams_foreign _)) fun params => ?_
  exact Spends.perform (T := portalTerms F V) (o := Op.getEntity name params) trivial
    fun _ hr => hr.mono fun _ => Or.inl

theorem requiredConfiguration_runs {G : Exc → Prop} (hFG : ∀ e, F e → G e)
    {refusals : List Refusal} (mapping_key : String) {missing : PortalError}
    (h : (missing.code, missing.status_code) ∈ refusals) :
    Runs F V G refusals 0 (requiredConfiguration mapping_key missing) := by
  have hraises : ∀ e, F e → Fails G refusals e := fun e he => Or.inl (hFG e he)
  unfold requiredConfiguration
  refine Spends.perform_bind trivial rfl (fun _ hr => hr.mono hraises) fun found => ?_
  cases found with
  | none => exact .raise (.portal h)
  | some configuration =>
    simp only [Prog.liftM_eq]
    exact .ofExcept_bind (raises_of_foreign (fun e he => hFG e (hF e he))
      (validateIdentifier_foreign _)) fun _ => .ret _

/-! ### Provisioning -/

theorem identityQuery_runs {refusals : List Refusal} (configuration : EntityMapping)
    (fields : Dict String) (upn : String) :
    Runs F V (orD365 F) refusals 1 (identityQuery configuration fields upn) := by
  unfold identityQuery
  simp only [Prog.liftM_eq]
  refine .ofExcept_bind (raises_of_foreign hF.orD365 (item_foreign _ _)) fun field => ?_
  refine .ofExcept_bind (raises_of_foreign hF.orD365 (equals_foreign _ _)) fun filter => ?_
  exact getEntity_runs hF _ _

/-- The lookup of the caller; what `D365Client` raises in it is answered with a refusal. -/
theorem confirm_runs (user : AuthenticatedUser) :
    Runs F V F provisionRefusals 1 (confirm user) := by
  unfold confirm
  by_cases hupn : callerUpn user = ""
  · rw [if_pos hupn]
    exact .ret _
  rw [if_neg hupn]
  cases Uuid.parse user.oid with
  | none => exact .raise mappingConflict_fails
  | some oid =>
    simp only [Prog.liftM_eq]
    refine Spends.free_bind (requiredConfiguration_runs hF (fun _ h => h) _ (by decide))
      fun configuration => ?_
    refine .ofExcept_bind (checkedFields_fails hF (by decide) _ _) fun fields => ?_
    have hquery : Runs F V (orD365 F) provisionRefusals 1
        (identityQuery configuration fields (callerUpn user)) := identityQuery_runs hF _ _ _
    refine Spends.bind_free ?_ fun payload => .ofExcept (readAnswer_fails hF _ _ _ _)
    refine Spends.tryCatch (m := 0) hquery fun e hraised => ?_
    cases e with
    | d365 kind message => exact .raise (.portal (by decide))
    | _ =>
      refine Spends.raise (hraised.imp_left fun he => he.resolve_right ?_)
      rintro ⟨kind, message, h⟩
      cases h

omit hF in
theorem sameOrConflict_runs (w : Worker) (rows : List Mapping) :
    Runs F V F provisionRefusals 0 (sameOrConflict w rows) := by
  match rows with
  | [] => exact .raise mappingConflict_fails
  | [mapping] =>
    rw [sameOrConflict]
    split
    · exact .ret _
    · exact .raise mappingConflict_fails
  | _ :: _ :: _ => exact .raise mappingConflict_fails

variable (hmapping : ∀ m, V (.mapping m)) (hhistory : ∀ h, V (.history h))

include hmapping hhistory

omit hF in
theorem settle_runs (user : AuthenticatedUser) (w : Worker) :
    Runs F V F provisionRefusals 0 (settle user w) := by
  have hraises : ∀ (o : Op) (r : Except Exc o.Answer), Raises F r →
      Raises (Fails F provisionRefusals) r := fun _ _ hr => hr.mono fun _ => Or.inl
  unfold settle findConflicts
  refine Spends.perform_bind trivial rfl (hraises (.scalars _)) fun existing => ?_
  cases existing with
  | cons first rest => exact sameOrConflict_runs w _
  | nil =>
    unfold insertMapping
    refine Spends.perform_bind trivial rfl (hraises .uuid4) fun id => ?_
    refine Spends.perform_bind (hmapping _) rfl (hraises (.add _)) fun _ => ?_
    refine Spends.perform_bind (hhistory _) rfl (hraises (.add _)) fun _ => ?_
    have hcommit : Runs F V F provisionRefusals 0 (do
        await .commit
        pure (some (autoMapping id user w)) : Coroutine (Option Mapping)) :=
      Spends.perform_bind trivial rfl (hraises .commit) fun _ => .ret _
    refine Spends.tryCatch (n := 0) (m := 0) hcommit fun e hraised => ?_
    cases e with
    | integrityError =>
      unfold reread findConflicts
      refine Spends.perform_bind trivial rfl (hraises .rollback) fun _ => ?_
      exact Spends.perform_bind trivial rfl (hraises (.scalars _)) fun rows =>
        sameOrConflict_runs w rows
    | _ => exact .raise hraised

theorem provision_runs (user : AuthenticatedUser) :
    Runs F V F provisionRefusals 1 (provision user) := by
  unfold provision
  refine Spends.bind_free (confirm_runs hF user) fun found => ?_
  cases found with
  | none => exact .ret _
  | some w => exact settle_runs hmapping hhistory user w

omit [UnicodeData] hF hmapping hhistory in
theorem recordAudit_runs {refusals : List Refusal} {request : Request} {user : AuthenticatedUser}
    {entry : Entry} (hevent : V (.event (event request user entry))) :
    Runs F V F refusals 0 (recordAudit request user entry) := by
  unfold recordAudit
  refine Spends.perform_bind hevent rfl (fun _ hr => hr.mono fun _ => Or.inl) fun _ => ?_
  exact Spends.perform (T := portalTerms F V) (o := Op.commit) trivial
    fun _ hr => hr.mono fun _ => Or.inl

omit [UnicodeData] hF hmapping hhistory in
theorem required_runs (mapping : Option Mapping) (required : Bool) (n : ℕ) :
    Runs F V F (identityRefusals required) n (match mapping with
      | none => if required then throw mappingRequired else return none
      | some mapping => return some mapping) := by
  cases mapping with
  | some mapping => exact .ret _
  | none =>
    cases required with
    | true => exact .raise (.portal (by decide))
    | false => exact .ret _

variable (hevent : ∀ request user mapping,
  V (.event (event request user (provisionEntry mapping))))

include hevent

theorem resolveIdentity_runs (request : Request) (user : AuthenticatedUser) (required : Bool) :
    Runs F V F (identityRefusals required) 1 (resolveIdentity request user required) := by
  have hsub : provisionRefusals ⊆ identityRefusals required := List.subset_append_left _ _
  unfold resolveIdentity
  have hfound := (findVerified_runs (F := F) (V := V) user.oid).allow (fun _ h => h)
    (List.Subset.trans (List.subset_append_left _ _) hsub)
  refine Spends.free_bind hfound fun found => ?_
  cases found with
  | some mapping => exact required_runs (some mapping) required 1
  | none =>
    change Runs F V F (identityRefusals required) 1 (provisionAudited request user >>= _)
    refine Spends.bind_free ?_ fun mapping => required_runs mapping required 0
    unfold provisionAudited
    have hprovision := (provision_runs hF hmapping hhistory user).allow (fun _ h => h) hsub
    refine Spends.bind_free hprovision fun mapping => ?_
    cases mapping with
    | none => exact .ret _
    | some mapping => exact Spends.free_bind (recordAudit_runs (hevent _ _ _)) fun _ => .ret _

omit hmapping hhistory hevent

/-! ### The data -/

theorem getProfile_runs (identity : Mapping) :
    Runs F V (orD365 F) profileRefusals 1 (getProfile identity) := by
  have hconfigured : ∀ message, ((profileNotConfigured message).code,
      (profileNotConfigured message).status_code) ∈ profileRefusals := fun _ =>
    List.mem_cons_self
  unfold getProfile
  simp only [Prog.liftM_eq]
  refine Spends.free_bind (requiredConfiguration_runs hF orD365_of _ (hconfigured _))
    fun configuration => ?_
  refine .ofExcept_bind (checkedFields_fails hF.orD365 (hconfigured _) _ _) fun fields => ?_
  refine .ofExcept_bind (requiredIdentifier_fails hF.orD365 (hconfigured _) _)
    fun personnel_field => ?_
  refine .ofExcept_bind (raises_of_foreign hF.orD365 (filterOf_foreign _)) fun filter => ?_
  exact Spends.bind_free (getEntity_runs hF _ _) fun payload =>
    .ofExcept (readProfileAnswer_fails _ _ _)

omit [UnicodeData] hF in
theorem leaveNotConfigured_mem (message : String) : ((leaveNotConfigured message).code,
    (leaveNotConfigured message).status_code) ∈ leaveRefusals := List.mem_cons_self

theorem leaveConfiguration_runs (mapping_key : String) (required : Bool) :
    Runs F V (orD365 F) leaveRefusals 0 (leaveConfiguration mapping_key required) := by
  have hidentifier : ∀ value, Raises (Fails (orD365 F) leaveRefusals) (validateIdentifier value) :=
    fun value => raises_of_foreign hF.orD365 (validateIdentifier_foreign value)
  unfold leaveConfiguration
  refine Spends.perform_bind trivial rfl
    (fun _ hr => hr.mono fun e he => Or.inl (orD365_of e he)) fun found => ?_
  cases found.filter (·.mapping_key = mapping_key) with
  | none =>
    cases required with
    | true => exact .raise (.portal (leaveNotConfigured_mem _))
    | false => exact .ret _
  | some configuration =>
    simp only [Prog.liftM_eq]
    refine .ofExcept_bind (hidentifier _) fun _ => ?_
    cases truthy configuration.company_field with
    | none => exact .ret _
    | some field => exact .ofExcept_bind (hidentifier _) fun _ => .ret _

theorem leaveRecords_runs (configuration : EntityMapping) (identity : Mapping) :
    Runs F V (orD365 F) leaveRefusals 1 (leaveRecords configuration identity) := by
  unfold leaveRecords
  simp only [Prog.liftM_eq]
  refine .ofExcept_bind (checkedFields_fails hF.orD365 (leaveNotConfigured_mem _) _ _)
    fun fields => ?_
  refine .ofExcept_bind (requiredIdentifier_fails hF.orD365 (leaveNotConfigured_mem _) _)
    fun personnel_field => ?_
  refine .ofExcept_bind (raises_of_foreign hF.orD365 (filterOf_foreign _)) fun filter => ?_
  refine Spends.bind_free (getEntity_runs hF _ _) fun payload => ?_
  exact .ofExcept_bind (readLeaveAnswer_fails _ _ _ _) fun _ => .ret _

/-- The active balances are asked for where there are none of the others. -/
theorem getBalances_runs (identity : Mapping) :
    Runs F V (orD365 F) leaveRefusals 2 (getBalances identity) := by
  have hread : ∀ n fields records, Runs F V (orD365 F) leaveRefusals n
      (Prog.ofExcept (readBalances fields records) >>= fun balances =>
        (return ⟨balances⟩ : Coroutine LeaveBalancesResponse)) :=
    fun _ _ _ => .ofExcept_bind (readBalances_fails hF.orD365 _ _) fun _ => .ret _
  unfold getBalances
  simp only [Prog.liftM_eq]
  refine Spends.free_bind (leaveConfiguration_runs hF _ _) fun found => ?_
  cases found with
  | none => exact .raise (.of_foreign hF.orD365 rfl)
  | some configuration =>
    refine Spends.bind (n := 1) (m := 1) (leaveRecords_runs hF configuration identity)
      fun answer => ?_
    obtain ⟨records, fields⟩ := answer
    dsimp only
    split
    · refine Spends.free_bind (leaveConfiguration_runs hF _ _) fun found => ?_
      cases found with
      | none => exact hread _ _ _
      | some fallback =>
        exact Spends.bind_free (leaveRecords_runs hF fallback identity) fun answer => hread _ _ _
    · exact hread _ _ _

omit [UnicodeData] in
theorem asserted_runs {α : Type} {n : ℕ} {refusals : List Refusal} {fetch : Mapping → Coroutine α}
    (hfetch : ∀ m, Runs F V (orD365 F) refusals n (fetch m)) (mapping : Option Mapping) :
    Runs F V (orD365 F) refusals n (asserted fetch mapping) := by
  cases mapping with
  | none => exact .raise (.of_foreign hF.orD365 rfl)
  | some m => exact hfetch m

end Code

/-! ## The routes -/

def Route.required : Route → Bool
  | .me => false
  | _ => true

def Route.dataRefusals : Route → List Refusal
  | .me => []
  | .myProfile => profileRefusals
  | .myLeaveBalances => leaveRefusals

/-- What a route refuses its user. -/
def Route.refusals (route : Route) : List Refusal :=
  ("ROLE_DENIED", 403) :: (identityRefusals route.required ++ route.dataRefusals)

/-- What escapes a route: with `/me`, no failure of D365. -/
def Route.escapes (F : Exc → Prop) : Route → Exc → Prop
  | .me => F
  | _ => orD365 F

/-- The kind of answer a route has. -/
def Route.Answers : Route → Reply → Prop
  | .me, .me _ => True
  | .myProfile, .profile _ => True
  | .myLeaveBalances, .balances _ => True
  | _, _ => False

/-- How a handler ends. -/
def Route.Ends (F : Exc → Prop) (route : Route) (r : Except Exc Reply) : Prop :=
  Raises (Fails (route.escapes F) route.refusals) r ∧ ∀ reply, r = .ok reply → route.Answers reply

/-- How often a route asks D365: for the caller, and for the data. -/
def Route.questions : Route → ℕ
  | .me => 1
  | .myProfile => 2
  | .myLeaveBalances => 3

section Routes

variable [UnicodeData] {F : Exc → Prop} {V : Row → Prop} (hF : Foreign F)
  (hmapping : ∀ m, V (.mapping m)) (hhistory : ∀ h, V (.history h))
  (hevent : ∀ request user entry, V (.event (event request user entry)))

include hF hmapping hhistory hevent

theorem route_runs {G : Exc → Prop} (hFG : ∀ e, F e → G e) {α : Type} {request : Request}
    {user : AuthenticatedUser} {required : Bool} {action resource : String}
    {fetch : Option Mapping → Coroutine α} {refusals : List Refusal} {n : ℕ}
    (hfetch : ∀ mapping, Runs F V G refusals n (fetch mapping)) :
    Runs F V G (("ROLE_DENIED", 403) :: (identityRefusals required ++ refusals)) (1 + n)
      (route request user required action resource fetch) := by
  unfold route
  simp only [Prog.liftM_eq]
  refine .ofExcept_bind ?_ fun user => ?_
  · unfold portalUser requireRoles
    split
    · exact Raises.ok _
    · exact Raises.error (.portal List.mem_cons_self)
  have hidentity := (resolveIdentity_runs hF hmapping hhistory (fun _ _ _ => hevent _ _ _) request
    user required).allow hFG (List.subset_cons_of_subset ("ROLE_DENIED", 403)
      (List.subset_append_left _ refusals))
  refine Prog.Spends.bind hidentity fun mapping => ?_
  have hdata := (hfetch mapping).allow (fun _ h => h) (List.subset_cons_of_subset
    ("ROLE_DENIED", 403) (List.subset_append_right (identityRefusals required) refusals))
  refine Prog.Spends.bind_free hdata fun answer => ?_
  exact Prog.Spends.free_bind ((recordAudit_runs (hevent _ _ _)).allow hFG fun _ h => h)
    fun _ => .ret _

/-- The handler of a route. -/
theorem call_runs (route : Route) (request : Request) (user : AuthenticatedUser) :
    (route.call request user).body.Within (portalTerms F V) (route.Ends F) route.questions := by
  have hends : ∀ {α : Type} {n : ℕ} {p : Coroutine α} {f : α → Reply},
      Runs F V (route.escapes F) route.refusals n p → (∀ a, route.Answers (f a)) →
        (p >>= fun a => return f a).Within (portalTerms F V) (route.Ends F) n := by
    intro α n p f hp hf
    rw [← add_zero n]
    refine Prog.Within.bind hp (fun a _ => ?_) fun e he => ⟨.error (he e rfl),
      fun _ h => by cases h⟩
    exact ⟨.ok _, fun _ h => Except.ok.inj h ▸ hf a⟩
  cases route with
  | me =>
    exact hends (route_runs (n := 0) hF hmapping hhistory hevent (fun _ h => h)
      fun mapping => .ret _) fun _ => trivial
  | myProfile =>
    exact hends (route_runs (n := 1) hF hmapping hhistory hevent orD365_of
      (asserted_runs hF (getProfile_runs hF))) fun _ => trivial
  | myLeaveBalances =>
    exact hends (route_runs (n := 2) hF hmapping hhistory hevent orD365_of
      (asserted_runs hF (getBalances_runs hF))) fun _ => trivial

end Routes

end EmployeePortal
