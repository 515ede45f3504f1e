import EmployeePortal.Database.Rules

/-!
# `create_identity_mapping`

The administrator's tool: one approved mapping with its history, unless a row
is in the way.
-/

namespace EmployeePortal.Tools

open EmployeePortal.Python EmployeePortal.Framework

structure Args where
  oid : String
  personnel_number : String
  company : String
  approved_by_oid : String
  upn : Option String := none
  email : Option String := none

/-- `uuid.UUID(text)`, raising. -/
def uuidOf [UnicodeData] (text : String) : Except Exc Uuid :=
  match Uuid.parse text with
  | some u => .ok u
  | none => .error (.valueError "badly formed hexadecimal UUID string")

/-- The condition of the tool's conflict query; a disabled row of the same worker
is not in the way. -/
def takenRow (entra_oid personnel_number company : String) : Where :=
  .or_ (.eq .entra_oid entra_oid)
    (.and_ (.and_ (.eq .d365_personnel_number personnel_number) (.eq .d365_company company))
      (.is_true .enabled))

theorem takenRow_holds {entra_oid personnel_number company : String} {m : Mapping} :
    (takenRow entra_oid personnel_number company).holds m = true ↔
      m.entra_oid = some entra_oid ∨ m.d365_personnel_number = personnel_number ∧
        m.d365_company = some company ∧ m.enabled = true := by
  simp [takenRow, Column.of, Flag.of, and_assoc]

section Create

variable [UnicodeData]

def manualMapping (id : Uuid) (args : Args) (oid : Uuid) : Mapping where
  id := id
  entra_oid := some oid.toText
  entra_upn := (truthy args.upn).map casefold
  entra_email := (truthy args.email).map casefold
  d365_personnel_number := strip args.personnel_number
  d365_company := some (strip args.company)
  mapping_source := "manual_approved"
  verified := true
  enabled := true

def manualHistory (id : Uuid) (args : Args) (oid approved_by : Uuid) : History where
  mapping_id := id
  changed_by_oid := approved_by.toText
  change_type := "CREATE_VERIFIED"
  after_values := [("entra_oid", oid.toText),
    ("d365_personnel_number", strip args.personnel_number),
    ("d365_company", strip args.company)]

/-- The database part of `run`, on arguments that passed its checks. -/
def createApproved (args : Args) (oid approved_by : Uuid) : Coroutine ℤ := do
  match ← await (.scalar (takenRow oid.toText (strip args.personnel_number)
      (strip args.company))) with
  | some _ =>
      throw (.systemExit "[ERROR] A conflicting identity or employee mapping already exists")
  | none =>
      let id ← await .uuid4
      await (.add (.mapping (manualMapping id args oid)))
      await (.add (.history (manualHistory id args oid approved_by)))
      await .commit
      return 0

def createIdentityMapping (args : Args) : Coroutine ℤ := do
  let oid ← uuidOf args.oid
  let approved_by ← uuidOf args.approved_by_oid
  let personnel_number := strip args.personnel_number
  let company := strip args.company
  if personnel_number = "" ∨ 64 < personnel_number.length then
    throw (.systemExit "[ERROR] Personnel number is empty or too long")
  if company = "" ∨ 32 < company.length then
    throw (.systemExit "[ERROR] Company is empty or too long")
  createApproved args oid approved_by

section Rules

variable {K : Contract Database} {sem : OpSem Op Op.Answer Exc Database Session}
  (hK : Conforms K sem) {s : Database} {l : Session}

theorem createIdentityMapping_safe (args : Args) {Q : Post Exc ℤ Database Session}
    (created : ∀ oid approved_by, Uuid.parse args.oid = some oid →
      Safe K sem (createApproved args oid approved_by) Q s l)
    (failed : ∀ e, Q (.error e) s l) :
    Safe K sem (createIdentityMapping args) Q s l := by
  unfold createIdentityMapping uuidOf
  cases hoid : Uuid.parse args.oid with
  | none => exact failed _
  | some oid =>
    cases happroved : Uuid.parse args.approved_by_oid with
    | none => exact failed _
    | some approved_by =>
      simp only [Prog.liftM_eq, Prog.ofExcept_ok, Prog.ret_bind]
      split
      · exact failed _
      · split
        · exact failed _
        · exact created oid approved_by hoid

include hK

theorem createApproved_safe (args : Args) (oid approved_by : Uuid)
    {Q : Post Exc ℤ Database Session} (hl : l.pending = [])
    (inserted : ∀ s₁ s₂ s₃ id l₂ l₃, K.inv s₁ → K.rely s₁ s₂ → K.inv s₂ →
      (∀ m ∈ s₁.mappings, ¬ (takenRow oid.toText (strip args.personnel_number)
        (strip args.company)).holds m = true) →
      l₂ = { l with
        seen := s₁.mappings
        pending := [.mapping (manualMapping id args oid),
          .history (manualHistory id args oid approved_by)] } →
      l₃ = { l with
        seen := s₁.mappings
        committed := l.committed ++ [.mapping (manualMapping id args oid),
          .history (manualHistory id args oid approved_by)] } →
      s₃.toTables = s₂.insertAll [.mapping (manualMapping id args oid),
        .history (manualHistory id args oid approved_by)] →
      sem .commit s₂ l₂ (.ok ()) s₃ l₃ →
      K.inv s₃ ∧ K.guar s₂ s₃ ∧ Q (.ok 0) s₃ l₃)
    (failed : ∀ e s₁ l₁, l₁.pending = [] → l₁.committed = l.committed →
      Q (.error e) s₁ l₁) :
    Safe K sem (createApproved args oid approved_by) Q s l := by
  obtain ⟨pending, read, seen, loaded, answered, committed⟩ := l
  dsimp only at hl
  subst hl
  unfold createApproved
  refine Safe.bind_iff.mpr (hK.scalar (fun _ _ _ _ _ => failed _ _ _ rfl rfl)
    (fun s₁ _ hinv hnone => ?_) fun _ _ _ => failed _ _ _ rfl rfl)
  have hfree : ∀ m ∈ s₁.mappings, ¬ (takenRow oid.toText (strip args.personnel_number)
      (strip args.company)).holds m = true := List.filter_eq_nil_iff.mp hnone
  refine Safe.bind_iff.mpr (hK.uuid4 fun s₂ id hrely₂ hinv₂ _ => ?_)
  refine Safe.bind_iff.mpr (hK.add fun s₃ hrely₃ hinv₃ => ?_)
  refine Safe.bind_iff.mpr (hK.add fun s₄ hrely₄ hinv₄ => ?_)
  refine Safe.bind_iff.mpr (hK.commit ?_ (fun _ _ _ _ => failed _ _ _ rfl rfl)
    fun _ _ _ _ => failed _ _ _ rfl rfl)
  intro s₅ s₆ l₆ hrely₅ hinv₅ hcommit hl₆ hsem₅
  have hrely := K.rely_trans hrely₂ (K.rely_trans hrely₃ (K.rely_trans hrely₄ hrely₅))
  simp only [Session.select, List.append_nil] at hl₆ hsem₅
  exact inserted s₁ s₅ s₆ id _ l₆ hinv hrely hinv₅ hfree rfl hl₆
    (Database.commit_eq_some.mp hcommit) hsem₅

end Rules

end Create

end EmployeePortal.Tools
