import EmployeePortal.Database.Rules

/-!
# `IdentityMappingService`
-/

namespace EmployeePortal.Employees

open EmployeePortal.Python EmployeePortal.Framework

/-- The row an administrator has to look at. -/
def mappingConflict : Exc :=
  .portal ⟨"MAPPING_CONFLICT",
    "Your employee identity mapping requires administrator review.", 409⟩

/-- The condition of `find_verified`. -/
def verifiedRow (entra_oid : String) : Where :=
  .and_ (.and_ (.eq .entra_oid entra_oid) (.is_true .enabled)) (.is_true .verified)

def findVerified (entra_oid : String) : Coroutine (Option Mapping) := do
  match ← await (.scalars (verifiedRow entra_oid)) with
  | [] => return none
  | [mapping] => return some mapping
  | _ => throw mappingConflict

theorem verifiedRow_holds {entra_oid : String} {m : Mapping} :
    (verifiedRow entra_oid).holds m = true ↔
      m.entra_oid = some entra_oid ∧ m.enabled = true ∧ m.verified = true := by
  simp [verifiedRow, Column.of, Flag.of, and_assoc]

/-- It only selects. -/
theorem findVerified_only {P : Op → Prop} (hscalars : ∀ w, P (.scalars w)) (entra_oid : String) :
    (findVerified entra_oid).Only P := by
  unfold findVerified
  refine Prog.Only.bind (Prog.Only.perform (hscalars _)) fun rows => ?_
  match rows with
  | [] => trivial
  | [mapping] => trivial
  | _ :: _ :: _ => trivial

section Rules

variable {K : Contract Database} {sem : OpSem Op Op.Answer Exc Database Session}
  (hK : Conforms K sem) {s : Database} {l : Session}

include hK

/-- A mapping comes from a select that found it and no other. -/
theorem findVerified_safe (entra_oid : String)
    {Q : Post Exc (Option Mapping) Database Session}
    (found : ∀ s₁ m, K.rely s s₁ → K.inv s₁ → m ∈ s₁.mappings →
      m.entra_oid = some entra_oid → m.enabled = true → m.verified = true →
      Q (.ok (some m)) s₁ (l.select s₁ [m]))
    (missing : ∀ s₁, K.rely s s₁ → K.inv s₁ → Q (.ok none) s₁ (l.select s₁ []))
    (failed : ∀ s₁ e l₁, K.inv s₁ → l₁.pending = l.pending → l₁.committed = l.committed →
      Q (.error e) s₁ l₁) :
    Safe K sem (findVerified entra_oid) Q s l := by
  unfold findVerified
  refine Safe.bind (hK.scalars
    (Q := fun r s₁ l₁ => K.inv s₁ ∧ match r with
      | .ok rows => K.rely s s₁ ∧ l₁ = l.select s₁ rows ∧
          rows.Perm (s₁.mappings.filter (verifiedRow entra_oid).holds)
      | .error _ => l₁ = l)
    (fun s₁ rows hrely hinv h _ => ⟨hinv, hrely, rfl, h⟩)
    (fun s₁ _ hinv _ => ⟨hinv, rfl⟩)) ?_ ?_
  · rintro rows s₁ l₁ ⟨hinv, hrely, rfl, hperm⟩
    match rows, hperm with
    | [], _ => exact missing s₁ hrely hinv
    | [m], hperm =>
      have hmem := hperm.subset (List.mem_singleton_self m)
      obtain ⟨hm, hholds⟩ := List.mem_filter.mp hmem
      obtain ⟨hoid, henabled, hverified⟩ := verifiedRow_holds.mp hholds
      exact found s₁ m hrely hinv hm hoid henabled hverified
    | _ :: _ :: _, _ => exact failed s₁ _ _ hinv rfl rfl
  · rintro e s₁ l₁ ⟨hinv, rfl⟩
    exact failed s₁ e _ hinv rfl rfl

end Rules

end EmployeePortal.Employees
