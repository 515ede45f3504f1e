import EmployeePortal.D365.Query
import EmployeePortal.Database.Rules

/-!
# Asking D365

`D365Client.get_entity` up to the request it sends, and the checks the three
services share: the configuration row of an integration, its field mapping and
its identity field.
-/

namespace EmployeePortal.D365

open EmployeePortal.Python EmployeePortal.Framework

/-- `d[key]`. -/
def item {β : Type} (d : Dict β) (key : String) : Except Exc β :=
  match d.get? key with
  | some x => .ok x
  | none => .error (.keyError key)

section Client

variable [UnicodeData]

def getEntity (entity : String) (query : ODataQuery) : Coroutine (Dict Json) := do
  let entity ← validateIdentifier entity
  let params ← query.toParams
  await (.getEntity entity params)

/-- The pairs of a field mapping with a wanted key and a text value, each value
validated: the comprehension of the `_validated_fields`. -/
def selectFields (keys : List String) (raw : Dict Json) : Except Exc (Dict String) :=
  (raw.filterMap fun (key, value) =>
      match value with
      | .str field => if key ∈ keys then some (key, field) else none
      | _ => none).mapM
    fun (key, field) => do return (key, ← validateIdentifier field)

theorem selectFields_ok {keys : List String} {raw : Dict Json} {fields : Dict String}
    (h : selectFields keys raw = .ok fields) : ∀ pair ∈ fields, isIdentifier pair.2 = true := by
  intro pair hpair
  obtain ⟨⟨key, field⟩, -, hvalid⟩ := exists_of_mapM_ok h pair hpair
  obtain ⟨field', hfield, hvalid⟩ := bind_eq_ok.mp hvalid
  obtain rfl := Except.ok.inj hvalid
  obtain ⟨hidentifier, rfl⟩ := validateIdentifier_ok.mp hfield
  exact hidentifier

/-- Columns that were selected, and then checked. -/
theorem selectFields_of_checked {keys : List String} {raw : Dict Json} {fields : Dict String}
    {C : Dict String → Prop} [DecidablePred C] {e : Exc}
    (h : (do
      let fields ← selectFields keys raw
      if C fields then return fields else throw e) = Except.ok fields) :
    selectFields keys raw = .ok fields ∧ C fields := by
  obtain ⟨selected, hselect, h⟩ := bind_eq_ok.mp h
  split at h
  · rename_i hchecked
    obtain rfl := Except.ok.inj h
    exact ⟨hselect, hchecked⟩
  · cases h

/-- `_required_identifier`, with the error of its service. -/
def requiredIdentifier (missing : PortalError) (value : Option String) : Except Exc String :=
  match truthy value with
  | none => .error (.portal missing)
  | some field => validateIdentifier field

/-- The enabled configuration row of an integration, with a valid entity name. -/
def requiredConfiguration (mapping_key : String) (missing : PortalError) :
    Coroutine EntityMapping := do
  match ← await (.configuration mapping_key) with
  | none => throw (.portal missing)
  | some configuration =>
      let _ ← validateIdentifier configuration.entity_name
      return configuration

/-! ## What a call to D365 leaves behind -/

section Rules

variable {K : Contract Database} {sem : OpSem Op Op.Answer Exc Database Session}
  (hK : Conforms K sem) {s : Database} {l : Session}

include hK

/-- The payload is the answer to the request the query stands for. -/
theorem getEntity_safe (entity : String) (query : ODataQuery) :
    Safe K sem (getEntity entity query) (fun r _ l' => l.Idle l' ∧
      ∀ payload, r = .ok payload → ∃ params, query.toParams = .ok params ∧
        ⟨entity, params, payload⟩ ∈ l'.answered) s l := by
  unfold getEntity
  cases hname : validateIdentifier entity with
  | error e => exact ⟨.refl l, fun _ h => by cases h⟩
  | ok name =>
    obtain ⟨-, rfl⟩ := validateIdentifier_ok.mp hname
    cases hparams : query.toParams with
    | error e => exact ⟨.refl l, fun _ h => by cases h⟩
    | ok params =>
      refine hK.getEntity (fun s₁ payload l₁ _ _ hl₁ _ => ?_) fun s₁ e _ _ _ => ?_
      · subst hl₁
        refine ⟨.answer l _, fun p hp => ⟨params, rfl, ?_⟩⟩
        cases hp
        simp
      · exact ⟨.refl l, fun _ h => by cases h⟩

theorem requiredConfiguration_safe (mapping_key : String) (missing : PortalError) :
    Safe K sem (requiredConfiguration mapping_key missing) (fun r _ l' => l.Idle l' ∧
      ∀ configuration, r = .ok configuration → configuration ∈ l'.loaded) s l := by
  unfold requiredConfiguration
  refine Safe.bind (R := fun r _ l' => l.Idle l' ∧
      ∀ c, r = .ok (some c) → c ∈ l'.loaded) ?_ ?_ ?_
  · refine hK.configuration (fun s₁ _ _ => ⟨.load l _, fun c hc => ?_⟩)
      fun s₁ _ _ _ => ⟨.refl l, fun _ h => by cases h⟩
    simp [Except.ok.inj hc]
  · rintro (_ | c) s₁ l₁ ⟨hidle, hloaded⟩
    · exact ⟨hidle, fun _ h => by cases h⟩
    · cases hname : validateIdentifier c.entity_name with
      | error e =>
        simp only [hname, Prog.liftM_eq, Prog.ofExcept_error, Prog.raise_bind]
        exact ⟨hidle, fun _ h => by cases h⟩
      | ok name =>
        simp only [hname, Prog.liftM_eq, Prog.ofExcept_ok, Prog.ret_bind]
        exact ⟨hidle, fun x hx => by cases hx; exact hloaded c rfl⟩
  · exact fun e s₁ l₁ h => ⟨h.1, fun _ h => by cases h⟩

end Rules

end Client

end EmployeePortal.D365
