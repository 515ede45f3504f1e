import EmployeePortal.Python.Uuid
import EmployeePortal.Python.Json
import Mathlib.Data.List.Nodup

/-!
# The tables

The rows the identity subsystem reads and writes, and the constraints the
migrations declare. A `Database` carries the proof that its tables meet the
schema, so a state that PostgreSQL would refuse cannot be built; a transaction
that would lead to one has no successor (`Database.commit`).
-/

namespace EmployeePortal

open EmployeePortal.Python

/-! ## Rows -/

/-- `employee_identity_mapping`. -/
structure Mapping where
  id : Uuid
  entra_oid : Option String
  entra_upn : Option String
  entra_email : Option String
  d365_personnel_number : String
  d365_company : Option String
  mapping_source : String
  verified : Bool
  enabled : Bool
deriving DecidableEq

/-- `employee_identity_mapping_history`. -/
structure History where
  mapping_id : Uuid
  changed_by_oid : String
  change_type : String
  after_values : Dict String
deriving DecidableEq

/-- `audit_event`. -/
structure AuditEvent where
  entra_oid : Option String
  user_upn : Option String
  action : String
  resource : String
  target_employee : Option String
  client_ip : Option String
  user_agent : Option String
  result : String
  correlation_id : String
  details : Option (Dict String)
deriving DecidableEq

/-- `d365_entity_mapping`. -/
structure EntityMapping where
  mapping_key : String
  entity_name : String
  personnel_number_field : Option String
  company_field : Option String
  field_mapping : Dict Json
  enabled : Bool

/-- An object a session can add. -/
inductive Row where
  | mapping (m : Mapping)
  | history (h : History)
  | event (e : AuditEvent)
deriving DecidableEq

/-! ## Tables and their schema -/

structure Tables where
  mappings : List Mapping := []
  history : List History := []
  events : List AuditEvent := []
  configurations : List EntityMapping := []

namespace Tables

/-- The constraints of the migrations: primary key and `uq_identity_mapping_entra_oid`
(NULLs do not collide), the foreign key of the history, and the unique
`mapping_key`. -/
structure Schema (t : Tables) : Prop where
  id_unique : (t.mappings.map Mapping.id).Nodup
  oid_unique : (t.mappings.filterMap Mapping.entra_oid).Nodup
  history_fk : ∀ h ∈ t.history, h.mapping_id ∈ t.mappings.map Mapping.id
  key_unique : (t.configurations.map EntityMapping.mapping_key).Nodup

instance (t : Tables) : Decidable t.Schema :=
  decidable_of_iff
    ((t.mappings.map Mapping.id).Nodup ∧ (t.mappings.filterMap Mapping.entra_oid).Nodup ∧
      (∀ h ∈ t.history, h.mapping_id ∈ t.mappings.map Mapping.id) ∧
      (t.configurations.map EntityMapping.mapping_key).Nodup)
    ⟨fun ⟨a, b, c, d⟩ => ⟨a, b, c, d⟩, fun ⟨a, b, c, d⟩ => ⟨a, b, c, d⟩⟩

def insert (t : Tables) : Row → Tables
  | .mapping m => { t with mappings := t.mappings ++ [m] }
  | .history h => { t with history := t.history ++ [h] }
  | .event e => { t with events := t.events ++ [e] }

/-- Flush: every added object becomes a row. -/
def insertAll (t : Tables) (rows : List Row) : Tables := rows.foldl insert t

@[simp] theorem insertAll_nil (t : Tables) : t.insertAll [] = t := rfl

@[simp] theorem insertAll_cons (t : Tables) (r : Row) (rows : List Row) :
    t.insertAll (r :: rows) = (t.insert r).insertAll rows := rfl

@[simp] theorem insert_mapping (t : Tables) (m : Mapping) :
    t.insert (.mapping m) = { t with mappings := t.mappings ++ [m] } := rfl

@[simp] theorem insert_history (t : Tables) (h : History) :
    t.insert (.history h) = { t with history := t.history ++ [h] } := rfl

@[simp] theorem insert_event (t : Tables) (e : AuditEvent) :
    t.insert (.event e) = { t with events := t.events ++ [e] } := rfl

theorem mem_events_insertAll {t : Tables} {rows : List Row} {e : AuditEvent} :
    e ∈ (t.insertAll rows).events ↔ e ∈ t.events ∨ Row.event e ∈ rows := by
  induction rows generalizing t with
  | nil => simp
  | cons row rows ih =>
    rw [insertAll_cons, ih]
    cases row <;> simp [or_assoc]

theorem configurations_insertAll (t : Tables) (rows : List Row) :
    (t.insertAll rows).configurations = t.configurations := by
  induction rows generalizing t with
  | nil => rfl
  | cons row rows ih =>
    rw [insertAll_cons, ih]
    cases row <;> rfl

/-- An administrator sets the flags of one row. -/
def setFlags (t : Tables) (id : Uuid) (verified enabled : Bool) : Tables :=
  { t with mappings := t.mappings.map fun m =>
      if m.id = id then { m with verified := verified, enabled := enabled } else m }

theorem map_id_setFlags (t : Tables) (id : Uuid) (v e : Bool) :
    (t.setFlags id v e).mappings.map Mapping.id = t.mappings.map Mapping.id := by
  simp only [setFlags, List.map_map]
  refine List.map_congr_left fun m _ => ?_
  simp only [Function.comp]
  split <;> rfl

theorem filterMap_oid_setFlags (t : Tables) (id : Uuid) (v e : Bool) :
    (t.setFlags id v e).mappings.filterMap Mapping.entra_oid =
      t.mappings.filterMap Mapping.entra_oid := by
  simp only [setFlags, List.filterMap_map]
  congr 1
  funext m
  simp only [Function.comp]
  split <;> rfl

namespace Schema

variable {t : Tables}

theorem setFlags (h : t.Schema) (id : Uuid) (v e : Bool) : (t.setFlags id v e).Schema where
  id_unique := by rw [map_id_setFlags]; exact h.id_unique
  oid_unique := by rw [filterMap_oid_setFlags]; exact h.oid_unique
  history_fk := by rw [map_id_setFlags]; exact h.history_fk
  key_unique := h.key_unique

/-- An audit event violates nothing. -/
theorem event (h : t.Schema) (e : AuditEvent) : (t.insertAll [.event e]).Schema where
  id_unique := h.id_unique
  oid_unique := h.oid_unique
  history_fk := h.history_fk
  key_unique := h.key_unique

/-- A mapping goes in together with its history exactly when its id and its oid
are not taken. -/
theorem mapping_iff (h : t.Schema) {m : Mapping} {hist : History} {oid : String}
    (hoid : m.entra_oid = some oid) (hid : hist.mapping_id = m.id) :
    (t.insertAll [.mapping m, .history hist]).Schema ↔
      m.id ∉ t.mappings.map Mapping.id ∧
        oid ∉ t.mappings.filterMap Mapping.entra_oid := by
  constructor
  · intro hs
    have hids := hs.id_unique
    have hoids := hs.oid_unique
    simp only [insertAll_cons, insert_mapping, insert_history, insertAll_nil,
      List.map_append, List.map_singleton, List.filterMap_append,
      List.nodup_append, List.mem_singleton] at hids hoids
    have hsingle : [m].filterMap Mapping.entra_oid = [oid] := by simp [hoid]
    rw [hsingle] at hoids
    exact ⟨fun hmem => hids.2.2 _ hmem _ rfl rfl,
      fun hmem => hoids.2.2 _ hmem _ (List.mem_singleton_self _) rfl⟩
  · rintro ⟨hidfree, hoidfree⟩
    have hsingle : [m].filterMap Mapping.entra_oid = [oid] := by simp [hoid]
    refine ⟨?_, ?_, ?_, h.key_unique⟩
    · simp only [insertAll_cons, insert_mapping, insert_history, insertAll_nil,
        List.map_append, List.map_singleton]
      refine List.Nodup.append h.id_unique (List.nodup_singleton _) ?_
      exact List.disjoint_singleton.mpr hidfree
    · simp only [insertAll_cons, insert_mapping, insert_history, insertAll_nil,
        List.filterMap_append, hsingle]
      refine List.Nodup.append h.oid_unique (List.nodup_singleton _) ?_
      exact List.disjoint_singleton.mpr hoidfree
    · intro x hx
      simp only [insertAll_cons, insert_mapping, insert_history, insertAll_nil,
        List.map_append, List.map_singleton, List.mem_append, List.mem_singleton] at hx ⊢
      rcases hx with hx | rfl
      · exact Or.inl (h.history_fk x hx)
      · exact Or.inr hid

/-- One stored row an oid. -/
theorem eq_of_oid (h : t.Schema) {m m' : Mapping} (hm : m ∈ t.mappings)
    (hm' : m' ∈ t.mappings) {oid : String} (hoid : m.entra_oid = some oid)
    (hoid' : m'.entra_oid = some oid) : m = m' := by
  have hnodup := h.oid_unique
  generalize t.mappings = ms at hm hm' hnodup
  induction ms with
  | nil => cases hm
  | cons a ms ih =>
    have htail : (ms.filterMap Mapping.entra_oid).Nodup := by
      cases ha : a.entra_oid with
      | none => simpa [List.filterMap_cons, ha] using hnodup
      | some o => exact (List.nodup_cons.mp (by simpa [List.filterMap_cons, ha] using hnodup)).2
    have hnew : a.entra_oid = some oid → ∀ b ∈ ms, b.entra_oid ≠ some oid := by
      intro ha b hb heq
      rw [List.filterMap_cons, ha] at hnodup
      exact (List.nodup_cons.mp hnodup).1 (List.mem_filterMap.mpr ⟨b, hb, heq⟩)
    rcases List.mem_cons.mp hm with hma | hm <;> rcases List.mem_cons.mp hm' with hma' | hm'
    · rw [hma, hma']
    · exact absurd hoid' (hnew (hma ▸ hoid) m' hm')
    · exact absurd hoid (hnew (hma' ▸ hoid') m hm)
    · exact ih hm hm' htail

end Schema

end Tables

/-! ## The database -/

structure Database extends Tables where
  schema : toTables.Schema

namespace Database

theorem ext {db db' : Database} (h : db.toTables = db'.toTables) : db = db' := by
  cases db
  cases db'
  cases h
  rfl

/-- No row in any table but the configuration. -/
def empty (configurations : List EntityMapping)
    (h : (configurations.map EntityMapping.mapping_key).Nodup) : Database where
  configurations := configurations
  schema := by
    refine ⟨?_, ?_, ?_, h⟩
    · exact List.nodup_nil
    · exact List.nodup_nil
    · rintro x ⟨⟩

/-- Commit the added objects in one transaction; `none` is an `IntegrityError`. -/
def commit (db : Database) (rows : List Row) : Option Database :=
  if h : (db.insertAll rows).Schema then some ⟨db.insertAll rows, h⟩ else none

theorem commit_eq_some {db db' : Database} {rows : List Row} :
    db.commit rows = some db' ↔ db'.toTables = db.insertAll rows := by
  unfold commit
  split
  · rename_i h
    refine ⟨fun heq => ?_, fun heq => congrArg some (ext heq.symm)⟩
    rw [← Option.some.inj heq]
  · rename_i h
    refine ⟨fun heq => absurd heq (by simp), fun heq => absurd ?_ h⟩
    rw [← heq]
    exact db'.schema

theorem commit_eq_none {db : Database} {rows : List Row} :
    db.commit rows = none ↔ ¬ (db.insertAll rows).Schema := by
  unfold commit
  split
  · rename_i h; simp [h]
  · rename_i h; simp [h]

theorem commit_event (db : Database) (e : AuditEvent) : db.commit [.event e] ≠ none :=
  fun h => commit_eq_none.mp h (db.schema.event e)

def setFlags (db : Database) (id : Uuid) (verified enabled : Bool) : Database where
  toTables := db.toTables.setFlags id verified enabled
  schema := db.schema.setFlags id verified enabled

/-- The enabled row of `d365_entity_mapping` with this key. -/
def configuration (db : Database) (mapping_key : String) : Option EntityMapping :=
  db.configurations.find? fun c => c.mapping_key = mapping_key && c.enabled

theorem mem_of_configuration {db : Database} {mapping_key : String} {c : EntityMapping}
    (h : db.configuration mapping_key = some c) : c ∈ db.configurations :=
  List.mem_of_find?_eq_some h

end Database

end EmployeePortal
