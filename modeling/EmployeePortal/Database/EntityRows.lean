import EmployeePortal.Database.Models
import EmployeePortal.Python.Documents
import Mathlib.Data.Rat.Init

/-!
# The rows of `d365_entity_mapping`

All columns of the table, also those no service reads, and what a session writes
of the objects it has loaded or added. An attribute of an object is whatever was
assigned to it; a column takes it when the object is flushed, or refuses it.
-/

namespace EmployeePortal

open EmployeePortal.Python

structure EntityRow extends EntityMapping where
  email_field : Option String := none
  position_field : Option String := none
  department_field : Option String := none
  manager_field : Option String := none
  metadata_confirmed_at : Option ℚ := none
  metadata_environment : Option String := none

/-- The attributes a configuration file may set. -/
inductive Attribute where
  | entity_name
  | personnel_number_field
  | company_field
  | email_field
  | position_field
  | department_field
  | manager_field
  | field_mapping
  | enabled
deriving DecidableEq

def Attribute.name : Attribute → String
  | entity_name => "entity_name"
  | personnel_number_field => "personnel_number_field"
  | company_field => "company_field"
  | email_field => "email_field"
  | position_field => "position_field"
  | department_field => "department_field"
  | manager_field => "manager_field"
  | field_mapping => "field_mapping"
  | enabled => "enabled"

/-- The `*_field` columns. -/
def Attribute.isField : Attribute → Bool
  | entity_name | field_mapping | enabled => false
  | _ => true

namespace EntityRow

/-- The text in a `*_field` column. -/
def field (row : EntityRow) : Attribute → Option String
  | .personnel_number_field => row.personnel_number_field
  | .company_field => row.company_field
  | .email_field => row.email_field
  | .position_field => row.position_field
  | .department_field => row.department_field
  | .manager_field => row.manager_field
  | _ => none

/-- The attributes of an object loaded from the row. -/
def attributes (row : EntityRow) : Attribute → Json
  | .entity_name => .str row.entity_name
  | .field_mapping => .obj row.field_mapping
  | .enabled => .bool row.enabled
  | a => match row.field a with
    | some s => .str s
    | none => .null

end EntityRow

theorem EntityRow.isField_of_field {row : EntityRow} {a : Attribute} {s : String}
    (h : row.field a = some s) : a.isField = true := by
  cases a with
  | entity_name => cases h
  | field_mapping => cases h
  | enabled => cases h
  | _ => rfl

structure EntityTable where
  rows : List EntityRow
  key_unique : (rows.map (·.mapping_key)).Nodup

namespace EntityTable

def find? (table : EntityTable) (mapping_key : String) : Option EntityRow :=
  table.rows.find? (·.mapping_key = mapping_key)

theorem find?_eq_some {table : EntityTable} {mapping_key : String} {row : EntityRow} :
    table.find? mapping_key = some row ↔ row ∈ table.rows ∧ row.mapping_key = mapping_key := by
  constructor
  · intro h
    exact ⟨List.mem_of_find?_eq_some h, by simpa using List.find?_some h⟩
  · rintro ⟨hrow, hkey⟩
    unfold find?
    cases hfind : table.rows.find? (·.mapping_key = mapping_key) with
    | none => exact absurd hkey (by simpa using List.find?_eq_none.mp hfind row hrow)
    | some row' =>
      have hkey' : row'.mapping_key = mapping_key := by simpa using List.find?_some hfind
      rw [List.inj_on_of_nodup_map table.key_unique (List.mem_of_find?_eq_some hfind) hrow
        (hkey'.trans hkey.symm)]

theorem find?_eq_none {table : EntityTable} {mapping_key : String} :
    table.find? mapping_key = none ↔ ∀ row ∈ table.rows, row.mapping_key ≠ mapping_key := by
  unfold find?
  rw [List.find?_eq_none]
  simp only [decide_eq_true_eq]

end EntityTable

/-! ## What a column takes -/

/-- The first characters of a text. -/
def cut (n : ℕ) (s : String) : String := String.ofList (s.toList.take n)

/-- `VARCHAR(n)`: blanks past the end of the column are dropped, anything else there
is refused. -/
def varchar (n : ℕ) (s : String) : Except Exc String :=
  if '\x00' ∈ s.toList ∨ ¬ (s.toList.drop n).all (· = ' ') then .error .databaseError
  else .ok (cut n s)

theorem cut_of_le {n : ℕ} {s : String} (h : s.length ≤ n) : cut n s = s := by
  rw [cut, List.take_of_length_le (by rwa [String.length_toList]), String.ofList_toList]

theorem length_cut_le (n : ℕ) (s : String) : (cut n s).length ≤ n := by
  rw [cut, String.length_ofList]
  exact List.length_take_le n s.toList

theorem varchar_ok {n : ℕ} {s t : String} (h : varchar n s = .ok t) :
    t = cut n s ∧ (s.toList.drop n).all (· = ' ') := by
  unfold varchar at h
  split at h
  · cases h
  · rename_i hfits
    push Not at hfits
    exact ⟨(Except.ok.inj h).symm, hfits.2⟩

theorem cut_ne_empty {n : ℕ} {s : String} (hn : n ≠ 0) (hs : s ≠ "") : cut n s ≠ "" := by
  intro hcut
  have hlist := congrArg String.toList hcut
  rw [cut, String.toList_ofList, String.toList_empty, List.take_eq_nil_iff] at hlist
  rcases hlist with hzero | hnil
  · exact hn hzero
  · exact hs (String.toList_eq_nil_iff.mp hnil)

/-- A nullable text column. -/
def flushText (n : ℕ) : Json → Except Exc (Option String)
  | .null => .ok none
  | .str s => some <$> varchar n s
  | _ => .error .databaseError

theorem flushText_some {n : ℕ} {value : Json} {t : String}
    (h : flushText n value = .ok (some t)) : ∃ s, value = .str s ∧ varchar n s = .ok t := by
  cases value with
  | str s =>
    change some <$> varchar n s = .ok (some t) at h
    obtain ⟨t', hs, ht⟩ := map_eq_ok.mp h
    exact ⟨s, rfl, Option.some.inj ht ▸ hs⟩
  | null => cases h
  | _ => cases h

theorem flushText_str {n : ℕ} {s : String} {x : Option String}
    (h : flushText n (.str s) = .ok x) : x = some (cut n s) := by
  change some <$> varchar n s = .ok x at h
  obtain ⟨t, hs, rfl⟩ := map_eq_ok.mp h
  rw [(varchar_ok hs).1]

/-- `NOT NULL`. -/
def required : Option String → Except Exc String
  | some s => .ok s
  | none => .error .integrityError

/-- A `Boolean` column takes what is equal to `True` or `False`; the default of a new
object stands where nothing was assigned. -/
def flushBool (added : Bool) : Json → Except Exc Bool
  | .bool b => .ok b
  | .int 0 => .ok false
  | .int 1 => .ok true
  | .float "0.0" | .float "-0.0" => .ok false
  | .float "1.0" => .ok true
  | .null => if added then .ok false else .error .integrityError
  | _ => .error .databaseError

section Flush

variable [FloatData]

/-- The `JSON` column is left alone when the object loaded from the row was assigned
an equal value. -/
def written (loaded : Option EntityRow) (fields : Dict Json) : Dict Json :=
  match loaded with
  | some row => if (Json.obj fields).eq (.obj row.field_mapping) then row.field_mapping else fields
  | none => fields

def flushMapping (loaded : Option EntityRow) : Json → Except Exc (Dict Json)
  | .obj fields =>
      if (Json.obj (written loaded fields)).isStandard then .ok (written loaded fields)
      else .error .databaseError
  | _ => .error .databaseError

/-! ## Sessions -/

/-- A `D365EntityMapping` in a session. -/
structure EntityObject where
  mapping_key : String
  attributes : Attribute → Json
  metadata_confirmed_at : Option ℚ
  metadata_environment : Option String

def EntityRow.load (row : EntityRow) : EntityObject where
  mapping_key := row.mapping_key
  attributes := row.attributes
  metadata_confirmed_at := row.metadata_confirmed_at
  metadata_environment := row.metadata_environment

def EntityObject.flushKey (loaded : Option EntityRow) (x : EntityObject) : Except Exc String :=
  match loaded with
  | some row => .ok row.mapping_key
  | none => varchar 64 x.mapping_key

/-- The row an object is written to: the one it was loaded from, or a new one. -/
def EntityObject.flush (loaded : Option EntityRow) (x : EntityObject) :
    Except Exc EntityRow := do
  let mapping_key ← x.flushKey loaded
  let entity_name ← required (← flushText 128 (x.attributes .entity_name))
  let personnel_number_field ← flushText 128 (x.attributes .personnel_number_field)
  let company_field ← flushText 128 (x.attributes .company_field)
  let email_field ← flushText 128 (x.attributes .email_field)
  let position_field ← flushText 128 (x.attributes .position_field)
  let department_field ← flushText 128 (x.attributes .department_field)
  let manager_field ← flushText 128 (x.attributes .manager_field)
  let field_mapping ← flushMapping loaded (x.attributes .field_mapping)
  let enabled ← flushBool loaded.isNone (x.attributes .enabled)
  let metadata_environment ← x.metadata_environment.mapM (varchar 512)
  return {
    mapping_key := mapping_key
    entity_name := entity_name
    personnel_number_field := personnel_number_field
    company_field := company_field
    email_field := email_field
    position_field := position_field
    department_field := department_field
    manager_field := manager_field
    field_mapping := field_mapping
    enabled := enabled
    metadata_confirmed_at := x.metadata_confirmed_at
    metadata_environment := metadata_environment }

/-- The objects of a session: by their key those loaded, and those added. -/
structure EntitySession where
  loaded : Dict EntityObject := []
  added : List EntityObject := []

/-- Flush and commit. -/
def EntitySession.commit (session : EntitySession) (table : EntityTable) :
    Except Exc EntityTable := do
  let updated ← table.rows.mapM fun row =>
    match session.loaded.get? row.mapping_key with
    | some x => x.flush (some row)
    | none => .ok row
  let inserted ← session.added.mapM (·.flush none)
  if h : ((updated ++ inserted).map (·.mapping_key)).Nodup then return ⟨updated ++ inserted, h⟩
  else throw .integrityError

/-! ## What a flush and a commit write -/

/-- Each column of the row takes the object's attribute. -/
structure Writes (loaded : Option EntityRow) (x : EntityObject) (row : EntityRow) : Prop where
  mapping_key : x.flushKey loaded = .ok row.mapping_key
  entity_name : flushText 128 (x.attributes .entity_name) = .ok (some row.entity_name)
  field : ∀ a, a.isField = true → flushText 128 (x.attributes a) = .ok (row.field a)
  field_mapping : flushMapping loaded (x.attributes .field_mapping) = .ok row.field_mapping
  enabled : flushBool loaded.isNone (x.attributes .enabled) = .ok row.enabled
  metadata_confirmed_at : row.metadata_confirmed_at = x.metadata_confirmed_at
  metadata_environment : x.metadata_environment.mapM (varchar 512) = .ok row.metadata_environment

theorem EntityObject.flush_iff {loaded : Option EntityRow} {x : EntityObject} {row : EntityRow} :
    x.flush loaded = .ok row ↔ Writes loaded x row := by
  constructor
  · intro h
    unfold EntityObject.flush at h
    obtain ⟨mapping_key, hkey, h⟩ := bind_eq_ok.mp h
    obtain ⟨name, hname, h⟩ := bind_eq_ok.mp h
    obtain ⟨entity_name, hentity, h⟩ := bind_eq_ok.mp h
    obtain ⟨personnel_number_field, hpersonnel, h⟩ := bind_eq_ok.mp h
    obtain ⟨company_field, hcompany, h⟩ := bind_eq_ok.mp h
    obtain ⟨email_field, hemail, h⟩ := bind_eq_ok.mp h
    obtain ⟨position_field, hposition, h⟩ := bind_eq_ok.mp h
    obtain ⟨department_field, hdepartment, h⟩ := bind_eq_ok.mp h
    obtain ⟨manager_field, hmanager, h⟩ := bind_eq_ok.mp h
    obtain ⟨field_mapping, hmapping, h⟩ := bind_eq_ok.mp h
    obtain ⟨enabled, henabled, h⟩ := bind_eq_ok.mp h
    obtain ⟨metadata_environment, henvironment, h⟩ := bind_eq_ok.mp h
    obtain rfl := Except.ok.inj h
    refine ⟨hkey, ?_, fun a ha => ?_, hmapping, henabled, rfl, henvironment⟩
    · cases name with
      | none => cases hentity
      | some t =>
        obtain rfl := Except.ok.inj hentity
        exact hname
    · cases a with
      | personnel_number_field => exact hpersonnel
      | company_field => exact hcompany
      | email_field => exact hemail
      | position_field => exact hposition
      | department_field => exact hdepartment
      | manager_field => exact hmanager
      | _ => cases ha
  · intro h
    have hpersonnel := h.field .personnel_number_field rfl
    have hcompany := h.field .company_field rfl
    have hemail := h.field .email_field rfl
    have hposition := h.field .position_field rfl
    have hdepartment := h.field .department_field rfl
    have hmanager := h.field .manager_field rfl
    rw [EntityObject.flush, h.mapping_key, ok_bind, h.entity_name, ok_bind, required, ok_bind,
      hpersonnel, ok_bind, hcompany, ok_bind, hemail, ok_bind, hposition, ok_bind, hdepartment,
      ok_bind, hmanager, ok_bind, h.field_mapping, ok_bind, h.enabled, ok_bind,
      h.metadata_environment, ok_bind, ← h.metadata_confirmed_at]
    rfl

/-- The row holds what the object was assigned, as the columns take it. -/
structure Flushed (loaded : Option EntityRow) (x : EntityObject) (row : EntityRow) : Prop where
  mapping_key : x.flushKey loaded = .ok row.mapping_key
  entity_name : ∃ s, x.attributes .entity_name = .str s ∧ varchar 128 s = .ok row.entity_name
  field : ∀ a, a.isField = true → flushText 128 (x.attributes a) = .ok (row.field a)
  field_mapping : ∃ fields, x.attributes .field_mapping = .obj fields ∧
    row.field_mapping = written loaded fields
  metadata_confirmed_at : row.metadata_confirmed_at = x.metadata_confirmed_at
  metadata_environment : x.metadata_environment.isSome = true →
    row.metadata_environment.isSome = true

theorem flushMapping_ok {loaded : Option EntityRow} {value : Json} {fields : Dict Json}
    (h : flushMapping loaded value = .ok fields) :
    ∃ assigned, value = .obj assigned ∧ fields = written loaded assigned := by
  cases value with
  | obj assigned =>
    by_cases hstandard : (Json.obj (written loaded assigned)).isStandard = true
    · rw [flushMapping, if_pos hstandard] at h
      exact ⟨assigned, rfl, (Except.ok.inj h).symm⟩
    · rw [flushMapping, if_neg hstandard] at h
      cases h
  | _ => cases h

theorem EntityObject.flush_ok {loaded : Option EntityRow} {x : EntityObject} {row : EntityRow}
    (h : x.flush loaded = .ok row) : Flushed loaded x row := by
  have hwrites := EntityObject.flush_iff.mp h
  refine ⟨hwrites.mapping_key, flushText_some hwrites.entity_name, hwrites.field,
    flushMapping_ok hwrites.field_mapping, hwrites.metadata_confirmed_at, ?_⟩
  intro hsome
  obtain ⟨environment, heq⟩ := Option.isSome_iff_exists.mp hsome
  have henvironment := hwrites.metadata_environment
  rw [heq, Option.mapM_some] at henvironment
  obtain ⟨t, -, ht⟩ := map_eq_ok.mp henvironment
  rw [← ht]
  rfl

theorem EntityObject.key_of_flush_none {x : EntityObject} {row : EntityRow}
    (h : Flushed none x row) : row.mapping_key = cut 64 x.mapping_key :=
  (varchar_ok h.mapping_key).1

/-! ## Flushing again -/

omit [FloatData] in
theorem varchar_again {n : ℕ} {s t : String} (h : varchar n s = .ok t) : varchar n t = .ok t := by
  have hnul : '\x00' ∉ s.toList := by
    intro hmem
    rw [varchar, if_pos (Or.inl hmem)] at h
    cases h
  obtain ⟨rfl, -⟩ := varchar_ok h
  have htake : (cut n s).toList = s.toList.take n := by rw [cut, String.toList_ofList]
  have hfits : ¬ ('\x00' ∈ (cut n s).toList ∨ ¬ ((cut n s).toList.drop n).all (· = ' ')) := by
    rw [htake, List.drop_take_self]
    rintro (hmem | hlong)
    · exact hnul (List.mem_of_mem_take hmem)
    · exact hlong rfl
  rw [varchar, if_neg hfits, cut_of_le (length_cut_le n s)]

omit [FloatData] in
/-- What a text column holds is written as it is. -/
theorem flushText_again {n : ℕ} {value : Json} {x : Option String}
    (h : flushText n value = .ok x) :
    flushText n (x.elim .null .str) = .ok x := by
  cases x with
  | none => rfl
  | some t =>
    obtain ⟨s, -, hs⟩ := flushText_some h
    exact map_eq_ok.mpr ⟨t, varchar_again hs, rfl⟩

omit [FloatData] in
theorem flushBool_again {added : Bool} {value : Json} {b : Bool}
    (h : flushBool added value = .ok b) (hnull : added = true → value ≠ .null) :
    flushBool false value = .ok b := by
  unfold flushBool at h ⊢
  split at h
  case h_7 =>
    cases added with
    | true => exact absurd rfl (hnull rfl)
    | false => exact h
  all_goals exact h

/-- An equal value changes nothing, and the stored one is equal or the value itself. -/
theorem written_again (loaded : Option EntityRow) (fields : Dict Json) {row : EntityRow}
    (hrow : row.field_mapping = written loaded fields) :
    written (some row) fields = row.field_mapping := by
  have hcases : written loaded fields = fields ∨
      (Json.obj fields).eq (.obj (written loaded fields)) = true := by
    cases loaded with
    | none => exact Or.inl rfl
    | some before =>
      by_cases heq : (Json.obj fields).eq (.obj before.field_mapping) = true
      · rw [written, if_pos heq]
        exact Or.inr heq
      · rw [written, if_neg heq]
        exact Or.inl rfl
  rw [← hrow] at hcases
  by_cases heq : (Json.obj fields).eq (.obj row.field_mapping) = true
  · rw [written, if_pos heq]
  · rw [written, if_neg heq]
    exact (hcases.resolve_right heq).symm

theorem flushMapping_again {loaded : Option EntityRow} {value : Json} {row : EntityRow}
    (h : flushMapping loaded value = .ok row.field_mapping) :
    flushMapping (some row) value = .ok row.field_mapping ∧
      flushMapping (some row) (.obj row.field_mapping) = .ok row.field_mapping := by
  obtain ⟨assigned, rfl, hwritten⟩ := flushMapping_ok h
  have hstandard : (Json.obj row.field_mapping).isStandard = true := by
    by_contra hnot
    rw [hwritten] at hnot
    rw [flushMapping, if_neg hnot] at h
    cases h
  have hself : written (some row) row.field_mapping = row.field_mapping := by
    rw [written, ite_self]
  rw [flushMapping, flushMapping, written_again loaded assigned hwritten, hself,
    if_pos hstandard]
  exact ⟨rfl, rfl⟩

omit [FloatData] in
theorem EntityRow.attributes_of_isField (row : EntityRow) {a : Attribute} (h : a.isField = true) :
    row.attributes a = (row.field a).elim .null .str := by
  have hvalue : row.attributes a = match row.field a with
      | some s => .str s
      | none => .null := by
    cases a with
    | entity_name => cases h
    | field_mapping => cases h
    | enabled => cases h
    | _ => rfl
  rw [hvalue]
  cases row.field a with
  | some s => rfl
  | none => rfl

/-- An object that has each attribute from a row or from the object the row was written
from is written to the row as it is, but for the stamp. A `null` that only a new object
may have for `enabled` is the exception. -/
theorem Writes.again {loaded : Option EntityRow} {x y : EntityObject} {row : EntityRow}
    (h : Writes loaded x row)
    (hattributes : ∀ a, y.attributes a = row.attributes a ∨ y.attributes a = x.attributes a)
    (hnull : loaded = none → y.attributes .enabled ≠ .null)
    (henvironment : y.metadata_environment = x.metadata_environment) :
    y.flush (some row) = .ok { row with metadata_confirmed_at := y.metadata_confirmed_at } := by
  refine EntityObject.flush_iff.mpr ⟨rfl, ?_, fun a ha => ?_, ?_, ?_, rfl, ?_⟩
  · rcases hattributes .entity_name with hrow | hx
    · rw [hrow]
      exact flushText_again h.entity_name
    · rw [hx]
      exact h.entity_name
  · have hfield : ({ row with metadata_confirmed_at := y.metadata_confirmed_at } :
        EntityRow).field a = row.field a := by
      cases a <;> rfl
    rw [hfield]
    rcases hattributes a with hrow | hx
    · rw [hrow, row.attributes_of_isField ha]
      exact flushText_again (h.field a ha)
    · rw [hx]
      exact h.field a ha
  · obtain ⟨hgiven, hkept⟩ := flushMapping_again h.field_mapping
    rcases hattributes .field_mapping with hrow | hx
    · rw [hrow]
      exact hkept
    · rw [hx]
      exact hgiven
  · rcases hattributes .enabled with hrow | hx
    · rw [hrow]
      rfl
    · rw [hx]
      refine flushBool_again h.enabled fun hnew => ?_
      rw [← hx]
      exact hnull (Option.isNone_iff_eq_none.mp hnew)
  · rw [henvironment]
    exact h.metadata_environment

namespace EntitySession

variable {session : EntitySession} {table table' : EntityTable}

theorem commit_ok (h : session.commit table = .ok table') :
    ∃ updated inserted, table'.rows = updated ++ inserted ∧
      (table.rows.mapM fun row =>
        match session.loaded.get? row.mapping_key with
        | some x => x.flush (some row)
        | none => .ok row) = .ok updated ∧
      session.added.mapM (·.flush none) = .ok inserted := by
  unfold commit at h
  obtain ⟨updated, hupdated, h⟩ := bind_eq_ok.mp h
  obtain ⟨inserted, hinserted, h⟩ := bind_eq_ok.mp h
  split at h
  · obtain rfl := Except.ok.inj h
    exact ⟨updated, inserted, rfl, hupdated, hinserted⟩
  · cases h

/-- A session that only has objects of rows writes them all. -/
theorem commit_of_loaded {g : EntityRow → EntityRow} (hadded : session.added = [])
    (hrows : ∀ row ∈ table.rows, (match session.loaded.get? row.mapping_key with
      | some x => x.flush (some row)
      | none => .ok row) = .ok (g row))
    (hkey : ∀ row, (g row).mapping_key = row.mapping_key) :
    ∃ table', session.commit table = .ok table' ∧ table'.rows = table.rows.map g := by
  have hunique : ((table.rows.map g ++ []).map fun row : EntityRow => row.mapping_key).Nodup := by
    rw [List.append_nil, List.map_map]
    have hsame : table.rows.map ((fun row : EntityRow => row.mapping_key) ∘ g) =
        table.rows.map fun row : EntityRow => row.mapping_key :=
      List.map_congr_left fun row _ => hkey row
    rw [hsame]
    exact table.key_unique
  refine ⟨⟨_, hunique⟩, ?_, List.append_nil _⟩
  rw [commit, mapM_eq_ok hrows, ok_bind, hadded, List.mapM_nil]
  exact dif_pos hunique

/-- A row that was loaded is written anew. -/
theorem commit_loaded (h : session.commit table = .ok table') {row : EntityRow}
    (hrow : row ∈ table.rows) {x : EntityObject}
    (hx : session.loaded.get? row.mapping_key = some x) :
    ∃ row' ∈ table'.rows, Flushed (some row) x row' := by
  obtain ⟨updated, inserted, hrows, hupdated, -⟩ := commit_ok h
  obtain ⟨row', hrow', hflush⟩ := exists_mem_of_mapM_ok hupdated hrow
  rw [hx] at hflush
  refine ⟨row', ?_, EntityObject.flush_ok hflush⟩
  rw [hrows]
  exact List.mem_append_left _ hrow'

/-- An added object becomes a row. -/
theorem commit_added (h : session.commit table = .ok table') {x : EntityObject}
    (hx : x ∈ session.added) : ∃ row' ∈ table'.rows, Flushed none x row' := by
  obtain ⟨updated, inserted, hrows, -, hinserted⟩ := commit_ok h
  obtain ⟨row', hrow', hflush⟩ := exists_mem_of_mapM_ok hinserted hx
  refine ⟨row', ?_, EntityObject.flush_ok hflush⟩
  rw [hrows]
  exact List.mem_append_right _ hrow'

/-- There are no other rows. -/
theorem commit_mem (h : session.commit table = .ok table') {row' : EntityRow}
    (hrow' : row' ∈ table'.rows) :
    (∃ row ∈ table.rows, row.mapping_key = row'.mapping_key) ∨
      ∃ x ∈ session.added, Flushed none x row' := by
  obtain ⟨updated, inserted, hrows, hupdated, hinserted⟩ := commit_ok h
  rw [hrows] at hrow'
  rcases List.mem_append.mp hrow' with hold | hnew
  · obtain ⟨row, hrow, hflush⟩ := exists_of_mapM_ok hupdated row' hold
    refine Or.inl ⟨row, hrow, ?_⟩
    split at hflush
    · exact Except.ok.inj (EntityObject.flush_ok hflush).mapping_key
    · rw [Except.ok.inj hflush]
  · obtain ⟨x, hx, hflush⟩ := exists_of_mapM_ok hinserted row' hnew
    exact Or.inr ⟨x, hx, EntityObject.flush_ok hflush⟩

/-- Two added objects have different keys. -/
theorem commit_keys (h : session.commit table = .ok table') :
    (session.added.map (·.mapping_key)).Nodup := by
  obtain ⟨updated, inserted, hrows, -, hinserted⟩ := commit_ok h
  have hunique := table'.key_unique
  rw [hrows, List.map_append] at hunique
  have hkeys : inserted.map (·.mapping_key) = (session.added.map (·.mapping_key)).map (cut 64) := by
    have hall := mapM_ok_iff.mp hinserted
    clear hinserted hrows hunique h
    generalize session.added = added at hall ⊢
    induction hall with
    | nil => rfl
    | cons hfirst _ ih =>
      have hkey := EntityObject.key_of_flush_none (EntityObject.flush_ok hfirst)
      rw [List.map_cons, List.map_cons, List.map_cons, ih, hkey]
  have hinserted := hunique.of_append_right
  rw [hkeys] at hinserted
  exact hinserted.of_map

end EntitySession

end Flush

end EmployeePortal
