import EmployeePortal.Employees.ConfigurationSteps
import EmployeePortal.Tools.ConfirmedMappings

/-!
# What the tool accepts and the services can use

The tool compares the names in a file with the metadata. Each service has more to ask of
its row: logical fields it cannot do without, an identity field, and identifiers where
names go into a query. A row the tool wrote serves its service exactly when what the file
and the table leave in its columns is complete.
-/

namespace EmployeePortal.Tools.ApplyD365Mapping

open EmployeePortal.Python EmployeePortal.Framework EmployeePortal.D365 EmployeePortal.Employees

section Statements

variable [UnicodeData]

/-- The row was written under a key a service reads. -/
structure WrittenUnder (key : ServiceKey) (mappings : List Json) (table : EntityTable)
    (row : EntityRow) : Prop where
  stored : row ∈ table.rows
  mapping_key : row.mapping_key = key.mapping_key
  item : ∃ item ∈ mappings, keyOf item = key.mapping_key

/-- The text the items of a key, and the row before them, leave in a column. -/
def leftField (table : EntityTable) (mappings : List Json) (mapping_key : String)
    (a : Attribute) : Option String :=
  match left table mappings mapping_key a with
  | .str s => some (cut 128 s)
  | _ => none

variable [FloatData]

/-- The field mapping they leave. -/
def leftMapping (table : EntityTable) (mappings : List Json) (mapping_key : String) : Dict Json :=
  match left table mappings mapping_key .field_mapping with
  | .obj fields => written (table.find? mapping_key) fields
  | _ => []

/-- What the tool accepts, the services can use. -/
def AcceptedServes : Prop :=
  ∀ (inputs : Inputs) (mappings : List Json) (table table' : EntityTable),
    inputs.file >>= mappingsOf = .ok mappings → run inputs true table = (.ok 0, table') →
    ∀ (key : ServiceKey) (row : EntityRow), WrittenUnder key mappings table' row →
      row.enabled = true → key.Passes row.toEntityMapping

/-! ## The columns of a row -/

variable {table table' : EntityTable} {earlier later : List Json} {item : Json}

omit [FloatData] in
theorem left_last (hlast : ∀ x ∈ later, keyOf x ≠ keyOf item) (a : Attribute) :
    left table (earlier ++ item :: later) (keyOf item) a =
      (patch item a).getD (left table earlier (keyOf item) a) := by
  rw [left_eq, patchesOf_last hlast, overlays_concat]
  cases hgiven : patch item a with
  | none =>
    rw [overlay_of_none hgiven, ← left_eq]
    rfl
  | some value => exact overlay_of_some hgiven

namespace MergedInto

variable {row' : EntityRow} {x : EntityObject}

theorem attributes (h : MergedInto table earlier item row' x)
    (hlast : ∀ x ∈ later, keyOf x ≠ keyOf item) {a : Attribute} (ha : a ≠ .entity_name) :
    x.attributes a = left table (earlier ++ item :: later) (keyOf item) a := by
  rw [left_last hlast]
  cases hgiven : patch item a with
  | none => exact h.kept a ha hgiven
  | some value => exact h.given a value hgiven

theorem field_eq (h : MergedInto table earlier item row' x)
    (hlast : ∀ x ∈ later, keyOf x ≠ keyOf item) {a : Attribute} (ha : a.isField = true) :
    row'.field a = leftField table (earlier ++ item :: later) (keyOf item) a := by
  have hne : a ≠ .entity_name := by
    rintro rfl
    cases ha
  have hfield := h.flushed.field a ha
  rw [h.attributes hlast hne] at hfield
  unfold leftField
  cases hleft : left table (earlier ++ item :: later) (keyOf item) a with
  | str s =>
    rw [hleft] at hfield
    exact flushText_str hfield
  | null =>
    rw [hleft] at hfield
    exact (Except.ok.inj hfield).symm
  | _ =>
    rw [hleft] at hfield
    cases hfield

theorem field_mapping_eq (h : MergedInto table earlier item row' x)
    (hlast : ∀ x ∈ later, keyOf x ≠ keyOf item) :
    row'.field_mapping = leftMapping table (earlier ++ item :: later) (keyOf item) := by
  obtain ⟨fields, hfields, hrow⟩ := h.flushed.field_mapping
  rw [h.attributes hlast (by decide)] at hfields
  rw [hrow, leftMapping, hfields]

end MergedInto

/-! ## Whole runs -/

section Run

variable {inputs : Inputs} {mappings : List Json} {key : ServiceKey} {row : EntityRow}

omit [UnicodeData] [FloatData] in
theorem length_mapping_key (key : ServiceKey) : key.mapping_key.length ≤ 64 := by
  cases key <;> decide

omit [FloatData] in
/-- The items of a file are valid when the run gets past the first loop. -/
theorem valid_of_validate {mappings' : List Json}
    (hmappings : inputs.file >>= mappingsOf = .ok mappings)
    (h : validate inputs = .ok mappings') :
    mappings' = mappings ∧ ∃ metadata, ∀ item ∈ mappings, ∃ properties,
      Valid metadata item properties := by
  obtain ⟨raw, hfile, hraw⟩ := bind_eq_ok.mp hmappings
  have hmetadata : ∃ metadata, inputs.metadata = .ok metadata := by
    unfold validate at h
    rw [hfile, ok_bind, hraw, ok_bind] at h
    obtain ⟨environment, -, h⟩ := bind_eq_ok.mp h
    dsimp only at h
    split at h
    · cases h
    · obtain ⟨metadata, hmetadata, -⟩ := bind_eq_ok.mp h
      exact ⟨metadata, hmetadata⟩
  obtain ⟨metadata, hmetadata⟩ := hmetadata
  obtain ⟨hsame, hvalid⟩ := validate_ok hfile hraw hmetadata h
  exact ⟨hsame, metadata, hvalid⟩

/-- The row of a key has a valid entity, and the columns the file and the table leave. -/
theorem columns_of_run (hmappings : inputs.file >>= mappingsOf = .ok mappings)
    (hrun : run inputs true table = (.ok 0, table'))
    (hrow : WrittenUnder key mappings table' row) :
    isIdentifier row.entity_name = true ∧
      row.field_mapping = leftMapping table mappings key.mapping_key ∧
      ∀ a, a.isField = true → row.field a = leftField table mappings key.mapping_key a := by
  obtain ⟨_, session, hvalidate, happlied, hcommit⟩ := run_applied hrun
  obtain ⟨rfl, metadata, hvalid⟩ := valid_of_validate hmappings hvalidate
  obtain ⟨item, hitem, hkey⟩ := hrow.item
  obtain ⟨earlier, last, later, rfl, hsame, hlast⟩ := exists_last hitem
  obtain ⟨properties, hlastvalid⟩ := hvalid last (by simp)
  obtain ⟨row', hrow', x, hmerged⟩ := exists_mergedInto happlied hcommit hlast
  have hlastkey : keyOf last = key.mapping_key := hsame.trans hkey
  have hrowkey : row'.mapping_key = row.mapping_key := by
    rw [hrow.mapping_key, ← hlastkey]
    rcases hmerged.mapping_key with h | ⟨-, h⟩
    · exact h
    · rw [h, cut_of_le (hlastkey ▸ length_mapping_key key)]
  obtain rfl := List.inj_on_of_nodup_map table'.key_unique hrow' hrow.stored hrowkey
  rw [← hlastkey, hmerged.entity_name hlastvalid]
  exact ⟨hlastvalid.identifier, hmerged.field_mapping_eq hlast,
    fun a ha => hmerged.field_eq hlast ha⟩

/-- **What the tool accepts and a service can use.** After a run that stored the mappings
of a file, a row written under the key of a service serves it exactly when what the file
and the table leave in its columns is complete. -/
theorem accepted_serves_iff (hmappings : inputs.file >>= mappingsOf = .ok mappings)
    (hrun : run inputs true table = (.ok 0, table'))
    (hrow : WrittenUnder key mappings table' row) :
    key.Passes row.toEntityMapping ↔ Complete key (leftMapping table mappings key.mapping_key)
      (leftField table mappings key.mapping_key .personnel_number_field)
      (leftField table mappings key.mapping_key .company_field) := by
  obtain ⟨hentity, hmapping, hfields⟩ := columns_of_run hmappings hrun hrow
  have hpersonnel := hfields .personnel_number_field rfl
  have hcompany := hfields .company_field rfl
  rw [passes_iff, ← hmapping, ← hpersonnel, ← hcompany]
  exact and_iff_right hentity

end Run

end Statements

/-! ## Runs -/

section Example

open scoped Ascii

/-- The item with the personnel number mapped. -/
def completeItem : Json :=
  .obj [("mapping_key", .str "profile"), ("entity_name", .str "EmployeesV2"),
    ("personnel_number_field", .str "PersonnelNumber"),
    ("company_field", .str "EmploymentLegalEntityId"),
    ("field_mapping", .obj [("personnelNumber", .str "PersonnelNumber"),
      ("displayName", .str "Name")]), ("enabled", .bool true)]

def completeInputs : Inputs :=
  { uatInputs with
    file := .ok (.obj [("environment", .str uatUrl), ("mappings", .arr [completeItem])]) }

theorem accepted_serves_iff_complete :
    ∃ table' row, run completeInputs true ⟨[], List.nodup_nil⟩ = (.ok 0, table') ∧
      WrittenUnder .profile [completeItem] table' row ∧
      ServiceKey.profile.Passes row.toEntityMapping := by
  have hstored : (run completeInputs true ⟨[], List.nodup_nil⟩).1 = .ok 0 ∧
      (run completeInputs true ⟨[], List.nodup_nil⟩).2.rows.map (·.mapping_key) = ["profile"] := by
    decide +kernel
  have hleft : leftMapping ⟨[], List.nodup_nil⟩ [completeItem] "profile" =
        [("personnelNumber", .str "PersonnelNumber"), ("displayName", .str "Name")] ∧
      leftField ⟨[], List.nodup_nil⟩ [completeItem] "profile" .personnel_number_field =
        some "PersonnelNumber" ∧
      leftField ⟨[], List.nodup_nil⟩ [completeItem] "profile" .company_field =
        some "EmploymentLegalEntityId" :=
    ⟨rfl, rfl, rfl⟩
  obtain ⟨hcode, hrows⟩ := hstored
  obtain ⟨hmapping, hpersonnel, hcompany⟩ := hleft
  obtain ⟨row, hrow, hkey⟩ := List.map_eq_singleton_iff.mp hrows
  have hwritten : WrittenUnder .profile [completeItem]
      (run completeInputs true ⟨[], List.nodup_nil⟩).2 row :=
    ⟨hrow ▸ List.mem_cons_self, hkey, completeItem, List.mem_cons_self, rfl⟩
  refine ⟨_, row, exits_zero hcode, hwritten, ?_⟩
  refine (accepted_serves_iff rfl (exits_zero hcode) hwritten).mpr ⟨⟨?_, ?_⟩, ?_, ?_⟩
  · intro logical hlogical
    obtain rfl := List.mem_singleton.mp hlogical
    refine ⟨"PersonnelNumber", ?_⟩
    rw [show ServiceKey.profile.mapping_key = "profile" from rfl, hmapping]
    exact List.mem_cons_self
  · intro logical _ field hfield
    rw [show ServiceKey.profile.mapping_key = "profile" from rfl, hmapping] at hfield
    simp only [List.mem_cons, List.not_mem_nil, or_false, Prod.mk.injEq, Json.str.injEq] at hfield
    rcases hfield with ⟨-, rfl⟩ | ⟨-, rfl⟩ <;> decide
  · exact fun _ => ⟨_, hpersonnel, by decide⟩
  · intro _ field hfield _
    obtain rfl := Option.some.inj (hcompany.symm.trans hfield)
    decide

/-- A file that leaves the personnel number of the profile unmapped. -/
theorem not_acceptedServes : ¬ AcceptedServes := by
  intro h
  have hstored : (run uatInputs true ⟨[], List.nodup_nil⟩).1 = .ok 0 ∧
      (run uatInputs true ⟨[], List.nodup_nil⟩).2.rows.map
        (fun row => (row.mapping_key, row.enabled, profileSteps row.toEntityMapping (employed "")))
        = [("profile", true, .error (.portal (profileNotConfigured
            "Profile field mapping is incomplete.")))] := by
    decide +kernel
  obtain ⟨hcode, hrows⟩ := hstored
  obtain ⟨row, hrow, hfacts⟩ := List.map_eq_singleton_iff.mp hrows
  obtain ⟨hkey, hrest⟩ := Prod.mk.inj hfacts
  obtain ⟨henabled, hsteps⟩ := Prod.mk.inj hrest
  have hwritten : WrittenUnder .profile [profileItem]
      (run uatInputs true ⟨[], List.nodup_nil⟩).2 row :=
    ⟨hrow ▸ List.mem_cons_self, hkey, profileItem, List.mem_cons_self, rfl⟩
  have hpasses := h uatInputs [profileItem] ⟨[], List.nodup_nil⟩ _ rfl (exits_zero hcode)
    .profile row hwritten henabled
  cases hpasses (employed "") _ hsteps

end Example

end EmployeePortal.Tools.ApplyD365Mapping
