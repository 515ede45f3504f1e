import EmployeePortal.D365.Client

/-!
# Field mappings

A configuration row maps logical fields to columns. The services keep the entries they
know whose value is a text, and check that each is an identifier.
-/

namespace EmployeePortal.D365

open EmployeePortal.Python

/-- The column a logical field is mapped to. -/
def column (configuration : EntityMapping) (key : String) : Option String :=
  match configuration.field_mapping.get? key with
  | some (.str field) => some field
  | _ => none

theorem column_eq_some {configuration : EntityMapping} {key field : String} :
    column configuration key = some field ↔
      configuration.field_mapping.get? key = some (.str field) := by
  rw [column]
  cases configuration.field_mapping.get? key with
  | none => simp
  | some value => cases value <;> simp

theorem mem_of_column {configuration : EntityMapping} {key field : String}
    (h : column configuration key = some field) :
    (key, Json.str field) ∈ configuration.field_mapping := by
  obtain ⟨before, after, hsplit, -⟩ := List.lookup_eq_some_iff.mp (column_eq_some.mp h)
  rw [hsplit]
  simp

theorem column_of_mem {configuration : EntityMapping} {key field : String}
    (hdistinct : (configuration.field_mapping.map Prod.fst).Nodup)
    (h : (key, Json.str field) ∈ configuration.field_mapping) :
    column configuration key = some field := by
  obtain ⟨before, after, hsplit⟩ := List.append_of_mem h
  refine column_eq_some.mpr (List.lookup_eq_some_iff.mpr ⟨before, after, hsplit, fun p hp => ?_⟩)
  rw [hsplit, List.map_append, List.map_cons] at hdistinct
  have hnew := (List.nodup_append.mp hdistinct).2.2 p.1 (List.mem_map_of_mem hp) key
    List.mem_cons_self
  exact bne_iff_ne.mpr hnew.symm

/-- What `selectFields` keeps of an entry. -/
def pickField (keys : List String) (p : String × Json) : Option (String × String) :=
  match p.2 with
  | .str field => if p.1 ∈ keys then some (p.1, field) else none
  | _ => none

theorem pickField_eq_some {keys : List String} {p : String × Json} {q : String × String} :
    pickField keys p = some q ↔ p = (q.1, Json.str q.2) ∧ q.1 ∈ keys := by
  obtain ⟨key, value⟩ := p
  obtain ⟨key', field'⟩ := q
  cases value with
  | str field =>
    rw [pickField]
    dsimp only
    split
    · rename_i hkey
      simp only [Option.some.injEq, Prod.mk.injEq, Json.str.injEq]
      constructor
      · rintro ⟨rfl, rfl⟩
        exact ⟨⟨rfl, rfl⟩, hkey⟩
      · exact fun h => h.1
    · rename_i hkey
      simp only [reduceCtorEq, Prod.mk.injEq, Json.str.injEq, false_iff]
      rintro ⟨⟨rfl, rfl⟩, h⟩
      exact hkey h
  | _ => simp [pickField]

theorem get?_pickField {configuration : EntityMapping} {keys : List String} {key : String}
    (hdistinct : (configuration.field_mapping.map Prod.fst).Nodup) (hkey : key ∈ keys) :
    Dict.get? (configuration.field_mapping.filterMap (pickField keys)) key =
      column configuration key := by
  have hkeep : ∀ p q, pickField keys p = some q → q.1 = p.1 := fun p q h => by
    rw [(pickField_eq_some.mp h).1]
  rw [Dict.get?_filterMap hdistinct hkeep, column]
  cases configuration.field_mapping.get? key with
  | none => rfl
  | some value =>
    rw [Option.bind_some]
    cases value with
    | str field =>
      rw [pickField]
      dsimp only
      rw [if_pos hkey]
      rfl
    | _ => rfl

section Select

variable [UnicodeData] {keys : List String} {raw : Dict Json} {fields : Dict String}

/-- The columns of the known fields, each of which has to be an identifier. -/
theorem selectFields_eq_ok : selectFields keys raw = .ok fields ↔
    fields = raw.filterMap (pickField keys) ∧ ∀ p ∈ fields, isIdentifier p.2 = true := by
  have hpick : selectFields keys raw = (raw.filterMap (pickField keys)).mapM fun p => do
      return (p.1, ← validateIdentifier p.2) := rfl
  rw [hpick]
  constructor
  · intro h
    generalize raw.filterMap (pickField keys) = picked at h
    have hforall := mapM_ok_iff.mp h
    clear h
    induction hforall with
    | nil => exact ⟨rfl, fun _ hp => absurd hp List.not_mem_nil⟩
    | cons hfirst _ ih =>
      obtain ⟨field, hfield, hfirst⟩ := bind_eq_ok.mp hfirst
      obtain ⟨hidentifier, rfl⟩ := validateIdentifier_ok.mp hfield
      obtain rfl := Except.ok.inj hfirst
      obtain ⟨rfl, hall⟩ := ih
      exact ⟨rfl, List.forall_mem_cons.mpr ⟨hidentifier, hall⟩⟩
  · rintro ⟨rfl, hall⟩
    have hsame : ∀ p ∈ raw.filterMap (pickField keys),
        (do return (p.1, ← validateIdentifier p.2) : Except Exc (String × String)) =
          .ok (id p) :=
      fun p hp => bind_eq_ok.mpr ⟨p.2, validateIdentifier_ok.mpr ⟨hall p hp, rfl⟩, rfl⟩
    have hmap := mapM_eq_ok hsame
    rwa [List.map_id] at hmap

omit [UnicodeData] in
/-- What is selected are identifiers when every known field that is mapped to a text is
mapped to one. -/
theorem forall_pickField_iff : (∀ p ∈ raw.filterMap (pickField keys), isIdentifier p.2 = true) ↔
    ∀ key ∈ keys, ∀ field, (key, Json.str field) ∈ raw → isIdentifier field = true := by
  constructor
  · intro hall key hkey field hmem
    have hpick : pickField keys (key, .str field) = some (key, field) :=
      pickField_eq_some.mpr ⟨rfl, hkey⟩
    exact hall (key, field) (List.mem_filterMap.mpr ⟨_, hmem, hpick⟩)
  · intro hcolumns p hp
    obtain ⟨q, hq, hpick⟩ := List.mem_filterMap.mp hp
    obtain ⟨rfl, hkey⟩ := pickField_eq_some.mp hpick
    exact hcolumns p.1 hkey p.2 hq

theorem exists_selectFields : (∃ fields, selectFields keys raw = .ok fields) ↔
    ∀ key ∈ keys, ∀ field, (key, Json.str field) ∈ raw → isIdentifier field = true := by
  simp only [selectFields_eq_ok, exists_eq_left]
  exact forall_pickField_iff

/-- In terms of columns: every known field that is mapped is mapped to an identifier. -/
theorem selectFields_columns {configuration : EntityMapping}
    (hdistinct : (configuration.field_mapping.map Prod.fst).Nodup) :
    selectFields keys configuration.field_mapping = .ok fields ↔
      fields = configuration.field_mapping.filterMap (pickField keys) ∧
      ∀ key ∈ keys, ∀ field, column configuration key = some field →
        isIdentifier field = true := by
  rw [selectFields_eq_ok]
  refine and_congr_right ?_
  rintro rfl
  rw [forall_pickField_iff]
  constructor
  · exact fun hall key hkey field hfield => hall key hkey field (mem_of_column hfield)
  · exact fun hall key hkey field hmem => hall key hkey field (column_of_mem hdistinct hmem)

/-- A known field is among them when it is mapped to a text. -/
theorem isSome_get?_selectFields (h : selectFields keys raw = .ok fields) {key : String}
    (hkey : key ∈ keys) :
    (fields.get? key).isSome = true ↔ ∃ field, (key, Json.str field) ∈ raw := by
  obtain ⟨rfl, -⟩ := selectFields_eq_ok.mp h
  rw [Dict.get?, List.lookup_isSome_iff]
  constructor
  · rintro ⟨p, hp, heq⟩
    obtain rfl := eq_of_beq heq
    obtain ⟨q, hq, hpick⟩ := List.mem_filterMap.mp hp
    obtain ⟨rfl, -⟩ := pickField_eq_some.mp hpick
    exact ⟨p.2, hq⟩
  · rintro ⟨field, hmem⟩
    have hpick : pickField keys (key, .str field) = some (key, field) :=
      pickField_eq_some.mpr ⟨rfl, hkey⟩
    exact ⟨(key, field), List.mem_filterMap.mpr ⟨_, hmem, hpick⟩, beq_self_eq_true key⟩

/-- The columns of the known fields, when those that are required are among them. -/
theorem exists_required {required : List String} {C : Dict String → Prop} [DecidablePred C]
    {e : Exc} (hC : ∀ fields, C fields ↔ ∀ key ∈ required, (Dict.get? fields key).isSome = true)
    (hknown : ∀ key ∈ required, key ∈ keys) :
    (∃ fields, (do
      let fields ← selectFields keys raw
      if C fields then return fields else throw e) = Except.ok fields) ↔
    (∀ key ∈ required, ∃ field, (key, Json.str field) ∈ raw) ∧
      ∀ key ∈ keys, ∀ field, (key, Json.str field) ∈ raw → isIdentifier field = true := by
  rw [← exists_selectFields]
  constructor
  · rintro ⟨fields, h⟩
    obtain ⟨hselect, hmapped⟩ := selectFields_of_checked h
    refine ⟨fun key hkey => ?_, fields, hselect⟩
    exact (isSome_get?_selectFields hselect (hknown key hkey)).mp ((hC _).mp hmapped key hkey)
  · rintro ⟨hrequired, selected, hselect⟩
    have hmapped : C selected := (hC _).mpr fun key hkey =>
      (isSome_get?_selectFields hselect (hknown key hkey)).mpr (hrequired key hkey)
    exact ⟨selected, bind_eq_ok.mpr ⟨selected, hselect, if_pos hmapped⟩⟩

end Select

end EmployeePortal.D365
