import EmployeePortal.Tools.ApplyD365Mapping

/-!
# What a confirmation is worth

The tool checks each item of a file against the metadata, and stamps the row it
merges the item into. The row also holds what the item leaves out. Here is exactly
when a stamped row agrees with the metadata.
-/

namespace EmployeePortal.Tools.ApplyD365Mapping

open EmployeePortal.Python EmployeePortal.Framework EmployeePortal.D365

/-! ## Attributes of an item -/

theorem isFieldKey_name {a : Attribute} (h : a.isField = true) : isFieldKey a.name = true := by
  cases a with
  | entity_name => cases h
  | field_mapping => cases h
  | enabled => cases h
  | _ => decide

theorem mem_of_patch {fields : Dict Json} {a : Attribute} {value : Json}
    (h : patch (.obj fields) a = some value) : (a.name, value) ∈ fields := by
  obtain ⟨before, after, rfl, -⟩ := List.lookup_eq_some_iff.mp h
  exact List.mem_append_right _ List.mem_cons_self

/-! ## Objects -/

/-- The columns of an identifier hold no blanks that could be dropped. -/
theorem varchar_identifier {n : ℕ} {s t : String} (hs : isIdentifier s = true)
    (h : varchar n s = .ok t) : t = s := by
  obtain ⟨rfl, hblank⟩ := varchar_ok h
  have hchars : ∀ c ∈ s.toList, c ≠ ' ' := by
    unfold isIdentifier at hs
    split at hs
    · cases hs
    · rename_i c cs hlist
      rw [Bool.and_eq_true, List.all_eq_true] at hs
      rw [hlist]
      intro c' hc'
      rcases List.mem_cons.mp hc' with rfl | hc'
      · rintro rfl
        exact absurd hs.1 (by decide)
      · rintro rfl
        exact absurd (hs.2 _ hc') (by decide)
  apply cut_of_le
  by_contra hlong
  have hdrop : s.toList.drop n ≠ [] := by
    rw [ne_eq, List.drop_eq_nil_iff, String.length_toList]
    exact hlong
  obtain ⟨c, hc⟩ := List.exists_mem_of_ne_nil _ hdrop
  rw [List.all_eq_true] at hblank
  exact hchars c (List.mem_of_mem_drop hc) (by simpa using hblank c hc)

/-- The object was stamped. -/
structure Stamped (x : EntityObject) : Prop where
  metadata_confirmed_at : x.metadata_confirmed_at.isSome = true
  metadata_environment : x.metadata_environment.isSome = true

theorem stamped_merge (now : ℚ) (environment : String) (item : Json) (model : EntityObject) :
    Stamped (merge now environment item model) := ⟨rfl, rfl⟩

theorem newObject_attributes {a : Attribute} (h : a ≠ .entity_name) (mapping_key name : String) :
    (newObject mapping_key name).attributes a = (newObject mapping_key "").attributes a := by
  cases a with
  | entity_name => exact absurd rfl h
  | _ => rfl

/-! ## Keys and confirmed rows -/

section Statements

variable [UnicodeData]

/-- `str(item[key])`. -/
def textOf (item : Json) (key : String) : String :=
  match item.item key with
  | .ok value => value.text
  | .error _ => ""

/-- The `mapping_key` of an item. -/
def keyOf (item : Json) : String := textOf item "mapping_key"

/-- The row is stamped, its entity is in the metadata, and every field it names is one
of that entity's properties. -/
structure Confirmed (metadata : List EntityDescription) (row : EntityRow) : Prop where
  metadata_confirmed_at : row.metadata_confirmed_at.isSome = true
  metadata_environment : row.metadata_environment.isSome = true
  entity : ∃ properties, propertiesOf metadata row.entity_name = some properties ∧
    (∀ a field, row.field a = some field → field ≠ "" → field ∈ properties) ∧
    ∀ entry ∈ row.field_mapping, entry.2.text ∈ properties

/-- The attributes of a key before the run: those of its row, or of a new object. -/
def initial (table : EntityTable) (mapping_key : String) : Attribute → Json :=
  match table.find? mapping_key with
  | some row => row.attributes
  | none => (newObject mapping_key "").attributes

/-- What the earlier items of a key leave in an attribute: the value of the last one
that has it, and otherwise what was there. -/
def left (table : EntityTable) (earlier : List Json) (mapping_key : String) (a : Attribute) :
    Json :=
  ((earlier.filter (keyOf · = mapping_key)).reverse.findSome? (patch · a)).getD
    (initial table mapping_key a)

/-- What the last item of a key leaves out is a property of its entity, or nothing;
and what it has is stored as it is, or as a property. -/
structure Covers [FloatData] (table : EntityTable) (earlier : List Json) (item : Json)
    (properties : List String) : Prop where
  key_fits : table.find? (keyOf item) = none → (keyOf item).length ≤ 64
  left_fields : ∀ a s, a.isField = true → patch item a = none →
    left table earlier (keyOf item) a = .str s → s ≠ "" → cut 128 s ∈ properties
  left_mapping : ∀ fields, patch item .field_mapping = none →
    left table earlier (keyOf item) .field_mapping = .obj fields →
    ∀ entry ∈ written (table.find? (keyOf item)) fields, entry.2.text ∈ properties
  cut_fields : ∀ a s, a.isField = true → patch item a = some (.str s) → 128 < s.length →
    cut 128 s ∈ properties
  kept_mapping : ∀ row fields, table.find? (keyOf item) = some row →
    patch item .field_mapping = some (.obj fields) →
    (Json.obj fields).eq (.obj row.field_mapping) = true →
    ∀ entry ∈ row.field_mapping, entry.2.text ∈ properties

/-! ## What the first loop lets through -/

/-- What the item assigns agrees with the metadata. -/
structure Valid (metadata : List EntityDescription) (item : Json) (properties : List String) :
    Prop where
  identifier : isIdentifier (textOf item "entity_name") = true
  entity : propertiesOf metadata (textOf item "entity_name") = some properties
  name : ∃ value, patch item .entity_name = some value ∧
    value.text = textOf item "entity_name"
  fields : ∀ a value, a.isField = true → patch item a = some value → value.truth = true →
    value.text ∈ properties
  mapping : ∀ value, patch item .field_mapping = some value → ∃ fields, value = .obj fields ∧
    ∀ entry ∈ fields, entry.2.text ∈ properties

theorem configuredFields_ok {item : Json} {configured : List String}
    (h : configuredFields item = .ok configured) :
    (∀ a value, a.isField = true → patch item a = some value → value.truth = true →
      value.text ∈ configured) ∧
    ∀ value, patch item .field_mapping = some value → ∃ fields, value = .obj fields ∧
      ∀ entry ∈ fields, entry.2.text ∈ configured := by
  unfold configuredFields at h
  obtain ⟨entries, hentries, h⟩ := bind_eq_ok.mp h
  obtain ⟨mapping, hmapping, h⟩ := bind_eq_ok.mp h
  obtain rfl := Except.ok.inj h
  cases item with
  | obj fields =>
    obtain rfl : fields = entries := Except.ok.inj hentries
    constructor
    · intro a value ha hvalue htrue
      refine List.mem_append_left _ (List.mem_map.mpr ⟨(a.name, value), ?_, rfl⟩)
      refine List.mem_filter.mpr ⟨mem_of_patch hvalue, ?_⟩
      rw [Bool.and_eq_true]
      exact ⟨isFieldKey_name ha, htrue⟩
    · intro value hvalue
      have hget : Dict.getD fields "field_mapping" (.obj []) = value := by
        rw [Dict.getD, show Dict.get? fields "field_mapping" = some value from hvalue]
        rfl
      rw [hget] at hmapping
      cases value with
      | obj given =>
        obtain rfl : given = mapping := Except.ok.inj hmapping
        refine ⟨given, rfl, fun entry hentry => ?_⟩
        exact List.mem_append_right _ (List.mem_map.mpr ⟨entry, hentry, rfl⟩)
      | _ => cases hmapping
  | _ => cases hentries

theorem validateItem_ok {metadata : List EntityDescription} {item : Json}
    (h : validateItem metadata item = .ok ()) :
    ∃ properties, Valid metadata item properties := by
  unfold validateItem at h
  obtain ⟨value, hvalue, h⟩ := bind_eq_ok.mp h
  obtain ⟨name, hname, h⟩ := bind_eq_ok.mp h
  obtain ⟨hidentifier, rfl⟩ := validateIdentifier_ok.mp hname
  have htext : textOf item "entity_name" = value.text := by rw [textOf, hvalue]
  cases hproperties : propertiesOf metadata value.text with
  | none =>
    rw [hproperties] at h
    cases h
  | some properties =>
    rw [hproperties] at h
    obtain ⟨configured, hconfigured, h⟩ := bind_eq_ok.mp h
    obtain ⟨hfields, hmapping⟩ := configuredFields_ok hconfigured
    have hall : ∀ field ∈ configured, field ∈ properties := by
      dsimp only at h
      split at h
      · rename_i hmissing
        intro field hfield
        by_contra hnot
        have hmem : field ∈ configured.filter (· ∉ properties) :=
          List.mem_filter.mpr ⟨hfield, decide_eq_true hnot⟩
        rw [hmissing] at hmem
        exact List.not_mem_nil hmem
      · cases h
    have hname : ∃ v, patch item .entity_name = some v ∧ v.text = textOf item "entity_name" := by
      obtain ⟨fields, rfl, hget⟩ := Json.item_ok hvalue
      exact ⟨value, hget, htext.symm⟩
    refine ⟨properties, htext ▸ hidentifier, htext ▸ hproperties, hname, ?_, ?_⟩
    · exact fun a v ha hv htrue => hall _ (hfields a v ha hv htrue)
    · intro v hv
      obtain ⟨fields, rfl, hentries⟩ := hmapping v hv
      exact ⟨fields, rfl, fun entry hentry => hall _ (hentries entry hentry)⟩

theorem validate_ok {inputs : Inputs} {raw : Json} {mappings mappings' : List Json}
    {metadata : List EntityDescription} (hfile : inputs.file = .ok raw)
    (hmappings : mappingsOf raw = .ok mappings) (hmetadata : inputs.metadata = .ok metadata)
    (h : validate inputs = .ok mappings') :
    mappings' = mappings ∧ ∀ item ∈ mappings, ∃ properties, Valid metadata item properties := by
  unfold validate at h
  rw [hfile, ok_bind, hmappings, ok_bind, hmetadata] at h
  obtain ⟨environment, -, h⟩ := bind_eq_ok.mp h
  dsimp only at h
  split at h
  · cases h
  · rw [ok_bind] at h
    obtain ⟨⟨⟩, hvalid, h⟩ := bind_eq_ok.mp h
    obtain rfl := Except.ok.inj h
    exact ⟨rfl, fun item hitem => validateItem_ok (forM_ok hvalid item hitem)⟩

/-! ## What the second loop leaves in the session -/

/-- What the items of a key assign, in order. -/
def patchesOf (items : List Json) (mapping_key : String) : List (Attribute → Option Json) :=
  (items.filter (keyOf · = mapping_key)).map patch

/-- The object of an item whose key has no row. -/
structure AddedFor (item : Json) (x : EntityObject) : Prop where
  mapping_key : x.mapping_key = keyOf item
  attributes : x.attributes =
    overlay (newObject (keyOf item) (textOf item "entity_name")).attributes (patch item)
  stamped : Stamped x

/-- The session after these items: an object for each key that has a row, with all the
items of that key merged into it, and one for each item whose key has none. -/
structure Applied (table : EntityTable) (items : List Json) (session : EntitySession) :
    Prop where
  loaded : ∀ row, table.find? row.mapping_key = some row →
    ((session.loaded.get? row.mapping_key).getD row.load).attributes =
      overlays row.attributes (patchesOf items row.mapping_key)
  stamped : ∀ row, table.find? row.mapping_key = some row →
    (∃ item ∈ items, keyOf item = row.mapping_key) →
    ∃ x, session.loaded.get? row.mapping_key = some x ∧ Stamped x
  added : List.Forall₂ AddedFor (items.filter fun item => table.find? (keyOf item) = none)
    session.added

theorem Applied.start (table : EntityTable) : Applied table [] {} where
  loaded := fun _ _ => rfl
  stamped := fun _ _ ⟨_, hitem, _⟩ => absurd hitem List.not_mem_nil
  added := .nil

theorem patchesOf_concat_self (items : List Json) (item : Json) :
    patchesOf (items ++ [item]) (keyOf item) = patchesOf items (keyOf item) ++ [patch item] := by
  rw [patchesOf, List.filter_append, List.map_append, List.filter_cons_of_pos (by simp)]
  rfl

theorem patchesOf_concat_of_ne {items : List Json} {item : Json} {mapping_key : String}
    (h : keyOf item ≠ mapping_key) :
    patchesOf (items ++ [item]) mapping_key = patchesOf items mapping_key := by
  rw [patchesOf, List.filter_append, List.filter_cons_of_neg (by simpa using h),
    List.filter_nil, List.append_nil]
  rfl

theorem applyItem_applied {now : ℚ} {environment : String} {table : EntityTable}
    {session session' : EntitySession} {items : List Json} {item : Json}
    (h : applyItem now environment table session item = .ok session')
    (happlied : Applied table items session) : Applied table (items ++ [item]) session' := by
  unfold applyItem at h
  obtain ⟨value, hvalue, h⟩ := bind_eq_ok.mp h
  have hkey : keyOf item = value.text := by rw [keyOf, textOf, hvalue]
  dsimp only at h
  rw [← hkey] at h
  split at h
  · cases h
  cases hrow : table.find? (keyOf item) with
  | some row =>
    have hrowkey := (EntityTable.find?_eq_some.mp hrow).2
    rw [hrow] at h
    obtain rfl := Except.ok.inj h
    refine ⟨?_, ?_, ?_⟩
    · intro row' hrow'
      dsimp only
      rw [Dict.get?_set]
      -- only the row of this key changes; the overlay grows by the item just applied
      by_cases hsame : row'.mapping_key = keyOf item
      · rw [if_pos hsame]
        rw [hsame, hrow] at hrow'
        obtain rfl := Option.some.inj hrow'
        have hbefore := happlied.loaded row (by rw [hrowkey, hrow])
        rw [hrowkey] at hbefore ⊢
        rw [patchesOf_concat_self, overlays_concat, ← hbefore]
        rfl
      · rw [if_neg hsame, patchesOf_concat_of_ne (Ne.symm hsame)]
        exact happlied.loaded row' hrow'
    · rintro row' hrow' ⟨item', hitem', hkey'⟩
      dsimp only
      rw [Dict.get?_set]
      by_cases hsame : row'.mapping_key = keyOf item
      · rw [if_pos hsame]
        exact ⟨_, rfl, stamped_merge _ _ _ _⟩
      · rw [if_neg hsame]
        rcases List.mem_append.mp hitem' with hitem' | hitem'
        · exact happlied.stamped row' hrow' ⟨item', hitem', hkey'⟩
        · obtain rfl := List.mem_singleton.mp hitem'
          exact absurd hkey'.symm hsame
    · rw [List.filter_append, List.filter_cons_of_neg (by simp [hrow]), List.filter_nil,
        List.append_nil]
      exact happlied.added
  | none =>
    rw [hrow] at h
    obtain ⟨name, hname, h⟩ := bind_eq_ok.mp h
    obtain rfl := Except.ok.inj h
    -- a new key is no stored row's, so the rows keep the patches they had
    have hother : ∀ row, table.find? row.mapping_key = some row → keyOf item ≠ row.mapping_key := by
      intro row hfind hsame
      rw [hsame, hfind] at hrow
      cases hrow
    refine ⟨?_, ?_, ?_⟩
    · intro row hfind
      rw [patchesOf_concat_of_ne (hother row hfind)]
      exact happlied.loaded row hfind
    · rintro row hfind ⟨item', hitem', hkey'⟩
      rcases List.mem_append.mp hitem' with hitem' | hitem'
      · exact happlied.stamped row hfind ⟨item', hitem', hkey'⟩
      · obtain rfl := List.mem_singleton.mp hitem'
        exact absurd hkey' (hother row hfind)
    · rw [List.filter_append, List.filter_cons_of_pos (by simp [hrow]), List.filter_nil]
      refine List.rel_append happlied.added (.cons ⟨rfl, ?_, stamped_merge _ _ _ _⟩ .nil)
      have htext : textOf item "entity_name" = name.text := by rw [textOf, hname]
      rw [htext]
      rfl

theorem applyItems_applied {now : ℕ → ℚ} {environment : String} {table : EntityTable} {n : ℕ}
    {session session' : EntitySession} {items done : List Json}
    (h : applyItems now environment table n session items = .ok session')
    (happlied : Applied table done session) : Applied table (done ++ items) session' := by
  induction items generalizing n session done with
  | nil =>
    obtain rfl := Except.ok.inj h
    rwa [List.append_nil]
  | cons item items ih =>
    rw [applyItems] at h
    obtain ⟨session₁, hfirst, h⟩ := bind_eq_ok.mp h
    have hrest := ih h (applyItem_applied hfirst happlied)
    rwa [List.append_assoc, List.singleton_append] at hrest

/-! ## The row of a key's last item -/

variable {metadata : List EntityDescription} {table table' : EntityTable}
  {session : EntitySession} {earlier later : List Json} {item : Json}

theorem patchesOf_last (hlast : ∀ x ∈ later, keyOf x ≠ keyOf item) :
    patchesOf (earlier ++ item :: later) (keyOf item) =
      patchesOf earlier (keyOf item) ++ [patch item] := by
  have hnone : later.filter (keyOf · = keyOf item) = [] := by
    rw [List.filter_eq_nil_iff]
    intro x hx
    simpa using hlast x hx
  rw [patchesOf, List.filter_append, List.filter_cons_of_pos (by simp), hnone, List.map_append]
  rfl

theorem left_eq (a : Attribute) : left table earlier (keyOf item) a =
    overlays (initial table (keyOf item)) (patchesOf earlier (keyOf item)) a := by
  rw [overlays_eq, patchesOf, ← List.map_reverse, List.findSome?_map, left]
  rfl

/-- Every key of a file has a last item. -/
theorem exists_last {mappings : List Json} (h : item ∈ mappings) :
    ∃ earlier last later, mappings = earlier ++ last :: later ∧ keyOf last = keyOf item ∧
      ∀ x ∈ later, keyOf x ≠ keyOf last := by
  cases hfind : mappings.reverse.find? (keyOf · = keyOf item) with
  | none =>
    have hnone := List.find?_eq_none.mp hfind item (List.mem_reverse.mpr h)
    exact absurd (decide_eq_true rfl) hnone
  | some last =>
    obtain ⟨hkey, later, earlier, hsplit, hlater⟩ := List.find?_eq_some_iff_append.mp hfind
    have hkey' : keyOf last = keyOf item := by simpa using hkey
    refine ⟨earlier.reverse, last, later.reverse, ?_, hkey', ?_⟩
    · have hreverse := congrArg List.reverse hsplit
      rw [List.reverse_reverse] at hreverse
      rw [hreverse]
      simp
    · intro x hx
      rw [hkey']
      simpa using hlater x (List.mem_reverse.mp hx)

section Last

variable [FloatData]

/-- The row is what the last item of its key was merged into. -/
structure MergedInto (table : EntityTable) (earlier : List Json) (item : Json)
    (row' : EntityRow) (x : EntityObject) : Prop where
  flushed : Flushed (table.find? (keyOf item)) x row'
  stamped : Stamped x
  mapping_key : row'.mapping_key = keyOf item ∨
    table.find? (keyOf item) = none ∧ row'.mapping_key = cut 64 (keyOf item)
  given : ∀ a value, patch item a = some value → x.attributes a = value
  kept : ∀ a, a ≠ .entity_name → patch item a = none →
    x.attributes a = left table earlier (keyOf item) a

/-- A key without a row has one item: two added objects cannot have one key. -/
theorem patchesOf_first (happlied : Applied table (earlier ++ item :: later) session)
    (hcommit : session.commit table = .ok table') (hfind : table.find? (keyOf item) = none) :
    patchesOf earlier (keyOf item) = [] := by
  have hkeys : ((earlier ++ item :: later).filter
      fun item => table.find? (keyOf item) = none).map keyOf =
      session.added.map (·.mapping_key) := by
    rw [← List.forall₂_eq_eq_eq, List.forall₂_map_left_iff, List.forall₂_map_right_iff]
    exact happlied.added.imp fun _ _ h => h.mapping_key.symm
  have hunique := EntitySession.commit_keys hcommit
  rw [← hkeys, List.filter_append, List.filter_cons_of_pos (by simpa using hfind),
    List.map_append, List.map_cons] at hunique
  have hnone : earlier.filter (keyOf · = keyOf item) = [] := by
    rw [List.filter_eq_nil_iff]
    intro y hy hsame
    have hykey : keyOf y = keyOf item := by simpa using hsame
    refine (List.nodup_append.mp hunique).2.2 (keyOf y) ?_ (keyOf item) List.mem_cons_self hykey
    exact List.mem_map_of_mem (List.mem_filter.mpr ⟨hy, by simpa [hykey] using hfind⟩)
  rw [patchesOf, hnone]
  rfl

/-- Every key of the file has one row at the end. -/
theorem exists_mergedInto (happlied : Applied table (earlier ++ item :: later) session)
    (hcommit : session.commit table = .ok table')
    (hlast : ∀ x ∈ later, keyOf x ≠ keyOf item) :
    ∃ row' ∈ table'.rows, ∃ x, MergedInto table earlier item row' x := by
  cases hfind : table.find? (keyOf item) with
  | some row =>
    obtain ⟨hrow, hkey⟩ := EntityTable.find?_eq_some.mp hfind
    have hfind' : table.find? row.mapping_key = some row := by rw [hkey, hfind]
    obtain ⟨x, hx, hstamped⟩ := happlied.stamped row hfind' ⟨item, by simp, hkey.symm⟩
    obtain ⟨row', hrow', hflushed⟩ := session.commit_loaded hcommit hrow hx
    have hattributes := happlied.loaded row hfind'
    rw [hx, Option.getD_some, hkey, patchesOf_last hlast, overlays_concat] at hattributes
    refine ⟨row', hrow', x, ⟨hfind.symm ▸ hflushed, hstamped, Or.inl ?_, ?_, ?_⟩⟩
    · rw [← hkey]
      exact (Except.ok.inj hflushed.mapping_key).symm
    · intro a value hvalue
      rw [hattributes, overlay_of_some hvalue]
    · intro a _ hnone
      rw [hattributes, overlay_of_none hnone, left_eq, initial, hfind]
  | none =>
    have hmem : item ∈ (earlier ++ item :: later).filter
        fun item => table.find? (keyOf item) = none :=
      List.mem_filter.mpr ⟨by simp, by simpa using hfind⟩
    obtain ⟨x, hx, hadded⟩ := exists_mem_of_forall₂ happlied.added hmem
    obtain ⟨row', hrow', hflushed⟩ := session.commit_added hcommit hx
    have hearlier := patchesOf_first happlied hcommit hfind
    have hkey := EntityObject.key_of_flush_none hflushed
    rw [hadded.mapping_key] at hkey
    refine ⟨row', hrow', x, ⟨hfind.symm ▸ hflushed, hadded.stamped, Or.inr ⟨hfind, hkey⟩, ?_, ?_⟩⟩
    · intro a value hvalue
      rw [hadded.attributes, overlay_of_some hvalue]
    · intro a hname hnone
      rw [hadded.attributes, overlay_of_none hnone, left_eq, hearlier, overlays_nil, initial,
        hfind]
      exact newObject_attributes hname _ _

namespace MergedInto

variable {row' : EntityRow} {x : EntityObject} {properties : List String}

theorem entity_name (h : MergedInto table earlier item row' x)
    (hvalid : Valid metadata item properties) : row'.entity_name = textOf item "entity_name" := by
  obtain ⟨value, hvalue, htext⟩ := hvalid.name
  obtain ⟨s, hs, hname⟩ := h.flushed.entity_name
  rw [h.given _ _ hvalue] at hs
  subst hs
  have hidentifier := hvalid.identifier
  rw [← htext] at hidentifier ⊢
  exact varchar_identifier hidentifier hname

/-- The text of an attribute, as it is stored. -/
theorem field_of_str (h : MergedInto table earlier item row' x) {a : Attribute} {s : String}
    (ha : a.isField = true) (hs : x.attributes a = .str s) : row'.field a = some (cut 128 s) := by
  have hfield := h.flushed.field a ha
  rw [hs] at hfield
  exact flushText_str hfield

theorem kept_field (h : MergedInto table earlier item row' x) {a : Attribute}
    (ha : a.isField = true) (hnone : patch item a = none) :
    x.attributes a = left table earlier (keyOf item) a := by
  refine h.kept a ?_ hnone
  rintro rfl
  cases ha

/-- A row that agrees with the metadata was merged from an item that covers it. -/
theorem covers (h : MergedInto table earlier item row' x)
    (hvalid : Valid metadata item properties) (hconfirmed : Confirmed metadata row')
    (hfits : table.find? (keyOf item) = none → (keyOf item).length ≤ 64) :
    Covers table earlier item properties := by
  obtain ⟨properties', hentity, hfields, hmapping⟩ := hconfirmed.entity
  rw [h.entity_name hvalid, hvalid.entity] at hentity
  obtain rfl := Option.some.inj hentity
  obtain ⟨stored, hstored, hrow⟩ := h.flushed.field_mapping
  refine ⟨hfits, ?_, ?_, ?_, ?_⟩
  · intro a s ha hnone hleft hne
    have hs := (h.kept_field ha hnone).trans hleft
    exact hfields a _ (h.field_of_str ha hs) (cut_ne_empty (by decide) hne)
  · intro fields hnone hleft
    have hs := (h.kept _ (by decide) hnone).trans hleft
    obtain rfl := Json.obj.inj (hstored.symm.trans hs)
    rw [← hrow]
    exact hmapping
  · intro a s ha hgiven hlong
    have hne : s ≠ "" := by
      rintro rfl
      exact absurd hlong (by decide)
    exact hfields a _ (h.field_of_str ha (h.given a _ hgiven)) (cut_ne_empty (by decide) hne)
  · intro row fields hfind hgiven heq
    obtain rfl := Json.obj.inj (hstored.symm.trans (h.given _ _ hgiven))
    rw [hfind, written, if_pos heq] at hrow
    rw [← hrow]
    exact hmapping

/-- And the other way round. -/
theorem confirmed (h : MergedInto table earlier item row' x)
    (hvalid : Valid metadata item properties) (hcovers : Covers table earlier item properties) :
    Confirmed metadata row' := by
  have hconfirmed_at := h.stamped.metadata_confirmed_at
  rw [← h.flushed.metadata_confirmed_at] at hconfirmed_at
  refine ⟨hconfirmed_at, h.flushed.metadata_environment h.stamped.metadata_environment,
    properties, ?_, ?_, ?_⟩
  · rw [h.entity_name hvalid]
    exact hvalid.entity
  · intro a t ht hne
    have ha := EntityRow.isField_of_field ht
    have hfield := h.flushed.field a ha
    rw [ht] at hfield
    obtain ⟨s, hs, hcut⟩ := flushText_some hfield
    obtain ⟨rfl, -⟩ := varchar_ok hcut
    have hs' : s ≠ "" := by
      rintro rfl
      exact hne rfl
    cases hgiven : patch item a with
    | none => exact hcovers.left_fields a s ha hgiven ((h.kept_field ha hgiven).symm.trans hs) hs'
    | some value =>
      obtain rfl := (h.given a value hgiven).symm.trans hs
      by_cases hlong : 128 < s.length
      · exact hcovers.cut_fields a s ha hgiven hlong
      · rw [cut_of_le (not_lt.mp hlong)]
        exact hvalid.fields a (.str s) ha hgiven (by simpa [Json.truth] using hs')
  · obtain ⟨stored, hstored, hrow⟩ := h.flushed.field_mapping
    rw [hrow]
    cases hgiven : patch item .field_mapping with
    | none =>
      have hleft := (h.kept _ (by decide) hgiven).symm.trans hstored
      exact hcovers.left_mapping stored hgiven hleft
    | some value =>
      obtain ⟨fields, rfl, hentries⟩ := hvalid.mapping value hgiven
      obtain rfl := Json.obj.inj ((h.given _ _ hgiven).symm.trans hstored)
      cases hfind : table.find? (keyOf item) with
      | none => exact hentries
      | some row =>
        rw [written]
        split
        · rename_i heq
          exact hcovers.kept_mapping row fields hfind hgiven heq
        · exact hentries

end MergedInto

end Last

/-! ## Whole runs -/

section Run

variable [FloatData] {inputs : Inputs} {raw : Json} {mappings : List Json}
  {metadata : List EntityDescription} {table table' : EntityTable}

/-- A run that stores its mappings: the two loops and the commit. -/
theorem run_ok_iff : run inputs true table = (.ok 0, table') ↔
    ∃ mappings session, validate inputs = .ok mappings ∧
      applyItems inputs.now (rstripSlash inputs.D365_BASE_URL) table 0 {} mappings = .ok session ∧
      session.commit table = .ok table' := by
  constructor
  · intro hrun
    unfold run at hrun
    cases hattempt : attempt inputs true table with
    | error e =>
      rw [hattempt] at hrun
      have hcode := (Prod.mk.inj hrun).1
      split at hcode
      · cases hcode
      · cases hcode
    | ok table₁ =>
      rw [hattempt] at hrun
      obtain rfl := (Prod.mk.inj hrun).2
      unfold attempt at hattempt
      obtain ⟨mappings, hmappings, hattempt⟩ := bind_eq_ok.mp hattempt
      rw [if_pos rfl] at hattempt
      obtain ⟨session, hsession, hcommit⟩ := bind_eq_ok.mp hattempt
      exact ⟨mappings, session, hmappings, hsession, hcommit⟩
  · rintro ⟨mappings, session, hmappings, hsession, hcommit⟩
    rw [run, attempt, hmappings, ok_bind, if_pos rfl, hsession, ok_bind, hcommit]

theorem run_applied (hrun : run inputs true table = (.ok 0, table')) :
    ∃ mappings session, validate inputs = .ok mappings ∧ Applied table mappings session ∧
      session.commit table = .ok table' := by
  obtain ⟨mappings, session, hmappings, hsession, hcommit⟩ := run_ok_iff.mp hrun
  exact ⟨mappings, session, hmappings, applyItems_applied hsession (Applied.start table), hcommit⟩

/-- What the last item of each key leaves out, and how its values are stored, agrees
with the metadata. -/
def Settled (table : EntityTable) (metadata : List EntityDescription) (mappings : List Json) :
    Prop :=
  ∀ earlier item later properties, mappings = earlier ++ item :: later →
    (∀ x ∈ later, keyOf x ≠ keyOf item) →
    propertiesOf metadata (textOf item "entity_name") = some properties →
    Covers table earlier item properties

/-- **When a stamped row is confirmed.** After a run that stored the mappings of a file,
the row of every key of the file agrees with the metadata if and only if the last item
of each key covers what was there before it. -/
theorem stamped_confirmed_iff (hfile : inputs.file = .ok raw)
    (hmappings : mappingsOf raw = .ok mappings) (hmetadata : inputs.metadata = .ok metadata)
    (hrun : run inputs true table = (.ok 0, table')) :
    (∀ item ∈ mappings, ∃ row ∈ table'.rows, row.mapping_key = keyOf item ∧
      Confirmed metadata row) ↔ Settled table metadata mappings := by
  obtain ⟨_, session, hvalidate, happlied, hcommit⟩ := run_applied hrun
  obtain ⟨rfl, hvalid⟩ := validate_ok hfile hmappings hmetadata hvalidate
  constructor
  · rintro hconfirmed earlier item later properties rfl hlast hproperties
    obtain ⟨row, hrow, hkey, hrowconfirmed⟩ := hconfirmed item (by simp)
    obtain ⟨properties', hitem⟩ := hvalid item (by simp)
    obtain rfl := Option.some.inj (hproperties.symm.trans hitem.entity)
    obtain ⟨row', hrow', x, hmerged⟩ := exists_mergedInto happlied hcommit hlast
    have hfits : table.find? (keyOf item) = none → (keyOf item).length ≤ 64 := by
      intro hnone
      rcases EntitySession.commit_mem hcommit hrow with ⟨old, hold, holdkey⟩ | ⟨y, -, hy⟩
      · exact absurd (holdkey.trans hkey) (EntityTable.find?_eq_none.mp hnone old hold)
      · rw [← hkey, EntityObject.key_of_flush_none hy]
        exact length_cut_le 64 _
    have hkey' : row'.mapping_key = keyOf item := by
      rcases hmerged.mapping_key with hkey' | ⟨hnone, hkey'⟩
      · exact hkey'
      · rw [hkey', cut_of_le (hfits hnone)]
    obtain rfl := List.inj_on_of_nodup_map table'.key_unique hrow hrow' (hkey.trans hkey'.symm)
    exact hmerged.covers hitem hrowconfirmed hfits
  · intro hsettled item hmem
    obtain ⟨earlier, last, later, rfl, hsame, hlast⟩ := exists_last hmem
    obtain ⟨properties, hitem⟩ := hvalid last (by simp)
    obtain ⟨row', hrow', x, hmerged⟩ := exists_mergedInto happlied hcommit hlast
    have hcovers := hsettled earlier last later properties rfl hlast hitem.entity
    refine ⟨row', hrow', ?_, hmerged.confirmed hitem hcovers⟩
    rw [← hsame]
    rcases hmerged.mapping_key with hkey | ⟨hnone, hkey⟩
    · exact hkey
    · rw [hkey, cut_of_le (hcovers.key_fits hnone)]

end Run

end Statements

/-! ## Runs -/

section Example

open scoped Ascii

def uatUrl : String := "https://sssagov-uat.sandbox.operations.uae.dynamics.com"

def uatMetadata : List EntityDescription :=
  [⟨"EmployeesV2", "Microsoft.Dynamics.DataEntities.EmployeeV2",
    ["PersonnelNumber", "EmploymentLegalEntityId", "Name", "ManagerPersonnelNumber"]⟩]

def profileItem : Json :=
  .obj [("mapping_key", .str "profile"), ("entity_name", .str "EmployeesV2"),
    ("personnel_number_field", .str "PersonnelNumber"),
    ("company_field", .str "EmploymentLegalEntityId"),
    ("field_mapping", .obj [("displayName", .str "Name")]), ("enabled", .bool true)]

def uatFile : Json := .obj [("environment", .str uatUrl), ("mappings", .arr [profileItem])]

def uatInputs : Inputs where
  file := .ok uatFile
  D365_BASE_URL := uatUrl ++ "/"
  metadata := .ok uatMetadata
  now := fun n => n

theorem exits_zero {r : Except Exc ℤ × EntityTable} (h : r.1 = .ok 0) : r = (.ok 0, r.2) :=
  Prod.ext h rfl

/-- A row from before, with a manager field. -/
def tableFrom (manager_field : String) : EntityTable where
  rows := [{
    mapping_key := "profile"
    entity_name := "Employees"
    personnel_number_field := some "PersonnelNumber"
    company_field := none
    manager_field := some manager_field
    field_mapping := []
    enabled := false }]
  key_unique := List.nodup_singleton _

/-- The file says nothing of the manager field, which the entity has. -/
theorem stamped_confirmed_iff_kept :
    ∃ table', run uatInputs true (tableFrom "ManagerPersonnelNumber") = (.ok 0, table') ∧
      ∀ item ∈ [profileItem], ∃ row ∈ table'.rows, row.mapping_key = keyOf item ∧
        Confirmed uatMetadata row := by
  have hcode : (run uatInputs true (tableFrom "ManagerPersonnelNumber")).1 = .ok 0 := by
    decide +kernel
  have hrun := exits_zero hcode
  refine ⟨_, hrun, ?_⟩
  have hfile : uatInputs.file = .ok uatFile := rfl
  refine (stamped_confirmed_iff hfile rfl rfl hrun).mpr ?_
  intro earlier item later properties hsplit _ hproperties
  obtain ⟨rfl, rfl, rfl⟩ : earlier = [] ∧ item = profileItem ∧ later = [] := by
    cases earlier with
    | nil => simpa [eq_comm] using hsplit
    | cons first earlier => simp at hsplit
  obtain rfl := Option.some.inj hproperties
  refine ⟨fun _ => by decide, ?_, ?_, ?_, ?_⟩
  · -- the manager field is what the item leaves
    intro a s ha hnone hleft
    cases a with
    | manager_field =>
      obtain rfl : "ManagerPersonnelNumber" = s := Json.str.inj hleft
      decide
    | entity_name => cases ha
    | personnel_number_field => cases hnone
    | company_field => cases hnone
    | _ => cases hleft
  · intro fields hnone
    cases hnone
  · intro a s _ hgiven hlong
    cases a with
    | personnel_number_field =>
      cases hgiven
      exact absurd hlong (by decide)
    | company_field =>
      cases hgiven
      exact absurd hlong (by decide)
    | entity_name =>
      cases hgiven
      exact absurd hlong (by decide)
    | _ => cases hgiven
  · intro row fields hfind _ _ entry hentry
    obtain rfl := Option.some.inj hfind
    cases hentry

/-- The entity has the manager field no longer, and the stamped row still has it. -/
theorem stale_field_stamped :
    ∃ table', uatInputs.file = .ok uatFile ∧ mappingsOf uatFile = .ok [profileItem] ∧
      uatInputs.metadata = .ok uatMetadata ∧
      run uatInputs true (tableFrom "SupervisorNumber") = (.ok 0, table') ∧
      ¬ ∀ item ∈ [profileItem], ∃ row ∈ table'.rows, row.mapping_key = keyOf item ∧
        Confirmed uatMetadata row := by
  have hstored : (run uatInputs true (tableFrom "SupervisorNumber")).1 = .ok 0 ∧
      (run uatInputs true (tableFrom "SupervisorNumber")).2.rows.map
        (fun row => (row.entity_name, row.field .manager_field)) =
          [("EmployeesV2", some "SupervisorNumber")] := by
    decide +kernel
  obtain ⟨hcode, hrows⟩ := hstored
  refine ⟨_, rfl, rfl, rfl, exits_zero hcode, ?_⟩
  intro hall
  obtain ⟨row, hrow, -, hconfirmed⟩ := hall profileItem List.mem_cons_self
  have hmem := List.mem_map_of_mem (f := fun row : EntityRow =>
    (row.entity_name, row.field .manager_field)) hrow
  rw [hrows] at hmem
  obtain ⟨hname, hfield⟩ := Prod.mk.inj (List.mem_singleton.mp hmem)
  obtain ⟨properties, hproperties, hfields, -⟩ := hconfirmed.entity
  rw [hname] at hproperties
  obtain rfl := Option.some.inj hproperties
  exact absurd (hfields _ _ hfield (by decide)) (by decide)

end Example

end EmployeePortal.Tools.ApplyD365Mapping
