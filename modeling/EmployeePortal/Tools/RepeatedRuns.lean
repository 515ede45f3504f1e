import EmployeePortal.Tools.ConfirmedMappings

/-!
# Running the tool again

A run that fails leaves the table as it was, and one that succeeds leaves alone the rows
whose key is not in the file. Running it again changes nothing but the stamps, except
where a key has no row at first: the new row has its key cut to the column and a `null`
for `enabled` replaced by the default, and the second run finds neither.
-/

namespace EmployeePortal.Tools.ApplyD365Mapping

open EmployeePortal.Python EmployeePortal.Framework EmployeePortal.D365

section Statements

variable [UnicodeData]

/-- The rows are the same but for the time of their confirmation. -/
def SameButStamped (table table' : EntityTable) : Prop :=
  List.Forall₂ (fun row row' => ∃ now : Option ℚ, row' =
    { row with metadata_confirmed_at := now }) table.rows table'.rows

/-- Where a run does not end in zero, or is not to apply anything, the table stays. -/
def Atomic [FloatData] (inputs : Inputs) (table : EntityTable) : Prop :=
  ∀ apply, (run inputs apply table).1 ≠ .ok 0 ∨ apply = false → (run inputs apply table).2 = table

/-- Another run, at any other time, ends in zero and changes nothing but the stamps. -/
def Repeats [FloatData] (inputs : Inputs) (table : EntityTable) : Prop :=
  ∀ apply now, ∃ table', run { inputs with now := now } apply table = (.ok 0, table') ∧
    SameButStamped table table'

/-- The rows whose key no item has are there as before. -/
def Untouched (mappings : List Json) (table table' : EntityTable) : Prop :=
  ∀ row ∈ table.rows, (∀ item ∈ mappings, keyOf item ≠ row.mapping_key) → row ∈ table'.rows

/-- The new row of an item is one that the item finds and can be merged into. -/
structure Fits (item : Json) : Prop where
  mapping_key : (keyOf item).length ≤ 64
  enabled : patch item .enabled ≠ some .null

/-! ## The session of a run -/

/-- The item has a key that can be looked up. -/
def HasKey (item : Json) : Prop :=
  ∃ value, item.item "mapping_key" = .ok value ∧ '\x00' ∉ value.text.toList

/-- Only objects of the items are in the session, with the environment of the run. -/
structure Marked (environment : String) (items : List Json) (session : EntitySession) : Prop where
  loaded : ∀ mapping_key x, session.loaded.get? mapping_key = some x →
    (∃ item ∈ items, keyOf item = mapping_key) ∧ x.metadata_environment = some environment
  added : ∀ x ∈ session.added, x.metadata_environment = some environment

theorem Marked.start {environment : String} : Marked environment [] {} where
  loaded := fun _ _ h => by cases h
  added := fun _ h => absurd h List.not_mem_nil

variable {now : ℚ} {environment : String} {table table' : EntityTable}
  {session session' : EntitySession} {items : List Json} {item : Json}

theorem applyItem_marked (h : applyItem now environment table session item = .ok session')
    (hmarked : Marked environment items session) :
    HasKey item ∧ Marked environment (items ++ [item]) session' := by
  unfold applyItem at h
  obtain ⟨value, hvalue, h⟩ := bind_eq_ok.mp h
  have hkey : keyOf item = value.text := by rw [keyOf, textOf, hvalue]
  dsimp only at h
  split at h
  · cases h
  rename_i hnul
  refine ⟨⟨value, hvalue, hnul⟩, ?_⟩
  have hbefore : ∀ mapping_key x, session.loaded.get? mapping_key = some x →
      (∃ item' ∈ items ++ [item], keyOf item' = mapping_key) ∧
        x.metadata_environment = some environment := by
    intro mapping_key x hx
    obtain ⟨⟨item', hitem', hkey'⟩, henvironment⟩ := hmarked.loaded mapping_key x hx
    exact ⟨⟨item', List.mem_append_left _ hitem', hkey'⟩, henvironment⟩
  split at h
  · obtain rfl := Except.ok.inj h
    refine ⟨fun mapping_key x hx => ?_, hmarked.added⟩
    dsimp only at hx
    rw [Dict.get?_set] at hx
    split at hx
    · rename_i hsame
      obtain rfl := Option.some.inj hx
      exact ⟨⟨item, by simp, hkey.trans hsame.symm⟩, rfl⟩
    · exact hbefore mapping_key x hx
  · obtain ⟨name, -, h⟩ := bind_eq_ok.mp h
    obtain rfl := Except.ok.inj h
    refine ⟨hbefore, fun x hx => ?_⟩
    rcases List.mem_append.mp hx with hx | hx
    · exact hmarked.added x hx
    · rw [List.mem_singleton.mp hx]
      rfl

theorem applyItems_marked {now : ℕ → ℚ} {n : ℕ} {done : List Json}
    (h : applyItems now environment table n session items = .ok session')
    (hmarked : Marked environment done session) :
    (∀ item ∈ items, HasKey item) ∧ Marked environment (done ++ items) session' := by
  induction items generalizing n session done with
  | nil =>
    obtain rfl := Except.ok.inj h
    exact ⟨fun _ hitem => absurd hitem List.not_mem_nil, by rwa [List.append_nil]⟩
  | cons item items ih =>
    rw [applyItems] at h
    obtain ⟨session₁, hfirst, h⟩ := bind_eq_ok.mp h
    obtain ⟨hkey, hmarked₁⟩ := applyItem_marked hfirst hmarked
    obtain ⟨hkeys, hrest⟩ := ih h hmarked₁
    rw [List.append_assoc, List.singleton_append] at hrest
    exact ⟨List.forall_mem_cons.mpr ⟨hkey, hkeys⟩, hrest⟩

/-- Where every key has a row nothing can go wrong. -/
theorem applyItems_found {now : ℕ → ℚ} (hkeys : ∀ item ∈ items, HasKey item)
    (hfound : ∀ item ∈ items, (table.find? (keyOf item)).isSome = true) (n : ℕ)
    (session : EntitySession) :
    ∃ session', applyItems now environment table n session items = .ok session' := by
  induction items generalizing n session with
  | nil => exact ⟨session, rfl⟩
  | cons item items ih =>
    obtain ⟨⟨value, hvalue, hnul⟩, hkeys⟩ := List.forall_mem_cons.mp hkeys
    obtain ⟨hrow, hfound⟩ := List.forall_mem_cons.mp hfound
    have hkey : keyOf item = value.text := by rw [keyOf, textOf, hvalue]
    obtain ⟨row, hrow⟩ := Option.isSome_iff_exists.mp hrow
    rw [hkey] at hrow
    obtain ⟨session', hrest⟩ := ih hkeys hfound (n + 1) _
    refine ⟨session', ?_⟩
    rw [applyItems, applyItem, hvalue, ok_bind]
    dsimp only
    rw [if_neg hnul, hrow]
    exact hrest

/-! ## The rows behind a run -/

section Commit

variable [FloatData]

/-- A key without a row has one item, however often a key may be repeated otherwise. -/
theorem patchesOf_new (happlied : Applied table items session)
    (hcommit : session.commit table = .ok table') (hitem : item ∈ items)
    (hnone : table.find? (keyOf item) = none) :
    patchesOf items (keyOf item) = [patch item] := by
  obtain ⟨earlier, last, later, rfl, hkey, hlast⟩ := exists_last hitem
  rw [← hkey] at hnone ⊢
  have hfirst := patchesOf_first happlied hcommit hnone
  have hsame : item = last := by
    rcases List.mem_append.mp hitem with hbefore | hmem
    · -- an earlier item of the key would have left a patch
      have hmem : patch item ∈ patchesOf earlier (keyOf last) :=
        List.mem_map_of_mem (List.mem_filter.mpr ⟨hbefore, decide_eq_true hkey.symm⟩)
      rw [hfirst] at hmem
      exact absurd hmem List.not_mem_nil
    · rcases List.mem_cons.mp hmem with hsame | hafter
      · exact hsame
      · exact absurd hkey.symm (hlast item hafter)
  rw [patchesOf_last hlast, hfirst, hsame]
  rfl

/-- A row afterwards is one from before that no item has changed, or it was written from an
object that has the patches of its key. -/
theorem commit_row (happlied : Applied table items session)
    (hmarked : Marked environment items session) (hcommit : session.commit table = .ok table')
    (hfits : ∀ item ∈ items, table.find? (keyOf item) = none → (keyOf item).length ≤ 64)
    {row' : EntityRow} (hrow' : row' ∈ table'.rows) :
    (row' ∈ table.rows ∧ ∀ item ∈ items, keyOf item ≠ row'.mapping_key) ∨
    ∃ x base, Writes (table.find? row'.mapping_key) x row' ∧
      x.attributes = overlays base (patchesOf items row'.mapping_key) ∧
      x.metadata_environment = some environment := by
  obtain ⟨updated, inserted, hrows, hupdated, hinserted⟩ := EntitySession.commit_ok hcommit
  rw [hrows] at hrow'
  rcases List.mem_append.mp hrow' with hold | hnew
  · obtain ⟨row, hrow, hflush⟩ := exists_of_mapM_ok hupdated row' hold
    have hfind := EntityTable.find?_eq_some.mpr ⟨hrow, rfl⟩
    cases hloaded : session.loaded.get? row.mapping_key with
    | none =>
      rw [hloaded] at hflush
      obtain rfl := Except.ok.inj hflush
      refine Or.inl ⟨hrow, fun item hitem hkey => ?_⟩
      obtain ⟨x, hx, -⟩ := happlied.stamped row hfind ⟨item, hitem, hkey⟩
      rw [hloaded] at hx
      cases hx
    | some x =>
      rw [hloaded] at hflush
      have hwrites := EntityObject.flush_iff.mp hflush
      obtain hkey := Except.ok.inj hwrites.mapping_key
      have hattributes := happlied.loaded row hfind
      rw [hloaded, Option.getD_some, hkey] at hattributes
      rw [hkey] at hfind
      refine Or.inr ⟨x, row.attributes, ?_, hattributes, (hmarked.loaded _ x hloaded).2⟩
      rw [hfind]
      exact hwrites
  · obtain ⟨x, hx, hflush⟩ := exists_of_mapM_ok hinserted row' hnew
    have hwrites := EntityObject.flush_iff.mp hflush
    obtain ⟨item, hitem, hflip⟩ := exists_mem_of_forall₂ happlied.added.flip hx
    have hadded : AddedFor item x := hflip
    obtain ⟨hmem, hnone⟩ := List.mem_filter.mp hitem
    have hnone := of_decide_eq_true hnone
    have hkey : row'.mapping_key = keyOf item := by
      rw [(varchar_ok hwrites.mapping_key).1, hadded.mapping_key, cut_of_le (hfits item hmem hnone)]
    refine Or.inr ⟨x, (newObject (keyOf item) (textOf item "entity_name")).attributes, ?_, ?_,
      hmarked.added x hx⟩
    · rw [hkey, hnone]
      exact hwrites
    · rw [hkey, patchesOf_new happlied hcommit hmem hnone]
      exact hadded.attributes

/-- The rows whose key no item has stay. -/
theorem commit_untouched (hmarked : Marked environment items session)
    (hcommit : session.commit table = .ok table') : Untouched items table table' := by
  intro row hrow hother
  obtain ⟨updated, inserted, hrows, hupdated, -⟩ := EntitySession.commit_ok hcommit
  obtain ⟨row', hrow', hflush⟩ := exists_mem_of_mapM_ok hupdated hrow
  have hloaded : session.loaded.get? row.mapping_key = none := by
    cases hloaded : session.loaded.get? row.mapping_key with
    | none => rfl
    | some x =>
      obtain ⟨⟨item, hitem, hkey⟩, -⟩ := hmarked.loaded _ x hloaded
      exact absurd hkey (hother item hitem)
  rw [hloaded] at hflush
  rw [hrows, Except.ok.inj hflush]
  exact List.mem_append_left _ hrow'

/-- Every key that fits its column has a row afterwards. -/
theorem find?_commit (happlied : Applied table items session)
    (hcommit : session.commit table = .ok table') (hitem : item ∈ items)
    (hfits : table.find? (keyOf item) = none → (keyOf item).length ≤ 64) :
    ∃ row', table'.find? (keyOf item) = some row' := by
  obtain ⟨earlier, last, later, rfl, hkey, hlast⟩ := exists_last hitem
  obtain ⟨row', hrow', x, hmerged⟩ := exists_mergedInto happlied hcommit hlast
  refine ⟨row', EntityTable.find?_eq_some.mpr ⟨hrow', ?_⟩⟩
  rcases hmerged.mapping_key with hsame | ⟨hnone, hcut⟩
  · exact hsame.trans hkey
  · rw [hkey] at hnone hcut
    rw [hcut, cut_of_le (hfits hnone)]

/-! ## The second run -/

/-- The row with the stamp of the object that was merged into it, if any was. -/
def restamp (session : EntitySession) (row : EntityRow) : EntityRow :=
  match session.loaded.get? row.mapping_key with
  | some x => { row with metadata_confirmed_at := x.metadata_confirmed_at }
  | none => row

omit [UnicodeData] [FloatData] in
theorem restamp_mapping_key (session : EntitySession) (row : EntityRow) :
    (restamp session row).mapping_key = row.mapping_key := by
  unfold restamp
  cases session.loaded.get? row.mapping_key with
  | some x => rfl
  | none => rfl

/-- A row that was written from an object with the patches of its key takes them again. -/
theorem flush_again {session' : EntitySession} {row' : EntityRow} {y : EntityObject}
    (happlied : Applied table items session) (hmarked : Marked environment items session)
    (hcommit : session.commit table = .ok table')
    (hfits : ∀ item ∈ items, table.find? (keyOf item) = none → Fits item)
    (hrow' : row' ∈ table'.rows) (happlied' : Applied table' items session')
    (hmarked' : Marked environment items session')
    (hy : session'.loaded.get? row'.mapping_key = some y) :
    y.flush (some row') = .ok { row' with metadata_confirmed_at := y.metadata_confirmed_at } := by
  obtain ⟨⟨item, hitem, hkey⟩, henvironment⟩ := hmarked'.loaded _ y hy
  rcases commit_row happlied hmarked hcommit (fun item hitem hnone =>
    (hfits item hitem hnone).mapping_key) hrow' with ⟨-, hother⟩ | ⟨x, base, hwrites, hx, hmark⟩
  · exact absurd hkey (hother item hitem)
  have hattributes := happlied'.loaded row' (EntityTable.find?_eq_some.mpr ⟨hrow', rfl⟩)
  rw [hy, Option.getD_some] at hattributes
  refine hwrites.again (fun a => ?_) (fun hnone => ?_) (henvironment.trans hmark.symm)
  · rw [hattributes, hx, overlays_eq, overlays_eq]
    cases (patchesOf items row'.mapping_key).reverse.findSome? (· a) with
    | some value => exact Or.inr rfl
    | none => exact Or.inl rfl
  · rw [← hkey] at hnone
    rw [hattributes, ← hkey, patchesOf_new happlied hcommit hitem hnone]
    intro hnull
    cases hgiven : patch item .enabled with
    | some value =>
      have hvalue : overlays row'.attributes [patch item] .enabled = value :=
        overlay_of_some hgiven
      rw [hvalue] at hnull
      exact (hfits item hitem hnone).enabled (hnull ▸ hgiven)
    | none =>
      have hvalue : overlays row'.attributes [patch item] .enabled = .bool row'.enabled :=
        overlay_of_none hgiven
      rw [hvalue] at hnull
      cases hnull

/-- With items that all fit, the second loop and commit go through and only stamp. -/
theorem commit_again {now : ℕ → ℚ} (hkeys : ∀ item ∈ items, HasKey item)
    (happlied : Applied table items session) (hmarked : Marked environment items session)
    (hcommit : session.commit table = .ok table')
    (hfits : ∀ item ∈ items, table.find? (keyOf item) = none → Fits item) :
    ∃ session' table'', applyItems now environment table' 0 {} items = .ok session' ∧
      session'.commit table' = .ok table'' ∧ SameButStamped table' table'' := by
  have hfound : ∀ item ∈ items, (table'.find? (keyOf item)).isSome = true := by
    intro item hitem
    obtain ⟨row', hrow'⟩ := find?_commit happlied hcommit hitem fun hnone =>
      (hfits item hitem hnone).mapping_key
    rw [hrow']
    rfl
  obtain ⟨session', hsession⟩ :
      ∃ session', applyItems now environment table' 0 {} items = .ok session' :=
    applyItems_found hkeys hfound 0 {}
  have happlied' := applyItems_applied hsession (Applied.start table')
  obtain ⟨-, hmarked'⟩ := applyItems_marked hsession Marked.start
  rw [List.nil_append] at happlied' hmarked'
  have hnone : session'.added = [] := by
    have hfilter : items.filter (fun item => table'.find? (keyOf item) = none) = [] := by
      rw [List.filter_eq_nil_iff]
      intro item hitem hnot
      have hsome := hfound item hitem
      rw [of_decide_eq_true hnot] at hsome
      cases hsome
    have hadded := happlied'.added
    rw [hfilter] at hadded
    exact List.forall₂_nil_left_iff.mp hadded
  have hrestamp : ∀ row ∈ table'.rows, (match session'.loaded.get? row.mapping_key with
      | some x => x.flush (some row)
      | none => .ok row) = .ok (restamp session' row) := by
    intro row hrow
    unfold restamp
    cases hloaded : session'.loaded.get? row.mapping_key with
    | some y => exact flush_again happlied hmarked hcommit hfits hrow happlied' hmarked' hloaded
    | none => rfl
  obtain ⟨table'', hcommit', hrows⟩ :=
    EntitySession.commit_of_loaded hnone hrestamp (restamp_mapping_key session')
  refine ⟨session', table'', hsession, hcommit', ?_⟩
  rw [SameButStamped, hrows, List.forall₂_map_right_iff, List.forall₂_same]
  intro row _
  unfold restamp
  cases session'.loaded.get? row.mapping_key with
  | some x => exact ⟨x.metadata_confirmed_at, rfl⟩
  | none => exact ⟨row.metadata_confirmed_at, rfl⟩

/-- And only then: a key that is too long is added once more, and a `null` is refused where
there is a row. -/
theorem fits_of_commit {session' : EntitySession} {table'' : EntityTable}
    (happlied : Applied table items session) (hcommit : session.commit table = .ok table')
    (happlied' : Applied table' items session') (hcommit' : session'.commit table' = .ok table'')
    (hsame : SameButStamped table' table'') (hitem : item ∈ items)
    (hnone : table.find? (keyOf item) = none) : Fits item := by
  obtain ⟨updated, inserted, hrows, hupdated, hinserted⟩ := EntitySession.commit_ok hcommit'
  -- as many rows as before: nothing was added
  have hadded : session'.added = [] := by
    have hlength := hsame.length_eq
    rw [hrows, List.length_append, ← (mapM_ok_iff.mp hupdated).length_eq,
      ← (mapM_ok_iff.mp hinserted).length_eq] at hlength
    exact List.eq_nil_of_length_eq_zero (by omega)
  have hfound : ∃ row', table'.find? (keyOf item) = some row' := by
    rw [← Option.ne_none_iff_exists']
    intro hmissing
    have hfilter := happlied'.added
    rw [hadded, List.forall₂_nil_right_iff, List.filter_eq_nil_iff] at hfilter
    exact hfilter item hitem (decide_eq_true hmissing)
  obtain ⟨row', hrow'⟩ := hfound
  obtain ⟨hmem, hkey⟩ := EntityTable.find?_eq_some.mp hrow'
  constructor
  · rcases EntitySession.commit_mem hcommit hmem with ⟨row, hrow, hrowkey⟩ | ⟨x, -, hx⟩
    · exact absurd (hrowkey.trans hkey) (EntityTable.find?_eq_none.mp hnone row hrow)
    · rw [← hkey, EntityObject.key_of_flush_none hx]
      exact length_cut_le 64 _
  · intro hnull
    rw [← hkey] at hrow'
    obtain ⟨y, hy, -⟩ := happlied'.stamped row' hrow' ⟨item, hitem, hkey.symm⟩
    obtain ⟨row'', -, hflush⟩ := exists_mem_of_mapM_ok hupdated hmem
    rw [hy] at hflush
    have henabled := (EntityObject.flush_iff.mp hflush).enabled
    have hattributes := happlied'.loaded row' hrow'
    rw [hy, Option.getD_some, hkey, patchesOf_new happlied hcommit hitem hnone] at hattributes
    have hvalue : overlays row'.attributes [patch item] .enabled = .null := overlay_of_some hnull
    rw [hattributes, hvalue] at henabled
    cases henabled

end Commit

/-! ## Whole runs -/

section Run

variable [FloatData] {inputs : Inputs}

theorem run_atomic (inputs : Inputs) (table : EntityTable) : Atomic inputs table := by
  intro apply h
  unfold run at h ⊢
  cases hattempt : attempt inputs apply table with
  | error e => rfl
  | ok table' =>
    rw [hattempt] at h
    rcases h with hcode | rfl
    · exact absurd rfl hcode
    · obtain ⟨mappings, -, hrest⟩ := bind_eq_ok.mp hattempt
      exact (Except.ok.inj hrest).symm

omit [FloatData] in
theorem validate_mappings {mappings mappings' : List Json}
    (hmappings : inputs.file >>= mappingsOf = .ok mappings)
    (h : validate inputs = .ok mappings') : mappings' = mappings := by
  obtain ⟨raw, hfile, hraw⟩ := bind_eq_ok.mp hmappings
  unfold validate at h
  rw [hfile, ok_bind, hraw, ok_bind] at h
  obtain ⟨environment, -, h⟩ := bind_eq_ok.mp h
  dsimp only at h
  split at h
  · cases h
  · obtain ⟨metadata, -, h⟩ := bind_eq_ok.mp h
    obtain ⟨-, -, h⟩ := bind_eq_ok.mp h
    exact (Except.ok.inj h).symm

/-- **Applying mappings.** From every table, with every file and metadata: a run that does
not store its mappings leaves the table as it was. One that does leaves the rows of other
keys alone, and running it again ends in zero and changes nothing but the stamps exactly
when the items whose key had no row fit their new rows. -/
theorem runs_repeat_iff (inputs : Inputs) (table : EntityTable) :
    Atomic inputs table ∧ ∀ mappings table', inputs.file >>= mappingsOf = .ok mappings →
      run inputs true table = (.ok 0, table') →
      Untouched mappings table table' ∧
      (Repeats inputs table' ↔
        ∀ item ∈ mappings, table.find? (keyOf item) = none → Fits item) := by
  refine ⟨run_atomic inputs table, fun mappings table' hmappings hrun => ?_⟩
  obtain ⟨mappings', session, hvalidate, hsession, hcommit⟩ := run_ok_iff.mp hrun
  obtain rfl := validate_mappings hmappings hvalidate
  have happlied := applyItems_applied hsession (Applied.start table)
  obtain ⟨hkeys, hmarked⟩ := applyItems_marked hsession Marked.start
  rw [List.nil_append] at happlied hmarked
  refine ⟨commit_untouched hmarked hcommit, fun hrepeats item hitem hnone => ?_, fun hfits => ?_⟩
  · obtain ⟨table'', hagain, hsame⟩ := hrepeats true inputs.now
    obtain ⟨mappings'', session', hvalidate', hsession', hcommit'⟩ := run_ok_iff.mp hagain
    obtain rfl := Except.ok.inj (hvalidate.symm.trans hvalidate')
    have happlied' := applyItems_applied hsession' (Applied.start table')
    exact fits_of_commit happlied hcommit happlied' hcommit' hsame hitem hnone
  · rintro (_ | _) now
    · refine ⟨table', ?_, List.forall₂_same.mpr fun row _ => ⟨row.metadata_confirmed_at, rfl⟩⟩
      have hvalidate' : validate { inputs with now := now } = .ok mappings' := hvalidate
      rw [run, attempt, hvalidate', ok_bind]
      rfl
    · obtain ⟨session', table'', hsession', hcommit', hsame⟩ :=
        commit_again hkeys happlied hmarked hcommit hfits
      exact ⟨table'', run_ok_iff.mpr ⟨mappings', session', hvalidate, hsession', hcommit'⟩, hsame⟩

end Run

end Statements

/-! ## Two files -/

section Example

open scoped Ascii

def emptyTable : EntityTable := ⟨[], List.nodup_nil⟩

/-- An item that says `null` for `enabled`. -/
def nullItem : Json :=
  .obj [("mapping_key", .str "profile"), ("entity_name", .str "EmployeesV2"), ("enabled", .null)]

def nullInputs : Inputs :=
  { uatInputs with
    file := .ok (.obj [("environment", .str uatUrl), ("mappings", .arr [nullItem])]) }

/-- It is stored as the default, and refused the next time. -/
theorem null_not_repeated : ∃ table', nullInputs.file >>= mappingsOf = .ok [nullItem] ∧
    run nullInputs true emptyTable = (.ok 0, table') ∧ ¬ Repeats nullInputs table' := by
  have hcodes : (run nullInputs true emptyTable).1 = .ok 0 ∧
      (run nullInputs true (run nullInputs true emptyTable).2).1 ≠ .ok 0 := by
    decide +kernel
  obtain ⟨hfirst, hsecond⟩ := hcodes
  refine ⟨_, rfl, exits_zero hfirst, fun hrepeats => ?_⟩
  obtain ⟨table'', hagain, -⟩ := hrepeats true nullInputs.now
  exact hsecond (congrArg Prod.fst hagain)

/-- The profile mapping can be applied again. -/
theorem runs_repeat_profile : ∃ table', run uatInputs true emptyTable = (.ok 0, table') ∧
    Repeats uatInputs table' := by
  have hcode : (run uatInputs true emptyTable).1 = .ok 0 := by decide +kernel
  have hrun := exits_zero hcode
  refine ⟨_, hrun, ((runs_repeat_iff uatInputs emptyTable).2 [profileItem] _ rfl hrun).2.mpr ?_⟩
  intro item hitem _
  obtain rfl := List.mem_singleton.mp hitem
  exact ⟨by decide, nofun⟩

end Example

end EmployeePortal.Tools.ApplyD365Mapping
