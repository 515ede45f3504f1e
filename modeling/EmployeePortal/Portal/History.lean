import EmployeePortal.Portal.Authorization

/-!
# The history of the mappings

Both writers commit a mapping and its history row in one transaction and nobody
removes either, so the two tables grow in step: row by row, the history records
the mapping beside it (`InStep`). That is the whole invariant; exactly one
history row a mapping follows from the primary key.
-/

namespace EmployeePortal

open EmployeePortal.Python EmployeePortal.Framework EmployeePortal.Employees
  EmployeePortal.Tools

/-- The history row refers to the mapping and carries the identity it was created
with. -/
structure Records (m : Mapping) (h : History) : Prop where
  mapping_id : h.mapping_id = m.id
  entra_oid : h.after_values.get? "entra_oid" = m.entra_oid
  personnel_number :
    h.after_values.get? "d365_personnel_number" = some m.d365_personnel_number
  company : h.after_values.get? "d365_company" = m.d365_company

/-- The two tables side by side. -/
def InStep (db : Database) : Prop := List.Forall₂ Records db.mappings db.history

theorem InStep.insert {db db' : Database} (h : InStep db) {m : Mapping} {hist : History}
    (hrecords : Records m hist)
    (htables : db'.toTables = db.insertAll [.mapping m, .history hist]) : InStep db' := by
  have hpair : List.Forall₂ Records [m] [hist] := .cons hrecords .nil
  unfold InStep
  rw [htables]
  exact List.rel_append h hpair

theorem InStep.setFlags {db : Database} (h : InStep db) (id : Uuid) (verified enabled : Bool) :
    InStep (db.setFlags id verified enabled) := by
  refine List.forall₂_map_left_iff.mpr (h.imp fun m hist hrecords => ?_)
  obtain ⟨hid, hoid, hnumber, hcompany⟩ := hrecords
  split <;> exact ⟨hid, hoid, hnumber, hcompany⟩

theorem AdminStep.inStep {db db' : Database} (h : AdminStep db db') (hdb : InStep db) :
    InStep db' := by
  cases h with
  | setFlags id verified enabled => exact hdb.setFlags id verified enabled
  | configure h =>
    unfold InStep
    rw [h]
    exact hdb

theorem InStep.event {db db' : Database} (h : InStep db) {e : AuditEvent}
    (htables : db'.toTables = db.insertAll [.event e]) : InStep db' := by
  unfold InStep
  rw [htables]
  exact h

/-- Side by side, the history refers to the mappings in table order. -/
theorem map_mapping_id {ms : List Mapping} {hs : List History}
    (h : List.Forall₂ Records ms hs) : hs.map History.mapping_id = ms.map Mapping.id := by
  induction h with
  | nil => rfl
  | cons hrecords _ ih => simp [hrecords.mapping_id, ih]

theorem exists_records {ms : List Mapping} {hs : List History} {x : History}
    (h : List.Forall₂ Records ms hs) (hx : x ∈ hs) : ∃ m ∈ ms, Records m x := by
  induction h with
  | nil => cases hx
  | cons hrecords _ ih =>
    rcases List.mem_cons.mp hx with rfl | hx
    · exact ⟨_, List.mem_cons_self, hrecords⟩
    · obtain ⟨m, hm, hrec⟩ := ih hx
      exact ⟨m, List.mem_cons_of_mem _ hm, hrec⟩

theorem InStep.countP {db : Database} (h : InStep db) {m : Mapping} (hm : m ∈ db.mappings) :
    db.history.countP (fun x => x.mapping_id = m.id) = 1 := by
  have hcount : (db.history.map History.mapping_id).count m.id = 1 := by
    rw [map_mapping_id h]
    exact List.count_eq_one_of_mem db.schema.id_unique (List.mem_map_of_mem hm)
  rw [List.count, List.countP_map] at hcount
  simpa [Function.comp_def, beq_eq_decide] using hcount

/-- A history row of a mapping records it. -/
theorem InStep.records {db : Database} (h : InStep db) {m : Mapping} {x : History}
    (hm : m ∈ db.mappings) (hx : x ∈ db.history) (hid : x.mapping_id = m.id) : Records m x := by
  obtain ⟨m', hm', hrecords⟩ := exists_records h hx
  have hsame : m'.id = m.id := hrecords.mapping_id.symm.trans hid
  exact List.inj_on_of_nodup_map db.schema.id_unique hm' hm hsame ▸ hrecords

section History

variable [UnicodeData]

theorem records_auto (id : Uuid) (user : AuthenticatedUser) (w : Worker) :
    Records (autoMapping id user w) (autoHistory id w) := ⟨rfl, rfl, rfl, rfl⟩

theorem records_manual (id : Uuid) (args : Args) (oid approved_by : Uuid) :
    Records (manualMapping id args oid) (manualHistory id args oid approved_by) :=
  ⟨rfl, rfl, rfl, rfl⟩

theorem commits_inStep : Commits (.anyone InStep) Sem where
  auto _ _ _ _ h _ _ hpending htables _ :=
    ⟨h.insert (records_auto _ _ _) (hpending ▸ htables), trivial⟩
  manual _ _ _ h _ _ hpending htables _ :=
    ⟨h.insert (records_manual _ _ _ _) (hpending ▸ htables), trivial⟩
  event h hpending htables _ := ⟨h.event (hpending ▸ htables), trivial⟩

/-- **Mapping history is complete and consistent**, in every state of every run
from an empty database: one history row a mapping, carrying the identity the
mapping was created with, and none without its mapping. -/
theorem history_complete {configurations : List EntityMapping}
    {hkeys : (configurations.map EntityMapping.mapping_key).Nodup} {P : Portal.Pool}
    (h : portal.Reaches ⟨.empty configurations hkeys, []⟩ P) :
    (∀ m ∈ P.store.mappings,
      P.store.history.countP (fun x => x.mapping_id = m.id) = 1 ∧
      ∀ x ∈ P.store.history, x.mapping_id = m.id → Records m x) ∧
    ∀ x ∈ P.store.history, ∃ m ∈ P.store.mappings, x.mapping_id = m.id := by
  have hinStep : InStep P.store := inv_of_reaches (S := portal) rfl rfl
    (fun _ => ⟨id, fun _ => trivial, id⟩) (fun _ => commits_inStep)
    (fun _ _ hs henv => henv.inStep hs) h .nil
  refine ⟨fun m hm => ⟨hinStep.countP hm, fun x hx => hinStep.records hm hx⟩, fun x hx => ?_⟩
  obtain ⟨m, hm, hrecords⟩ := exists_records hinStep hx
  exact ⟨m, hm, hrecords.mapping_id⟩

end History

section Example

open scoped Ascii

/-- A first sign-in leaves a mapping and its history row. -/
theorem history_complete_firstSignIn :
    ∃ P : Portal.Pool, portal.Reaches ⟨exampleDatabase, []⟩ P ∧ ∃ m ∈ P.store.mappings,
      P.store.history.countP (fun x => x.mapping_id = m.id) = 1 := by
  obtain ⟨P, h, hcheck⟩ := Portal.exists_pool ⟨exampleDatabase, []⟩
    (.spawn (.myProfile {} exampleUser) :: exampleCues)
    (fun P => decide (P.store.mappings ≠ [])) (by decide +kernel)
  obtain ⟨m, hm⟩ := List.exists_mem_of_ne_nil _ (of_decide_eq_true hcheck)
  exact ⟨P, h, m, hm, ((history_complete h).1 m hm).1⟩

end Example

end EmployeePortal
