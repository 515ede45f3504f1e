import EmployeePortal.Portal.Authorization

/-!
# One employee, one identity

The schema keeps two rows of one oid apart and nothing else, so two rows of one
worker are kept apart by the writers alone: each looks for a row in the way and
then inserts. That is enough when

- nobody commits a row of the same worker between the two (`ChecksHold`), and
- "same worker" means to the conflict query what it means to the reader
  (`SpelledAlike`): the query compares companies exactly, `_is_same_mapping` and
  the leave service ignore case.

Neither is seen to by the code: two runs of the tool overlap, or two runs spell
a company differently, and one worker has two enabled and verified rows.
-/

namespace EmployeePortal

open EmployeePortal.Python EmployeePortal.Framework EmployeePortal.Employees
  EmployeePortal.Tools

/-! ## Exclusive tables -/

/-- Everything is enabled and verified, and rows of different oids are not of one
worker, in the sense of `same`. -/
structure Exclusive (same : Mapping → Mapping → Prop) (db : Database) : Prop where
  active : ∀ m ∈ db.mappings, m.enabled = true ∧ m.verified = true
  apart : ∀ m ∈ db.mappings, ∀ m' ∈ db.mappings, m.entra_oid ≠ m'.entra_oid → ¬ same m m'

namespace Exclusive

variable {same : Mapping → Mapping → Prop} {db db' : Database}

theorem empty (configurations : List EntityMapping)
    (h : (configurations.map EntityMapping.mapping_key).Nodup) :
    Exclusive same (.empty configurations h) :=
  ⟨fun _ hm => absurd hm List.not_mem_nil, fun _ hm => absurd hm List.not_mem_nil⟩

theorem insert (h : Exclusive same db) (hsymm : ∀ {m m'}, same m m' → same m' m)
    {m : Mapping} {hist : History} (hactive : m.enabled = true ∧ m.verified = true)
    (hnew : ∀ m' ∈ db.mappings, m'.entra_oid ≠ m.entra_oid → ¬ same m' m)
    (htables : db'.toTables = db.insertAll [.mapping m, .history hist]) :
    Exclusive same db' := by
  have hmem : ∀ x ∈ db'.mappings, x ∈ db.mappings ∨ x = m := by
    intro x hx
    rw [htables] at hx
    exact (List.mem_append.mp hx).imp id List.mem_singleton.mp
  constructor
  · intro x hx
    rcases hmem x hx with hx | rfl
    · exact h.active x hx
    · exact hactive
  · intro x hx y hy hne
    rcases hmem x hx with hx | rfl <;> rcases hmem y hy with hy | rfl
    · exact h.apart x hx y hy hne
    · exact hnew x hx hne
    · exact fun hsame => hnew y hy hne.symm (hsymm hsame)
    · exact absurd rfl hne

theorem event (h : Exclusive same db) {e : AuditEvent}
    (htables : db'.toTables = db.insertAll [.event e]) : Exclusive same db' := by
  have hmappings : db'.mappings = db.mappings := by rw [htables]; rfl
  exact ⟨hmappings ▸ h.active, hmappings ▸ h.apart⟩

end Exclusive

/-- No row of the table is in the way of `m`: none has its oid, none its worker. -/
def Unclaimed (rows : List Mapping) (m : Mapping) : Prop :=
  ∀ m' ∈ rows, m'.entra_oid ≠ m.entra_oid ∧
    ¬ (m'.d365_personnel_number = m.d365_personnel_number ∧ m'.d365_company = m.d365_company)

section Uniqueness

variable [UnicodeData]

/-- The two writers keep a table exclusive if, at their commit, rows of other oids
are not of the worker they insert; they had looked at `s₁`. -/
theorem commits_exclusive {same : Mapping → Mapping → Prop}
    (hsymm : ∀ {m m'}, same m m' → same m' m) {K : Contract Database}
    (hinv : K.inv = Exclusive same) (hguar : ∀ s s', K.guar s s')
    {sem : OpSem Op Op.Answer Exc Database Session}
    (hnew : ∀ {s₁ s₂ s₃ m hist l₂ l₃}, K.rely s₁ s₂ → Unclaimed s₁.mappings m →
      l₂.seen = s₁.mappings → l₂.pending = [.mapping m, .history hist] →
      sem .commit s₂ l₂ (.ok ()) s₃ l₃ →
      ∀ m' ∈ s₂.mappings, m'.entra_oid ≠ m.entra_oid → ¬ same m' m) :
    Commits K sem where
  auto {user w u s₁ s₂ s₃ id l₂ l₃} _ _ _ hrely hinv₂ hfree hseen hpending htables hsem := by
    rw [hinv] at hinv₂ ⊢
    refine ⟨hinv₂.insert hsymm ⟨rfl, rfl⟩ ?_ (hpending ▸ htables), hguar _ _⟩
    refine hnew hrely (fun m' hm' => ?_) hseen hpending hsem
    exact not_or.mp fun h => hfree m' hm' (conflictRow_holds.mpr h)
  manual {args oid approved_by s₁ s₂ s₃ id l₂ l₃} _ hinv₁ hrely hinv₂ hfree hseen hpending
      htables hsem := by
    rw [hinv] at hinv₁ hinv₂ ⊢
    refine ⟨hinv₂.insert hsymm ⟨rfl, rfl⟩ ?_ (hpending ▸ htables), hguar _ _⟩
    refine hnew hrely (fun m' hm' => ?_) hseen hpending hsem
    refine not_or.mp fun h => hfree m' hm' (takenRow_holds.mpr (h.imp_right fun hworker => ?_))
    exact ⟨hworker.1, hworker.2, (hinv₁.active m' hm').1⟩
  event hinv₁ hpending htables _ := by
    rw [hinv] at hinv₁ ⊢
    exact ⟨hinv₁.event (hpending ▸ htables), hguar _ _⟩

/-! ## Writers only -/

/-- The calls that insert mappings. -/
def Call.isWriter : Call → Bool
  | .provision _ | .createIdentityMapping _ => true
  | _ => false

/-- Provision calls and runs of the tool, with nobody else about. -/
def writers : System Op Op.Answer Exc Reply Database Session Call :=
  (portal.only fun c => c.isWriter = true).undisturbed

instance : DecidablePred (writers : System _ _ _ _ _ _ _).admits :=
  fun c => inferInstanceAs (Decidable (True ∧ c.isWriter = true))

instance (c : Call) : DecidablePred ((writers : System _ _ _ _ _ _ _).cuts c) :=
  fun _ => .isFalse id

/-! ## Under concurrency -/

/-- The same personnel number and the same company. -/
def SameWorker (m m' : Mapping) : Prop :=
  m.d365_personnel_number = m'.d365_personnel_number ∧ m.d365_company = m'.d365_company

instance (m m' : Mapping) : Decidable (SameWorker m m') :=
  inferInstanceAs (Decidable (_ ∧ _))

/-- No two enabled rows of different oids are of one worker. -/
def OneIdentityPerWorker (db : Database) : Prop :=
  ∀ m ∈ db.mappings, ∀ m' ∈ db.mappings, m.enabled = true → m'.enabled = true →
    m.entra_oid ≠ m'.entra_oid → ¬ SameWorker m m'

instance : DecidablePred OneIdentityPerWorker := fun db =>
  inferInstanceAs (Decidable (∀ m ∈ db.mappings, ∀ m' ∈ db.mappings, _ → _ → _ → ¬ _))

/-- A commit of a mapping comes when every row of its worker under another oid was
in the table already when the writer looked. -/
def ChecksHold (_ : Call) (o : Op) (s : Database) (l : Session) (_ : Except Exc o.Answer) :
    Prop :=
  o.isCommit = true → ∀ m ∈ l.added, ∀ m' ∈ s.mappings,
    m'.entra_oid ≠ m.entra_oid → SameWorker m' m → m' ∈ l.seen

instance (c : Call) (o : Op) (s : Database) (l : Session) (r : Except Exc o.Answer) :
    Decidable (ChecksHold c o s l r) :=
  inferInstanceAs (Decidable (_ → ∀ m ∈ l.added, ∀ m' ∈ s.mappings, _ → _ → _))

/-- **One employee, one identity**, in every state of every run of the writers in
which no row of the same worker is committed between a writer's conflict query
and its commit. -/
theorem one_identity_per_worker {configurations : List EntityMapping}
    {hkeys : (configurations.map EntityMapping.mapping_key).Nodup} {P : Portal.Pool}
    (h : (writers.given ChecksHold).Reaches ⟨.empty configurations hkeys, []⟩ P) :
    OneIdentityPerWorker P.store := by
  have hsymm : ∀ {m m'}, SameWorker m m' → SameWorker m' m := fun h => ⟨h.1.symm, h.2.symm⟩
  have hexclusive : Exclusive SameWorker P.store := by
    refine inv_of_reaches (S := writers.given ChecksHold) rfl rfl
      (fun _ => ⟨fun hsem => hsem.1, fun _ => trivial, id⟩)
      (fun _ => commits_exclusive hsymm rfl (fun _ _ => trivial) ?_)
      (fun _ _ _ henv => henv.elim) h (.empty _ _)
    intro s₁ s₂ s₃ m hist l₂ l₃ _ hfree hseen hpending hsem m' hm' hne hsame
    have hm : m ∈ l₂.added := by simp [Session.added, hpending]
    have hold := hsem.2 rfl m hm m' hm' hne hsame
    rw [hseen] at hold
    exact (hfree m' hold).2 hsame
  exact fun m hm m' hm' _ _ => hexclusive.apart m hm m' hm'

/-! ## One after the other -/

/-- The same personnel number, and companies equal ignoring case. -/
def SameWorkerFolded (m m' : Mapping) : Prop :=
  m.d365_personnel_number = m'.d365_personnel_number ∧
    casefold (m.d365_company.getD "") = casefold (m'.d365_company.getD "")

instance (m m' : Mapping) : Decidable (SameWorkerFolded m m') :=
  inferInstanceAs (Decidable (_ ∧ _))

/-- No two enabled and verified rows of different oids are of one worker, ignoring
the case of the company. -/
def OneIdentityPerFoldedWorker (db : Database) : Prop :=
  ∀ m ∈ db.mappings, ∀ m' ∈ db.mappings, m.enabled = true ∧ m.verified = true →
    m'.enabled = true ∧ m'.verified = true → m.entra_oid ≠ m'.entra_oid →
    ¬ SameWorkerFolded m m'

instance : DecidablePred OneIdentityPerFoldedWorker := fun db =>
  inferInstanceAs (Decidable (∀ m ∈ db.mappings, ∀ m' ∈ db.mappings, _ → _ → _ → ¬ _))

/-- At a commit of a mapping, the stored rows of its worker under other oids spell
the company as it does. -/
def SpelledAlike (_ : Call) (o : Op) (s : Database) (l : Session) (_ : Except Exc o.Answer) :
    Prop :=
  o.isCommit = true → ∀ m ∈ l.added, ∀ m' ∈ s.mappings,
    m'.entra_oid ≠ m.entra_oid → SameWorkerFolded m' m → m'.d365_company = m.d365_company

instance (c : Call) (o : Op) (s : Database) (l : Session) (r : Except Exc o.Answer) :
    Decidable (SpelledAlike c o s l r) :=
  inferInstanceAs (Decidable (_ → ∀ m ∈ l.added, ∀ m' ∈ s.mappings, _ → _ → _))

/-- **Case cannot split one worker in two**, in every state of every sequential run
of the writers in which the rows of a worker spell its company in one way. -/
theorem one_identity_per_folded_worker {configurations : List EntityMapping}
    {hkeys : (configurations.map EntityMapping.mapping_key).Nodup} {P : Portal.Pool}
    (h : (writers.given SpelledAlike).SeqReaches ⟨.empty configurations hkeys, []⟩ P) :
    OneIdentityPerFoldedWorker P.store := by
  have hsymm : ∀ {m m'}, SameWorkerFolded m m' → SameWorkerFolded m' m :=
    fun h => ⟨h.1.symm, h.2.symm⟩
  have hcommits : ∀ c, Commits (.solo (Exclusive SameWorkerFolded))
      ((writers.given SpelledAlike).sem c) := by
    refine fun c => commits_exclusive hsymm rfl (fun _ _ => trivial) ?_
    rintro s₁ _ s₃ m hist l₂ l₃ rfl hfree _ hpending hsem m' hm' hne hsame
    have hm : m ∈ l₂.added := by simp [Session.added, hpending]
    exact (hfree m' hm').2 ⟨hsame.1, hsem.2 rfl m hm m' hm' hne hsame⟩
  have hexclusive : Exclusive SameWorkerFolded P.store := by
    refine System.inv_of_seqReaches (S := writers.given SpelledAlike) (fun c s _ _ => ?_)
      (fun _ _ henv => henv.elim) h (fun _ ht => by cases ht) (.empty _ hkeys)
    exact (body_safe ⟨fun hsem => hsem.1, fun _ => trivial, id⟩ (hcommits c) c s).mono
      fun _ _ _ _ => trivial
  exact fun m hm m' hm' _ _ => hexclusive.apart m hm m' hm'

end Uniqueness

/-! ## Two runs of the tool -/

section Example

open scoped Ascii

/-- Approve a worker of number 000123 for the UUID that ends in `digit`. -/
def approve (digit company : String) : Call := .createIdentityMapping {
  oid := "00000000-0000-0000-0000-00000000000" ++ digit
  personnel_number := "000123"
  company := company
  approved_by_oid := exampleUser.oid }

/-- The tool's run `i` after its conflict query: the id, the two rows, the commit. -/
def insertRows (i : ℕ) (id : Uuid) : List (System.Cue Hint Call) :=
  [.run i (.uuid id), .run i .go, .run i .go, .run i .go]

/-- Both runs look for a conflict before either commits. -/
def overlappingRuns : List (System.Cue Hint Call) :=
  [.spawn (approve "a" "usmf"), .spawn (approve "b" "usmf"), .run 0 .go, .run 1 .go] ++
    insertRows 0 firstId ++ insertRows 1 secondId

/-- Two approvals of one worker for two users, overlapping, both succeed. -/
theorem not_one_identity_per_worker :
    ¬ ∀ P : Portal.Pool, writers.Reaches ⟨exampleDatabase, []⟩ P →
      OneIdentityPerWorker P.store := by
  intro hall
  have hrun : (System.play writers (fun _ => Op.play) overlappingRuns
      ⟨exampleDatabase, []⟩).any (fun P => ¬ OneIdentityPerWorker P.store) = true := by
    decide +kernel
  obtain ⟨P, hplay, hP⟩ := (Option.any_eq_true _ _).mp hrun
  exact of_decide_eq_true hP
    (hall P (System.play_reaches (fun _ _ _ _ _ _ _ _ => Op.play_sem) hplay))

/-- Overlapping approvals of two workers leave two rows, apart. -/
theorem one_identity_per_worker_overlapping :
    ∃ P : Portal.Pool, P.store.mappings.length = 2 ∧ OneIdentityPerWorker P.store := by
  have hrun : (System.play (writers.given ChecksHold) (System.heed (fun _ => Op.play) ChecksHold)
      ([.spawn (approve "a" "usmf"), .spawn (approve "b" "usrt"), .run 0 .go, .run 1 .go] ++
        insertRows 0 firstId ++ insertRows 1 secondId)
      ⟨exampleDatabase, []⟩).any (fun P => P.store.mappings.length = 2) = true := by
    decide +kernel
  obtain ⟨P, hplay, hP⟩ := (Option.any_eq_true _ _).mp hrun
  have h := System.play_reaches
    (System.heed_sem (S := writers) (fun _ _ _ _ _ _ _ _ => Op.play_sem) ChecksHold) hplay
  exact ⟨P, of_decide_eq_true hP, one_identity_per_worker h⟩

/-- One approval after the other, of companies `c` and `c'`. -/
def successiveRuns (c c' : String) : List (System.Cue Hint Call) :=
  .spawn (approve "a" c) :: .run 0 .go :: insertRows 0 firstId ++
    .spawn (approve "b" c') :: .run 1 .go :: insertRows 1 secondId

/-- Two approvals of one worker for two users, its company in capitals once, both
succeed. -/
theorem not_one_identity_per_folded_worker :
    ¬ ∀ P : Portal.Pool, writers.SeqReaches ⟨exampleDatabase, []⟩ P →
      OneIdentityPerFoldedWorker P.store := by
  intro hall
  have hrun : (System.playSeq writers (fun _ => Op.play) (successiveRuns "usmf" "USMF")
      ⟨exampleDatabase, []⟩).any (fun P => ¬ OneIdentityPerFoldedWorker P.store) = true := by
    decide +kernel
  obtain ⟨P, hplay, hP⟩ := (Option.any_eq_true _ _).mp hrun
  exact of_decide_eq_true hP
    (hall P (System.playSeq_seqReaches (fun _ _ _ _ _ _ _ _ => Op.play_sem) hplay))

/-- Successive approvals in two companies leave two rows, apart. -/
theorem one_identity_per_folded_worker_successive :
    ∃ P : Portal.Pool, P.store.mappings.length = 2 ∧ OneIdentityPerFoldedWorker P.store := by
  have hrun : (System.playSeq (writers.given SpelledAlike)
      (System.heed (fun _ => Op.play) SpelledAlike) (successiveRuns "usmf" "USRT")
      ⟨exampleDatabase, []⟩).any (fun P => P.store.mappings.length = 2) = true := by
    decide +kernel
  obtain ⟨P, hplay, hP⟩ := (Option.any_eq_true _ _).mp hrun
  have h := System.playSeq_seqReaches
    (System.heed_sem (S := writers) (fun _ _ _ _ _ _ _ _ => Op.play_sem) SpelledAlike) hplay
  exact ⟨P, of_decide_eq_true hP, one_identity_per_folded_worker h⟩

end Example

end EmployeePortal
