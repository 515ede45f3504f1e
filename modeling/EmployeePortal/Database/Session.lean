import EmployeePortal.Core.Exceptions
import EmployeePortal.Database.Models
import EmployeePortal.Framework.Schedules

/-!
# Sessions

What a coroutine of the portal awaits, and what each of these operations may
answer. A select sees the committed rows, in any order; a commit writes the
added objects all at once or is refused by the schema; every database operation
may fail; D365 answers whatever it likes.

A session remembers what it did. No operation looks at that memory: it is there
so that a statement can say what a request has read, fetched and written.
-/

namespace EmployeePortal

open EmployeePortal.Python EmployeePortal.Framework

/-! ## Where clauses -/

inductive Column where
  | entra_oid
  | d365_personnel_number
  | d365_company

def Column.of : Column → Mapping → Option String
  | entra_oid, m => m.entra_oid
  | d365_personnel_number, m => some m.d365_personnel_number
  | d365_company, m => m.d365_company

inductive Flag where
  | verified
  | enabled

def Flag.of : Flag → Mapping → Bool
  | verified, m => m.verified
  | enabled, m => m.enabled

/-- Conditions on a row of `employee_identity_mapping`. -/
inductive Where where
  | eq (column : Column) (value : String)
  | is_true (flag : Flag)
  | and_ (v w : Where)
  | or_ (v w : Where)

/-- The row is selected. A comparison with NULL is not true, and neither `and_`
nor `or_` can make it so. -/
def Where.holds : Where → Mapping → Bool
  | eq column value, m => column.of m = some value
  | is_true flag, m => flag.of m
  | and_ v w, m => v.holds m && w.holds m
  | or_ v w, m => v.holds m || w.holds m

namespace Where

variable {m : Mapping} {v w : Where}

@[simp] theorem holds_eq {column : Column} {value : String} :
    (eq column value).holds m = true ↔ column.of m = some value := decide_eq_true_iff

@[simp] theorem holds_is_true {flag : Flag} :
    (is_true flag).holds m = true ↔ flag.of m = true := Iff.rfl

@[simp] theorem holds_and :
    (and_ v w).holds m = true ↔ v.holds m = true ∧ w.holds m = true :=
  Bool.and_eq_true_iff

@[simp] theorem holds_or :
    (or_ v w).holds m = true ↔ v.holds m = true ∨ w.holds m = true :=
  Bool.or_eq_true_iff

end Where

/-! ## Operations -/

inductive Op where
  /-- `session.scalars(select(EmployeeIdentityMapping).where(w))` -/
  | scalars (w : Where)
  /-- `session.scalar(select(EmployeeIdentityMapping).where(w))` -/
  | scalar (w : Where)
  /-- `session.scalar(select(D365EntityMapping).where(mapping_key == .., enabled))` -/
  | configuration (mapping_key : String)
  | add (row : Row)
  | commit
  | rollback
  | uuid4
  /-- A request to D365, retries included. -/
  | getEntity (entity : String) (params : Dict String)

abbrev Op.Answer : Op → Type
  | scalars _ => List Mapping
  | scalar _ => Option Mapping
  | configuration _ => Option EntityMapping
  | add _ | commit | rollback => Unit
  | uuid4 => Uuid
  | getEntity _ _ => Dict Json

def Op.isCommit : Op → Bool
  | commit => true
  | _ => false

/-- A coroutine of the portal. -/
abbrev Coroutine (α : Type) : Type := Prog Op Op.Answer Exc α

/-- A request D365 answered. -/
structure Exchange where
  entity : String
  params : Dict String
  payload : Dict Json

/-- The objects added since the last commit, and what the session did so far:
the rows it selected, the mapping table at its last select, the configurations
it loaded, the requests D365 answered and the rows it committed. -/
structure Session where
  pending : List Row := []
  read : List Mapping := []
  seen : List Mapping := []
  loaded : List EntityMapping := []
  answered : List Exchange := []
  committed : List Row := []

namespace Session

/-- The mappings added since the last commit. -/
def added (l : Session) : List Mapping :=
  l.pending.filterMap fun
    | .mapping m => some m
    | _ => none

def select (l : Session) (db : Database) (rows : List Mapping) : Session :=
  { l with read := l.read ++ rows, seen := db.mappings }

@[simp] theorem pending_select (l : Session) (db : Database) (rows : List Mapping) :
    (l.select db rows).pending = l.pending := rfl

@[simp] theorem read_select (l : Session) (db : Database) (rows : List Mapping) :
    (l.select db rows).read = l.read ++ rows := rfl

@[simp] theorem seen_select (l : Session) (db : Database) (rows : List Mapping) :
    (l.select db rows).seen = db.mappings := rfl

@[simp] theorem answered_select (l : Session) (db : Database) (rows : List Mapping) :
    (l.select db rows).answered = l.answered := rfl

@[simp] theorem committed_select (l : Session) (db : Database) (rows : List Mapping) :
    (l.select db rows).committed = l.committed := rfl

end Session

/-! ## What an operation may answer -/

/-- `Sem o db l r db' l'`: awaited by session `l` at database `db`, the operation
`o` may answer `r` and leave `db'` and `l'`. -/
inductive Sem : (o : Op) → Database → Session → Except Exc o.Answer →
    Database → Session → Prop where
  | selected {w db l rows} (h : rows.Perm (db.mappings.filter w.holds)) :
      Sem (.scalars w) db l (.ok rows) db (l.select db rows)
  | selectFailed {w db l} : Sem (.scalars w) db l (.error .databaseError) db l
  | first {w db l m} (h : m ∈ db.mappings.filter w.holds) :
      Sem (.scalar w) db l (.ok (some m)) db (l.select db [m])
  | nothing {w db l} (h : db.mappings.filter w.holds = []) :
      Sem (.scalar w) db l (.ok none) db (l.select db [])
  | firstFailed {w db l} : Sem (.scalar w) db l (.error .databaseError) db l
  | loaded {k db l} :
      Sem (.configuration k) db l (.ok (db.configuration k)) db
        { l with loaded := l.loaded ++ (db.configuration k).toList }
  | loadFailed {k db l} : Sem (.configuration k) db l (.error .databaseError) db l
  | added {row db l} :
      Sem (.add row) db l (.ok ()) db { l with pending := l.pending ++ [row] }
  | committed {db db' l} (h : db.commit l.pending = some db') :
      Sem .commit db l (.ok ()) db'
        { l with pending := [], committed := l.committed ++ l.pending }
  | refused {db l} (h : db.commit l.pending = none) :
      Sem .commit db l (.error .integrityError) db { l with pending := [] }
  | commitFailed {db l} :
      Sem .commit db l (.error .databaseError) db { l with pending := [] }
  | rolledBack {db l} : Sem .rollback db l (.ok ()) db { l with pending := [] }
  | rollbackFailed {db l} :
      Sem .rollback db l (.error .databaseError) db { l with pending := [] }
  | generated {u db l} : Sem .uuid4 db l (.ok u) db l
  | answered {entity params payload db l} :
      Sem (.getEntity entity params) db l (.ok payload) db
        { l with answered := l.answered ++ [⟨entity, params, payload⟩] }
  | unanswered {entity params e db l} :
      Sem (.getEntity entity params) db l (.error e) db l

/-- Only a commit changes the database, and then by the session's added objects. -/
theorem Sem.store {o : Op} {db db' : Database} {l l' : Session} {r : Except Exc o.Answer}
    (h : Sem o db l r db' l') :
    db' = db ∨ db.commit l.pending = some db' ∧ l'.committed = l.committed ++ l.pending := by
  cases h
  case committed h => exact Or.inr ⟨h, rfl⟩
  all_goals exact Or.inl rfl

/-- An operation that is no commit leaves the database alone. -/
theorem Sem.keeps {o : Op} {db db' : Database} {l l' : Session} {r : Except Exc o.Answer}
    (h : Sem o db l r db' l') (ho : o ≠ .commit) : db' = db := by
  cases h
  case committed => exact absurd rfl ho
  all_goals rfl

/-! ## Playing an operation -/

/-- What a schedule decides where the operation leaves it open. -/
inductive Hint where
  /-- As the database answers, in table order. -/
  | go
  | fail
  | uuid (u : Uuid)
  | payload (p : Dict Json)
  | raise (e : Exc)

def Op.play : (o : Op) → Database → Session → Hint →
    Option (Except Exc o.Answer × Database × Session)
  | .scalars w, db, l, .go =>
      let rows := db.mappings.filter w.holds
      some (.ok rows, db, l.select db rows)
  | .scalars _, db, l, .fail => some (.error .databaseError, db, l)
  | .scalar w, db, l, .go =>
      match db.mappings.filter w.holds with
      | [] => some (.ok none, db, l.select db [])
      | m :: _ => some (.ok (some m), db, l.select db [m])
  | .scalar _, db, l, .fail => some (.error .databaseError, db, l)
  | .configuration k, db, l, .go =>
      some (.ok (db.configuration k), db,
        { l with loaded := l.loaded ++ (db.configuration k).toList })
  | .configuration _, db, l, .fail => some (.error .databaseError, db, l)
  | .add row, db, l, .go => some (.ok (), db, { l with pending := l.pending ++ [row] })
  | .commit, db, l, .go =>
      match db.commit l.pending with
      | some db' => some (.ok (), db',
          { l with pending := [], committed := l.committed ++ l.pending })
      | none => some (.error .integrityError, db, { l with pending := [] })
  | .commit, db, l, .fail => some (.error .databaseError, db, { l with pending := [] })
  | .rollback, db, l, .go => some (.ok (), db, { l with pending := [] })
  | .rollback, db, l, .fail => some (.error .databaseError, db, { l with pending := [] })
  | .uuid4, db, l, .uuid u => some (.ok u, db, l)
  | .getEntity entity params, db, l, .payload p =>
      some (.ok p, db, { l with answered := l.answered ++ [⟨entity, params, p⟩] })
  | .getEntity _ _, db, l, .raise e => some (.error e, db, l)
  | _, _, _, _ => none

theorem Op.play_sem {o : Op} {db db' : Database} {l l' : Session} {hint : Hint}
    {r : Except Exc o.Answer} (h : o.play db l hint = some (r, db', l')) :
    Sem o db l r db' l' := by
  cases o <;> cases hint <;>
    simp only [Op.play, Option.some.injEq, Prod.mk.injEq, reduceCtorEq] at h
  case scalars.go w => obtain ⟨rfl, rfl, rfl⟩ := h; exact .selected (List.Perm.refl _)
  case scalars.fail => obtain ⟨rfl, rfl, rfl⟩ := h; exact .selectFailed
  case scalar.go w =>
    split at h
    · rename_i heq
      obtain ⟨rfl, rfl, rfl⟩ := by simpa using h
      exact .nothing heq
    · rename_i m ms heq
      obtain ⟨rfl, rfl, rfl⟩ := by simpa using h
      exact .first (heq ▸ List.mem_cons_self)
  case scalar.fail => obtain ⟨rfl, rfl, rfl⟩ := h; exact .firstFailed
  case configuration.go => obtain ⟨rfl, rfl, rfl⟩ := h; exact .loaded
  case configuration.fail => obtain ⟨rfl, rfl, rfl⟩ := h; exact .loadFailed
  case add.go => obtain ⟨rfl, rfl, rfl⟩ := h; exact .added
  case commit.go =>
    split at h
    · rename_i heq
      obtain ⟨rfl, rfl, rfl⟩ := by simpa using h
      exact .committed heq
    · rename_i heq
      obtain ⟨rfl, rfl, rfl⟩ := by simpa using h
      exact .refused heq
  case commit.fail => obtain ⟨rfl, rfl, rfl⟩ := h; exact .commitFailed
  case rollback.go => obtain ⟨rfl, rfl, rfl⟩ := h; exact .rolledBack
  case rollback.fail => obtain ⟨rfl, rfl, rfl⟩ := h; exact .rollbackFailed
  case uuid4.uuid => obtain ⟨rfl, rfl, rfl⟩ := h; exact .generated
  case getEntity.payload => obtain ⟨rfl, rfl, rfl⟩ := h; exact .answered
  case getEntity.raise => obtain ⟨rfl, rfl, rfl⟩ := h; exact .unanswered

end EmployeePortal
