import EmployeePortal.Database.Session

/-!
# One rule for each operation

The rules of a coroutine of the portal under rely and guarantee. They hold for
every restriction `sem` of what the operations may answer, and hand the answer
as `sem` gives it to the proof that uses them, so one proof about a coroutine
serves runs under different assumptions.
-/

namespace EmployeePortal

open EmployeePortal.Python EmployeePortal.Framework

/-- Await one operation. -/
abbrev await (o : Op) : Coroutine o.Answer := Prog.perform o

/-- `sem` allows nothing the operations do not, and the contract allows an
operation that leaves the database alone and does not ask that there be an answer. -/
structure Conforms (K : Contract Database) (sem : OpSem Op Op.Answer Exc Database Session) :
    Prop where
  sub : ∀ {o s l r s' l'}, sem o s l r s' l' → Sem o s l r s' l'
  still : ∀ s, K.guar s s
  lax : ¬ K.live

/-- The session did nothing that concerns the database; it may have loaded
configurations and asked D365. -/
structure Session.Idle (l l' : Session) : Prop where
  pending : l'.pending = l.pending
  read : l'.read = l.read
  seen : l'.seen = l.seen
  committed : l'.committed = l.committed
  loaded : l.loaded ⊆ l'.loaded
  answered : l.answered ⊆ l'.answered

namespace Session.Idle

theorem refl (l : Session) : l.Idle l :=
  ⟨rfl, rfl, rfl, rfl, List.Subset.refl _, List.Subset.refl _⟩

theorem trans {l₁ l₂ l₃ : Session} (h : l₁.Idle l₂) (h' : l₂.Idle l₃) : l₁.Idle l₃ where
  pending := h'.pending.trans h.pending
  read := h'.read.trans h.read
  seen := h'.seen.trans h.seen
  committed := h'.committed.trans h.committed
  loaded := List.Subset.trans h.loaded h'.loaded
  answered := List.Subset.trans h.answered h'.answered

theorem load (l : Session) (xs : List EntityMapping) :
    l.Idle { l with loaded := l.loaded ++ xs } :=
  ⟨rfl, rfl, rfl, rfl, List.subset_append_left _ _, List.Subset.refl _⟩

theorem answer (l : Session) (xs : List Exchange) :
    l.Idle { l with answered := l.answered ++ xs } :=
  ⟨rfl, rfl, rfl, rfl, List.Subset.refl _, List.subset_append_left _ _⟩

end Session.Idle

namespace Conforms

variable {K : Contract Database} {sem : OpSem Op Op.Answer Exc Database Session}
  (hK : Conforms K sem) {s : Database} {l : Session}

include hK

theorem scalars {w : Where} {Q : Post Exc (List Mapping) Database Session}
    (hok : ∀ s₁ rows, K.rely s s₁ → K.inv s₁ → rows.Perm (s₁.mappings.filter w.holds) →
      sem (.scalars w) s₁ l (.ok rows) s₁ (l.select s₁ rows) →
      Q (.ok rows) s₁ (l.select s₁ rows))
    (herr : ∀ s₁, K.rely s s₁ → K.inv s₁ →
      sem (.scalars w) s₁ l (.error .databaseError) s₁ l → Q (.error .databaseError) s₁ l) :
    Safe K sem (await (.scalars w)) Q s l := by
  refine Safe.perform (fun _ _ _ h => absurd h hK.lax) fun s₁ hrely hinv r s₂ l₂ hsem => ?_
  cases hK.sub hsem with
  | selected h => exact ⟨hinv, hK.still _, hok _ _ hrely hinv h hsem⟩
  | selectFailed => exact ⟨hinv, hK.still _, herr _ hrely hinv hsem⟩

theorem scalar {w : Where} {Q : Post Exc (Option Mapping) Database Session}
    (hsome : ∀ s₁ m, K.rely s s₁ → K.inv s₁ → m ∈ s₁.mappings.filter w.holds →
      Q (.ok (some m)) s₁ (l.select s₁ [m]))
    (hnone : ∀ s₁, K.rely s s₁ → K.inv s₁ → s₁.mappings.filter w.holds = [] →
      Q (.ok none) s₁ (l.select s₁ []))
    (herr : ∀ s₁, K.rely s s₁ → K.inv s₁ → Q (.error .databaseError) s₁ l) :
    Safe K sem (await (.scalar w)) Q s l := by
  refine Safe.perform (fun _ _ _ h => absurd h hK.lax) fun s₁ hrely hinv r s₂ l₂ hsem => ?_
  cases hK.sub hsem with
  | first h => exact ⟨hinv, hK.still _, hsome _ _ hrely hinv h⟩
  | nothing h => exact ⟨hinv, hK.still _, hnone _ hrely hinv h⟩
  | firstFailed => exact ⟨hinv, hK.still _, herr _ hrely hinv⟩

theorem configuration {k : String} {Q : Post Exc (Option EntityMapping) Database Session}
    (hok : ∀ s₁, K.rely s s₁ → K.inv s₁ → Q (.ok (s₁.configuration k)) s₁
      { l with loaded := l.loaded ++ (s₁.configuration k).toList })
    (herr : ∀ s₁, K.rely s s₁ → K.inv s₁ →
      sem (.configuration k) s₁ l (.error .databaseError) s₁ l →
      Q (.error .databaseError) s₁ l) :
    Safe K sem (await (.configuration k)) Q s l := by
  refine Safe.perform (fun _ _ _ h => absurd h hK.lax) fun s₁ hrely hinv r s₂ l₂ hsem => ?_
  cases hK.sub hsem with
  | loaded => exact ⟨hinv, hK.still _, hok _ hrely hinv⟩
  | loadFailed => exact ⟨hinv, hK.still _, herr _ hrely hinv hsem⟩

theorem add {row : Row} {Q : Post Exc Unit Database Session}
    (hok : ∀ s₁, K.rely s s₁ → K.inv s₁ →
      Q (.ok ()) s₁ { l with pending := l.pending ++ [row] }) :
    Safe K sem (await (.add row)) Q s l := by
  refine Safe.perform (fun _ _ _ h => absurd h hK.lax) fun s₁ hrely hinv r s₂ l₂ hsem => ?_
  cases hK.sub hsem with
  | added => exact ⟨hinv, hK.still _, hok _ hrely hinv⟩

theorem commit {Q : Post Exc Unit Database Session}
    (hok : ∀ s₁ s₂ l₂, K.rely s s₁ → K.inv s₁ → s₁.commit l.pending = some s₂ →
      l₂ = { l with pending := [], committed := l.committed ++ l.pending } →
      sem .commit s₁ l (.ok ()) s₂ l₂ → K.inv s₂ ∧ K.guar s₁ s₂ ∧ Q (.ok ()) s₂ l₂)
    (hrefused : ∀ s₁, K.rely s s₁ → K.inv s₁ → s₁.commit l.pending = none →
      Q (.error .integrityError) s₁ { l with pending := [] })
    (herr : ∀ s₁, K.rely s s₁ → K.inv s₁ →
      sem .commit s₁ l (.error .databaseError) s₁ { l with pending := [] } →
      Q (.error .databaseError) s₁ { l with pending := [] }) :
    Safe K sem (await .commit) Q s l := by
  refine Safe.perform (fun _ _ _ h => absurd h hK.lax) fun s₁ hrely hinv r s₂ l₂ hsem => ?_
  cases hK.sub hsem with
  | committed h => exact hok _ _ _ hrely hinv h rfl hsem
  | refused h => exact ⟨hinv, hK.still _, hrefused _ hrely hinv h⟩
  | commitFailed => exact ⟨hinv, hK.still _, herr _ hrely hinv hsem⟩

theorem rollback {Q : Post Exc Unit Database Session}
    (hok : ∀ s₁, K.rely s s₁ → K.inv s₁ → Q (.ok ()) s₁ { l with pending := [] })
    (herr : ∀ s₁, K.rely s s₁ → K.inv s₁ →
      sem .rollback s₁ l (.error .databaseError) s₁ { l with pending := [] } →
      Q (.error .databaseError) s₁ { l with pending := [] }) :
    Safe K sem (await .rollback) Q s l := by
  refine Safe.perform (fun _ _ _ h => absurd h hK.lax) fun s₁ hrely hinv r s₂ l₂ hsem => ?_
  cases hK.sub hsem with
  | rolledBack => exact ⟨hinv, hK.still _, hok _ hrely hinv⟩
  | rollbackFailed => exact ⟨hinv, hK.still _, herr _ hrely hinv hsem⟩

theorem uuid4 {Q : Post Exc Uuid Database Session}
    (hok : ∀ s₁ u, K.rely s s₁ → K.inv s₁ → sem .uuid4 s₁ l (.ok u) s₁ l → Q (.ok u) s₁ l) :
    Safe K sem (await .uuid4) Q s l := by
  refine Safe.perform (fun _ _ _ h => absurd h hK.lax) fun s₁ hrely hinv r s₂ l₂ hsem => ?_
  cases hK.sub hsem with
  | generated => exact ⟨hinv, hK.still _, hok _ _ hrely hinv hsem⟩

theorem getEntity {entity : String} {params : Dict String}
    {Q : Post Exc (Dict Json) Database Session}
    (hok : ∀ s₁ payload l₁, K.rely s s₁ → K.inv s₁ →
      l₁ = { l with answered := l.answered ++ [⟨entity, params, payload⟩] } →
      sem (.getEntity entity params) s₁ l (.ok payload) s₁ l₁ → Q (.ok payload) s₁ l₁)
    (herr : ∀ s₁ e, K.rely s s₁ → K.inv s₁ →
      sem (.getEntity entity params) s₁ l (.error e) s₁ l → Q (.error e) s₁ l) :
    Safe K sem (await (.getEntity entity params)) Q s l := by
  refine Safe.perform (fun _ _ _ h => absurd h hK.lax) fun s₁ hrely hinv r s₂ l₂ hsem => ?_
  cases hK.sub hsem with
  | answered => exact ⟨hinv, hK.still _, hok _ _ _ hrely hinv rfl hsem⟩
  | unanswered => exact ⟨hinv, hK.still _, herr _ _ hrely hinv hsem⟩

end Conforms

end EmployeePortal
