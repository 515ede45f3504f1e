import EmployeePortal.Framework.EventLoop

/-!
# Histories of a loop

A run of a loop turn by turn, with the pool before and after every turn: what a run has
to say about its own past.
-/

namespace EmployeePortal.Framework

variable {O : Type} {A : O → Type} {ε α σ ℓ C : Type}

/-- One turn of a run. -/
structure Moment (O : Type) (A : O → Type) (ε α σ ℓ C : Type) where
  before : Pool O A ε α σ ℓ C
  move : Move C
  after : Pool O A ε α σ ℓ C

/-- The turn is one of call `i`, its first one included. -/
def Moment.By (x : Moment O A ε α σ ℓ C) (i : ℕ) : Prop :=
  x.move = .run i ∨ ∃ c, x.move = .spawn c ∧ x.before.threads.length = i

theorem Moment.By.unique {x : Moment O A ε α σ ℓ C} {i j : ℕ} (hi : x.By i) (hj : x.By j) :
    i = j := by
  rcases hi with hrun | ⟨c, hspawn, rfl⟩
  · rcases hj with hrun' | ⟨c, hspawn, -⟩
    · exact Move.run.inj (hrun.symm.trans hrun')
    · cases hrun.symm.trans hspawn
  · rcases hj with hrun | ⟨c', -, rfl⟩
    · cases hrun.symm.trans hspawn
    · rfl

/-- At most one turn of the history is in `p`. -/
def Once (p : Moment O A ε α σ ℓ C → Prop) (h : List (Moment O A ε α σ ℓ C)) : Prop :=
  h.Pairwise fun x y => ¬ (p x ∧ p y)

theorem Once.concat {p : Moment O A ε α σ ℓ C → Prop} {h : List (Moment O A ε α σ ℓ C)}
    (honce : Once p h) {x : Moment O A ε α σ ℓ C} (hx : p x → ∀ y ∈ h, ¬ p y) :
    Once p (h ++ [x]) := by
  refine List.pairwise_append.mpr ⟨honce, List.pairwise_singleton _ _, ?_⟩
  intro y hy z hz
  obtain rfl := List.mem_singleton.mp hz
  exact fun hboth => hx hboth.2 y hy hboth.1

/-- Where each `p i` happens at most once, all of them together do if only one `i` has a turn
in it. -/
theorem Once.exists_iff {I : Type} {p : I → Moment O A ε α σ ℓ C → Prop}
    {h : List (Moment O A ε α σ ℓ C)} (hown : ∀ i, Once (p i) h)
    (hdistinct : ∀ i j x, p i x → p j x → i = j) :
    Once (fun x => ∃ i, p i x) h ↔
      ∀ i j, (∃ x ∈ h, p i x) → (∃ y ∈ h, p j y) → i = j := by
  constructor
  · rintro honce i j ⟨x, hx, hi⟩ ⟨y, hy, hj⟩
    obtain ⟨a, ha, rfl⟩ := List.getElem_of_mem hx
    obtain ⟨b, hb, rfl⟩ := List.getElem_of_mem hy
    have hpair := List.pairwise_iff_getElem.mp honce
    rcases lt_trichotomy a b with hlt | rfl | hgt
    · exact absurd ⟨⟨i, hi⟩, ⟨j, hj⟩⟩ (hpair a b ha hb hlt)
    · exact hdistinct i j _ hi hj
    · exact absurd ⟨⟨j, hj⟩, ⟨i, hi⟩⟩ (hpair b a hb ha hgt)
  · intro hsame
    refine List.pairwise_iff_getElem.mpr ?_
    rintro a b ha hb hab ⟨⟨i, hi⟩, ⟨j, hj⟩⟩
    obtain rfl := hsame i j ⟨_, List.getElem_mem ha, hi⟩ ⟨_, List.getElem_mem hb, hj⟩
    exact List.pairwise_iff_getElem.mp (hown i) a b ha hb hab ⟨hi, hj⟩

/-- The first turn of a history that is in `p`. -/
theorem exists_first {p : Moment O A ε α σ ℓ C → Prop} {h : List (Moment O A ε α σ ℓ C)}
    (hsome : ∃ x ∈ h, p x) : ∃ a x b, h = a ++ x :: b ∧ p x ∧ ∀ y ∈ a, ¬ p y := by
  induction h with
  | nil =>
    obtain ⟨x, hx, -⟩ := hsome
    cases hx
  | cons y h ih =>
    by_cases hy : p y
    · exact ⟨[], y, h, rfl, hy, nofun⟩
    · obtain ⟨x, hx, hp⟩ := hsome
      have hrest : x ∈ h := (List.mem_cons.mp hx).resolve_left fun heq => hy (heq ▸ hp)
      obtain ⟨a, z, b, rfl, hz, hno⟩ := ih ⟨x, hrest, hp⟩
      refine ⟨y :: a, z, b, rfl, hz, ?_⟩
      intro w hw
      rcases List.mem_cons.mp hw with rfl | hw
      · exact hy
      · exact hno w hw

namespace Loop

variable {L : Loop O A ε α σ ℓ C} {P P' Q : Pool O A ε α σ ℓ C}
  {h h' : List (Moment O A ε α σ ℓ C)}

/-- The turns of a run from `P` to `P'`. -/
def History (L : Loop O A ε α σ ℓ C) :
    Pool O A ε α σ ℓ C → List (Moment O A ε α σ ℓ C) → Pool O A ε α σ ℓ C → Prop
  | P, [], P' => P' = P
  | P, x :: h, P' => x.before = P ∧ L.Turn P x.move x.after ∧ History L x.after h P'

theorem history_append :
    L.History P (h ++ h') P' ↔ ∃ Q, L.History P h Q ∧ L.History Q h' P' := by
  induction h generalizing P with
  | nil =>
    constructor
    · intro hrun
      exact ⟨P, rfl, hrun⟩
    · rintro ⟨Q, rfl, hrun⟩
      exact hrun
  | cons x h ih =>
    constructor
    · rintro ⟨hbefore, hturn, hrest⟩
      obtain ⟨Q, hfirst, hlast⟩ := ih.mp hrest
      exact ⟨Q, ⟨hbefore, hturn, hfirst⟩, hlast⟩
    · rintro ⟨Q, ⟨hbefore, hturn, hfirst⟩, hlast⟩
      exact ⟨hbefore, hturn, ih.mpr ⟨Q, hfirst, hlast⟩⟩

theorem history_concat {x : Moment O A ε α σ ℓ C} :
    L.History P (h ++ [x]) P' ↔
      L.History P h x.before ∧ L.Turn x.before x.move x.after ∧ P' = x.after := by
  rw [history_append]
  constructor
  · rintro ⟨Q, hfirst, rfl, hturn, rfl⟩
    exact ⟨hfirst, hturn, rfl⟩
  · rintro ⟨hfirst, hturn, rfl⟩
    exact ⟨x.before, hfirst, rfl, hturn, rfl⟩

theorem History.reaches (hrun : L.History P h P') : L.Reaches P P' := by
  induction h generalizing P with
  | nil =>
    obtain rfl : P' = P := hrun
    exact .refl
  | cons x h ih => exact .head ⟨x.move, hrun.2.1⟩ (ih hrun.2.2)

/-- Every run has a history. -/
theorem Reaches.history (hreach : L.Reaches P P') : ∃ h, L.History P h P' := by
  induction hreach with
  | refl => exact ⟨[], rfl⟩
  | @tail Q Q' _ hturn ih =>
    obtain ⟨h, hrun⟩ := ih
    obtain ⟨m, hm⟩ := hturn
    exact ⟨h ++ [⟨Q, m, Q'⟩], history_concat.mpr ⟨hrun, hm, rfl⟩⟩

/-- A turn of another call leaves call `i` as it is. -/
theorem getElem?_of_not_by {x : Moment O A ε α σ ℓ C} (hturn : L.Turn x.before x.move x.after)
    {i : ℕ} (hnot : ¬ x.By i) : x.after.threads[i]? = x.before.threads[i]? := by
  obtain ⟨P, m, P'⟩ := x
  cases hturn with
  | @spawn s ts p s' l' c hc hrun =>
    have hne : ts.length ≠ i := fun heq => hnot (Or.inr ⟨c, rfl, heq⟩)
    rcases lt_or_gt_of_ne hne with hlt | hgt
    · change (ts ++ [_])[i]? = ts[i]?
      rw [List.getElem?_eq_none (by simp; omega), List.getElem?_eq_none hlt.le]
    · exact List.getElem?_append_left hgt
  | @run s ts j t o k r s₁ l₁ p s' l' ht hop hsem hrun =>
    have hne : j ≠ i := fun heq => hnot (Or.inl (by rw [heq]))
    exact List.getElem?_set_ne hne
  | env he => rfl

theorem History.getElem?_eq (hrun : L.History P h P') {i : ℕ} (hnot : ∀ x ∈ h, ¬ x.By i) :
    P'.threads[i]? = P.threads[i]? := by
  induction h generalizing P with
  | nil =>
    obtain rfl : P' = P := hrun
    rfl
  | cons x h ih =>
    obtain ⟨rfl, hturn, hrest⟩ := hrun
    rw [ih hrest fun y hy => hnot y (List.mem_cons_of_mem x hy)]
    exact getElem?_of_not_by hturn (hnot x List.mem_cons_self)

end Loop

end EmployeePortal.Framework
