import Mathlib.Data.List.Chain
import Mathlib.Data.Option.Basic

/-!
# Machines driven by events

One state, and events that are possible in it or not. A run is a list of
events, each possible where it happens; an invariant that every step keeps,
given a condition on the state before it, holds wherever a run leads whose steps
all meet the condition. Where a property depends only on the last step that has a
label, it holds all along a run exactly when no two labels that follow each other
spoil it.
-/

namespace EmployeePortal.Framework.Machine

variable {σ ε : Type} (step : σ → ε → Option σ)

/-- The state a run leads to, `none` where some event was not possible. -/
def run (s : σ) (es : List ε) : Option σ := es.foldlM step s

@[simp] theorem run_nil (s : σ) : run step s [] = some s := rfl

@[simp] theorem run_cons (s : σ) (e : ε) (es : List ε) :
    run step s (e :: es) = (step s e).bind fun s' => run step s' es := rfl

/-- Every event of the run meets `p` at the state it happens in. -/
def Throughout (p : σ → ε → Prop) : σ → List ε → Prop
  | _, [] => True
  | s, e :: es => p s e ∧ ∀ s', step s e = some s' → Throughout p s' es

instance decidableThroughout (p : σ → ε → Prop) [∀ s e, Decidable (p s e)] :
    ∀ s es, Decidable (Throughout step p s es)
  | _, [] => .isTrue trivial
  | s, e :: es =>
    match h : step s e with
    | none => decidable_of_iff (p s e) (by simp [Throughout, h])
    | some s' =>
      have := decidableThroughout p s' es
      decidable_of_iff (p s e ∧ Throughout step p s' es) (by simp [Throughout, h])

variable {step} {p : σ → ε → Prop} {inv : σ → Prop} {s s' : σ} {es : List ε}

theorem inv_of_run (hstep : ∀ {s e s'}, inv s → p s e → step s e = some s' → inv s')
    (h : run step s es = some s') (hp : Throughout step p s es) (hs : inv s) : inv s' := by
  induction es generalizing s with
  | nil => cases h; exact hs
  | cons e es ih =>
    obtain ⟨s₁, hs₁, h⟩ := Option.bind_eq_some_iff.mp h
    exact ih h (hp.2 s₁ hs₁) (hstep hs hp.1 hs₁)

/-- What every step keeps. -/
theorem kept_of_run (hstep : ∀ {s e s'}, inv s → step s e = some s' → inv s')
    (h : run step s es = some s') (hs : inv s) : inv s' := by
  induction es generalizing s with
  | nil => cases h; exact hs
  | cons e es ih =>
    obtain ⟨s₁, hs₁, h⟩ := Option.bind_eq_some_iff.mp h
    exact ih h (hstep hs hs₁)

section Labels

variable {label : Type} (labelOf : σ → ε → Option label)

variable (step) in
/-- The property holds in every state the run comes through. -/
def Always (q : σ → Prop) : σ → List ε → Prop
  | s, [] => q s
  | s, e :: es => q s ∧ ∀ s', step s e = some s' → Always q s' es

variable (step) in
/-- The labels of the steps of a run, for those that have one. -/
def labels : σ → List ε → List label
  | _, [] => []
  | s, e :: es =>
    match step s e with
    | none => []
    | some s' => (labelOf s e).toList ++ labels s' es

theorem Always.head {q : σ → Prop} (h : Always step q s es) : q s := by
  cases es with
  | nil => exact h
  | cons e es => exact h.1

theorem always_and {q q' : σ → Prop} :
    Always step (fun s => q s ∧ q' s) s es ↔ Always step q s es ∧ Always step q' s es := by
  induction es generalizing s with
  | nil => exact Iff.rfl
  | cons e es ih =>
    simp only [Always, ih]
    constructor
    · rintro ⟨⟨hq, hq'⟩, h⟩
      exact ⟨⟨hq, fun s' hs' => (h s' hs').1⟩, hq', fun s' hs' => (h s' hs').2⟩
    · rintro ⟨⟨hq, h⟩, hq', h'⟩
      exact ⟨⟨hq, hq'⟩, fun s' hs' => ⟨h s' hs', h' s' hs'⟩⟩

variable {labelOf} {compatible : label → label → Prop} {q : σ → Prop}

/-- The last label says what the state shows; the next one either shows again, or
breaks the property at once. -/
theorem always_iff_isChain (shows : label → σ → Prop) (hshows : ∀ {l s}, shows l s → q s)
    (hquiet : ∀ {l s e s'}, shows l s → labelOf s e = none → step s e = some s' → shows l s')
    (hnext : ∀ {l l' s e s'}, shows l s → labelOf s e = some l' → step s e = some s' →
      compatible l l' ∧ shows l' s' ∨ ¬ compatible l l' ∧ ¬ q s') {l : label}
    (hs : shows l s) :
    Always step q s es ↔ (l :: labels step labelOf s es).IsChain compatible := by
  induction es generalizing l s with
  | nil => exact iff_of_true (hshows hs) (List.isChain_singleton l)
  | cons e es ih =>
    rw [Always, labels]
    cases hstep : step s e with
    | none => exact iff_of_true ⟨hshows hs, fun s' h => by cases h⟩ (List.isChain_singleton l)
    | some s' =>
      have htail : (q s ∧ ∀ s₁, some s' = some s₁ → Always step q s₁ es) ↔ Always step q s' es :=
        ⟨fun h => h.2 s' rfl, fun h => ⟨hshows hs, fun s₁ h₁ => Option.some.inj h₁ ▸ h⟩⟩
      rw [htail]
      cases hlabel : labelOf s e with
      | none => exact ih (hquiet hs hlabel hstep)
      | some l' =>
        dsimp only
        rw [Option.toList_some, List.singleton_append, List.isChain_cons_cons]
        rcases hnext hs hlabel hstep with ⟨hcompatible, hs'⟩ | ⟨hspoilt, hbroken⟩
        · exact (ih hs').trans ⟨fun h => ⟨hcompatible, h⟩, And.right⟩
        · exact iff_of_false (fun h => hbroken h.head) fun h => hspoilt h.1

end Labels

end EmployeePortal.Framework.Machine
