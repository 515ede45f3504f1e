import EmployeePortal.Framework.Traces
import Mathlib.Data.List.Forall2

/-!
# Two runs side by side

Two programs go in lockstep when they perform the same operations as long as these are
answered alike, and end alike: with the same exception, or with values that are related.
-/

namespace EmployeePortal.Framework

variable {O : Type} {A : O → Type} {ε α α' β β' : Type}

/-- Both results are one exception, or values in `Q`. -/
inductive Alike (Q : α → α' → Prop) : Except ε α → Except ε α' → Prop
  | ok {a : α} {a' : α'} (h : Q a a') : Alike Q (.ok a) (.ok a')
  | error (e : ε) : Alike Q (.error e) (.error e)

namespace Alike

variable {Q : α → α' → Prop} {Q' : β → β' → Prop}

theorem bind {x : Except ε α} {x' : Except ε α'} {f : α → Except ε β} {f' : α' → Except ε β'}
    (h : Alike Q x x') (hf : ∀ a a', Q a a' → Alike Q' (f a) (f' a')) :
    Alike Q' (x >>= f) (x' >>= f') := by
  cases h with
  | ok h => exact hf _ _ h
  | error e => exact .error e

theorem eq {x x' : Except ε α} (h : Alike Eq x x') : x = x' := by
  cases h with
  | ok h => rw [h]
  | error e => rfl

/-- A loop over two lists, item by item. -/
theorem mapM {γ γ' : Type} {R : γ → γ' → Prop} {f : γ → Except ε α} {f' : γ' → Except ε α'}
    (hf : ∀ c c', R c c' → Alike Q (f c) (f' c')) {cs : List γ} {cs' : List γ'}
    (h : List.Forall₂ R cs cs') : Alike (List.Forall₂ Q) (cs.mapM f) (cs'.mapM f') := by
  induction h with
  | nil => exact .ok .nil
  | cons hfirst _ ih =>
    rw [List.mapM_cons, List.mapM_cons]
    refine bind (hf _ _ hfirst) fun a a' ha => bind ih fun as as' has => ?_
    exact .ok (.cons ha has)

end Alike

/-! ## Traces -/

/-- Where both traces perform the same operation at the same position, the answers are
in `R`. -/
def Paired (R : (o : O) → Except ε (A o) → Except ε (A o) → Prop) (es es' : List (Event O A ε)) :
    Prop :=
  ∀ (n : ℕ) o r r', es[n]? = some ⟨o, r⟩ → es'[n]? = some ⟨o, r'⟩ → R o r r'

namespace Paired

variable {R : (o : O) → Except ε (A o) → Except ε (A o) → Prop}

theorem nil : Paired R [] [] := fun _ _ _ _ h => by cases h

theorem cons {o : O} {r r' : Except ε (A o)} {es es' : List (Event O A ε)} (h : R o r r')
    (hrest : Paired R es es') : Paired R (⟨o, r⟩ :: es) (⟨o, r'⟩ :: es') := by
  intro n o' s s' hes hes'
  cases n with
  | zero =>
    cases hes
    cases hes'
    exact h
  | succ n => exact hrest n o' s s' hes hes'

theorem tail {e e' : Event O A ε} {es es' : List (Event O A ε)}
    (h : Paired R (e :: es) (e' :: es')) : Paired R es es' := fun n => h (n + 1)

end Paired

/-! ## Programs -/

/-- The programs go in lockstep while the answers to each operation are in `R`. -/
inductive Lockstep (R : (o : O) → Except ε (A o) → Except ε (A o) → Prop) (Q : α → α' → Prop) :
    Prog O A ε α → Prog O A ε α' → Prop
  | ret {a : α} {a' : α'} (h : Q a a') : Lockstep R Q (.ret a) (.ret a')
  | raise (e : ε) : Lockstep R Q (.raise e) (.raise e)
  | op {o : O} {k : Except ε (A o) → Prog O A ε α} {k' : Except ε (A o) → Prog O A ε α'}
      (h : ∀ r r', R o r r' → Lockstep R Q (k r) (k' r')) : Lockstep R Q (.op o k) (.op o k')

namespace Lockstep

variable {R : (o : O) → Except ε (A o) → Except ε (A o) → Prop} {Q : α → α' → Prop}
  {Q' : β → β' → Prop}

theorem ofExcept {x : Except ε α} {x' : Except ε α'} (h : Alike Q x x') :
    Lockstep R Q (Prog.ofExcept x) (Prog.ofExcept x') := by
  cases h with
  | ok h => exact .ret h
  | error e => exact .raise e

theorem bind {p : Prog O A ε α} {p' : Prog O A ε α'} {f : α → Prog O A ε β}
    {f' : α' → Prog O A ε β'} (h : Lockstep R Q p p')
    (hf : ∀ a a', Q a a' → Lockstep R Q' (f a) (f' a')) : Lockstep R Q' (p >>= f) (p' >>= f') := by
  induction h with
  | ret h => exact hf _ _ h
  | raise e => exact .raise e
  | op _ ih => exact .op ih

/-- A check that both make. -/
theorem check {x : Except ε α} {f : α → Prog O A ε β} {f' : α → Prog O A ε β'}
    (h : ∀ a, x = .ok a → Lockstep R Q' (f a) (f' a)) :
    Lockstep R Q' (Prog.ofExcept x >>= f) (Prog.ofExcept x >>= f') := by
  cases x with
  | ok a => exact h a rfl
  | error e => exact .raise e

/-- Two runs of such programs perform the same operations and end alike, when the answers
at each position where they perform the same one are in `R`. -/
theorem run {p : Prog O A ε α} {p' : Prog O A ε α'} (h : Lockstep R Q p p')
    {es es' : List (Event O A ε)} {x : Except ε α} {x' : Except ε α'} (hrun : p.Run es x)
    (hrun' : p'.Run es' x')
    (hanswers : Paired R es es') :
    Alike Q x x' ∧ es.map Sigma.fst = es'.map Sigma.fst := by
  induction h generalizing es es' with
  | ret h =>
    obtain ⟨rfl, rfl⟩ := hrun
    obtain ⟨rfl, rfl⟩ := hrun'
    exact ⟨.ok h, rfl⟩
  | raise e =>
    obtain ⟨rfl, rfl⟩ := hrun
    obtain ⟨rfl, rfl⟩ := hrun'
    exact ⟨.error e, rfl⟩
  | op h ih =>
    obtain ⟨r, rest, rfl, hrest⟩ := hrun
    obtain ⟨r', rest', rfl, hrest'⟩ := hrun'
    have hfirst := hanswers 0 _ r r' rfl rfl
    obtain ⟨hend, hsame⟩ := ih r r' hfirst hrest hrest' hanswers.tail
    refine ⟨hend, ?_⟩
    rw [List.map_cons, List.map_cons, hsame]

end Lockstep

end EmployeePortal.Framework
