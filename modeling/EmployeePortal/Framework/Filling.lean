import EmployeePortal.Framework.Locks

/-!
# Filling in operations

A program over abstract operations becomes one over concrete operations when each of
its operations is replaced by a program (`Prog.fill`). Filling respects sequencing and
handlers, and what each replacement keeps to, the whole keeps to.
-/

namespace EmployeePortal.Framework

variable {O O' : Type} {A : O → Type} {A' : O' → Type} {ε α β γ σ σ' ℓ ℓ' C C' τ τ' ι ι' : Type}

namespace Prog

/-- Every operation replaced by its program, whose exceptions are the operation's. -/
def fill (impl : (o : O) → Prog O' A' ε (A o)) : Prog O A ε α → Prog O' A' ε α
  | ret a => ret a
  | raise e => raise e
  | op o k => (impl o).attempt >>= fun r => fill impl (k r)

section Fill

variable (impl : (o : O) → Prog O' A' ε (A o))

@[simp] theorem fill_ret (a : α) : fill impl (ret a : Prog O A ε α) = ret a := rfl

@[simp] theorem fill_raise (e : ε) : fill impl (raise e : Prog O A ε α) = raise e := rfl

@[simp] theorem fill_op (o : O) (k : Except ε (A o) → Prog O A ε α) :
    fill impl (op o k) = (impl o).attempt >>= fun r => fill impl (k r) := rfl

@[simp] theorem fill_ofExcept (x : Except ε α) :
    fill impl (ofExcept x : Prog O A ε α) = ofExcept x := by
  cases x <;> rfl

/-- To attempt and raise again is nothing. -/
theorem attempt_bind_ofExcept (p : Prog O A ε α) : p.attempt >>= ofExcept = p := by
  induction p with
  | ret a => rfl
  | raise e => rfl
  | op o k ih => exact congrArg (op o) (funext ih)

@[simp] theorem fill_perform (o : O) : fill impl (perform o : Prog O A ε (A o)) = impl o := by
  change ((impl o).attempt >>= fun r => fill impl (ofExcept r)) = impl o
  simp only [fill_ofExcept]
  exact attempt_bind_ofExcept (impl o)

theorem Only.of_forall {P : O → Prop} (hP : ∀ o, P o) (p : Prog O A ε α) : p.Only P := by
  induction p with
  | ret a => trivial
  | raise e => trivial
  | op o k ih => exact ⟨hP o, ih⟩

theorem Only.mono {P P' : O → Prop} {p : Prog O A ε α} (hp : p.Only P) (hP : ∀ o, P o → P' o) :
    p.Only P' := by
  induction p with
  | ret a => trivial
  | raise e => trivial
  | op o k ih => exact ⟨hP o hp.1, fun r => ih r (hp.2 r)⟩

/-- What the replacements may come to, the filled program may come to. -/
theorem Only.fill {P : O → Prop} {P' : O' → Prop} {p : Prog O A ε α} (hp : p.Only P)
    (himpl : ∀ o, P o → (impl o).Only P') : (p.fill impl).Only P' := by
  induction p with
  | ret a => trivial
  | raise e => trivial
  | op o k ih => exact .bind (.attempt (himpl o hp.1)) fun r => ih r (hp.2 r)

end Fill

/-! ## The last word -/

/-- `p`, and then `g` decides what its result amounts to. -/
def conclude (g : Except ε α → Except ε β) (p : Prog O A ε α) : Prog O A ε β :=
  p.attempt >>= fun r => ofExcept (g r)

section Conclude

variable (g : Except ε α → Except ε β)

@[simp] theorem conclude_ofExcept (x : Except ε α) :
    conclude g (ofExcept x : Prog O A ε α) = ofExcept (g x) := by
  cases x <;> rfl

@[simp] theorem conclude_op (o : O) (k : Except ε (A o) → Prog O A ε α) :
    conclude g (op o k) = op o fun r => conclude g (k r) := rfl

theorem Only.conclude {P : O → Prop} {p : Prog O A ε α} (hp : p.Only P) :
    (p.conclude g).Only P :=
  .bind (.attempt hp) fun _ => .ofExcept _

end Conclude

/-- A program with a result performs nothing. -/
theorem eq_ofExcept_of_result {p : Prog O A ε α} {x : Except ε α} (h : p.result = some x) :
    p = ofExcept x := by
  cases p with
  | ret a =>
    obtain rfl := Option.some.inj h
    rfl
  | raise e =>
    obtain rfl := Option.some.inj h
    rfl
  | op o k => cases h

theorem exists_op_of_result {p : Prog O A ε α} (h : p.result = none) : ∃ o k, p = op o k := by
  cases p with
  | ret a => cases h
  | raise e => cases h
  | op o k => exact ⟨o, k, rfl⟩

end Prog

/-! ## Protocols of filled programs -/

/-- Where every replacement keeps to `next'` and moves along with `next`, so does the filled
program; `ρ` relates the states of the two protocols. -/
theorem Obeys.fill {impl : (o : O) → Prog O' A' ε (A o)} {next : Protocol O A ε τ}
    {next' : Protocol O' A' ε τ'} (ρ : τ → τ' → Prop)
    (himpl : ∀ o q q', ρ q q' → (∀ r, ∃ q₁, next q o r = some q₁) →
      Obeys next' (fun r q₁' => ∃ q₁, next q o r = some q₁ ∧ ρ q₁ q₁') (impl o) q')
    {Q : Except ε α → τ → Prop} {p : Prog O A ε α} {q : τ} {q' : τ'} (h : Obeys next Q p q)
    (hρ : ρ q q') : Obeys next' (fun r q' => ∃ q, ρ q q' ∧ Q r q) (p.fill impl) q' := by
  induction p generalizing q q' with
  | ret a => exact ⟨q, hρ, h⟩
  | raise e => exact ⟨q, hρ, h⟩
  | op o k ih =>
    rw [Prog.fill_op, bind_iff, attempt_iff]
    have hallowed : ∀ r, ∃ q₁, next q o r = some q₁ := fun r => (h r).imp fun _ => And.left
    refine (himpl o q q' hρ hallowed).mono ?_
    rintro r q₁' ⟨q₁, hnext, hρ₁⟩
    obtain ⟨q₂, hnext₂, hk⟩ := h r
    obtain rfl := Option.some.inj (hnext.symm.trans hnext₂)
    exact ih r hk hρ₁

theorem Always.fill {impl : (o : O) → Prog O' A' ε (A o)} {next' : Protocol O' A' ε τ'}
    (himpl : ∀ o, Always next' (impl o)) (p : Prog O A ε α) : Always next' (p.fill impl) := by
  induction p with
  | ret a => exact fun _ => trivial
  | raise e => exact fun _ => trivial
  | op o k ih => exact .bind (.attempt (himpl o)) ih

theorem Obeys.conclude_iff {next : Protocol O A ε τ} {Q : Except ε β → τ → Prop}
    {g : Except ε α → Except ε β} {p : Prog O A ε α} {q : τ} :
    Obeys next Q (p.conclude g) q ↔ Obeys next (fun r => Q (g r)) p q := by
  have hend : ∀ r q, Obeys next Q (Prog.ofExcept (g r)) q ↔ Q (g r) q := fun _ _ => ofExcept_iff
  rw [Prog.conclude, bind_iff, attempt_iff]
  exact ⟨fun h => h.mono fun r q => (hend r q).mp, fun h => h.mono fun r q => (hend r q).mpr⟩

theorem Always.conclude {next : Protocol O A ε τ} {p : Prog O A ε α} (hp : Always next p)
    (g : Except ε α → Except ε β) : Always next (p.conclude g) :=
  .bind (.attempt hp) fun _ _ => Obeys.ofExcept_iff.mpr trivial

namespace Locks

variable [DecidableEq ι] {L : Loop O' A' ε γ σ ℓ C} {K : Locks L ι}

theorem brackets_fill {impl : (o : O) → Prog O' A' ε (A o)}
    (himpl : ∀ o, K.Brackets (impl o) none) (p : Prog O A ε α) :
    K.Brackets (p.fill impl) none := by
  induction p with
  | ret a => rfl
  | raise e => rfl
  | op o k ih => exact brackets_bind (brackets_attempt (himpl o)) ih

theorem brackets_conclude {p : Prog O' A' ε α} (hp : K.Brackets p none)
    (g : Except ε α → Except ε β) : K.Brackets (p.conclude g) none :=
  brackets_bind (brackets_attempt hp) fun _ => Obeys.ofExcept_iff.mpr rfl

end Locks

section Lift

variable {L : Loop O A ε β σ ℓ C} {L' : Loop O' A' ε γ σ' ℓ' C'} [DecidableEq ι] [DecidableEq ι']
  {K : Locks L ι} {K' : Locks L' ι'} {f : ι → ι'}

/-- The locks of a part, among those of the whole. -/
theorem Locks.next_lift {o : O} {o' : O'} {r : Except ε (A o)}
    {r' : Except ε (A' o')} (hacquires : K'.acquires o' = (K.acquires o).map f)
    (hreleases : K'.releases o' = (K.releases o).map f) (hok : r'.isOk = r.isOk)
    {held held' : Option ι} (h : K.next held o r = some held') :
    K'.next (held.map f) o' r' = some (held'.map f) := by
  unfold next at h ⊢
  rw [hacquires, hreleases, hok]
  cases hacq : K.acquires o with
  | some i =>
    rw [hacq] at h
    obtain ⟨rfl, hheld'⟩ := Option.ite_none_right_eq_some.mp h
    obtain rfl := Option.some.inj hheld'
    cases hr : r.isOk <;> rfl
  | none =>
    rw [hacq] at h
    cases hrel : K.releases o with
    | some i =>
      rw [hrel] at h
      obtain ⟨rfl, hheld'⟩ := Option.ite_none_right_eq_some.mp h
      obtain rfl := Option.some.inj hheld'
      exact if_pos rfl
    | none =>
      rw [hrel] at h
      obtain rfl := Option.some.inj h
      rfl

/-- Calls of a part bracket their locks in the whole. -/
theorem Locks.brackets_lift {impl : (o : O) → Prog O' A' ε (A o)}
    (himpl : ∀ o held, (∀ r, ∃ held', K.next held o r = some held') →
      Obeys K'.next (fun r q => ∃ held', K.next held o r = some held' ∧ q = held'.map f) (impl o)
        (held.map f))
    {p : Prog O A ε α} (h : K.Brackets p none) : K'.Brackets (p.fill impl) none := by
  have hfilled : Obeys K'.next (fun _ q => ∃ held, q = Option.map f held ∧ held = none)
      (p.fill impl) none := by
    refine Obeys.fill (fun held q => q = Option.map f held) ?_ h rfl
    rintro o held _ rfl hallowed
    exact himpl o held hallowed
  refine hfilled.mono ?_
  rintro r q ⟨held, rfl, rfl⟩
  rfl

end Lift

/-! ## Contracts of filled programs -/

/-- A contract on a part of the store. -/
def Contract.comap (get : σ' → σ) (K : Contract σ) : Contract σ' where
  inv := fun s => K.inv (get s)
  rely := fun s s' => K.rely (get s) (get s')
  guar := fun s s' => K.guar (get s) (get s')
  live := K.live
  rely_refl := fun s => K.rely_refl (get s)
  rely_trans := K.rely_trans

/-- Where each replacement keeps of the larger store what its operation keeps of the part, so
does the filled program. -/
theorem Keeps.fill {K : Contract σ} {get : σ' → σ} {view : ℓ' → ℓ} {sync : Statements O A ε σ ℓ}
    {sem : OpSem O A ε σ ℓ} {sync' : Statements O' A' ε σ' ℓ'} {sem' : OpSem O' A' ε σ' ℓ'}
    {impl : (o : O) → Prog O' A' ε (A o)}
    (himpl : ∀ {o Q s₀ s l}, Keeps K sync sem Q (Prog.perform o) (get s₀) (get s) (view l) →
      Keeps (K.comap get) sync' sem' (fun r s₀ s l' => Q r (get s₀) (get s) (view l')) (impl o)
        s₀ s l)
    {p : Prog O A ε α} {Q : Except ε α → σ → σ → ℓ → Prop} {s₀ s : σ'} {l : ℓ'}
    (h : Keeps K sync sem Q p (get s₀) (get s) (view l)) :
    Keeps (K.comap get) sync' sem' (fun r s₀ s l' => Q r (get s₀) (get s) (view l'))
      (p.fill impl) s₀ s l := by
  induction p generalizing s₀ s l with
  | ret a => exact h
  | raise e => exact h
  | op o k ih =>
    have hperform : Keeps K sync sem (fun r s₀ s l => Keeps K sync sem Q (k r) s₀ s l)
        (Prog.perform o) (get s₀) (get s) (view l) := by
      cases ho : sync o with
      | some f => exact (perform_sync ho).mpr ((op_sync ho).mp h)
      | none => exact (perform_await ho).mpr ((op_await ho).mp h)
    rw [Prog.fill_op, bind_iff, attempt_iff]
    exact (himpl hperform).mono fun r _ _ _ hk => ih r hk

end EmployeePortal.Framework
