import EmployeePortal.Framework.Filling
import Mathlib.Algebra.Order.Monoid.Canonical.Defs

/-!
# Programs within a budget

The terms on which operations are used say which of them a program may perform, at what
price, and what each of them may answer. `Prog.Within` is the program logic for that:
prices add up along a program, and as long as the answers are as granted, so is its
result. Where all calls of a loop keep within their budgets, what a session has
spent never exceeds the budget of its call (`Loop.within_of_reaches`).
-/

namespace EmployeePortal.Framework

variable {O O' : Type} {A : O → Type} {A' : O' → Type} {ε α β σ ℓ C M M' : Type}

/-- Which operations may be performed, at what price, and what they may answer. -/
structure Terms (O : Type) (A : O → Type) (ε M : Type) where
  allowed : O → Prop
  price : O → M
  grants : (o : O) → Except ε (A o) → Prop

section Within

variable [AddCommMonoid M] [PartialOrder M]

/-- For every answer the terms grant: the program performs what it may for `n` at most, and `Q`
holds of its result. -/
def Prog.Within (T : Terms O A ε M) (Q : Except ε α → Prop) : M → Prog O A ε α → Prop
  | _, .ret a => Q (.ok a)
  | _, .raise e => Q (.error e)
  | n, .op o k => T.allowed o ∧ ∃ m, T.price o + m ≤ n ∧
      ∀ r, T.grants o r → Prog.Within T Q m (k r)

namespace Prog.Within

variable {T : Terms O A ε M} {Q : Except ε α → Prop} {p : Prog O A ε α} {n m : M}

theorem mono {Q' : Except ε α → Prop} (h : Within T Q n p) (hn : n ≤ m)
    (hQ : ∀ r, Q r → Q' r) : Within T Q' m p := by
  induction p generalizing n m with
  | ret a => exact hQ _ h
  | raise e => exact hQ _ h
  | op o k ih =>
    obtain ⟨hallowed, n', hprice, hk⟩ := h
    exact ⟨hallowed, n', hprice.trans hn, fun r hr => ih r (hk r hr) le_rfl⟩

@[simp] theorem ofExcept_iff {x : Except ε α} :
    Within T Q n (Prog.ofExcept x : Prog O A ε α) ↔ Q x := by
  cases x <;> exact Iff.rfl

theorem perform {o : O} {Q : Except ε (A o) → Prop} (ho : T.allowed o)
    (hQ : ∀ r, T.grants o r → Q r) :
    Within T Q (T.price o) (Prog.perform o : Prog O A ε (A o)) :=
  ⟨ho, 0, (add_zero _).le, fun r hr => ofExcept_iff.mpr (hQ r hr)⟩

theorem tell {o : O} {Q : Except ε Unit → Prop} (ho : T.allowed o) (hQ : Q (.ok ())) :
    Within T Q (T.price o) (Prog.tell o : Prog O A ε Unit) :=
  ⟨ho, 0, (add_zero _).le, fun _ _ => hQ⟩

/-- A call whose exception is kept for later. -/
theorem attempt (hp : Within T Q n p) :
    Within T (fun r => ∃ x, r = .ok x ∧ Q x) n p.attempt := by
  induction p generalizing n with
  | ret a => exact ⟨_, rfl, hp⟩
  | raise e => exact ⟨_, rfl, hp⟩
  | op o k ih =>
    obtain ⟨hallowed, n', hprice, hk⟩ := hp
    exact ⟨hallowed, n', hprice, fun r hr => ih r (hk r hr)⟩

/-- Where any answer is granted, the program performs what it may and nothing else. -/
theorem only (h : Within T Q n p) (hT : ∀ o r, T.grants o r) : p.Only T.allowed := by
  induction p generalizing n with
  | ret a => trivial
  | raise e => trivial
  | op o k ih =>
    obtain ⟨hallowed, n', -, hk⟩ := h
    exact ⟨hallowed, fun r => ih r (hk r (hT o r))⟩

section Ordered

variable [IsOrderedAddMonoid M] [CanonicallyOrderedAdd M]

/-- Prices add up. -/
theorem bind {R : Except ε α → Prop} {Q : Except ε β → Prop} {f : α → Prog O A ε β}
    (hp : Within T R n p) (hf : ∀ a, R (.ok a) → Within T Q m (f a))
    (hraise : ∀ e, R (.error e) → Q (.error e)) : Within T Q (n + m) (p >>= f) := by
  induction p generalizing n with
  | ret a => exact (hf a hp).mono le_add_self fun _ h => h
  | raise e => exact hraise e hp
  | op o k ih =>
    obtain ⟨hallowed, n', hprice, hk⟩ := hp
    refine ⟨hallowed, n' + m, ?_, fun r hr => ih r (hk r hr)⟩
    rw [← add_assoc]
    exact add_le_add_left hprice m

theorem tryCatch {R : Except ε α → Prop} {h : ε → Prog O A ε α} (hp : Within T R n p)
    (hreturn : ∀ a, R (.ok a) → Q (.ok a)) (hcatch : ∀ e, R (.error e) → Within T Q m (h e)) :
    Within T Q (n + m) (tryCatchThe ε p h) := by
  induction p generalizing n with
  | ret a => exact hreturn a hp
  | raise e => exact (hcatch e hp).mono le_add_self fun _ h => h
  | op o k ih =>
    obtain ⟨hallowed, n', hprice, hk⟩ := hp
    refine ⟨hallowed, n' + m, ?_, fun r hr => ih r (hk r hr)⟩
    rw [← add_assoc]
    exact add_le_add_left hprice m

theorem attempt_bind {R : Except ε α → Prop} {Q : Except ε β → Prop}
    {f : Except ε α → Prog O A ε β} (hp : Within T R n p)
    (hf : ∀ x, R x → Within T Q m (f x)) : Within T Q (n + m) (p.attempt >>= f) := by
  refine bind (attempt hp) ?_ ?_
  · rintro x ⟨y, hxy, hy⟩
    exact Except.ok.inj hxy ▸ hf y hy
  · rintro e ⟨x, he, -⟩
    cases he

theorem conclude {Q : Except ε β → Prop} {g : Except ε α → Except ε β}
    (hp : Within T (fun r => Q (g r)) n p) : Within T Q n (p.conclude g) := by
  rw [← add_zero n]
  exact attempt_bind hp fun _ h => ofExcept_iff.mpr h

end Ordered

/-- Every operation replaced by a program that keeps within its price. -/
theorem fill [AddCommMonoid M'] [PartialOrder M'] [IsOrderedAddMonoid M'] [CanonicallyOrderedAdd M']
    {T' : Terms O' A' ε M'} (f : M →+ M') (hf : Monotone f)
    {impl : (o : O) → Prog O' A' ε (A o)}
    (himpl : ∀ o, T.allowed o → Within T' (T.grants o) (f (T.price o)) (impl o))
    (hp : Within T Q n p) : Within T' Q (f n) (p.fill impl) := by
  induction p generalizing n with
  | ret a => exact hp
  | raise e => exact hp
  | op o k ih =>
    obtain ⟨hallowed, n', hprice, hk⟩ := hp
    have hsum : f (T.price o) + f n' ≤ f n := by
      rw [← map_add]
      exact hf hprice
    exact (attempt_bind (himpl o hallowed) fun r hr => ih r (hk r hr)).mono hsum fun _ h => h

end Prog.Within

/-! ## Programs that may raise -/

/-- Within the budget, and it raises only what is in `E`. -/
abbrev Prog.Spends (T : Terms O A ε M) (E : ε → Prop) (n : M) (p : Prog O A ε α) : Prop :=
  p.Within T (fun r => ∀ e, r = .error e → E e) n

namespace Prog.Spends

variable {T : Terms O A ε M} {E : ε → Prop} {n m : M}

theorem mono {E' : ε → Prop} {p : Prog O A ε α} (h : p.Spends T E n) (hn : n ≤ m)
    (hE : ∀ e, E e → E' e) : p.Spends T E' m :=
  Within.mono h hn fun _ hr e he => hE e (hr e he)

theorem ret (a : α) : (Prog.ret a : Prog O A ε α).Spends T E n := by
  intro e he
  cases he

theorem raise {e : ε} (h : E e) : (Prog.raise e : Prog O A ε α).Spends T E n := by
  intro e' he
  exact Except.error.inj he ▸ h

theorem ofExcept {x : Except ε α} (h : ∀ e, x = .error e → E e) :
    (Prog.ofExcept x : Prog O A ε α).Spends T E n :=
  Within.ofExcept_iff.mpr h

theorem perform {o : O} (ho : T.allowed o)
    (hE : ∀ r, T.grants o r → ∀ e, r = .error e → E e) :
    (Prog.perform o : Prog O A ε (A o)).Spends T E (T.price o) :=
  Within.perform ho hE

theorem tell {o : O} (ho : T.allowed o) :
    (Prog.tell o : Prog O A ε Unit).Spends T E (T.price o) :=
  Within.tell ho fun e he => by cases he

section Ordered

variable [IsOrderedAddMonoid M] [CanonicallyOrderedAdd M]

theorem bind {p : Prog O A ε α} {f : α → Prog O A ε β} (hp : p.Spends T E n)
    (hf : ∀ a, (f a).Spends T E m) : (p >>= f).Spends T E (n + m) :=
  Within.bind hp (fun a _ => hf a) fun e h e' he => h e' (by rw [Except.error.inj he])

theorem ofExcept_bind {x : Except ε α} {f : α → Prog O A ε β} (hx : ∀ e, x = .error e → E e)
    (hf : ∀ a, (f a).Spends T E n) : (Prog.ofExcept x >>= f).Spends T E n := by
  rw [← zero_add n]
  exact bind (ofExcept hx) hf

/-- An operation that costs nothing, and what follows. -/
theorem perform_bind {o : O} {f : A o → Prog O A ε β} (ho : T.allowed o) (hprice : T.price o = 0)
    (hE : ∀ r, T.grants o r → ∀ e, r = .error e → E e) (hf : ∀ a, (f a).Spends T E n) :
    (Prog.perform o >>= f).Spends T E n := by
  rw [← zero_add n, ← hprice]
  exact bind (perform ho hE) hf

/-- Before what costs nothing. -/
theorem bind_free {p : Prog O A ε α} {f : α → Prog O A ε β} (hp : p.Spends T E n)
    (hf : ∀ a, (f a).Spends T E 0) : (p >>= f).Spends T E n := by
  rw [← add_zero n]
  exact bind hp hf

/-- After what costs nothing. -/
theorem free_bind {p : Prog O A ε α} {f : α → Prog O A ε β} (hp : p.Spends T E 0)
    (hf : ∀ a, (f a).Spends T E n) : (p >>= f).Spends T E n := by
  rw [← zero_add n]
  exact bind hp hf

omit [IsOrderedAddMonoid M] [CanonicallyOrderedAdd M] in
theorem tell_bind {o : O} {f : Unit → Prog O A ε β} (ho : T.allowed o) (hprice : T.price o = 0)
    (hf : (f ()).Spends T E n) : (Prog.tell o >>= f).Spends T E n :=
  ⟨ho, n, by rw [hprice, zero_add], fun _ _ => hf⟩

/-- What the handler makes of an exception may cost something too. -/
theorem tryCatch {E' : ε → Prop} {p : Prog O A ε α} {h : ε → Prog O A ε α} (hp : p.Spends T E' n)
    (hcatch : ∀ e, E' e → (h e).Spends T E m) : (tryCatchThe ε p h).Spends T E (n + m) :=
  Within.tryCatch hp (fun _ _ e he => by cases he) fun e hraise => hcatch e (hraise e rfl)

/-- A body between two steps that cost nothing. -/
theorem inside {enter leave : Prog O A ε Unit} {p : Prog O A ε α} (henter : enter.Spends T E 0)
    (hp : p.Spends T E n) (hleave : leave.Spends T E 0) :
    (Prog.inside enter leave p).Spends T E n := by
  refine free_bind henter fun _ => ?_
  rw [← add_zero n]
  exact Within.attempt_bind hp fun x hx => free_bind hleave fun _ => ofExcept hx

end Ordered

end Prog.Spends

/-! ## The calls of a loop -/

/-- **No call exceeds its budget**, in every order of turns: what its session has spent and what
is left of its program together keep within it. -/
theorem Loop.within_of_reaches [IsOrderedAddMonoid M] {L : Loop O A ε α σ ℓ C}
    {P : Pool O A ε α σ ℓ C} {T : C → Terms O A ε M} (Q : C → Except ε α → Prop) (budget : C → M)
    (spent : ℓ → M) (hstart : spent L.start = 0)
    (hgrants : ∀ c o s l r s' l', L.Does c o s l r s' l' → (T c).grants o r)
    (hspent : ∀ c o s l r s' l', L.Does c o s l r s' l' → spent l' = spent l + (T c).price o)
    (hbody : ∀ c, L.admits c → (L.body c).Within (T c) (Q c) (budget c)) {s : σ}
    (h : L.Reaches ⟨s, []⟩ P) : ∀ t ∈ P.threads, ∃ n, spent t.sess + n ≤ budget t.call ∧
      t.prog.Within (T t.call) (Q t.call) n := by
  refine Loop.held_of_reaches (fun c p l => ∃ n, spent l + n ≤ budget c ∧ p.Within (T c) (Q c) n)
    (fun c hc => ?_) ?_ h
  · exact ⟨budget c, by rw [hstart, zero_add], hbody c hc⟩
  · rintro c o k s l r s' l' hdoes ⟨n, hn, -, m, hm, hk⟩
    refine ⟨m, ?_, hk r (hgrants _ _ _ _ _ _ _ hdoes)⟩
    rw [hspent _ _ _ _ _ _ _ hdoes, add_assoc]
    exact (add_le_add_right hm _).trans hn

end Within

end EmployeePortal.Framework
