import Mathlib.Logic.Relation
import Mathlib.Order.WellFounded

/-!
# Programs over operations

A coroutine is a finite tree: it returns, raises, or performs one operation
and goes on with what that operation answered. An operation may itself raise,
so the answer of `o` is an `Except`. The tree knows nothing about what the
operations do; a system (`Pool.lean`) gives them their meaning, and one step of
a schedule is one node of the tree.
-/

namespace EmployeePortal.Framework

/-- Programs over the operations `O`; the operation `o` answers in `A o`. -/
inductive Prog (O : Type) (A : O → Type) (ε α : Type) : Type where
  | ret (a : α)
  | raise (e : ε)
  | op (o : O) (k : Except ε (A o) → Prog O A ε α)

namespace Prog

variable {O : Type} {A : O → Type} {ε α β γ δ : Type}

protected def bind : Prog O A ε α → (α → Prog O A ε β) → Prog O A ε β
  | ret a, f => f a
  | raise e, _ => raise e
  | op o k, f => op o (fun r => (k r).bind f)

/-- `try: p except e: h e`. -/
protected def tryCatch : Prog O A ε α → (ε → Prog O A ε α) → Prog O A ε α
  | ret a, _ => ret a
  | raise e, h => h e
  | op o k, h => op o (fun r => (k r).tryCatch h)

instance : Monad (Prog O A ε) where
  pure := ret
  bind := Prog.bind

instance : MonadExceptOf ε (Prog O A ε) where
  throw := raise
  tryCatch := Prog.tryCatch

/-- A call that performs no operation. -/
def ofExcept : Except ε α → Prog O A ε α
  | .ok a => ret a
  | .error e => raise e

instance : MonadLift (Except ε) (Prog O A ε) := ⟨ofExcept⟩

/-- Await one operation. -/
def perform (o : O) : Prog O A ε (A o) := op o ofExcept

/-! ## The equations a proof computes with -/

@[simp] theorem pure_eq (a : α) : (pure a : Prog O A ε α) = ret a := rfl

@[simp] theorem throw_eq (e : ε) : (throw e : Prog O A ε α) = raise e := rfl

@[simp] theorem monadLift_eq (x : Except ε α) :
    (monadLift x : Prog O A ε α) = ofExcept x := rfl

@[simp] theorem liftM_eq (x : Except ε α) :
    (liftM x : Prog O A ε α) = ofExcept x := rfl

@[simp] theorem ofExcept_ok (a : α) :
    (ofExcept (.ok a) : Prog O A ε α) = ret a := rfl

@[simp] theorem ofExcept_error (e : ε) :
    (ofExcept (.error e) : Prog O A ε α) = raise e := rfl

/-- Two calls that perform no operation are one. -/
theorem ofExcept_bind (x : Except ε α) (f : α → Except ε β) :
    (ofExcept (x >>= f) : Prog O A ε β) = ofExcept x >>= fun a => ofExcept (f a) := by
  cases x <;> rfl

@[simp] theorem ret_bind (a : α) (f : α → Prog O A ε β) : ret a >>= f = f a := rfl

@[simp] theorem raise_bind (e : ε) (f : α → Prog O A ε β) :
    raise e >>= f = raise e := rfl

@[simp] theorem op_bind (o : O) (k : Except ε (A o) → Prog O A ε α)
    (f : α → Prog O A ε β) : op o k >>= f = op o (fun r => k r >>= f) := rfl

@[simp] theorem tryCatch_ret (a : α) (h : ε → Prog O A ε α) :
    tryCatch (ret a : Prog O A ε α) h = ret a := rfl

@[simp] theorem tryCatch_raise (e : ε) (h : ε → Prog O A ε α) :
    tryCatch (raise e : Prog O A ε α) h = h e := rfl

@[simp] theorem tryCatch_op (o : O) (k : Except ε (A o) → Prog O A ε α)
    (h : ε → Prog O A ε α) :
    tryCatch (op o k) h = op o (fun r => tryCatch (k r) h) := rfl

instance : LawfulMonad (Prog O A ε) := LawfulMonad.mk' _
  (fun p => by
    induction p with
    | ret a => rfl
    | raise e => rfl
    | op o k ih => exact congrArg (op o) (funext ih))
  (fun _ _ => rfl)
  (fun p f g => by
    induction p with
    | ret a => rfl
    | raise e => rfl
    | op o k ih => exact congrArg (op o) (funext ih))

/-! ## Results as values -/

/-- The result of a program, whichever it is, as a value. -/
def attempt (p : Prog O A ε α) : Prog O A ε (Except ε α) :=
  tryCatchThe ε (do return .ok (← p)) fun e => return .error e

@[simp] theorem attempt_perform (o : O) :
    attempt (perform o : Prog O A ε (A o)) = op o fun r => ret r := by
  show op o _ = op o _
  congr 1
  funext r
  cases r <;> rfl

@[simp] theorem attempt_ret (a : α) : attempt (ret a : Prog O A ε α) = ret (.ok a) := rfl

@[simp] theorem attempt_raise (e : ε) : attempt (raise e : Prog O A ε α) = ret (.error e) := rfl

@[simp] theorem attempt_op (o : O) (k : Except ε (A o) → Prog O A ε α) :
    attempt (op o k) = op o fun r => attempt (k r) := rfl

/-- An operation that cannot fail. -/
def tell (o : O) : Prog O A ε Unit := op o fun _ => ret ()

@[simp] theorem tell_bind (o : O) (f : Unit → Prog O A ε β) :
    (tell o >>= f) = op o fun _ => f () := rfl

/-- The result of a program with nothing left to run. -/
def result : Prog O A ε α → Option (Except ε α)
  | ret a => some (.ok a)
  | raise e => some (.error e)
  | op _ _ => none

theorem result_eq_ok {p : Prog O A ε α} {a : α} : p.result = some (.ok a) ↔ p = ret a := by
  cases p <;> simp [result]

/-- `async with`: enter, run the body, leave however it ended. -/
def inside (enter leave : Prog O A ε Unit) (p : Prog O A ε α) : Prog O A ε α := do
  enter
  let result ← p.attempt
  leave
  ofExcept result

/-! ## Which operations -/

/-- Every operation the program may come to is in `P`. -/
def Only (P : O → Prop) : Prog O A ε α → Prop
  | ret _ => True
  | raise _ => True
  | op o k => P o ∧ ∀ r, Only P (k r)

namespace Only

variable {P : O → Prop}

theorem bind {p : Prog O A ε α} {f : α → Prog O A ε β} (hp : Only P p)
    (hf : ∀ a, Only P (f a)) : Only P (p >>= f) := by
  induction p with
  | ret a => exact hf a
  | raise e => exact hp
  | op o k ih => exact ⟨hp.1, fun r => ih r (hp.2 r)⟩

theorem tryCatch {p : Prog O A ε α} {h : ε → Prog O A ε α} (hp : Only P p)
    (hh : ∀ e, Only P (h e)) : Only P (tryCatchThe ε p h) := by
  induction p with
  | ret a => exact hp
  | raise e => exact hh e
  | op o k ih => exact ⟨hp.1, fun r => ih r (hp.2 r)⟩

theorem ofExcept (x : Except ε α) : Only P (Prog.ofExcept x : Prog O A ε α) := by
  cases x <;> trivial

theorem perform {o : O} (h : P o) : Only P (Prog.perform o : Prog O A ε (A o)) :=
  ⟨h, fun r => ofExcept r⟩

theorem attempt {p : Prog O A ε α} (hp : Only P p) : Only P p.attempt :=
  tryCatch (bind hp fun _ => trivial) fun _ => trivial

theorem tell {o : O} (h : P o) : Only P (Prog.tell o : Prog O A ε Unit) :=
  ⟨h, fun _ => trivial⟩

end Only

/-! ## Checks before the first operation -/

/-- The program makes these checks before it does anything, and raises what they raise;
when they pass, `P` holds of it. -/
def Guarded (checks : Except ε β) (P : Prog O A ε α → Prop) (p : Prog O A ε α) : Prop :=
  (∀ e, checks = .error e → p = raise e) ∧ ∀ b, checks = .ok b → P p

namespace Guarded

variable {P : Prog O A ε α → Prop}

theorem ok {b : β} {p : Prog O A ε α} (h : P p) : Guarded (.ok b : Except ε β) P p := by
  refine ⟨fun e he => ?_, fun _ _ => h⟩
  cases he

/-- A check, and then the others. -/
theorem bind {x : Except ε γ} {g : γ → Except ε β} {f : γ → Prog O A ε α}
    (h : ∀ c, x = .ok c → Guarded (g c) P (f c)) : Guarded (x >>= g) P (ofExcept x >>= f) := by
  cases x with
  | error e =>
    refine ⟨fun e' he => congrArg raise (Except.error.inj he), fun b hb => ?_⟩
    cases hb
  | ok c => exact h c rfl

theorem mono {checks : Except ε β} {Q : Prog O A ε α → Prop} {p : Prog O A ε α}
    (h : Guarded checks P p) (hPQ : P p → Q p) : Guarded checks Q p :=
  ⟨h.1, fun b hb => hPQ (h.2 b hb)⟩

/-- What comes after does not change what is checked. -/
theorem bind_left {checks : Except ε β} {Q : Prog O A ε δ → Prop} {p : Prog O A ε α}
    {f : α → Prog O A ε δ} (h : Guarded checks P p) (hPQ : P p → Q (p >>= f)) :
    Guarded checks Q (p >>= f) := by
  refine ⟨fun e he => ?_, fun b hb => hPQ (h.2 b hb)⟩
  rw [h.1 e he, raise_bind]

/-- Nor does a handler that lets the exceptions of the checks through. -/
theorem tryCatch {checks : Except ε β} {p : Prog O A ε α} {handler : ε → Prog O A ε α}
    (h : Guarded checks P p) (hthrough : ∀ e, checks = .error e → handler e = raise e)
    (hP : P p → P (tryCatchThe ε p handler)) :
    Guarded checks P (tryCatchThe ε p handler) := by
  refine ⟨fun e he => ?_, fun b hb => hP (h.2 b hb)⟩
  rw [h.1 e he]
  exact hthrough e he

end Guarded

/-! ## Finite trees -/

/-- `p` is what `q` goes on with after its first operation. -/
def Next (p q : Prog O A ε α) : Prop := ∃ o k r, q = op o k ∧ p = k r

theorem next_op (o : O) (k : Except ε (A o) → Prog O A ε α) (r : Except ε (A o)) :
    Next (k r) (op o k) := ⟨o, k, r, rfl, rfl⟩

/-- No program goes on for ever, whatever its operations answer. -/
theorem next_wellFounded : WellFounded (Next : Prog O A ε α → Prog O A ε α → Prop) := by
  refine ⟨fun q => ?_⟩
  induction q with
  | ret a => exact ⟨_, fun p ⟨_, _, _, h, _⟩ => by cases h⟩
  | raise e => exact ⟨_, fun p ⟨_, _, _, h, _⟩ => by cases h⟩
  | op o k ih =>
    refine ⟨_, fun p ⟨o', k', r, h, hp⟩ => ?_⟩
    cases h
    exact hp ▸ ih r

end Prog

end EmployeePortal.Framework
