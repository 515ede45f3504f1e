import EmployeePortal.Framework.Filling
import EmployeePortal.Framework.Schedules

/-!
# Loops that refine a system

A call of the loop may stand for a call of a more abstract system, which starts at some
point of its run. Where each operation of the call is some steps of what it stands for
(`Simulation`), every run of the loop is a schedule of the system: its store is the
abstract store, and each call of the loop is where its counterpart is.

`Serving` is how such a call comes about: the abstract program filled in with concrete
replacements, each of which amounts to its operation.
-/

namespace EmployeePortal.Framework

variable {O O' : Type} {A : O → Type} {A' : O' → Type} {ε ε' α α' σ σ' ℓ ℓ' C C' : Type}

/-! ## Steps of one call -/

/-- The next step of one call, which may not have been started. -/
inductive System.LocalStep (S : System O A ε α σ ℓ C) :
    σ × Option (Thread O A ε α ℓ C) → σ × Option (Thread O A ε α ℓ C) → Prop
  | spawn {s} (c : C) (h : S.admits c) :
      LocalStep S (s, none) (s, some ⟨c, S.start, S.body c, false⟩)
  | run {s c l o k r s' l'} (hsem : S.sem c o s l r s' l') :
      LocalStep S (s, some ⟨c, l, .op o k, false⟩) (s', some ⟨c, l', k r, false⟩)

/-- Some steps of one call. -/
def System.Locally (S : System O A ε α σ ℓ C) :
    σ × Option (Thread O A ε α ℓ C) → σ × Option (Thread O A ε α ℓ C) → Prop :=
  Relation.ReflTransGen S.LocalStep

/-- The pools agree on every call but this one. -/
def Pool.Elsewhere (j : ℕ) (P P' : Pool O A ε α σ ℓ C) : Prop :=
  ∀ m, m ≠ j → P'.threads[m]? = P.threads[m]?

/-- The steps of one call are steps of the pool it is in, or is yet to join. -/
theorem System.Locally.reaches {S : System O A ε α σ ℓ C}
    {x y : σ × Option (Thread O A ε α ℓ C)} (h : S.Locally x y) {P : Pool O A ε α σ ℓ C} {j : ℕ}
    (hstore : P.store = x.1) (hj : P.threads[j]? = x.2) (hbound : j ≤ P.threads.length) :
    ∃ P', S.Reaches P P' ∧ P'.store = y.1 ∧ P'.threads[j]? = y.2 ∧
      P.threads.length ≤ P'.threads.length ∧ P.Elsewhere j P' := by
  induction h with
  | refl => exact ⟨P, .refl, hstore, hj, le_rfl, fun _ _ => rfl⟩
  | tail _ hstep ih =>
    obtain ⟨⟨s, ts⟩, hreaches, hs, ht, hlength, helse⟩ := ih
    dsimp only at hs ht hlength
    cases hstep with
    | spawn c hc =>
      obtain rfl : j = ts.length :=
        le_antisymm (hbound.trans hlength) (List.getElem?_eq_none_iff.mp ht)
      subst hs
      refine ⟨_, hreaches.tail ⟨.spawn c, .spawn c hc⟩, rfl, List.getElem?_concat_length, ?_,
        fun m hm => ?_⟩
      · simpa using hlength.trans (Nat.le_succ _)
      · rw [← helse m hm]
        rcases lt_or_gt_of_ne hm with hlt | hgt
        · exact List.getElem?_append_left hlt
        · rw [List.getElem?_eq_none_iff.mpr hgt.le, List.getElem?_eq_none_iff.mpr]
          rw [List.length_append, List.length_singleton]
          exact hgt
    | run hsem =>
      subst hs
      have hlt : j < ts.length := (List.getElem?_eq_some_iff.mp ht).1
      refine ⟨_, hreaches.tail ⟨.run j, .run ht rfl rfl hsem⟩, rfl, List.getElem?_set_self hlt,
        ?_, fun m hm => ?_⟩
      · rw [List.length_set]
        exact hlength
      · rw [← helse m hm]
        exact List.getElem?_set_ne hm.symm

/-! ## Simulations -/

/-- Each operation of a call of the loop is some steps of what the call stands for; `rel` says
where that one is. -/
structure Simulation (L : Loop O' A' ε' α' σ' ℓ' C') (S : System O A ε α σ ℓ C) where
  abs : σ' → σ
  rel : C' → Prog O' A' ε' α' → ℓ' → Option (Thread O A ε α ℓ C) → Prop
  start : ∀ c, L.admits c → rel c (L.body c) L.start none
  step : ∀ {c o k l x s r s' l'}, rel c (.op o k) l x → L.Does c o s l r s' l' →
    ∃ x', S.Locally (abs s, x) (abs s', x') ∧ rel c (k r) l' x'
  env : ∀ {s s'}, L.env s s' → S.env (abs s) (abs s')

namespace Simulation

variable {L : Loop O' A' ε' α' σ' ℓ' C'} {S : System O A ε α σ ℓ C} (sim : Simulation L S)

/-- The statements of a turn. -/
theorem runOn {c : C'} {p p' : Prog O' A' ε' α'} {s s' : σ'} {l l' : ℓ'}
    {x : Option (Thread O A ε α ℓ C)} (h : sim.rel c p l x)
    (hrun : runOn L.sync p s l = (p', s', l')) :
    ∃ x', S.Locally (sim.abs s, x) (sim.abs s', x') ∧ sim.rel c p' l' x' := by
  induction p generalizing s l x with
  | ret a =>
    obtain ⟨rfl, rfl, rfl⟩ := by simpa [Framework.runOn] using hrun
    exact ⟨x, .refl, h⟩
  | raise e =>
    obtain ⟨rfl, rfl, rfl⟩ := by simpa [Framework.runOn] using hrun
    exact ⟨x, .refl, h⟩
  | op o k ih =>
    rw [Framework.runOn] at hrun
    cases ho : L.sync o with
    | none =>
      rw [ho] at hrun
      obtain ⟨rfl, rfl, rfl⟩ := by simpa using hrun
      exact ⟨x, .refl, h⟩
    | some f =>
      rw [ho] at hrun
      obtain ⟨x₁, hlocal, hrel⟩ := sim.step h (Loop.does_of_sync ho c s l)
      obtain ⟨x₂, hlocal', hrel'⟩ := ih _ hrel hrun
      exact ⟨x₂, hlocal.trans hlocal', hrel'⟩

/-- The call `n` of the loop stands for the call `place n` of the system, if for any yet. -/
structure Matched (P' : Pool O' A' ε' α' σ' ℓ' C') (P : Pool O A ε α σ ℓ C)
    (place : ℕ → Option ℕ) : Prop where
  store : P.store = sim.abs P'.store
  rel : ∀ n t, P'.threads[n]? = some t →
    sim.rel t.call t.prog t.sess ((place n).bind (P.threads[·]?))
  bound : ∀ n j, place n = some j → n < P'.threads.length ∧ j < P.threads.length
  injective : ∀ m n j, place m = some j → place n = some j → m = n
  onto : ∀ j, j < P.threads.length → ∃ n, place n = some j

variable {sim} {P' P₁' : Pool O' A' ε' α' σ' ℓ' C'} {P : Pool O A ε α σ ℓ C}
  {place : ℕ → Option ℕ}

/-- Where the call `n` is, or will be. -/
def position (P : Pool O A ε α σ ℓ C) (place : ℕ → Option ℕ) (n : ℕ) : ℕ :=
  (place n).getD P.threads.length

theorem Matched.at_position (hP : sim.Matched P' P place) (n : ℕ) :
    P.threads[position P place n]? = (place n).bind (P.threads[·]?) ∧
      position P place n ≤ P.threads.length ∧ ∀ m, m ≠ n → place m ≠ some (position P place n) := by
  unfold position
  cases hplace : place n with
  | some j =>
    exact ⟨rfl, (hP.bound n j hplace).2.le, fun m hm hj => hm (hP.injective m n j hj hplace)⟩
  | none =>
    refine ⟨List.getElem?_eq_none_iff.mpr le_rfl, le_rfl, fun m _ hj => ?_⟩
    exact lt_irrefl _ (hP.bound m _ hj).2

/-- The steps that match a move of the call `n`. -/
theorem Matched.move (hP : sim.Matched P' P place) {n : ℕ} {c : C'} {p : Prog O' A' ε' α'}
    {l : ℓ'} {x : Option (Thread O A ε α ℓ C)}
    (hlocal : S.Locally (P.store, (place n).bind (P.threads[·]?)) (sim.abs P₁'.store, x))
    (hrel : sim.rel c p l x) (hlength : P'.threads.length ≤ P₁'.threads.length)
    (hn : n < P₁'.threads.length)
    (hcalls : ∀ m t, P₁'.threads[m]? = some t →
      m = n ∧ t.call = c ∧ t.prog = p ∧ t.sess = l ∨ m ≠ n ∧ P'.threads[m]? = some t) :
    ∃ P₁ place₁, S.Reaches P P₁ ∧ sim.Matched P₁' P₁ place₁ := by
  obtain ⟨hposition, hle, hothers⟩ := hP.at_position n
  set j := position P place n with hj
  obtain ⟨P₁, hreaches, hstore, hx, hsize, helse⟩ := hlocal.reaches rfl hposition hle
  -- nobody else has moved
  have hsame : ∀ m, m ≠ n → (place m).bind (P₁.threads[·]?) = (place m).bind (P.threads[·]?) := by
    intro m hm
    cases hplace : place m with
    | none => rfl
    | some i => exact helse i fun hij => hothers m hm (hij ▸ hplace)
  refine ⟨P₁, if x.isSome then Function.update place n (some j) else place, hreaches, ?_⟩
  cases x with
  | some t =>
    rw [Option.isSome_some, if_pos rfl]
    have hnew : j < P₁.threads.length := (List.getElem?_eq_some_iff.mp hx).1
    refine ⟨hstore, fun m u hu => ?_, fun m i hm => ?_, fun l m i hl hm => ?_, fun i hi => ?_⟩
    · rcases hcalls m u hu with ⟨rfl, rfl, rfl, rfl⟩ | ⟨hm, hold⟩
      · rw [Function.update_self, Option.bind_some, hx]
        exact hrel
      · rw [Function.update_of_ne hm, hsame m hm]
        exact hP.rel m u hold
    · by_cases hmn : m = n
      · rw [hmn, Function.update_self] at hm
        obtain rfl := Option.some.inj hm
        exact ⟨hmn ▸ hn, hnew⟩
      · rw [Function.update_of_ne hmn] at hm
        exact ⟨(hP.bound m i hm).1.trans_le hlength, (hP.bound m i hm).2.trans_le hsize⟩
    · by_cases hln : l = n
      · by_cases hmn : m = n
        · exact hln.trans hmn.symm
        · rw [hln, Function.update_self] at hl
          rw [Function.update_of_ne hmn] at hm
          exact absurd (hm.trans hl.symm) (hothers m hmn)
      · rw [Function.update_of_ne hln] at hl
        by_cases hmn : m = n
        · rw [hmn, Function.update_self] at hm
          exact absurd (hl.trans hm.symm) (hothers l hln)
        · rw [Function.update_of_ne hmn] at hm
          exact hP.injective l m i hl hm
    · by_cases hij : i = j
      · exact ⟨n, by rw [Function.update_self, hij]⟩
      · have hold : i < P.threads.length := by
          have hthere := List.getElem?_eq_getElem hi
          rw [helse i hij] at hthere
          exact (List.getElem?_eq_some_iff.mp hthere).1
        obtain ⟨m, hm⟩ := hP.onto i hold
        have hmn : m ≠ n := by
          rintro rfl
          rw [hj, position, hm] at hij
          exact hij rfl
        exact ⟨m, by rw [Function.update_of_ne hmn, hm]⟩
  | none =>
    rw [Option.isSome_none, if_neg Bool.false_ne_true]
    have hend : P₁.threads.length ≤ j := List.getElem?_eq_none_iff.mp hx
    have hplace : place n = none := by
      cases hplace : place n with
      | none => rfl
      | some i =>
        have hi := (hP.bound n i hplace).2
        rw [hj, position, hplace, Option.getD_some] at hend
        omega
    refine ⟨hstore, fun m u hu => ?_, fun m i hm => ?_, hP.injective, fun i hi => ?_⟩
    · rcases hcalls m u hu with ⟨rfl, rfl, rfl, rfl⟩ | ⟨hm, hold⟩
      · rw [hplace]
        exact hrel
      · rw [hsame m hm]
        exact hP.rel m u hold
    · exact ⟨(hP.bound m i hm).1.trans_le hlength, (hP.bound m i hm).2.trans_le hsize⟩
    · exact hP.onto i (by omega)

theorem Matched.turn (hP : sim.Matched P' P place) {m : Move C'}
    (hawaits : ∀ t ∈ P'.threads, L.Awaits t) (hturn : L.Turn P' m P₁') :
    ∃ P₁ place₁, S.Reaches P P₁ ∧ sim.Matched P₁' P₁ place₁ := by
  cases hturn with
  | @spawn s ts p s' l' c hc hrun =>
    obtain ⟨x, hlocal, hrel⟩ := sim.runOn (sim.start c hc) hrun
    have hplace : place ts.length = none := by
      cases hplace : place ts.length with
      | none => rfl
      | some j => exact absurd (hP.bound _ j hplace).1 (lt_irrefl _)
    refine hP.move (n := ts.length) (c := c) (p := p) (l := l') (x := x) ?_ hrel ?_ ?_ ?_
    · rw [hP.store, hplace]
      exact hlocal
    · simp
    · simp
    · intro m t ht
      rcases getElem?_concat_cases ht with hold | ⟨rfl, rfl⟩
      · exact Or.inr ⟨(List.getElem?_eq_some_iff.mp hold).1.ne, hold⟩
      · exact Or.inl ⟨rfl, rfl, rfl, rfl⟩
  | @run s ts n t o k r s₁ l₁ p s' l' ht hop hsem hrun =>
    have hrel := hP.rel n t ht
    rw [hop] at hrel
    have hawaited := hawaits t (List.mem_of_getElem? ht) o k hop
    obtain ⟨x₁, hlocal₁, hrel₁⟩ := sim.step hrel (Loop.does_of_sem hawaited hsem)
    obtain ⟨x, hlocal, hrel'⟩ := sim.runOn hrel₁ hrun
    have hn : n < ts.length := (List.getElem?_eq_some_iff.mp ht).1
    refine hP.move (n := n) (x := x) ?_ hrel' ?_ ?_ ?_
    · rw [hP.store]
      exact hlocal₁.trans hlocal
    · simp
    · simpa using hn
    · intro m u hu
      rcases getElem?_set_cases hu with ⟨rfl, rfl⟩ | ⟨hm, hold⟩
      · exact Or.inl ⟨rfl, rfl, rfl, rfl⟩
      · exact Or.inr ⟨hm, hold⟩
  | @env s s' ts he =>
    have henv := sim.env he
    rw [← hP.store] at henv
    exact ⟨⟨_, P.threads⟩, place, .single ⟨.env, .env henv⟩,
      rfl, hP.rel, hP.bound, hP.injective, hP.onto⟩

variable (sim) in
/-- **Refinement.** Every run of the loop is a schedule of the system. -/
theorem reaches {s : σ'} (h : L.Reaches ⟨s, []⟩ P') :
    ∃ P place, S.Reaches ⟨sim.abs s, []⟩ P ∧ sim.Matched P' P place := by
  induction h with
  | refl => exact ⟨⟨sim.abs s, []⟩, fun _ => none, .refl, rfl, by simp, by simp, by simp, by simp⟩
  | tail hreaches hturn ih =>
    obtain ⟨m, hm⟩ := hturn
    obtain ⟨P, place, hsystem, hmatched⟩ := ih
    obtain ⟨P₁, place₁, hsystem₁, hmatched₁⟩ :=
      hmatched.turn (Loop.awaits_of_reaches hreaches (by simp)) hm
    exact ⟨P₁, place₁, hsystem.trans hsystem₁, hmatched₁⟩

end Simulation

/-! ## Filled programs -/

/-- The replacements serve the operations: what one of them comes to between its operations
stays `serves`, nobody sees a change before it is over, and then its result is an answer of
the operation. `R` relates the sessions where a call is between two operations. -/
structure Serving (does : OpSem O' A' ε σ' ℓ') (sem : OpSem O A ε σ ℓ) (abs : σ' → σ)
    (R : ℓ' → ℓ → Prop) (impl : (o : O) → Prog O' A' ε (A o)) where
  serves : (o : O) → Prog O' A' ε (A o) → ℓ' → ℓ → Prop
  start : ∀ o {l' l}, R l' l → serves o (impl o) l' l
  step : ∀ {o o' k l' l s r s₁ l₁}, serves o (.op o' k) l' l → does o' s l' r s₁ l₁ →
    abs s₁ = abs s ∧ serves o (k r) l₁ l ∨
      ∃ x l₂, (k r).result = some x ∧ sem o (abs s) l x (abs s₁) l₂ ∧ R l₁ l₂
  done : ∀ {o m l' l x}, serves o m l' l → m.result = some x → ∀ s,
    ∃ l₂, sem o s l x s l₂ ∧ R l' l₂

namespace Serving

variable {does : OpSem O' A' ε σ' ℓ'} {abs : σ' → σ} {R : ℓ' → ℓ → Prop}
  {impl : (o : O) → Prog O' A' ε (A o)} {S : System O A ε α σ ℓ C} {c : C}
  (V : Serving does (S.sem c) abs R impl)

/-- The filled program is where the abstract one is: both are over, or inside one operation. -/
inductive Follows : Prog O' A' ε α → ℓ' → Prog O A ε α → ℓ → Prop
  | ended {x l' l} (h : R l' l) : Follows (.ofExcept x) l' (.ofExcept x) l
  | inside {o k m l' l} (hm : m.result = none) (h : V.serves o m l' l) :
      Follows (m.attempt >>= fun r => (k r).fill impl) l' (.op o k) l

variable {V}

/-- Between two operations the abstract call catches up. -/
theorem follows_fill {l' : ℓ'} {l : ℓ} (hR : R l' l) (p : Prog O A ε α) (s : σ) :
    ∃ p₁ l₁, S.Locally (s, some ⟨c, l, p, false⟩) (s, some ⟨c, l₁, p₁, false⟩) ∧
      V.Follows (p.fill impl) l' p₁ l₁ := by
  induction p generalizing l with
  | ret a => exact ⟨.ret a, l, .refl, .ended (x := .ok a) hR⟩
  | raise e => exact ⟨.raise e, l, .refl, .ended (x := .error e) hR⟩
  | op o k ih =>
    rw [Prog.fill_op]
    cases hresult : (impl o).result with
    | none => exact ⟨.op o k, l, .refl, .inside hresult (V.start o hR)⟩
    | some x =>
      obtain ⟨l₂, hsem, hR₂⟩ := V.done (V.start o hR) hresult s
      obtain ⟨p₁, l₁, hlocal, hfollows⟩ := ih x hR₂
      refine ⟨p₁, l₁, .head (.run hsem) hlocal, ?_⟩
      rw [Prog.eq_ofExcept_of_result hresult]
      cases x <;> exact hfollows

/-- A replacement on its way. -/
theorem follows_serves {o : O} {m : Prog O' A' ε (A o)} {k : Except ε (A o) → Prog O A ε α}
    {l' : ℓ'} {l : ℓ} (h : V.serves o m l' l) (s : σ) :
    ∃ p₁ l₁, S.Locally (s, some ⟨c, l, .op o k, false⟩) (s, some ⟨c, l₁, p₁, false⟩) ∧
      V.Follows (m.attempt >>= fun r => (k r).fill impl) l' p₁ l₁ := by
  cases hresult : m.result with
  | none => exact ⟨.op o k, l, .refl, .inside hresult h⟩
  | some x =>
    obtain ⟨l₂, hsem, hR⟩ := V.done h hresult s
    obtain ⟨p₁, l₁, hlocal, hfollows⟩ := follows_fill hR (k x) s
    refine ⟨p₁, l₁, .head (.run hsem) hlocal, ?_⟩
    rw [Prog.eq_ofExcept_of_result hresult]
    cases x <;> exact hfollows

/-- An operation of the filled program is some steps of the abstract call. -/
theorem follows_step {o' : O'} {k' : Except ε (A' o') → Prog O' A' ε α} {p : Prog O A ε α}
    {l' l₁ : ℓ'} {l : ℓ} {s s₁ : σ'} {r : Except ε (A' o')} (h : V.Follows (.op o' k') l' p l)
    (hdoes : does o' s l' r s₁ l₁) :
    ∃ p₁ l₂, S.Locally (abs s, some ⟨c, l, p, false⟩) (abs s₁, some ⟨c, l₂, p₁, false⟩) ∧
      V.Follows (k' r) l₁ p₁ l₂ := by
  generalize hq : Prog.op o' k' = q at h
  cases h with
  | @ended x l' l hR => cases x <;> cases hq
  | @inside o k m l' l hm hserves =>
    obtain ⟨o'', k'', rfl⟩ := Prog.exists_op_of_result hm
    obtain ⟨rfl, hk⟩ := Prog.op.inj hq
    obtain rfl := eq_of_heq hk
    rcases V.step hserves hdoes with ⟨hsame, hserves'⟩ | ⟨x, l₂, hresult, hsem, hR⟩
    · rw [hsame]
      exact follows_serves hserves' (abs s)
    · obtain ⟨p₁, l₃, hlocal, hfollows⟩ := follows_fill hR (k x) (abs s₁)
      refine ⟨p₁, l₃, .head (.run hsem) hlocal, ?_⟩
      change V.Follows ((k'' r).attempt >>= fun r => (k r).fill impl) l₁ p₁ l₃
      rw [Prog.eq_ofExcept_of_result hresult]
      cases x <;> exact hfollows

/-- What is over is over on both sides, with one result. -/
theorem Follows.result {p' : Prog O' A' ε α} {p : Prog O A ε α} {l' : ℓ'} {l : ℓ}
    (h : V.Follows p' l' p l) {x : Except ε α} (hover : p'.result = some x) :
    p = .ofExcept x ∧ R l' l := by
  cases h with
  | @ended y l' l hR =>
    obtain rfl : y = x := by cases y <;> exact Option.some.inj hover
    exact ⟨rfl, hR⟩
  | @inside o k m l' l hm hserves =>
    obtain ⟨o'', k'', rfl⟩ := Prog.exists_op_of_result hm
    cases hover

end Serving

end EmployeePortal.Framework
