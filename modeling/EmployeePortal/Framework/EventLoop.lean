import EmployeePortal.Framework.Schedules

/-!
# Calls on one event loop

The calls of an event loop take turns. An operation is either a *statement*,
carried out at once, or it is *awaited*, and only where a call awaits something
may another call come in between. A turn is therefore one awaited operation and
all statements after it, up to the next await or the end of the call
(`runOn`).

`Keeps` is the rely-guarantee rule for turns: the contract is owed from await to
await, not from statement to statement.
-/

namespace EmployeePortal.Framework

variable {O : Type} {A : O → Type} {ε α β σ ℓ C : Type}

/-! ## Turns -/

/-- What each statement answers and leaves behind; an operation without an entry
is awaited. -/
abbrev Statements (O : Type) (A : O → Type) (ε σ ℓ : Type) : Type :=
  (o : O) → Option (σ → ℓ → Except ε (A o) × σ × ℓ)

/-- Carry out the statements up to the next await. -/
def runOn (sync : Statements O A ε σ ℓ) :
    Prog O A ε α → σ → ℓ → Prog O A ε α × σ × ℓ
  | .ret a, s, l => (.ret a, s, l)
  | .raise e, s, l => (.raise e, s, l)
  | .op o k, s, l =>
      match sync o with
      | some f => runOn sync (k (f s l).1) (f s l).2.1 (f s l).2.2
      | none => (.op o k, s, l)

/-- Whatever every statement keeps, a turn keeps. -/
theorem runOn_rel {sync : Statements O A ε σ ℓ} {R : σ × ℓ → σ × ℓ → Prop}
    (hrefl : ∀ x, R x x) (htrans : ∀ {x y z}, R x y → R y z → R x z)
    (hsync : ∀ o f s l, sync o = some f → R (s, l) (f s l).2) {p p' : Prog O A ε α}
    {s s' : σ} {l l' : ℓ} (h : runOn sync p s l = (p', s', l')) : R (s, l) (s', l') := by
  induction p generalizing s l with
  | ret a =>
    obtain ⟨rfl, rfl, rfl⟩ := by simpa [runOn] using h
    exact hrefl _
  | raise e =>
    obtain ⟨rfl, rfl, rfl⟩ := by simpa [runOn] using h
    exact hrefl _
  | op o k ih =>
    rw [runOn] at h
    cases ho : sync o with
    | some f =>
      rw [ho] at h
      exact htrans (hsync o f s l ho) (ih _ h)
    | none =>
      rw [ho] at h
      obtain ⟨rfl, rfl, rfl⟩ := by simpa using h
      exact hrefl _

/-- A system on an event loop; `sem` is the meaning of the awaited operations. -/
structure Loop (O : Type) (A : O → Type) (ε α σ ℓ C : Type) extends
    System O A ε α σ ℓ C where
  sync : Statements O A ε σ ℓ

namespace Loop

/-- A new call runs to its first await at once. -/
inductive Turn (L : Loop O A ε α σ ℓ C) :
    Pool O A ε α σ ℓ C → Move C → Pool O A ε α σ ℓ C → Prop
  | spawn {s ts p s' l'} (c : C) (h : L.admits c)
      (hrun : runOn L.sync (L.body c) s L.start = (p, s', l')) :
      Turn L ⟨s, ts⟩ (.spawn c) ⟨s', ts ++ [⟨c, l', p, false⟩]⟩
  | run {s ts i t o k r s₁ l₁ p s' l'} (ht : ts[i]? = some t) (hop : t.prog = .op o k)
      (hsem : L.sem t.call o s t.sess r s₁ l₁)
      (hrun : runOn L.sync (k r) s₁ l₁ = (p, s', l')) :
      Turn L ⟨s, ts⟩ (.run i) ⟨s', ts.set i { t with sess := l', prog := p }⟩
  | env {s s' ts} (h : L.env s s') : Turn L ⟨s, ts⟩ .env ⟨s', ts⟩

/-- Some order of turns leads from `P` to `P'`. -/
def Reaches (L : Loop O A ε α σ ℓ C) : Pool O A ε α σ ℓ C →
    Pool O A ε α σ ℓ C → Prop :=
  Relation.ReflTransGen (fun P P' => ∃ m, L.Turn P m P')

/-- A call whose operation finds an answer can go on. -/
theorem exists_turn {L : Loop O A ε α σ ℓ C} {P : Pool O A ε α σ ℓ C} {i : ℕ}
    {t : Thread O A ε α ℓ C} {o : O} {k : Except ε (A o) → Prog O A ε α} {r : Except ε (A o)}
    {s₁ : σ} {l₁ : ℓ} (ht : P.threads[i]? = some t) (hop : t.prog = .op o k)
    (hsem : L.sem t.call o P.store t.sess r s₁ l₁) : ∃ P', L.Turn P (.run i) P' :=
  ⟨_, .run ht hop hsem rfl⟩

/-- The loop whose turns are those of `L` with every awaited operation meeting
`p`. -/
def given (L : Loop O A ε α σ ℓ C)
    (p : C → (o : O) → σ → ℓ → Except ε (A o) → Prop) : Loop O A ε α σ ℓ C :=
  { L with toSystem := L.toSystem.given p }

instance (L : Loop O A ε α σ ℓ C) (p : C → (o : O) → σ → ℓ → Except ε (A o) → Prop)
    [DecidablePred L.admits] : DecidablePred (L.given p).admits :=
  inferInstanceAs (DecidablePred L.admits)

end Loop

/-! ## The contract, from await to await -/

section Keeps

variable (K : Contract σ) (sync : Statements O A ε σ ℓ) (sem : OpSem O A ε σ ℓ)

/-- Run from `s` with session `l`, in a turn that began at `s₀`, the program keeps
the contract wherever it awaits, and `Q` holds of its result, the store its last
turn began with, the store and the session it leaves. -/
def Keeps (Q : Except ε α → σ → σ → ℓ → Prop) : Prog O A ε α → σ → σ → ℓ → Prop
  | .ret a, s₀, s, l => Q (.ok a) s₀ s l
  | .raise e, s₀, s, l => Q (.error e) s₀ s l
  | .op o k, s₀, s, l =>
      match sync o with
      | some f => Keeps Q (k (f s l).1) s₀ (f s l).2.1 (f s l).2.2
      | none => K.inv s ∧ K.guar s₀ s ∧ ∀ s₁, K.rely s s₁ → K.inv s₁ →
          ∀ r s₂ l₂, sem o s₁ l r s₂ l₂ → Keeps Q (k r) s₁ s₂ l₂

/-- What a call owes at its end: the contract for its last turn, and `Q`. -/
def ends (Q : Post ε α σ ℓ) : Except ε α → σ → σ → ℓ → Prop :=
  fun r s₀ s l => K.inv s ∧ K.guar s₀ s ∧ Q r s l

/-- A call between two turns: over with `Q`, or safe whatever it is answered. -/
def AtRest (Q : Post ε α σ ℓ) : Prog O A ε α → σ → ℓ → Prop
  | .ret a, s, l => Q (.ok a) s l
  | .raise e, s, l => Q (.error e) s l
  | .op o k, s, l => ∀ s₁, K.rely s s₁ → K.inv s₁ →
      ∀ r s₂ l₂, sem o s₁ l r s₂ l₂ → Keeps K sync sem (ends K Q) (k r) s₁ s₂ l₂

end Keeps

namespace Keeps

variable {K : Contract σ} {sync : Statements O A ε σ ℓ} {sem : OpSem O A ε σ ℓ}
  {Q Q' : Except ε α → σ → σ → ℓ → Prop} {s₀ s : σ} {l : ℓ}

theorem op_sync {o : O} {k : Except ε (A o) → Prog O A ε α}
    {f : σ → ℓ → Except ε (A o) × σ × ℓ} (ho : sync o = some f) :
    Keeps K sync sem Q (.op o k) s₀ s l ↔
      Keeps K sync sem Q (k (f s l).1) s₀ (f s l).2.1 (f s l).2.2 := by
  rw [Keeps, ho]

theorem op_await {o : O} {k : Except ε (A o) → Prog O A ε α} (ho : sync o = none) :
    Keeps K sync sem Q (.op o k) s₀ s l ↔
      K.inv s ∧ K.guar s₀ s ∧ ∀ s₁, K.rely s s₁ → K.inv s₁ →
        ∀ r s₂ l₂, sem o s₁ l r s₂ l₂ → Keeps K sync sem Q (k r) s₁ s₂ l₂ := by
  rw [Keeps, ho]

theorem mono {p : Prog O A ε α} (h : Keeps K sync sem Q p s₀ s l)
    (hQ : ∀ r s₀ s l, Q r s₀ s l → Q' r s₀ s l) : Keeps K sync sem Q' p s₀ s l := by
  induction p generalizing s₀ s l with
  | ret a => exact hQ _ _ _ _ h
  | raise e => exact hQ _ _ _ _ h
  | op o k ih =>
    cases ho : sync o with
    | some f =>
      rw [op_sync ho] at h ⊢
      exact ih _ h
    | none =>
      rw [op_await ho] at h ⊢
      obtain ⟨hinv, hguar, hk⟩ := h
      refine ⟨hinv, hguar, ?_⟩
      intro s₁ hrely hinv₁ r s₂ l₂ hsem
      exact ih r (hk s₁ hrely hinv₁ r s₂ l₂ hsem)

/-- What a call does after `p`: the rest of the program on success, the exception
otherwise. -/
def andThen (K : Contract σ) (sync : Statements O A ε σ ℓ) (sem : OpSem O A ε σ ℓ)
    (f : α → Prog O A ε β) (Q : Except ε β → σ → σ → ℓ → Prop) :
    Except ε α → σ → σ → ℓ → Prop
  | .ok a, s₀, s, l => Keeps K sync sem Q (f a) s₀ s l
  | .error e, s₀, s, l => Q (.error e) s₀ s l

theorem bind_iff {p : Prog O A ε α} {f : α → Prog O A ε β}
    {Q : Except ε β → σ → σ → ℓ → Prop} :
    Keeps K sync sem Q (p >>= f) s₀ s l ↔
      Keeps K sync sem (andThen K sync sem f Q) p s₀ s l := by
  induction p generalizing s₀ s l with
  | ret a => exact Iff.rfl
  | raise e => exact Iff.rfl
  | op o k ih =>
    rw [Prog.op_bind]
    cases ho : sync o with
    | some g => rw [op_sync ho, op_sync ho, ih]
    | none =>
      rw [op_await ho, op_await ho]
      simp only [ih]

/-- What a call does after `try: p`: nothing more on success, the handler
otherwise. -/
def catching (K : Contract σ) (sync : Statements O A ε σ ℓ) (sem : OpSem O A ε σ ℓ)
    (h : ε → Prog O A ε α) (Q : Except ε α → σ → σ → ℓ → Prop) :
    Except ε α → σ → σ → ℓ → Prop
  | .ok a, s₀, s, l => Q (.ok a) s₀ s l
  | .error e, s₀, s, l => Keeps K sync sem Q (h e) s₀ s l

theorem tryCatch_iff {p : Prog O A ε α} {h : ε → Prog O A ε α} :
    Keeps K sync sem Q (tryCatchThe ε p h) s₀ s l ↔
      Keeps K sync sem (catching K sync sem h Q) p s₀ s l := by
  induction p generalizing s₀ s l with
  | ret a => exact Iff.rfl
  | raise e => exact Iff.rfl
  | op o k ih =>
    show Keeps K sync sem Q (.op o fun r => tryCatchThe ε (k r) h) s₀ s l ↔ _
    cases ho : sync o with
    | some g => rw [op_sync ho, op_sync ho, ih]
    | none =>
      rw [op_await ho, op_await ho]
      simp only [ih]

@[simp] theorem ofExcept_iff {x : Except ε α} :
    Keeps K sync sem Q (Prog.ofExcept x) s₀ s l ↔ Q x s₀ s l := by
  cases x <;> exact Iff.rfl

/-- A call whose exception is kept for later. -/
theorem attempt_iff {p : Prog O A ε α} {Q : Except ε (Except ε α) → σ → σ → ℓ → Prop} :
    Keeps K sync sem Q p.attempt s₀ s l ↔ Keeps K sync sem (fun r => Q (.ok r)) p s₀ s l := by
  rw [Prog.attempt, tryCatch_iff, bind_iff]
  constructor
  · intro h
    refine h.mono ?_
    rintro (e | a) s₀ s l hr
    · exact hr
    · exact hr
  · intro h
    refine h.mono ?_
    rintro (e | a) s₀ s l hr
    · exact hr
    · exact hr

/-- A statement. -/
theorem perform_sync {o : O} {f : σ → ℓ → Except ε (A o) × σ × ℓ}
    {Q : Except ε (A o) → σ → σ → ℓ → Prop} (ho : sync o = some f) :
    Keeps K sync sem Q (Prog.perform o) s₀ s l ↔ Q (f s l).1 s₀ (f s l).2.1 (f s l).2.2 := by
  rw [Prog.perform, op_sync ho, ofExcept_iff]

/-- An awaited operation. -/
theorem perform_await {o : O} {Q : Except ε (A o) → σ → σ → ℓ → Prop} (ho : sync o = none) :
    Keeps K sync sem Q (Prog.perform o) s₀ s l ↔
      K.inv s ∧ K.guar s₀ s ∧ ∀ s₁, K.rely s s₁ → K.inv s₁ →
        ∀ r s₂ l₂, sem o s₁ l r s₂ l₂ → Q r s₁ s₂ l₂ := by
  rw [Prog.perform, op_await ho]
  simp only [ofExcept_iff]

/-- A whole turn keeps the contract and leaves the call at rest. -/
theorem runOn {Q : Post ε α σ ℓ} {p p' : Prog O A ε α} {s' : σ} {l' : ℓ}
    (h : Keeps K sync sem (ends K Q) p s₀ s l)
    (hrun : Framework.runOn sync p s l = (p', s', l')) :
    K.inv s' ∧ K.guar s₀ s' ∧ AtRest K sync sem Q p' s' l' := by
  induction p generalizing s l with
  | ret a =>
    obtain ⟨rfl, rfl, rfl⟩ := by simpa [Framework.runOn] using hrun
    exact h
  | raise e =>
    obtain ⟨rfl, rfl, rfl⟩ := by simpa [Framework.runOn] using hrun
    exact h
  | op o k ih =>
    cases ho : sync o with
    | some f =>
      rw [op_sync ho] at h
      rw [Framework.runOn, ho] at hrun
      exact ih _ h hrun
    | none =>
      rw [op_await ho] at h
      rw [Framework.runOn, ho] at hrun
      obtain ⟨rfl, rfl, rfl⟩ := by simpa using hrun
      exact h

end Keeps

/-! ## From one call to the loop -/

/-- `Q` survives the others: a call at rest stays at rest. -/
theorem AtRest.stable {K : Contract σ} {sync : Statements O A ε σ ℓ}
    {sem : OpSem O A ε σ ℓ} {Q : Post ε α σ ℓ} {p : Prog O A ε α} {s s' : σ} {l : ℓ}
    (hQ : Stable K Q) (h : AtRest K sync sem Q p s l) (hrely : K.rely s s') (hinv : K.inv s') :
    AtRest K sync sem Q p s' l := by
  cases p with
  | ret a => exact hQ h hrely hinv
  | raise e => exact hQ h hrely hinv
  | op o k => exact fun s₁ hrely₁ => h s₁ (K.rely_trans hrely hrely₁)

namespace Loop

variable {L : Loop O A ε α σ ℓ C} {K : Contract σ} {Q : C → Post ε α σ ℓ}
  {P P' : Pool O A ε α σ ℓ C} {m : Move C}

/-- The store keeps the invariant and every call is at rest. -/
def Kept (L : Loop O A ε α σ ℓ C) (K : Contract σ) (Q : C → Post ε α σ ℓ)
    (P : Pool O A ε α σ ℓ C) : Prop :=
  K.inv P.store ∧ ∀ (i : ℕ) (t : Thread O A ε α ℓ C), P.threads[i]? = some t →
    AtRest K L.sync (L.sem t.call) (Q t.call) t.prog P.store t.sess

theorem kept_turn (hfair : ∀ s s', K.guar s s' → K.rely s s')
    (hQ : ∀ c, Stable K (Q c))
    (henv : ∀ s s', K.inv s → L.env s s' → K.inv s' ∧ K.rely s s')
    (hbody : ∀ c s, L.admits c → K.inv s →
      Keeps K L.sync (L.sem c) (ends K (Q c)) (L.body c) s s L.start)
    (hturn : L.Turn P m P') (hP : L.Kept K Q P) : L.Kept K Q P' := by
  obtain ⟨hinv, hrest⟩ := hP
  cases hturn with
  | @spawn s ts p s' l' c hc hrun =>
    obtain ⟨hinv', hguar, hnew⟩ := (hbody c s hc hinv).runOn hrun
    refine ⟨hinv', ?_⟩
    intro i t ht
    rcases getElem?_concat_cases ht with hold | ⟨-, rfl⟩
    · exact (hrest i t hold).stable (hQ _) (hfair _ _ hguar) hinv'
    · exact hnew
  | @run s ts i t o k r s₁ l₁ p s' l' ht hop hsem hrun =>
    have hown := hrest i t ht
    rw [hop] at hown
    have hkeeps := hown s (K.rely_refl s) hinv r s₁ l₁ hsem
    obtain ⟨hinv', hguar, hnew⟩ := hkeeps.runOn hrun
    refine ⟨hinv', ?_⟩
    intro j u hu
    rcases getElem?_set_cases hu with ⟨-, rfl⟩ | ⟨-, hold⟩
    · exact hnew
    · exact (hrest j u hold).stable (hQ _) (hfair _ _ hguar) hinv'
  | @env s s' ts he =>
    obtain ⟨hinv', hrely⟩ := henv s s' hinv he
    exact ⟨hinv', fun i t ht => (hrest i t ht).stable (hQ _) hrely hinv'⟩

/-- A turn is something every call tolerates. -/
theorem rely_turn (hfair : ∀ s s', K.guar s s' → K.rely s s')
    (henv : ∀ s s', K.inv s → L.env s s' → K.inv s' ∧ K.rely s s')
    (hbody : ∀ c s, L.admits c → K.inv s →
      Keeps K L.sync (L.sem c) (ends K (Q c)) (L.body c) s s L.start)
    (hturn : L.Turn P m P') (hP : L.Kept K Q P) : K.rely P.store P'.store := by
  obtain ⟨hinv, hrest⟩ := hP
  cases hturn with
  | @spawn s ts p s' l' c hc hrun =>
    exact hfair _ _ ((hbody c s hc hinv).runOn hrun).2.1
  | @run s ts i t o k r s₁ l₁ p s' l' ht hop hsem hrun =>
    have hown := hrest i t ht
    rw [hop] at hown
    exact hfair _ _ ((hown s (K.rely_refl s) hinv r s₁ l₁ hsem).runOn hrun).2.1
  | @env s s' ts he => exact (henv s s' hinv he).2

/-- **Rely and guarantee, turn by turn.** Calls that keep the contract from await
to await keep it together, in every order of turns. -/
theorem kept_of_reaches (hfair : ∀ s s', K.guar s s' → K.rely s s')
    (hQ : ∀ c, Stable K (Q c))
    (henv : ∀ s s', K.inv s → L.env s s' → K.inv s' ∧ K.rely s s')
    (hbody : ∀ c s, L.admits c → K.inv s →
      Keeps K L.sync (L.sem c) (ends K (Q c)) (L.body c) s s L.start)
    (h : L.Reaches P P') (hP : L.Kept K Q P) : L.Kept K Q P' := by
  induction h with
  | refl => exact hP
  | tail _ hturn ih =>
    obtain ⟨m, hm⟩ := hturn
    exact kept_turn hfair hQ henv hbody hm ih

theorem kept_nil (L : Loop O A ε α σ ℓ C) (K : Contract σ) (Q : C → Post ε α σ ℓ) {s : σ}
    (h : K.inv s) : L.Kept K Q ⟨s, []⟩ := ⟨h, by simp⟩

/-- The result of a call that is over satisfies its postcondition. -/
theorem post_of_ret (hP : L.Kept K Q P) {t : Thread O A ε α ℓ C} (ht : t ∈ P.threads) {a : α}
    (hret : t.prog = .ret a) : Q t.call (.ok a) P.store t.sess := by
  obtain ⟨i, hi⟩ := List.getElem?_of_mem ht
  have hrest := hP.2 i t hi
  rwa [hret] at hrest

theorem post_of_raise (hP : L.Kept K Q P) {t : Thread O A ε α ℓ C} (ht : t ∈ P.threads) {e : ε}
    (hraise : t.prog = .raise e) : Q t.call (.error e) P.store t.sess := by
  obtain ⟨i, hi⟩ := List.getElem?_of_mem ht
  have hrest := hP.2 i t hi
  rwa [hraise] at hrest

theorem post_of_result (hP : L.Kept K Q P) {t : Thread O A ε α ℓ C} (ht : t ∈ P.threads)
    {r : Except ε α} (hresult : t.prog.result = some r) : Q t.call r P.store t.sess := by
  cases hprog : t.prog with
  | ret a =>
    rw [hprog] at hresult
    obtain rfl := Option.some.inj hresult
    exact post_of_ret hP ht hprog
  | raise e =>
    rw [hprog] at hresult
    obtain rfl := Option.some.inj hresult
    exact post_of_raise hP ht hprog
  | op o k =>
    rw [hprog] at hresult
    cases hresult

/-! ## One call along a run -/

/-- The turns of the others leave a call as it is: what its own turns keep, every run keeps. -/
theorem thread_of_reaches {L : Loop O A ε α σ ℓ C} {P P' : Pool O A ε α σ ℓ C}
    {Φ : Thread O A ε α ℓ C → Prop}
    (hown : ∀ t o k r s s₁ l₁ p s' l', Φ t → t.prog = .op o k → L.sem t.call o s t.sess r s₁ l₁ →
      runOn L.sync (k r) s₁ l₁ = (p, s', l') → Φ { t with sess := l', prog := p })
    (h : L.Reaches P P') {i : ℕ} {t : Thread O A ε α ℓ C} (ht : P.threads[i]? = some t)
    (hΦ : Φ t) : ∃ t', P'.threads[i]? = some t' ∧ Φ t' := by
  induction h with
  | refl => exact ⟨t, ht, hΦ⟩
  | tail _ hturn ih =>
    obtain ⟨u, hu, hΦu⟩ := ih
    have hi := (List.getElem?_eq_some_iff.mp hu).1
    obtain ⟨m, hm⟩ := hturn
    cases hm with
    | spawn c hc hrun =>
      refine ⟨u, ?_, hΦu⟩
      rw [List.getElem?_append_left hi]
      exact hu
    | @run s ts j t₁ o k r s₁ l₁ p s' l' ht₁ hop hsem hrun =>
      by_cases hij : j = i
      · subst hij
        obtain rfl : t₁ = u := Option.some.inj (ht₁.symm.trans hu)
        exact ⟨_, List.getElem?_set_self hi, hown t₁ o k r s s₁ l₁ p s' l' hΦu hop hsem hrun⟩
      · refine ⟨u, ?_, hΦu⟩
        rw [List.getElem?_set_ne hij]
        exact hu
    | env he => exact ⟨u, hu, hΦu⟩

/-- A call that is over stays as it is. -/
theorem over_of_reaches {L : Loop O A ε α σ ℓ C} {P P' : Pool O A ε α σ ℓ C}
    (h : L.Reaches P P') {i : ℕ} {t : Thread O A ε α ℓ C} (ht : P.threads[i]? = some t)
    (hover : t.prog.result.isSome = true) : P'.threads[i]? = some t := by
  have hover' : ∀ u o k, u = t → u.prog ≠ .op o k := by
    rintro u o k rfl hop
    rw [hop] at hover
    cases hover
  obtain ⟨t', ht', rfl⟩ := thread_of_reaches
    (fun u o k _ _ _ _ _ _ _ hu hop _ _ => absurd hop (hover' u o k hu)) h ht rfl
  exact ht'

/-! ## Every call comes to its end -/

/-- The program a turn leaves is the one it started with or a part of it. -/
theorem runOn_next {sync : Statements O A ε σ ℓ} {p p' : Prog O A ε α} {s s' : σ} {l l' : ℓ}
    (h : runOn sync p s l = (p', s', l')) : Relation.ReflTransGen Prog.Next p' p := by
  induction p generalizing s l with
  | ret a =>
    obtain ⟨rfl, -, -⟩ := by simpa [runOn] using h
    exact .refl
  | raise e =>
    obtain ⟨rfl, -, -⟩ := by simpa [runOn] using h
    exact .refl
  | op o k ih =>
    rw [runOn] at h
    cases ho : sync o with
    | some f =>
      rw [ho] at h
      exact (ih _ h).tail (Prog.next_op o k _)
    | none =>
      rw [ho] at h
      obtain ⟨rfl, -, -⟩ := by simpa using h
      exact .refl

/-- An order of turns that starts no new call ends. -/
theorem run_wellFounded (L : Loop O A ε α σ ℓ C) :
    WellFounded (fun P' P : Pool O A ε α σ ℓ C => ∃ i, L.Turn P (.run i) P') := by
  have hwf : WellFounded (Relation.CutExpand
      (Relation.TransGen (Prog.Next : Prog O A ε α → Prog O A ε α → Prop))) :=
    Prog.next_wellFounded.transGen.cutExpand
  refine Subrelation.wf ?_ (InvImage.wf
    (fun P : Pool O A ε α σ ℓ C => (P.threads.map Thread.prog : Multiset _)) hwf)
  rintro P' P ⟨i, hturn⟩
  cases hturn with
  | @run s ts i t o k r s₁ l₁ p s' l' ht hop hsem hrun =>
    have hperm := (perm_set { t with sess := l', prog := p } ht).map Thread.prog
    simp only [List.map_cons] at hperm
    -- a turn replaces one program of the multiset by a part of it
    refine ⟨{p}, t.prog, ?_, ?_⟩
    · intro q hq
      obtain rfl := Multiset.mem_singleton.mp hq
      rw [hop]
      exact Relation.TransGen.tail' (runOn_next hrun) (Prog.next_op o k r)
    · rw [add_comm, add_comm (Multiset.ofList _) {p}]
      exact Multiset.coe_eq_coe.mpr hperm

/-! ## Playing turns -/

/-- A cue: start a call, answer what call `i` awaits, or move the surroundings. -/
inductive Cue (H C : Type) where
  | spawn (c : C)
  | run (i : ℕ) (hint : H)
  | env (hint : H)

def Cue.move {H : Type} : Cue H C → Move C
  | .spawn c => .spawn c
  | .run i _ => .run i
  | .env _ => .env

section Play

variable {H : Type} (L : Loop O A ε α σ ℓ C) [DecidablePred L.admits]
  (next : C → (o : O) → σ → ℓ → H → Option (Except ε (A o) × σ × ℓ))
  (surround : H → σ → Option σ)

/-- One cue, where `next` computes what an awaited operation answers and leaves and
`surround` how the surroundings move. -/
def act (P : Pool O A ε α σ ℓ C) : Cue H C → Option (Pool O A ε α σ ℓ C)
  | .spawn c =>
      if L.admits c then
        let x := runOn L.sync (L.body c) P.store L.start
        some ⟨x.2.1, P.threads ++ [⟨c, x.2.2, x.1, false⟩]⟩
      else none
  | .run i hint =>
      match P.threads[i]? with
      | some ⟨c, l, .op o k, b⟩ =>
          (next c o P.store l hint).map fun x =>
            let y := runOn L.sync (k x.1) x.2.1 x.2.2
            ⟨y.2.1, P.threads.set i ⟨c, y.2.2, y.1, b⟩⟩
      | _ => none
  | .env hint => (surround hint P.store).map fun s => ⟨s, P.threads⟩

def play : List (Cue H C) → Pool O A ε α σ ℓ C → Option (Pool O A ε α σ ℓ C)
  | [], P => some P
  | cue :: cues, P => (act L next surround P cue).bind (play cues)

variable {L next surround} {P P' : Pool O A ε α σ ℓ C}
  (hnext : ∀ c o s l h r s' l', next c o s l h = some (r, s', l') →
    L.sem c o s l r s' l')
  (hsurround : ∀ h s s', surround h s = some s' → L.env s s')

include hnext hsurround

theorem act_move {cue : Cue H C} (h : act L next surround P cue = some P') :
    L.Turn P cue.move P' := by
  cases cue with
  | spawn c =>
    simp only [act, Option.ite_none_right_eq_some, Option.some.injEq] at h
    obtain ⟨hc, rfl⟩ := h
    exact .spawn c hc rfl
  | run i hint =>
    simp only [act] at h
    split at h
    · rename_i c l o k b ht
      obtain ⟨⟨r, s₁, l₁⟩, hn, rfl⟩ := Option.map_eq_some_iff.mp h
      exact .run ht rfl (hnext _ _ _ _ _ _ _ _ hn) rfl
    · cases h
  | env hint =>
    obtain ⟨s', hs, rfl⟩ := Option.map_eq_some_iff.mp h
    exact .env (hsurround _ _ _ hs)

theorem act_turn {cue : Cue H C} (h : act L next surround P cue = some P') :
    ∃ m, L.Turn P m P' := ⟨cue.move, act_move hnext hsurround h⟩

theorem play_reaches {cues : List (Cue H C)} (h : play L next surround cues P = some P') :
    L.Reaches P P' := by
  induction cues generalizing P with
  | nil => cases h; exact .refl
  | cons cue cues ih =>
    obtain ⟨P₁, hact, hplay⟩ := Option.bind_eq_some_iff.mp h
    exact .head (act_turn hnext hsurround hact) (ih hplay)

end Play

end Loop

end EmployeePortal.Framework
