import EmployeePortal.Framework.Pool

/-!
# Rely and guarantee

`Safe K sem p Q s l`: run from store `s` with session `l`, every operation of
`p` keeps the contract `K` and its result satisfies `Q`, whatever the others do
to the store between two operations as long as it is within `K.rely`.
-/

namespace EmployeePortal.Framework

variable {O : Type} {A : O → Type} {ε α β σ ℓ C : Type}

/-- What the store always satisfies, what a call tolerates from the others
between its operations, what each of its own operations may do, and whether
every operation has to find an answer. -/
structure Contract (σ : Type) where
  inv : σ → Prop
  rely : σ → σ → Prop
  guar : σ → σ → Prop
  live : Prop := False
  rely_refl : ∀ s, rely s s
  rely_trans : ∀ {s t u}, rely s t → rely t u → rely s u

namespace Contract

/-- The others may do anything that keeps `inv`. -/
def anyone (inv : σ → Prop) : Contract σ where
  inv := inv
  rely := fun _ _ => True
  guar := fun _ _ => True
  rely_refl := fun _ => trivial
  rely_trans := fun _ _ => trivial

/-- Everybody moves the store along the preorder `le`. -/
def along (inv : σ → Prop) (le : σ → σ → Prop) (hrefl : ∀ s, le s s)
    (htrans : ∀ {s t u}, le s t → le t u → le s u) : Contract σ where
  inv := inv
  rely := le
  guar := le
  rely_refl := hrefl
  rely_trans := htrans

/-- Nobody else is there. -/
def solo (inv : σ → Prop) : Contract σ where
  inv := inv
  rely := fun s t => s = t
  guar := fun _ _ => True
  rely_refl := fun _ => rfl
  rely_trans := fun h h' => h.trans h'

end Contract

/-- Postconditions: on the result, the store and the session. -/
abbrev Post (ε α σ ℓ : Type) : Type := Except ε α → σ → ℓ → Prop

/-- `Q` is not undone by the others. -/
def Stable (K : Contract σ) (Q : Post ε α σ ℓ) : Prop :=
  ∀ ⦃r s s' l⦄, Q r s l → K.rely s s' → K.inv s' → Q r s' l

/-- The meaning of one operation, as `System.sem` gives it for a call. -/
abbrev OpSem (O : Type) (A : O → Type) (ε σ ℓ : Type) : Type :=
  (o : O) → σ → ℓ → Except ε (A o) → σ → ℓ → Prop

section Safe

variable (K : Contract σ) (sem : OpSem O A ε σ ℓ)

def Safe : Prog O A ε α → Post ε α σ ℓ → σ → ℓ → Prop
  | .ret a, Q, s, l => Q (.ok a) s l
  | .raise e, Q, s, l => Q (.error e) s l
  | .op o k, Q, s, l => ∀ s₁, K.rely s s₁ → K.inv s₁ →
      (K.live → ∃ r s₂ l₂, sem o s₁ l r s₂ l₂) ∧
      ∀ r s₂ l₂, sem o s₁ l r s₂ l₂ →
        K.inv s₂ ∧ K.guar s₁ s₂ ∧ Safe (k r) Q s₂ l₂

end Safe

namespace Safe

variable {K : Contract σ} {sem : OpSem O A ε σ ℓ} {Q Q' : Post ε α σ ℓ}
  {s s' : σ} {l : ℓ}

theorem mono {p : Prog O A ε α} (h : Safe K sem p Q s l)
    (hQ : ∀ r s l, Q r s l → Q' r s l) : Safe K sem p Q' s l := by
  induction p generalizing s l with
  | ret a => exact hQ _ _ _ h
  | raise e => exact hQ _ _ _ h
  | op o k ih =>
    intro s₁ hrely hinv
    obtain ⟨hlive, hstep⟩ := h s₁ hrely hinv
    refine ⟨hlive, fun r s₂ l₂ hsem => ?_⟩
    obtain ⟨hinv₂, hguar, hk⟩ := hstep r s₂ l₂ hsem
    exact ⟨hinv₂, hguar, ih r hk⟩

/-- Safety survives what the others do. -/
theorem stable (hQ : Stable K Q) {p : Prog O A ε α} (h : Safe K sem p Q s l)
    (hrely : K.rely s s') (hinv : K.inv s') : Safe K sem p Q s' l := by
  cases p with
  | ret a => exact hQ h hrely hinv
  | raise e => exact hQ h hrely hinv
  | op o k => exact fun s₁ hrely₁ => h s₁ (K.rely_trans hrely hrely₁)

/-- What a call does after `p`: the rest of the program on success, the
exception otherwise. -/
def andThen (K : Contract σ) (sem : OpSem O A ε σ ℓ) (f : α → Prog O A ε β)
    (Q : Post ε β σ ℓ) : Post ε α σ ℓ
  | .ok a, s, l => Safe K sem (f a) Q s l
  | .error e, s, l => Q (.error e) s l

theorem bind_iff {p : Prog O A ε α} {f : α → Prog O A ε β} {Q : Post ε β σ ℓ} :
    Safe K sem (p >>= f) Q s l ↔ Safe K sem p (andThen K sem f Q) s l := by
  induction p generalizing s l with
  | ret a => exact Iff.rfl
  | raise e => exact Iff.rfl
  | op o k ih => simp only [Prog.op_bind, Safe, ih]

theorem bind {p : Prog O A ε α} {f : α → Prog O A ε β} {R : Post ε α σ ℓ}
    {Q : Post ε β σ ℓ} (hp : Safe K sem p R s l)
    (hok : ∀ a s l, R (.ok a) s l → Safe K sem (f a) Q s l)
    (herr : ∀ e s l, R (.error e) s l → Q (.error e) s l) :
    Safe K sem (p >>= f) Q s l := by
  refine bind_iff.mpr (hp.mono ?_)
  rintro (e | a) s l h
  · exact herr e s l h
  · exact hok a s l h

/-- What a call does after `try: p`: nothing more on success, the handler
otherwise. -/
def catching (K : Contract σ) (sem : OpSem O A ε σ ℓ) (h : ε → Prog O A ε α)
    (Q : Post ε α σ ℓ) : Post ε α σ ℓ
  | .ok a, s, l => Q (.ok a) s l
  | .error e, s, l => Safe K sem (h e) Q s l

theorem tryCatch_iff {p : Prog O A ε α} {h : ε → Prog O A ε α} :
    Safe K sem (tryCatchThe ε p h) Q s l ↔ Safe K sem p (catching K sem h Q) s l := by
  induction p generalizing s l with
  | ret a => exact Iff.rfl
  | raise e => exact Iff.rfl
  | op o k ih =>
    simp only [Safe, ← ih]
    exact Iff.rfl

/-- `try: p except: h`. -/
theorem tryCatch {p : Prog O A ε α} {h : ε → Prog O A ε α} {R : Post ε α σ ℓ}
    (hp : Safe K sem p R s l)
    (hok : ∀ a s l, R (.ok a) s l → Q (.ok a) s l)
    (herr : ∀ e s l, R (.error e) s l → Safe K sem (h e) Q s l) :
    Safe K sem (tryCatchThe ε p h) Q s l := by
  refine tryCatch_iff.mpr (hp.mono ?_)
  rintro (e | a) s l h
  · exact herr e s l h
  · exact hok a s l h

theorem perform {o : O} {Q : Post ε (A o) σ ℓ}
    (hlive : ∀ s₁, K.rely s s₁ → K.inv s₁ → K.live → ∃ r s₂ l₂, sem o s₁ l r s₂ l₂)
    (h : ∀ s₁, K.rely s s₁ → K.inv s₁ → ∀ r s₂ l₂, sem o s₁ l r s₂ l₂ →
      K.inv s₂ ∧ K.guar s₁ s₂ ∧ Q r s₂ l₂) :
    Safe K sem (Prog.perform o) Q s l := by
  intro s₁ hrely hinv
  refine ⟨hlive s₁ hrely hinv, fun r s₂ l₂ hsem => ?_⟩
  obtain ⟨hinv₂, hguar, hQ⟩ := h s₁ hrely hinv r s₂ l₂ hsem
  refine ⟨hinv₂, hguar, ?_⟩
  cases r with
  | ok a => exact hQ
  | error e => exact hQ

theorem ofExcept {x : Except ε α} (h : Q x s l) :
    Safe K sem (Prog.ofExcept x) Q s l := by
  cases x with
  | ok a => exact h
  | error e => exact h

/-- A call about which nothing is asked, where every operation keeps the
contract anyway. -/
theorem trivial (hlax : ¬ K.live) (hsem : ∀ o s l r s' l', K.inv s → sem o s l r s' l' →
      K.inv s' ∧ K.guar s s') (p : Prog O A ε α) (s : σ) (l : ℓ) :
    Safe K sem p (fun _ _ _ => True) s l := by
  induction p generalizing s l with
  | ret a => exact True.intro
  | raise e => exact True.intro
  | op o k ih =>
    intro s₁ _ hinv
    refine ⟨fun hlive => absurd hlive hlax, fun r s₂ l₂ h => ?_⟩
    obtain ⟨hinv₂, hguar⟩ := hsem o s₁ l r s₂ l₂ hinv h
    exact ⟨hinv₂, hguar, ih r s₂ l₂⟩

end Safe

/-! ## From one call to the pool -/

/-- The store keeps the invariant and every call still running is safe. The
postcondition may depend on the call and on when it was started. -/
def Pool.Safe (K : Contract σ) (S : System O A ε α σ ℓ C)
    (Q : ℕ → C → Post ε α σ ℓ) (P : Pool O A ε α σ ℓ C) : Prop :=
  K.inv P.store ∧ ∀ i t, P.threads[i]? = some t → t.cut = false →
    Framework.Safe K (S.sem t.call) t.prog (Q i t.call) P.store t.sess

namespace System

variable {S : System O A ε α σ ℓ C} {K : Contract σ}
  {Q : ℕ → C → Post ε α σ ℓ} {P P' : Pool O A ε α σ ℓ C} {m : Move C}

theorem safe_step (hfair : ∀ s s', K.guar s s' → K.rely s s')
    (hQ : ∀ i c, Stable K (Q i c))
    (henv : ∀ s s', K.inv s → S.env s s' → K.inv s' ∧ K.rely s s')
    (hbody : ∀ i c s, S.admits c → K.inv s →
      Framework.Safe K (S.sem c) (S.body c) (Q i c) s S.start)
    (hstep : S.Step P m P') (hP : P.Safe K S Q) : P'.Safe K S Q := by
  obtain ⟨hinv, hsafe⟩ := hP
  cases hstep with
  | @spawn s ts c hc =>
    refine ⟨hinv, fun i t ht hcut => ?_⟩
    -- only the new call is not safe already
    rcases getElem?_concat_cases ht with hold | ⟨-, rfl⟩
    · exact hsafe i t hold hcut
    · exact hbody _ c _ hc hinv
  | @run s ts i t o k r s' l' ht hcut hop hsem =>
    have hown := hsafe i t ht hcut
    rw [hop] at hown
    obtain ⟨hinv', hguar, hk⟩ := (hown s (K.rely_refl s) hinv).2 r s' l' hsem
    refine ⟨hinv', fun j u hu hcutu => ?_⟩
    rcases getElem?_set_cases hu with ⟨rfl, rfl⟩ | ⟨-, hold⟩
    · exact hk
    · exact (hsafe j u hold hcutu).stable (hQ j u.call) (hfair _ _ hguar) hinv'
  | @cut s ts i t ht hc =>
    refine ⟨hinv, fun j u hu hcutu => ?_⟩
    rcases getElem?_set_cases hu with ⟨-, rfl⟩ | ⟨-, hold⟩
    · cases hcutu
    · exact hsafe j u hold hcutu
  | @env s s' ts he =>
    obtain ⟨hinv', hrely⟩ := henv s s' hinv he
    exact ⟨hinv', fun j u hu hcutu =>
      (hsafe j u hu hcutu).stable (hQ j u.call) hrely hinv'⟩

/-- **Rely and guarantee.** Calls that are safe one by one are safe together,
under every schedule. -/
theorem safe_of_reaches (hfair : ∀ s s', K.guar s s' → K.rely s s')
    (hQ : ∀ i c, Stable K (Q i c))
    (henv : ∀ s s', K.inv s → S.env s s' → K.inv s' ∧ K.rely s s')
    (hbody : ∀ i c s, S.admits c → K.inv s →
      Framework.Safe K (S.sem c) (S.body c) (Q i c) s S.start)
    (h : S.Reaches P P') (hP : P.Safe K S Q) : P'.Safe K S Q := by
  induction h with
  | refl => exact hP
  | tail _ hstep ih =>
    obtain ⟨m, hm⟩ := hstep
    exact safe_step hfair hQ henv hbody hm ih

/-- The result of a call that returned satisfies its postcondition. -/
theorem post_of_returned {i : ℕ} {t : Thread O A ε α ℓ C} {a : α}
    (hP : P.Safe K S Q) (ht : P.threads[i]? = some t) (hret : t.Returned a) :
    Q i t.call (.ok a) P.store t.sess := by
  have h := hP.2 i t ht hret.1
  rwa [hret.2] at h

/-- Under a live contract a call that is not over can go on. -/
theorem progress {i : ℕ} {t : Thread O A ε α ℓ C} (hlive : K.live) (hP : P.Safe K S Q)
    (ht : P.threads[i]? = some t) (hrunning : ¬ t.Finished) : ∃ P', S.Step P (.run i) P' := by
  obtain ⟨hinv, hsafe⟩ := hP
  cases hcut : t.cut with
  | true => exact absurd (Or.inl hcut) hrunning
  | false =>
    have hown := hsafe i t ht hcut
    cases hprog : t.prog with
    | ret a => exact absurd (Or.inr (Or.inl ⟨a, hprog⟩)) hrunning
    | raise e => exact absurd (Or.inr (Or.inr ⟨e, hprog⟩)) hrunning
    | op o k =>
      rw [hprog] at hown
      obtain ⟨r, s', l', hsem⟩ := (hown P.store (K.rely_refl _) hinv).1 hlive
      exact ⟨_, .run ht hcut hprog hsem⟩

theorem safe_nil (S : System O A ε α σ ℓ C) (K : Contract σ)
    (Q : ℕ → C → Post ε α σ ℓ) {s : σ} (h : K.inv s) :
    Pool.Safe K S Q ⟨s, []⟩ := ⟨h, by simp⟩

end System

end EmployeePortal.Framework
