import EmployeePortal.Framework.Refinement

/-!
# One part after the other

Calls that run one part and then, on what it comes to, another one. Where the first part
keeps a contract which the second one leaves alone, every call of a reachable pool is in one
of the two, and a call in the second has what the first came to (`Sequel.Phase`).
-/

namespace EmployeePortal.Framework

variable {O : Type} {A : O → Type} {ε α β γ σ ℓ C : Type}

section Turns

variable {sync : Statements O A ε σ ℓ}

/-- A turn of the first part may lead into the second. -/
theorem runOn_bind (p : Prog O A ε β) (f : β → Prog O A ε γ) (s : σ) (l : ℓ) :
    runOn sync (p >>= f) s l =
      match runOn sync p s l with
      | (.ret b, s', l') => runOn sync (f b) s' l'
      | (p', s', l') => (p' >>= f, s', l') := by
  induction p generalizing s l with
  | ret b => rfl
  | raise e => rfl
  | op o k ih =>
    rw [Prog.op_bind, runOn, runOn]
    cases ho : sync o with
    | some g => exact ih _ _ _
    | none => rfl

theorem runOn_conclude (p : Prog O A ε β) (g : Except ε β → Except ε γ) (s : σ) (l : ℓ) :
    runOn sync (p.conclude g) s l =
      ((runOn sync p s l).1.conclude g, (runOn sync p s l).2) := by
  have hend : ∀ x : Except ε γ, runOn sync (Prog.ofExcept x) s l = (.ofExcept x, s, l) := by
    rintro (e | a) <;> rfl
  induction p generalizing s l with
  | ret b => exact hend _
  | raise e => exact hend _
  | op o k ih =>
    rw [Prog.conclude_op, runOn, runOn]
    cases ho : sync o with
    | some f => exact ih _ _ _ (by rintro (e | a) <;> rfl)
    | none => rfl

end Turns

/-- The calls run `first` and then `rest`, and `last` decides what the result amounts to.
During `first` the session is as `before`; `came` is what `first` has come to, and stays so
during `rest`. -/
structure Sequel (L : Loop O A ε α σ ℓ C) (K : Contract σ) (β γ : Type) where
  first : C → Prog O A ε β
  rest : C → β → Prog O A ε γ
  last : C → Except ε γ → Except ε α
  body : ∀ c, L.admits c → L.body c = (first c >>= rest c).conclude (last c)
  opening : O → Prop
  closing : C → β → O → Prop
  first_only : ∀ c, (first c).Only opening
  rest_only : ∀ c b, (rest c b).Only (closing c b)
  before : ℓ → Prop
  came : C → Except ε β → ℓ → Prop
  start : before L.start
  keeps : ∀ c s, K.inv s →
    Keeps K L.sync (L.sem c) (ends K fun r _ l => before l → came c r l) (first c) s s L.start
  opens : ∀ {c o s l r s' l'}, opening o → L.Does c o s l r s' l' → before l → before l'
  closes : ∀ {c b o s l r s' l'}, closing c b o → L.Does c o s l r s' l' → K.inv s →
    came c (.ok b) l → K.inv s' ∧ K.rely s s' ∧ came c (.ok b) l'
  fair : ∀ s s', K.guar s s' → K.rely s s'
  env : ∀ s s', K.inv s → L.env s s' → K.inv s' ∧ K.rely s s'

namespace Sequel

variable {L : Loop O A ε α σ ℓ C} {K : Contract σ} (S : Sequel L K β γ)

/-- Where a call is. -/
inductive Phase (c : C) : Prog O A ε α → σ → ℓ → Prop
  | first {m : Prog O A ε β} {s l} (hm : m.result = none) (honly : m.Only S.opening) (hbefore : S.before l)
      (h : AtRest K L.sync (L.sem c) (fun r _ l => S.before l → S.came c r l) m s l) :
      Phase c ((m >>= S.rest c).conclude (S.last c)) s l
  | failed {e s l} (hbefore : S.before l) (h : S.came c (.error e) l) :
      Phase c (.ofExcept (S.last c (.error e))) s l
  | rest {b} {q : Prog O A ε γ} {s l} (hq : q.Only (S.closing c b)) (h : S.came c (.ok b) l) :
      Phase c (q.conclude (S.last c)) s l

variable {S} {c : C} {s₀ s s' : σ} {l l' : ℓ}

theorem Phase.stable {p : Prog O A ε α} (h : S.Phase c p s l) (hrely : K.rely s s')
    (hinv : K.inv s') : S.Phase c p s' l := by
  cases h with
  | first hm honly hbefore h =>
    exact .first hm honly hbefore (h.stable (fun _ _ _ _ hcame _ _ => hcame) hrely hinv)
  | failed hbefore h => exact .failed hbefore h
  | rest hq h => exact .rest hq h

theorem opening_runOn (c : C) {m m' : Prog O A ε β} (honly : m.Only S.opening) (hbefore : S.before l)
    (hrun : runOn L.sync m s l = (m', s', l')) : m'.Only S.opening ∧ S.before l' := by
  induction m generalizing s l with
  | ret b =>
    obtain ⟨rfl, rfl, rfl⟩ := by simpa [runOn] using hrun
    exact ⟨honly, hbefore⟩
  | raise e =>
    obtain ⟨rfl, rfl, rfl⟩ := by simpa [runOn] using hrun
    exact ⟨honly, hbefore⟩
  | op o k ih =>
    rw [runOn] at hrun
    cases ho : L.sync o with
    | some f =>
      rw [ho] at hrun
      exact ih _ (honly.2 _) (S.opens honly.1 (Loop.does_of_sync ho c s l) hbefore) hrun
    | none =>
      rw [ho] at hrun
      obtain ⟨rfl, rfl, rfl⟩ := by simpa using hrun
      exact ⟨honly, hbefore⟩

theorem closing_runOn {b : β} {q q' : Prog O A ε γ} (honly : q.Only (S.closing c b)) (hinv : K.inv s)
    (hcame : S.came c (.ok b) l) (hrun : runOn L.sync q s l = (q', s', l')) :
    K.inv s' ∧ K.rely s s' ∧ q'.Only (S.closing c b) ∧ S.came c (.ok b) l' := by
  induction q generalizing s l with
  | ret a =>
    obtain ⟨rfl, rfl, rfl⟩ := by simpa [runOn] using hrun
    exact ⟨hinv, K.rely_refl s, honly, hcame⟩
  | raise e =>
    obtain ⟨rfl, rfl, rfl⟩ := by simpa [runOn] using hrun
    exact ⟨hinv, K.rely_refl s, honly, hcame⟩
  | op o k ih =>
    rw [runOn] at hrun
    cases ho : L.sync o with
    | some f =>
      rw [ho] at hrun
      obtain ⟨hinv₁, hrely, hcame₁⟩ := S.closes honly.1 (Loop.does_of_sync ho c s l) hinv hcame
      obtain ⟨hinv', hrely', hrest⟩ := ih _ (honly.2 _) hinv₁ hcame₁ hrun
      exact ⟨hinv', K.rely_trans hrely hrely', hrest⟩
    | none =>
      rw [ho] at hrun
      obtain ⟨rfl, rfl, rfl⟩ := by simpa using hrun
      exact ⟨hinv, K.rely_refl s, honly, hcame⟩

/-- A turn that begins in the second part. -/
theorem phase_closing {b : β} {q : Prog O A ε γ} {p : Prog O A ε α}
    (honly : q.Only (S.closing c b)) (hinv : K.inv s) (hcame : S.came c (.ok b) l)
    (hrun : runOn L.sync (q.conclude (S.last c)) s l = (p, s', l')) :
    K.inv s' ∧ K.rely s s' ∧ S.Phase c p s' l' := by
  rw [runOn_conclude] at hrun
  obtain ⟨q₁, s₁, l₁, hrun₁⟩ : ∃ q₁ s₁ l₁, runOn L.sync q s l = (q₁, s₁, l₁) := ⟨_, _, _, rfl⟩
  rw [hrun₁] at hrun
  obtain ⟨rfl, hrest⟩ := Prod.mk.inj hrun
  obtain ⟨rfl, rfl⟩ := Prod.mk.inj hrest
  obtain ⟨hinv', hrely, honly', hcame'⟩ := closing_runOn honly hinv hcame hrun₁
  exact ⟨hinv', hrely, .rest honly' hcame'⟩

/-- A turn that begins in the first part, and may end in the second. -/
theorem phase_opening {m : Prog O A ε β} {p : Prog O A ε α}
    (hkeeps : Keeps K L.sync (L.sem c) (ends K fun r _ l => S.before l → S.came c r l) m s₀ s l)
    (honly : m.Only S.opening) (hbefore : S.before l)
    (hrun : runOn L.sync ((m >>= S.rest c).conclude (S.last c)) s l = (p, s', l')) :
    K.inv s' ∧ K.rely s₀ s' ∧ S.Phase c p s' l' := by
  rw [runOn_conclude, runOn_bind] at hrun
  obtain ⟨m₁, s₁, l₁, hrun₁⟩ : ∃ m₁ s₁ l₁, runOn L.sync m s l = (m₁, s₁, l₁) := ⟨_, _, _, rfl⟩
  obtain ⟨hinv₁, hguar, hrest⟩ := hkeeps.runOn hrun₁
  obtain ⟨honly₁, hbefore₁⟩ := opening_runOn c honly hbefore hrun₁
  rw [hrun₁] at hrun
  cases m₁ with
  | ret b =>
    rw [← runOn_conclude] at hrun
    obtain ⟨hinv', hrely, hphase⟩ :=
      phase_closing (S.rest_only c b) hinv₁ (hrest hbefore₁) hrun
    exact ⟨hinv', K.rely_trans (S.fair _ _ hguar) hrely, hphase⟩
  | raise e =>
    obtain ⟨rfl, rfl, rfl⟩ := by simpa using hrun
    exact ⟨hinv₁, S.fair _ _ hguar, .failed hbefore₁ (hrest hbefore₁)⟩
  | op o k =>
    obtain ⟨rfl, rfl, rfl⟩ := by simpa using hrun
    exact ⟨hinv₁, S.fair _ _ hguar, .first rfl honly₁ hbefore₁ hrest⟩

/-- One turn of a call that awaits `o`. -/
theorem Phase.turn {o : O} {k : Except ε (A o) → Prog O A ε α} {r : Except ε (A o)} {s₁ : σ}
    {l₁ : ℓ} {p : Prog O A ε α} (h : S.Phase c (.op o k) s l) (hinv : K.inv s)
    (hawaited : L.sync o = none) (hsem : L.sem c o s l r s₁ l₁)
    (hrun : runOn L.sync (k r) s₁ l₁ = (p, s', l')) :
    K.inv s' ∧ K.rely s s' ∧ S.Phase c p s' l' := by
  have hdoes := Loop.does_of_sem hawaited hsem
  generalize hq : Prog.op o k = q at h
  cases h with
  | @first m s l hm honly hbefore h =>
    obtain ⟨o₁, k₁, rfl⟩ := Prog.exists_op_of_result hm
    obtain ⟨rfl, hk⟩ := Prog.op.inj hq
    obtain rfl := eq_of_heq hk
    exact phase_opening (h s (K.rely_refl s) hinv r s₁ l₁ hsem) (honly.2 r)
      (S.opens honly.1 hdoes hbefore) hrun
  | @failed e s l hbefore h => cases hlast : S.last c (.error e) <;> rw [hlast] at hq <;> cases hq
  | @rest b q s l honly h =>
    cases q with
    | ret a => cases hlast : S.last c (.ok a) <;> simp [Prog.conclude, hlast] at hq
    | raise e => cases hlast : S.last c (.error e) <;> simp [Prog.conclude, hlast] at hq
    | op o₁ k₁ =>
      obtain ⟨rfl, hk⟩ := Prog.op.inj hq
      obtain rfl := eq_of_heq hk
      obtain ⟨hinv₁, hrely, hcame⟩ := S.closes honly.1 hdoes hinv h
      obtain ⟨hinv', hrely', hphase⟩ := phase_closing (honly.2 r) hinv₁ hcame hrun
      exact ⟨hinv', K.rely_trans hrely hrely', hphase⟩

variable (S) in
/-- **In every order of turns** each call is in one of its parts. -/
theorem phase_of_reaches {P : Pool O A ε α σ ℓ C} (hinv : K.inv s) (h : L.Reaches ⟨s, []⟩ P) :
    K.inv P.store ∧ ∀ t ∈ P.threads, S.Phase t.call t.prog P.store t.sess := by
  induction h with
  | refl => exact ⟨hinv, by simp⟩
  | tail hreaches hturn ih =>
    obtain ⟨hinv, hphases⟩ := ih
    obtain ⟨m, hm⟩ := hturn
    cases hm with
    | @spawn s ts p s' l' c hc hrun =>
      rw [S.body c hc] at hrun
      obtain ⟨hinv', hrely, hphase⟩ := phase_opening (S.keeps c s hinv) (S.first_only c) S.start hrun
      refine ⟨hinv', fun t ht => ?_⟩
      rcases List.mem_append.mp ht with hold | hnew
      · exact (hphases t hold).stable hrely hinv'
      · obtain rfl := List.mem_singleton.mp hnew
        exact hphase
    | @run s ts i t o k r s₁ l₁ p s' l' hi hop hsem hrun =>
      have ht := List.mem_of_getElem? hi
      have hawaited := Loop.awaits_of_reaches hreaches (by simp) t ht o k hop
      have hown := hphases t ht
      rw [hop] at hown
      obtain ⟨hinv', hrely, hphase⟩ := hown.turn hinv hawaited hsem hrun
      refine ⟨hinv', fun u hu => ?_⟩
      rcases List.mem_or_eq_of_mem_set hu with hold | rfl
      · exact (hphases u hold).stable hrely hinv'
      · exact hphase
    | env he =>
      obtain ⟨hinv', hrely⟩ := S.env _ _ hinv he
      exact ⟨hinv', fun t ht => (hphases t ht).stable hrely hinv'⟩

end Sequel

end EmployeePortal.Framework
