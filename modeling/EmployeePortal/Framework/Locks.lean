import EmployeePortal.Framework.Protocols

/-!
# Loops with locks

A flag of the store for each lock says whether it is taken. Where every call takes a
lock only when it has none, frees only the one it has, and never ends with one, a flag
is up exactly while one call has the lock (`Locks.Tidy`). Then nobody waits for a lock
that nobody frees: as long as a call is not over, some call can go on, and without new
calls the turns come to an end with every call over (`Locks.Settles`).
-/

namespace EmployeePortal.Framework

variable {O : Type} {A : O → Type} {ε α β γ σ ℓ C ι : Type}

/-! ## Locks -/

/-- The locks of a loop: the operations that take and free them, and their flags. To await an
`acquire` that raises takes no lock. -/
structure Locks (L : Loop O A ε α σ ℓ C) (ι : Type) [DecidableEq ι] where
  acquires : O → Option ι
  releases : O → Option ι
  locked : ι → σ → Bool
  awaited : ∀ {o i}, acquires o = some i → L.sync o = none
  statement : ∀ {o f} (s l), L.sync o = some f → ∀ i,
    locked i (f s l).2.1 = (locked i s && decide (releases o ≠ some i))
  taken : ∀ {c o s l r s' l' i}, L.sem c o s l r s' l' → acquires o = some i →
    locked i s = false ∧ locked i s' = r.isOk
  passed : ∀ {c o s l r s' l' i}, L.sem c o s l r s' l' → acquires o ≠ some i →
    locked i s' = locked i s
  unreleased : ∀ {o}, L.sync o = none → releases o = none
  granted : ∀ {o i} (c s l), acquires o = some i → locked i s = false →
    ∃ r s' l', L.sem c o s l r s' l'
  answer : ∀ {o i}, acquires o = some i → Nonempty (Except ε (A o))
  env : ∀ {s s'}, L.env s s' → ∀ i, locked i s' = locked i s

namespace Locks

variable [DecidableEq ι] {L : Loop O A ε α σ ℓ C} (K : Locks L ι)

/-! ## Programs that use locks -/

/-- The lock a call has, before and after an operation. -/
def next : Protocol O A ε (Option ι) := fun held o r =>
  match K.acquires o with
  | some i => if held = none then some (if r.isOk then some i else none) else none
  | none =>
      match K.releases o with
      | some i => if held = some i then some none else none
      | none => some held

/-- The program ends without a lock. -/
def Brackets (p : Prog O A ε β) (held : Option ι) : Prop :=
  Obeys K.next (fun _ q => q = none) p held

/-- The operation has nothing to do with locks. -/
def Neutral (o : O) : Prop := K.acquires o = none ∧ K.releases o = none

variable {K}

theorem next_of_neutral {o : O} (h : K.Neutral o) (held : Option ι) (r : Except ε (A o)) :
    K.next held o r = some held := by
  rw [next, h.1, h.2]

theorem obeys_of_only {p : Prog O A ε β} {held : Option ι} {Q : Except ε β → Option ι → Prop}
    (h : p.Only K.Neutral) (hQ : ∀ r, Q r held) : Obeys K.next Q p held :=
  .of_only h (fun _ ho r => next_of_neutral ho held r) hQ

/-- Taking a lock. -/
theorem obeys_acquire {o : O} {i : ι} (h : K.acquires o = some i) :
    Obeys K.next (fun r q => q = if r.isOk then some i else none) (Prog.perform o) none := by
  intro r
  refine ⟨if r.isOk then some i else none, by rw [next, h]; rfl, ?_⟩
  cases r <;> rfl

/-- Freeing it. -/
theorem obeys_release {o : O} {i : ι} (h : K.acquires o = none) (hreleases : K.releases o = some i) :
    Obeys K.next (fun r q => r.isOk = true ∧ q = none) (Prog.tell o) (some i) :=
  fun r => ⟨none, by rw [next, h, hreleases]; exact if_pos rfl, rfl, rfl⟩

/-- `async with lock:` around a body that leaves the locks alone. -/
theorem brackets_inside {enter leave : Prog O A ε Unit} {i : ι}
    (henter : Obeys K.next (fun r q => q = if r.isOk then some i else none) enter none)
    (hleave : Obeys K.next (fun r q => r.isOk = true ∧ q = none) leave (some i))
    {p : Prog O A ε β} (hp : p.Only K.Neutral) : K.Brackets (Prog.inside enter leave p) none := by
  rw [Brackets, Prog.inside, Obeys.bind_iff]
  refine henter.mono ?_
  rintro (e | ⟨⟩) q rfl
  · rfl
  change Obeys K.next _ _ (some i)
  rw [Obeys.bind_iff, Obeys.attempt_iff]
  refine obeys_of_only hp fun r => ?_
  change Obeys K.next _ _ (some i)
  rw [Obeys.bind_iff]
  refine hleave.mono ?_
  rintro (e | ⟨⟩) q ⟨hok, rfl⟩
  · cases hok
  · exact Obeys.ofExcept_iff.mpr rfl

theorem brackets_of_only {p : Prog O A ε β} (h : p.Only K.Neutral) : K.Brackets p none :=
  obeys_of_only h fun _ => rfl

theorem brackets_bind {p : Prog O A ε β} {f : β → Prog O A ε γ} (hp : K.Brackets p none)
    (hf : ∀ b, K.Brackets (f b) none) : K.Brackets (p >>= f) none := by
  rw [Brackets, Obeys.bind_iff]
  refine Obeys.mono hp ?_
  rintro (e | b) q rfl
  · rfl
  · exact hf b

theorem brackets_attempt {p : Prog O A ε β} (hp : K.Brackets p none) :
    K.Brackets p.attempt none :=
  Obeys.attempt_iff.mpr hp

/-! ## Turns -/

variable (K) in
/-- What a step does to the flags, when its call has `held` before it and `held'` after it. -/
structure Moves (held held' : Option ι) (s s' : σ) : Prop where
  flags : ∀ i, K.locked i s' = true ↔ held' = some i ∨ (K.locked i s = true ∧ held ≠ some i)
  fresh : ∀ i, held' = some i → held = some i ∨ K.locked i s = false

theorem Moves.refl {held : Option ι} {s s' : σ} (hown : ∀ i, held = some i → K.locked i s = true)
    (hsame : ∀ i, K.locked i s' = K.locked i s) : K.Moves held held s s' where
  flags := by
    intro i
    rw [hsame]
    by_cases hi : held = some i
    · exact ⟨fun _ => Or.inl hi, fun _ => hown i hi⟩
    · exact ⟨fun h => Or.inr ⟨h, hi⟩, fun h => h.elim (absurd · hi) And.left⟩
  fresh := fun i hi => Or.inl hi

theorem Moves.own {held held' : Option ι} {s s' : σ} (h : K.Moves held held' s s') {i : ι}
    (hi : held' = some i) : K.locked i s' = true :=
  (h.flags i).mpr (Or.inl hi)

theorem Moves.trans {held held₁ held₂ : Option ι} {s s₁ s₂ : σ} (h : K.Moves held held₁ s s₁)
    (h' : K.Moves held₁ held₂ s₁ s₂) : K.Moves held held₂ s s₂ where
  flags := by
    intro i
    rw [h'.flags i, h.flags i]
    constructor
    · rintro (hi | ⟨hi | hi, hnot⟩)
      · exact Or.inl hi
      · exact absurd hi hnot
      · exact Or.inr hi
    · rintro (hi | ⟨hlocked, hnot⟩)
      · exact Or.inl hi
      · refine Or.inr ⟨Or.inr ⟨hlocked, hnot⟩, fun hi => ?_⟩
        rcases h.fresh i hi with hold | hfree
        · exact hnot hold
        · rw [hlocked] at hfree
          cases hfree
  fresh := by
    intro i hi
    rcases h'.fresh i hi with hmiddle | hfree
    · exact h.fresh i hmiddle
    · by_cases hold : held = some i
      · exact Or.inl hold
      · refine Or.inr (Bool.eq_false_iff.mpr fun hlocked => ?_)
        rw [(h.flags i).mpr (Or.inr ⟨hlocked, hold⟩)] at hfree
        cases hfree

/-- A statement frees at most the lock its call has. -/
theorem moves_statement {o : O} {f : σ → ℓ → Except ε (A o) × σ × ℓ} {s : σ} {l : ℓ}
    {held held' : Option ι} (ho : L.sync o = some f)
    (hown : ∀ i, held = some i → K.locked i s = true)
    (hnext : K.next held o (f s l).1 = some held') : K.Moves held held' s (f s l).2.1 := by
  have hacquires : K.acquires o = none := by
    cases hacquires : K.acquires o with
    | none => rfl
    | some i =>
      rw [K.awaited hacquires] at ho
      cases ho
  have hflags := K.statement s l ho
  cases hreleases : K.releases o with
  | none =>
    obtain rfl : held = held' := by simpa [next, hacquires, hreleases] using hnext
    exact .refl hown fun i => by simp [hflags i, hreleases]
  | some i =>
    obtain ⟨rfl, rfl⟩ : held = some i ∧ none = held' := by
      simpa [next, hacquires, hreleases] using hnext
    refine ⟨fun j => ?_, fun j hj => by cases hj⟩
    rw [hflags j, hreleases]
    simp

theorem moves_awaited {c : C} {o : O} {r : Except ε (A o)} {s s' : σ} {l l' : ℓ}
    {held held' : Option ι} (hawaited : L.sync o = none) (hsem : L.sem c o s l r s' l')
    (hown : ∀ i, held = some i → K.locked i s = true)
    (hnext : K.next held o r = some held') : K.Moves held held' s s' := by
  cases hacquires : K.acquires o with
  | none =>
    obtain rfl : held = held' := by
      simpa [next, hacquires, K.unreleased hawaited] using hnext
    exact .refl hown fun i => K.passed hsem (by simp [hacquires])
  | some i =>
    obtain ⟨rfl, rfl⟩ : held = none ∧ (if r.isOk then some i else none) = held' := by
      simpa [next, hacquires] using hnext
    obtain ⟨hfree, htaken⟩ := K.taken hsem hacquires
    refine ⟨fun j => ?_, fun j hj => Or.inr ?_⟩
    · by_cases hj : i = j
      · subst hj
        rw [htaken, hfree]
        cases r.isOk <;> simp
      · rw [K.passed hsem (by simp [hacquires, hj])]
        cases r.isOk <;> simp [hj]
    · cases hok : r.isOk with
      | true =>
        rw [hok] at hj
        obtain rfl := Option.some.inj hj
        exact hfree
      | false =>
        rw [hok] at hj
        cases hj

theorem brackets_runOn {p p' : Prog O A ε α} {s s' : σ} {l l' : ℓ} {held : Option ι}
    (h : K.Brackets p held) (hown : ∀ i, held = some i → K.locked i s = true)
    (hrun : runOn L.sync p s l = (p', s', l')) :
    ∃ held', K.Brackets p' held' ∧ K.Moves held held' s s' := by
  induction p generalizing held s l with
  | ret a =>
    obtain ⟨rfl, rfl, rfl⟩ := by simpa [runOn] using hrun
    exact ⟨held, h, .refl hown fun _ => rfl⟩
  | raise e =>
    obtain ⟨rfl, rfl, rfl⟩ := by simpa [runOn] using hrun
    exact ⟨held, h, .refl hown fun _ => rfl⟩
  | op o k ih =>
    rw [runOn] at hrun
    cases ho : L.sync o with
    | none =>
      rw [ho] at hrun
      obtain ⟨rfl, rfl, rfl⟩ := by simpa using hrun
      exact ⟨held, h, .refl hown fun _ => rfl⟩
    | some f =>
      rw [ho] at hrun
      obtain ⟨q, hnext, hk⟩ := h (f s l).1
      have hmoves := moves_statement ho hown hnext
      obtain ⟨held', hbrackets, hmoves'⟩ := ih _ hk (fun i => hmoves.own) hrun
      exact ⟨held', hbrackets, hmoves.trans hmoves'⟩

/-! ## Who has which lock -/

variable {P P' : Pool O A ε α σ ℓ C}

variable (K) in
/-- A flag is up exactly while one of the calls has the lock, and no other one has it. -/
structure Holds (P : Pool O A ε α σ ℓ C) (held : ℕ → Option ι) : Prop where
  flags : ∀ i, K.locked i P.store = true ↔ ∃ n, held n = some i
  alone : ∀ m n i, held m = some i → held n = some i → m = n
  bound : ∀ n, P.threads.length ≤ n → held n = none
  calls : ∀ n t, P.threads[n]? = some t → K.Brackets t.prog (held n)

variable (K) in
def Tidy (P : Pool O A ε α σ ℓ C) : Prop := ∃ held, K.Holds P held

/-- The flags after a move of the call `n`. -/
theorem Holds.update {held : ℕ → Option ι} (hP : K.Holds P held) {n : ℕ} {held' : Option ι}
    {s' : σ} (hmoves : K.Moves (held n) held' P.store s') :
    (∀ i, K.locked i s' = true ↔ ∃ m, Function.update held n held' m = some i) ∧
      ∀ l m i, Function.update held n held' l = some i →
        Function.update held n held' m = some i → l = m := by
  -- whoever else has a lock keeps it, and it is not the one that was taken
  have hothers : ∀ m i, m ≠ n → held m = some i → held' ≠ some i := by
    intro m i hm hi hi'
    rcases hmoves.fresh i hi' with hold | hfree
    · exact hm (hP.alone m n i hi hold)
    · rw [(hP.flags i).mpr ⟨m, hi⟩] at hfree
      cases hfree
  constructor
  · intro i
    rw [hmoves.flags i, hP.flags i]
    constructor
    · rintro (hi | ⟨⟨m, hm⟩, hnot⟩)
      · exact ⟨n, by rw [Function.update_self, hi]⟩
      · refine ⟨m, ?_⟩
        have hmn : m ≠ n := by
          rintro rfl
          exact hnot hm
        rw [Function.update_of_ne hmn]
        exact hm
    · rintro ⟨m, hm⟩
      by_cases hmn : m = n
      · rw [hmn, Function.update_self] at hm
        exact Or.inl hm
      · rw [Function.update_of_ne hmn] at hm
        exact Or.inr ⟨⟨m, hm⟩, fun heq => hmn (hP.alone m n i hm heq)⟩
  · intro l m i hl hm
    by_cases hln : l = n
    · by_cases hmn : m = n
      · exact hln.trans hmn.symm
      · rw [hln, Function.update_self] at hl
        rw [Function.update_of_ne hmn] at hm
        exact absurd hl (hothers m i hmn hm)
    · rw [Function.update_of_ne hln] at hl
      by_cases hmn : m = n
      · rw [hmn, Function.update_self] at hm
        exact absurd hm (hothers l i hln hl)
      · rw [Function.update_of_ne hmn] at hm
        exact hP.alone l m i hl hm

theorem tidy_turn (hbody : ∀ c, L.admits c → K.Brackets (L.body c) none) {m : Move C}
    (hawaits : ∀ t ∈ P.threads, L.Awaits t) (hturn : L.Turn P m P') (hP : K.Tidy P) :
    K.Tidy P' := by
  obtain ⟨held, hP⟩ := hP
  have hown : ∀ n i, held n = some i → K.locked i P.store = true :=
    fun n i hi => (hP.flags i).mpr ⟨n, hi⟩
  cases hturn with
  | @spawn s ts p s' l' c hc hrun =>
    have hnew := hP.bound ts.length le_rfl
    obtain ⟨held', hbrackets, hmoves⟩ := brackets_runOn (hbody c hc) nofun hrun
    rw [← hnew] at hmoves
    obtain ⟨hflags, halone⟩ := hP.update hmoves
    refine ⟨Function.update held ts.length held', hflags, halone, fun n hn => ?_, fun n t ht => ?_⟩
    · rw [List.length_append, List.length_singleton] at hn
      rw [Function.update_of_ne (by omega)]
      exact hP.bound n (by dsimp only; omega)
    · rcases getElem?_concat_cases ht with hold | ⟨rfl, rfl⟩
      · have hn : n < ts.length := (List.getElem?_eq_some_iff.mp hold).1
        rw [Function.update_of_ne hn.ne]
        exact hP.calls n t hold
      · rw [Function.update_self]
        exact hbrackets
  | @run s ts n t o k r s₁ l₁ p s' l' ht hop hsem hrun =>
    have hcall := hP.calls n t ht
    rw [hop] at hcall
    obtain ⟨q, hnext, hk⟩ := hcall r
    have hawaited := hawaits t (List.mem_of_getElem? ht) o k hop
    have hmoves := moves_awaited hawaited hsem (hown n) hnext
    obtain ⟨held', hbrackets, hmoves'⟩ := brackets_runOn hk (fun i => hmoves.own) hrun
    obtain ⟨hflags, halone⟩ := hP.update (hmoves.trans hmoves')
    refine ⟨Function.update held n held', hflags, halone, fun m hm => ?_, fun m u hu => ?_⟩
    · have hn : n < ts.length := (List.getElem?_eq_some_iff.mp ht).1
      rw [List.length_set] at hm
      rw [Function.update_of_ne (by omega)]
      exact hP.bound m hm
    · rcases getElem?_set_cases hu with ⟨rfl, rfl⟩ | ⟨hm, hold⟩
      · rw [Function.update_self]
        exact hbrackets
      · rw [Function.update_of_ne hm]
        exact hP.calls m u hold
  | env he =>
    refine ⟨held, fun i => ?_, hP.alone, hP.bound, hP.calls⟩
    rw [K.env he]
    exact hP.flags i

theorem tidy_of_reaches (hbody : ∀ c, L.admits c → K.Brackets (L.body c) none)
    (hawaits : ∀ t ∈ P.threads, L.Awaits t) (h : L.Reaches P P') (hP : K.Tidy P) : K.Tidy P' := by
  induction h with
  | refl => exact hP
  | tail hreaches hturn ih =>
    obtain ⟨m, hm⟩ := hturn
    exact tidy_turn hbody (Loop.awaits_of_reaches hreaches hawaits) hm ih

theorem tidy_nil {s : σ} (hfree : ∀ i, K.locked i s = false) : K.Tidy ⟨s, []⟩ := by
  have hnone : ∀ i, K.locked i s = true ↔ ∃ n : ℕ, (none : Option ι) = some i := by
    intro i
    simp [hfree i]
  exact ⟨fun _ => none, hnone, nofun, fun _ _ => rfl, nofun⟩

/-! ## Nobody is left waiting -/

variable (P) in
/-- Every call is over. -/
def AllOver : Prop := ∀ t ∈ P.threads, t.prog.result.isSome = true

/-- A call that has a lock is not over. -/
theorem brackets_over {p : Prog O A ε β} {held : Option ι} (h : K.Brackets p held)
    (hover : p.result.isSome = true) : held = none := by
  cases p with
  | ret a => exact h
  | raise e => exact h
  | op o k => cases hover

/-- Whoever has a lock does not wait for another one. -/
theorem brackets_op {o : O} {k : Except ε (A o) → Prog O A ε β} {held : Option ι}
    (h : K.Brackets (.op o k) held) (hheld : held ≠ none) : K.acquires o = none := by
  cases hacquires : K.acquires o with
  | none => rfl
  | some i =>
    obtain ⟨r⟩ := K.answer hacquires
    obtain ⟨q, hnext, -⟩ := h r
    simp [next, hacquires, hheld] at hnext

theorem Tidy.free_of_allOver (hP : K.Tidy P) (hover : AllOver P) (i : ι) :
    K.locked i P.store = false := by
  obtain ⟨held, hP⟩ := hP
  refine Bool.eq_false_iff.mpr fun hlocked => ?_
  obtain ⟨n, hn⟩ := (hP.flags i).mp hlocked
  by_cases hbound : n < P.threads.length
  · have hcall := hP.calls n _ (List.getElem?_eq_getElem hbound)
    rw [brackets_over hcall (hover _ (List.getElem_mem hbound))] at hn
    cases hn
  · rw [hP.bound n (not_lt.mp hbound)] at hn
    cases hn

variable (K) in
/-- Whatever a call awaits other than a lock has an answer. -/
def Answered (P : Pool O A ε α σ ℓ C) : Prop :=
  ∀ t ∈ P.threads, ∀ o k, t.prog = .op o k → K.acquires o = none →
    ∃ r s' l', L.sem t.call o P.store t.sess r s' l'

/-- **No deadlock.** While a call is not over, some call can go on. -/
theorem Tidy.exists_turn (hP : K.Tidy P) (hanswered : K.Answered P) (hrunning : ¬ AllOver P) :
    ∃ n P', L.Turn P (.run n) P' := by
  obtain ⟨held, hP⟩ := hP
  by_cases hheld : ∃ n i, held n = some i
  · -- whoever has a lock goes on
    obtain ⟨n, i, hi⟩ := hheld
    have hn : n < P.threads.length := by
      by_contra hnot
      rw [hP.bound n (not_lt.mp hnot)] at hi
      cases hi
    have ht := List.getElem?_eq_getElem hn
    have hcall := hP.calls n _ ht
    have hsome : held n ≠ none := by simp [hi]
    cases hprog : P.threads[n].prog with
    | op o k =>
      rw [hprog] at hcall
      obtain ⟨r, s', l', hsem⟩ := hanswered _ (List.getElem_mem hn) o k hprog
        (brackets_op hcall hsome)
      exact ⟨n, Loop.exists_turn ht hprog hsem⟩
    | ret a =>
      rw [hprog] at hcall
      exact absurd (brackets_over hcall rfl) hsome
    | raise e =>
      rw [hprog] at hcall
      exact absurd (brackets_over hcall rfl) hsome
  · -- every lock is free
    have hfree : ∀ i, K.locked i P.store = false := by
      intro i
      refine Bool.eq_false_iff.mpr fun hlocked => ?_
      obtain ⟨n, hn⟩ := (hP.flags i).mp hlocked
      exact hheld ⟨n, i, hn⟩
    obtain ⟨t, ht, hnot⟩ : ∃ t ∈ P.threads, ¬ t.prog.result.isSome = true := by
      simpa [AllOver] using hrunning
    obtain ⟨n, hn⟩ := List.getElem?_of_mem ht
    cases hprog : t.prog with
    | ret a => exact absurd (by rw [hprog]; rfl) hnot
    | raise e => exact absurd (by rw [hprog]; rfl) hnot
    | op o k =>
      obtain ⟨r, s', l', hsem⟩ : ∃ r s' l', L.sem t.call o P.store t.sess r s' l' := by
        cases hacquires : K.acquires o with
        | some i => exact K.granted _ _ _ hacquires (hfree i)
        | none => exact hanswered t ht o k hprog hacquires
      exact ⟨n, Loop.exists_turn hn hprog hsem⟩

/-- A turn of a call that is already there. -/
def Goes (P P' : Pool O A ε α σ ℓ C) : Prop := ∃ n, L.Turn P (.run n) P'

variable (K) in
/-- Without new calls the turns come to an end, and then every call is over and every lock
is free. -/
def Settles (P : Pool O A ε α σ ℓ C) : Prop :=
  Acc (fun P' P => Goes (L := L) P P') P ∧
    ∀ P', Relation.ReflTransGen (Goes (L := L)) P P' → (∀ P'', ¬ Goes (L := L) P' P'') →
      AllOver P' ∧ ∀ i, K.locked i P'.store = false

theorem Tidy.settles (hbody : ∀ c, L.admits c → K.Brackets (L.body c) none)
    (hawaits : ∀ t ∈ P.threads, L.Awaits t)
    (hanswered : ∀ P', L.Reaches P P' → K.Answered P') (hP : K.Tidy P) : K.Settles P := by
  refine ⟨L.run_wellFounded.apply P, fun P' hgoes hstuck => ?_⟩
  have hreaches : L.Reaches P P' := by
    refine Relation.ReflTransGen.mono ?_ _ _ hgoes
    rintro Q Q' ⟨n, hturn⟩
    exact ⟨.run n, hturn⟩
  have htidy := tidy_of_reaches hbody hawaits hreaches hP
  have hover : AllOver P' := by
    by_contra hrunning
    obtain ⟨n, P'', hturn⟩ := htidy.exists_turn (hanswered P' hreaches) hrunning
    exact hstuck P'' ⟨n, hturn⟩
  exact ⟨hover, htidy.free_of_allOver hover⟩

/-- **From the start.** Where every call brackets its locks and all that is awaited is
answered, every reachable pool is tidy and settles. -/
theorem tidy_settles {s : σ} (hfree : ∀ i, K.locked i s = false)
    (hbody : ∀ c, L.admits c → K.Brackets (L.body c) none)
    (hanswered : ∀ P', L.Reaches ⟨s, []⟩ P' → K.Answered P') (h : L.Reaches ⟨s, []⟩ P) :
    K.Tidy P ∧ K.Settles P := by
  have hawaits := Loop.awaits_of_reaches h (by simp)
  have htidy := tidy_of_reaches hbody (by simp) h (tidy_nil hfree)
  exact ⟨htidy, htidy.settles hbody hawaits fun P' h' => hanswered P' (h.trans h')⟩

end Locks

end EmployeePortal.Framework
