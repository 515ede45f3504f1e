import EmployeePortal.Framework.RelyGuarantee

/-!
# Facts about whole schedules

Calls one after the other (`inv_of_seqReaches`), what the store gained against
what the sessions contributed (`conserved`), the end of every schedule that
starts nothing new (`run_wellFounded`), what relates the sessions to the store
(`sess_of_reaches`), and a player that executes a schedule
given by its cues (`play_reaches`).
-/

namespace EmployeePortal.Framework

variable {O : Type} {A : O → Type} {ε α σ ℓ C : Type}

/-! ## One call after the other -/

namespace System

variable {S : System O A ε α σ ℓ C} {P P' : Pool O A ε α σ ℓ C}

/-- At most one call is running, it is safe, and the store is as it left it. -/
def SoloSafe (S : System O A ε α σ ℓ C) (inv : σ → Prop)
    (P : Pool O A ε α σ ℓ C) : Prop :=
  inv P.store ∧ ∀ (i : ℕ) (t : Thread O A ε α ℓ C), P.threads[i]? = some t →
    ¬ t.Finished →
    Framework.Safe (Contract.solo inv) (S.sem t.call) t.prog (fun _ _ _ => True)
      P.store t.sess ∧
    ∀ (j : ℕ) (u : Thread O A ε α ℓ C), j ≠ i → P.threads[j]? = some u → u.Finished

theorem soloSafe_step {inv : σ → Prop}
    (hbody : ∀ c s, S.admits c → inv s → Framework.Safe (Contract.solo inv)
      (S.sem c) (S.body c) (fun _ _ _ => True) s S.start)
    (henv : ∀ s s', ¬ S.env s s') {m : Move C} (hstep : S.Step P m P')
    (hseq : ∀ c, m = .spawn c → P.Quiet) (hP : S.SoloSafe inv P) :
    S.SoloSafe inv P' := by
  obtain ⟨hinv, hsafe⟩ := hP
  cases hstep with
  | @spawn s ts c hc =>
    -- a call is started only when the others are over, so it runs alone
    have hquiet : ∀ (j : ℕ) (u : Thread O A ε α ℓ C), ts[j]? = some u → u.Finished :=
      fun j u hu => hseq c rfl u (List.mem_of_getElem? hu)
    refine ⟨hinv, fun i t ht hfin => ?_⟩
    rcases getElem?_concat_cases ht with hold | ⟨rfl, rfl⟩
    · exact absurd (hquiet i t hold) hfin
    · refine ⟨hbody c _ hc hinv, fun j u hj hu => ?_⟩
      rcases getElem?_concat_cases hu with hold | ⟨hlast, -⟩
      · exact hquiet j u hold
      · exact absurd hlast hj
  | @run s ts i t o k r s' l' ht hcut hop hsem =>
    have hrunning : ¬ t.Finished := by
      rintro (h | ⟨a, h⟩ | ⟨e, h⟩)
      · simp [hcut] at h
      · simp [hop] at h
      · simp [hop] at h
    obtain ⟨hown, hothers⟩ := hsafe i t ht hrunning
    rw [hop] at hown
    obtain ⟨hinv', -, hk⟩ := (hown s rfl hinv).2 r s' l' hsem
    refine ⟨hinv', fun j u hu hfin => ?_⟩
    rcases getElem?_set_cases hu with ⟨rfl, rfl⟩ | ⟨hij, hold⟩
    · refine ⟨hk, fun n v hn hv => ?_⟩
      rcases getElem?_set_cases hv with ⟨hsame, -⟩ | ⟨-, hold⟩
      · exact absurd hsame hn
      · exact hothers n v hn hold
    · exact absurd (hothers j u hij hold) hfin
  | @cut s ts i t ht hc =>
    refine ⟨hinv, fun j u hu hfin => ?_⟩
    rcases getElem?_set_cases hu with ⟨-, rfl⟩ | ⟨-, hold⟩
    · exact absurd (Or.inl rfl) hfin
    · obtain ⟨hown, hothers⟩ := hsafe j u hold hfin
      refine ⟨hown, fun k v hk hv => ?_⟩
      rcases getElem?_set_cases hv with ⟨-, rfl⟩ | ⟨-, hold'⟩
      · exact Or.inl rfl
      · exact hothers k v hk hold'
  | env he => exact absurd he (henv _ _)

/-- **No interference.** When each call runs to completion before the next, an
invariant that every single call keeps holds throughout. -/
theorem inv_of_seqReaches {inv : σ → Prop}
    (hbody : ∀ c s, S.admits c → inv s → Framework.Safe (Contract.solo inv)
      (S.sem c) (S.body c) (fun _ _ _ => True) s S.start)
    (henv : ∀ s s', ¬ S.env s s') (h : S.SeqReaches P P') (hP : P.Quiet)
    (hinv : inv P.store) : inv P'.store := by
  suffices hsolo : S.SoloSafe inv P' from hsolo.1
  induction h with
  | refl =>
    exact ⟨hinv, fun i t ht hfin => absurd (hP t (List.mem_of_getElem? ht)) hfin⟩
  | tail _ hstep ih =>
    obtain ⟨m, hm, hseq⟩ := hstep
    exact soloSafe_step hbody henv hm hseq ih

end System

/-! ## Conservation -/

theorem perm_set {ι : Type} {l : List ι} {i : ℕ} {a : ι} (b : ι)
    (h : l[i]? = some a) : (a :: l.set i b).Perm (b :: l) := by
  obtain ⟨hi, rfl⟩ := List.getElem?_eq_some_iff.mp h
  have hset := List.set_perm_cons_eraseIdx hi b
  have hget := List.getElem_cons_eraseIdx_perm hi
  calc (l[i] :: l.set i b).Perm (l[i] :: b :: l.eraseIdx i) := hset.cons _
    _ |>.Perm (b :: l[i] :: l.eraseIdx i) := List.Perm.swap _ _ _
    _ |>.Perm (b :: l) := hget.cons _

section Conservation

variable {S : System O A ε α σ ℓ C} {P P' : Pool O A ε α σ ℓ C}
  {M : Type} [AddCancelCommMonoid M]

/-- The contributions of all sessions of a pool. -/
def Pool.total (P : Pool O A ε α σ ℓ C) (g : ℓ → M) : M :=
  (P.threads.map (fun t => g t.sess)).sum

theorem Pool.total_set (s s' : σ) {ts : List (Thread O A ε α ℓ C)} {i : ℕ}
    {t : Thread O A ε α ℓ C} (t' : Thread O A ε α ℓ C) (g : ℓ → M) (h : ts[i]? = some t) :
    Pool.total ⟨s', ts.set i t'⟩ g + g t.sess =
      Pool.total ⟨s, ts⟩ g + g t'.sess := by
  have hsum := ((perm_set t' h).map (fun t => g t.sess)).sum_eq
  simp only [List.map_cons, List.sum_cons] at hsum
  simp only [Pool.total]
  rw [add_comm, hsum, add_comm]

/-- **Conservation.** If every operation adds to the store what it adds to the
account of its own session, the store holds what it held at the start and the
accounts of all sessions. -/
theorem System.conserved (f : σ → M) (g : ℓ → M) (hstart : g S.start = 0)
    (henv : ∀ s s', S.env s s' → f s' = f s)
    (hsem : ∀ c o s l r s' l', S.sem c o s l r s' l' → f s' + g l = f s + g l')
    (h : S.Reaches P P') :
    f P'.store + P.total g = f P.store + P'.total g := by
  induction h with
  | refl => rfl
  | tail _ hstep ih =>
    obtain ⟨m, hm⟩ := hstep
    cases hm with
    | spawn c hc =>
      simpa [Pool.total, hstart] using ih
    | @run s ts i t o k r s' l' ht hcut hop hstep =>
      have hset := Pool.total_set s s' { t with sess := l', prog := k r } g ht
      have hop := hsem _ _ _ _ _ _ _ hstep
      dsimp only at ih hset ⊢
      -- both sides carry what the call had contributed before this operation
      apply add_right_cancel (b := g t.sess)
      calc f s' + P.total g + g t.sess
          = f s' + g t.sess + P.total g := add_right_comm _ _ _
        _ = f s + g l' + P.total g := by rw [hop]
        _ = f s + P.total g + g l' := add_right_comm _ _ _
        _ = f P.store + Pool.total ⟨s, ts⟩ g + g l' := by rw [ih]
        _ = f P.store + (Pool.total ⟨s', ts.set i { t with sess := l', prog := k r }⟩ g
              + g t.sess) := by rw [add_assoc, ← hset]
        _ = _ := (add_assoc _ _ _).symm
    | @cut s ts i t ht hc =>
      have hset := Pool.total_set s s { t with cut := true } g ht
      rw [add_right_cancel hset]
      exact ih
    | env he =>
      rw [henv _ _ he]
      exact ih

end Conservation

/-! ## Every call comes to its end -/

namespace System

variable {S : System O A ε α σ ℓ C}

/-- A schedule that starts no new call ends. -/
theorem run_wellFounded (S : System O A ε α σ ℓ C) :
    WellFounded (fun P' P : Pool O A ε α σ ℓ C => ∃ i, S.Step P (.run i) P') := by
  have hwf : WellFounded (Relation.CutExpand
      (Prog.Next : Prog O A ε α → Prog O A ε α → Prop)) :=
    Prog.next_wellFounded.cutExpand
  -- a step replaces one program of the multiset by a part of it
  refine Subrelation.wf ?_ (InvImage.wf
    (fun P : Pool O A ε α σ ℓ C => (P.threads.map Thread.prog : Multiset _)) hwf)
  rintro P' P ⟨i, hstep⟩
  cases hstep with
  | @run s ts i t o k r s' l' ht hcut hop hsem =>
    have hperm := (perm_set { t with sess := l', prog := k r } ht).map Thread.prog
    simp only [List.map_cons] at hperm
    refine ⟨{k r}, t.prog, ?_, ?_⟩
    · intro p hp
      obtain rfl := Multiset.mem_singleton.mp hp
      exact hop ▸ Prog.next_op o k r
    · rw [add_comm, add_comm (Multiset.ofList _) {k r}]
      exact Multiset.coe_eq_coe.mpr hperm

/-- What relates each session to the store: every operation keeps it for its own
session and for the others. -/
theorem sess_of_reaches {P P' : Pool O A ε α σ ℓ C} (R : σ → ℓ → Prop)
    (hstart : ∀ s, R s S.start)
    (hown : ∀ c o s l r s' l', S.sem c o s l r s' l' → R s l → R s' l')
    (hothers : ∀ c o s l r s' l', S.sem c o s l r s' l' → ∀ l₁, R s l₁ → R s' l₁)
    (henv : ∀ s s', S.env s s' → ∀ l, R s l → R s' l) (h : S.Reaches P P')
    (hP : ∀ t ∈ P.threads, R P.store t.sess) :
    ∀ t ∈ P'.threads, R P'.store t.sess := by
  induction h with
  | refl => exact hP
  | tail _ hstep ih =>
    obtain ⟨m, hm⟩ := hstep
    cases hm with
    | spawn c hc =>
      intro t ht
      rcases List.mem_append.mp ht with ht | ht
      · exact ih t ht
      · obtain rfl := List.mem_singleton.mp ht
        exact hstart _
    | run ht hcut hop hsem =>
      intro t hmem
      rcases List.mem_or_eq_of_mem_set hmem with hmem | rfl
      · exact hothers _ _ _ _ _ _ _ hsem _ (ih t hmem)
      · exact hown _ _ _ _ _ _ _ hsem (ih _ (List.mem_of_getElem? ht))
    | cut ht hc =>
      intro t hmem
      rcases List.mem_or_eq_of_mem_set hmem with hmem | rfl
      · exact ih t hmem
      · have hsess := ih _ (List.mem_of_getElem? ht)
        exact hsess
    | env he => exact fun t ht => henv _ _ he _ (ih t ht)

/-- What holds of every call when it starts and is kept by its own operations holds of
every call, and with it what these operations keep of the store. -/
theorem thread_of_reaches {P P' : Pool O A ε α σ ℓ C} (inv : σ → Prop)
    (T : ℕ → Thread O A ε α ℓ C → Prop)
    (hspawn : ∀ i c, S.admits c → T i ⟨c, S.start, S.body c, false⟩)
    (hrun : ∀ i t o k s r s' l', inv s → T i t → t.cut = false → t.prog = .op o k →
      S.sem t.call o s t.sess r s' l' → inv s' ∧ T i { t with sess := l', prog := k r })
    (hcut : ∀ i t, T i t → T i { t with cut := true })
    (henv : ∀ s s', inv s → S.env s s' → inv s') (h : S.Reaches P P') (hinv : inv P.store)
    (hP : ∀ i t, P.threads[i]? = some t → T i t) :
    inv P'.store ∧ ∀ i t, P'.threads[i]? = some t → T i t := by
  induction h with
  | refl => exact ⟨hinv, hP⟩
  | tail _ hstep ih =>
    obtain ⟨hinv', hthreads⟩ := ih
    obtain ⟨m, hm⟩ := hstep
    -- a step changes the store, one thread, or adds one at the end
    cases hm with
    | @spawn s ts c hc =>
      refine ⟨hinv', fun i t ht => ?_⟩
      rcases getElem?_concat_cases ht with hold | ⟨-, rfl⟩
      · exact hthreads i t hold
      · exact hspawn _ c hc
    | @run s ts i t o k r s' l' ht hcut' hop hsem =>
      obtain ⟨hs', ht'⟩ := hrun i t o k s r s' l' hinv' (hthreads i t ht) hcut' hop hsem
      refine ⟨hs', fun j u hu => ?_⟩
      rcases getElem?_set_cases hu with ⟨rfl, rfl⟩ | ⟨-, hold⟩
      · exact ht'
      · exact hthreads j u hold
    | @cut s ts i t ht hc =>
      refine ⟨hinv', fun j u hu => ?_⟩
      rcases getElem?_set_cases hu with ⟨rfl, rfl⟩ | ⟨-, hold⟩
      · exact hcut j t (hthreads j t ht)
      · exact hthreads j u hold
    | env he => exact ⟨henv _ _ hinv' he, hthreads⟩

/-- Who was cut off could be cut off then: nothing of the call runs any more. -/
theorem cuts_of_reaches {P P' : Pool O A ε α σ ℓ C} (h : S.Reaches P P')
    (hP : ∀ t ∈ P.threads, t.cut = true → S.cuts t.call t.sess) :
    ∀ t ∈ P'.threads, t.cut = true → S.cuts t.call t.sess := by
  induction h with
  | refl => exact hP
  | tail _ hstep ih =>
    obtain ⟨m, hm⟩ := hstep
    cases hm with
    | spawn c hc =>
      intro t ht hcut
      rcases List.mem_append.mp ht with ht | ht
      · exact ih t ht hcut
      · obtain rfl := List.mem_singleton.mp ht
        cases hcut
    | run ht hcut hop hsem =>
      intro t hmem hcut'
      rcases List.mem_or_eq_of_mem_set hmem with hmem | rfl
      · exact ih t hmem hcut'
      · simp [hcut] at hcut'
    | cut ht hc =>
      intro t hmem hcut'
      rcases List.mem_or_eq_of_mem_set hmem with hmem | rfl
      · exact ih t hmem hcut'
      · exact hc
    | env he => exact ih

/-! ## Playing a schedule -/

/-- A cue: start a call, let call `i` perform its next operation, with a hint
where the store leaves the answer open, or cut it off. -/
inductive Cue (H C : Type) where
  | spawn (c : C)
  | run (i : ℕ) (hint : H)
  | cut (i : ℕ)

instance (t : Thread O A ε α ℓ C) : Decidable t.Finished :=
  match t with
  | ⟨_, _, _, true⟩ => .isTrue (Or.inl rfl)
  | ⟨_, _, .ret a, false⟩ => .isTrue (Or.inr (Or.inl ⟨a, rfl⟩))
  | ⟨_, _, .raise e, false⟩ => .isTrue (Or.inr (Or.inr ⟨e, rfl⟩))
  | ⟨_, _, .op _ _, false⟩ => .isFalse (by
      rintro (h | ⟨_, h⟩ | ⟨_, h⟩) <;> cases h)

instance (P : Pool O A ε α σ ℓ C) : Decidable P.Quiet :=
  inferInstanceAs (Decidable (∀ t ∈ P.threads, t.Finished))

section Play

variable {H : Type} (S : System O A ε α σ ℓ C) [DecidablePred S.admits]
  [∀ c, DecidablePred (S.cuts c)]
  (next : C → (o : O) → σ → ℓ → H → Option (Except ε (A o) × σ × ℓ))

/-- One cue, where `next` computes what an operation answers and leaves. -/
def act (P : Pool O A ε α σ ℓ C) : Cue H C → Option (Pool O A ε α σ ℓ C)
  | .spawn c =>
      if S.admits c then some ⟨P.store, P.threads ++ [⟨c, S.start, S.body c, false⟩]⟩
      else none
  | .run i hint =>
      match P.threads[i]? with
      | some ⟨c, l, .op o k, false⟩ =>
          (next c o P.store l hint).map fun x =>
            ⟨x.2.1, P.threads.set i ⟨c, x.2.2, k x.1, false⟩⟩
      | _ => none
  | .cut i =>
      match P.threads[i]? with
      | some ⟨c, l, p, _⟩ =>
          if S.cuts c l then some ⟨P.store, P.threads.set i ⟨c, l, p, true⟩⟩ else none
      | none => none

def play : List (Cue H C) → Pool O A ε α σ ℓ C → Option (Pool O A ε α σ ℓ C)
  | [], P => some P
  | cue :: cues, P => (act S next P cue).bind (play cues)

/-- As `play`, starting a call only in a quiet pool. -/
def playSeq : List (Cue H C) → Pool O A ε α σ ℓ C → Option (Pool O A ε α σ ℓ C)
  | [], P => some P
  | .spawn c :: cues, P =>
      if P.Quiet then (act S next P (.spawn c)).bind (playSeq cues) else none
  | cue :: cues, P => (act S next P cue).bind (playSeq cues)

/-- `next`, only where it leads to a store satisfying `p`. -/
def confine (p : σ → Prop) [DecidablePred p] (c : C) (o : O) (s : σ) (l : ℓ) (h : H) :
    Option (Except ε (A o) × σ × ℓ) :=
  (next c o s l h).filter fun x => p x.2.1

/-- `next`, only where its answer meets `p`. -/
def heed (p : C → (o : O) → σ → ℓ → Except ε (A o) → Prop)
    [∀ c o s l r, Decidable (p c o s l r)] (c : C) (o : O) (s : σ) (l : ℓ) (h : H) :
    Option (Except ε (A o) × σ × ℓ) :=
  (next c o s l h).filter fun x => p c o s l x.1

instance (p : C → (o : O) → σ → ℓ → Except ε (A o) → Prop) :
    DecidablePred (S.given p).admits := inferInstanceAs (DecidablePred S.admits)

instance (p : C → (o : O) → σ → ℓ → Except ε (A o) → Prop) (c : C) :
    DecidablePred ((S.given p).cuts c) := inferInstanceAs (DecidablePred (S.cuts c))

instance (p : σ → Prop) : DecidablePred (S.within p).admits :=
  inferInstanceAs (DecidablePred S.admits)

instance (p : σ → Prop) (c : C) : DecidablePred ((S.within p).cuts c) :=
  inferInstanceAs (DecidablePred (S.cuts c))

variable {S next} {P P' : Pool O A ε α σ ℓ C}
  (hnext : ∀ c o s l h r s' l', next c o s l h = some (r, s', l') →
    S.sem c o s l r s' l')

include hnext

theorem act_step {cue : Cue H C} (h : act S next P cue = some P') :
    ∃ m, S.Step P m P' ∧ ∀ c, m = .spawn c → cue = .spawn c := by
  cases cue with
  | spawn c =>
    simp only [act, Option.ite_none_right_eq_some, Option.some.injEq] at h
    obtain ⟨hc, rfl⟩ := h
    exact ⟨_, .spawn c hc, fun _ h => by cases h; rfl⟩
  | run i hint =>
    simp only [act] at h
    split at h
    · rename_i c l o k ht
      obtain ⟨⟨r, s', l'⟩, hn, rfl⟩ := Option.map_eq_some_iff.mp h
      exact ⟨_, .run ht rfl rfl (hnext _ _ _ _ _ _ _ _ hn), fun _ h => by cases h⟩
    · cases h
  | cut i =>
    simp only [act] at h
    split at h
    · rename_i c l p b ht
      simp only [Option.ite_none_right_eq_some, Option.some.injEq] at h
      obtain ⟨hc, rfl⟩ := h
      exact ⟨_, .cut ht hc, fun _ h => by cases h⟩
    · cases h

theorem play_reaches {cues : List (Cue H C)} (h : play S next cues P = some P') :
    S.Reaches P P' := by
  induction cues generalizing P with
  | nil => cases h; exact .refl
  | cons cue cues ih =>
    obtain ⟨P₁, hact, hplay⟩ := Option.bind_eq_some_iff.mp h
    obtain ⟨m, hm, -⟩ := act_step hnext hact
    exact .head ⟨m, hm⟩ (ih hplay)

theorem playSeq_seqReaches {cues : List (Cue H C)}
    (h : playSeq S next cues P = some P') : S.SeqReaches P P' := by
  induction cues generalizing P with
  | nil => cases h; exact .refl
  | cons cue cues ih =>
    have hact : ∃ P₁, act S next P cue = some P₁ ∧ playSeq S next cues P₁ = some P' ∧
        ((∃ c, cue = .spawn c) → P.Quiet) := by
      cases cue with
      | spawn c =>
        simp only [playSeq, Option.ite_none_right_eq_some] at h
        obtain ⟨hq, h⟩ := h
        obtain ⟨P₁, h₁, h₂⟩ := Option.bind_eq_some_iff.mp h
        exact ⟨P₁, h₁, h₂, fun _ => hq⟩
      | run i hint =>
        obtain ⟨P₁, h₁, h₂⟩ := Option.bind_eq_some_iff.mp h
        exact ⟨P₁, h₁, h₂, fun ⟨_, h⟩ => by cases h⟩
      | cut i =>
        obtain ⟨P₁, h₁, h₂⟩ := Option.bind_eq_some_iff.mp h
        exact ⟨P₁, h₁, h₂, fun ⟨_, h⟩ => by cases h⟩
    obtain ⟨P₁, h₁, h₂, hquiet⟩ := hact
    obtain ⟨m, hm, hcue⟩ := act_step hnext h₁
    exact .head ⟨m, hm, fun c hc => hquiet ⟨c, hcue c hc⟩⟩ (ih h₂)

omit [DecidablePred S.admits] [∀ c, DecidablePred (S.cuts c)] in
theorem confine_sem (p : σ → Prop) [DecidablePred p] (c : C) (o : O) (s : σ) (l : ℓ) (h : H)
    (r : Except ε (A o)) (s' : σ) (l' : ℓ) (hsome : confine next p c o s l h = some (r, s', l')) :
    (S.within p).sem c o s l r s' l' := by
  obtain ⟨hn, hp⟩ := Option.filter_eq_some_iff.mp hsome
  exact ⟨hnext _ _ _ _ _ _ _ _ hn, of_decide_eq_true hp⟩

omit [DecidablePred S.admits] [∀ c, DecidablePred (S.cuts c)] in
theorem heed_sem (p : C → (o : O) → σ → ℓ → Except ε (A o) → Prop)
    [∀ c o s l r, Decidable (p c o s l r)] (c : C) (o : O) (s : σ) (l : ℓ) (h : H)
    (r : Except ε (A o)) (s' : σ) (l' : ℓ) (hsome : heed next p c o s l h = some (r, s', l')) :
    (S.given p).sem c o s l r s' l' := by
  obtain ⟨hn, hp⟩ := Option.filter_eq_some_iff.mp hsome
  exact ⟨hnext _ _ _ _ _ _ _ _ hn, of_decide_eq_true hp⟩

end Play

end System

end EmployeePortal.Framework
