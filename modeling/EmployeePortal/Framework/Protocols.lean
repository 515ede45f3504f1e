import EmployeePortal.Framework.EventLoop
import EmployeePortal.Framework.Traces

/-!
# Programs that keep to a protocol

A protocol says in which order operations may come: in each of its states it forbids
an operation, or says which state the answer leads to. `Obeys` is the program logic
for that. Where the calls of a loop obey a protocol whose state can be read off their
sessions, every call of every reachable pool still does (`Loop.obeys_of_reaches`).
-/

namespace EmployeePortal.Framework

variable {O : Type} {A : O → Type} {ε α β σ ℓ C τ : Type}

/-- The state an operation and its answer lead to; `none` where it is forbidden. -/
abbrev Protocol (O : Type) (A : O → Type) (ε τ : Type) : Type :=
  τ → (o : O) → Except ε (A o) → Option τ

/-- From the state `q` on, every operation of the program is allowed whatever it answers, and
`Q` holds of the result and the state it ends in. -/
def Obeys (next : Protocol O A ε τ) (Q : Except ε α → τ → Prop) : Prog O A ε α → τ → Prop
  | .ret a, q => Q (.ok a) q
  | .raise e, q => Q (.error e) q
  | .op o k, q => ∀ r, ∃ q', next q o r = some q' ∧ Obeys next Q (k r) q'

namespace Obeys

variable {next : Protocol O A ε τ} {q : τ} {o : O}

theorem mono {Q Q' : Except ε α → τ → Prop} {p : Prog O A ε α} (h : Obeys next Q p q)
    (hQ : ∀ r q, Q r q → Q' r q) : Obeys next Q' p q := by
  induction p generalizing q with
  | ret a => exact hQ _ _ h
  | raise e => exact hQ _ _ h
  | op o k ih =>
    intro r
    obtain ⟨q', hnext, hk⟩ := h r
    exact ⟨q', hnext, ih r hk⟩

/-- What is left of the protocol after `p`: the rest of the program on success, the
exception otherwise. -/
def andThen (next : Protocol O A ε τ) (f : α → Prog O A ε β) (Q : Except ε β → τ → Prop) :
    Except ε α → τ → Prop
  | .ok a, q => Obeys next Q (f a) q
  | .error e, q => Q (.error e) q

theorem bind_iff {Q : Except ε β → τ → Prop} {p : Prog O A ε α} {f : α → Prog O A ε β} :
    Obeys next Q (p >>= f) q ↔ Obeys next (andThen next f Q) p q := by
  induction p generalizing q with
  | ret a => exact Iff.rfl
  | raise e => exact Iff.rfl
  | op o k ih =>
    rw [Prog.op_bind]
    simp only [Obeys, ih]

/-- After `try: p`: nothing more on success, the handler otherwise. -/
def catching (next : Protocol O A ε τ) (h : ε → Prog O A ε α) (Q : Except ε α → τ → Prop) :
    Except ε α → τ → Prop
  | .ok a, q => Q (.ok a) q
  | .error e, q => Obeys next Q (h e) q

theorem tryCatch_iff {Q : Except ε α → τ → Prop} {p : Prog O A ε α} {h : ε → Prog O A ε α} :
    Obeys next Q (tryCatchThe ε p h) q ↔ Obeys next (catching next h Q) p q := by
  induction p generalizing q with
  | ret a => exact Iff.rfl
  | raise e => exact Iff.rfl
  | op o k ih =>
    show Obeys next Q (.op o fun r => tryCatchThe ε (k r) h) q ↔ _
    simp only [Obeys, ih]

@[simp] theorem ofExcept_iff {Q : Except ε α → τ → Prop} {x : Except ε α} :
    Obeys next Q (Prog.ofExcept x) q ↔ Q x q := by
  cases x <;> exact Iff.rfl

/-- A call whose exception is kept for later. -/
theorem attempt_iff {Q : Except ε (Except ε α) → τ → Prop} {p : Prog O A ε α} :
    Obeys next Q p.attempt q ↔ Obeys next (fun r => Q (.ok r)) p q := by
  rw [Prog.attempt, tryCatch_iff, bind_iff]
  constructor
  · intro h
    refine h.mono ?_
    rintro (e | a) q hr
    · exact hr
    · exact hr
  · intro h
    refine h.mono ?_
    rintro (e | a) q hr
    · exact hr
    · exact hr

theorem perform_iff {Q : Except ε (A o) → τ → Prop} :
    Obeys next Q (Prog.perform o) q ↔ ∀ r, ∃ q', next q o r = some q' ∧ Q r q' := by
  have hend : ∀ r q', Obeys next Q (Prog.ofExcept r) q' ↔ Q r q' := fun _ _ => ofExcept_iff
  simp only [Prog.perform, Obeys, hend]

theorem perform {Q : Except ε β → τ → Prop} {o : O} {f : A o → Prog O A ε β}
    (h : ∀ r, ∃ q', next q o r = some q' ∧ andThen next f Q r q') :
    Obeys next Q (Prog.perform o >>= f) q := by
  intro r
  obtain ⟨q', hnext, hrest⟩ := h r
  refine ⟨q', hnext, ?_⟩
  cases r with
  | ok a => exact hrest
  | error e => exact hrest

/-- A program whose operations leave the state as it is. -/
theorem of_only {P : O → Prop} {Q : Except ε α → τ → Prop} {p : Prog O A ε α} (h : p.Only P)
    (hP : ∀ o, P o → ∀ r, next q o r = some q) (hQ : ∀ r, Q r q) : Obeys next Q p q := by
  induction p with
  | ret a => exact hQ _
  | raise e => exact hQ _
  | op o k ih => exact fun r => ⟨q, hP o h.1 r, ih r (h.2 r)⟩

theorem tell {Q : Except ε β → τ → Prop} {o : O} {f : Unit → Prog O A ε β}
    (h : ∀ r, ∃ q', next q o r = some q' ∧ Obeys next Q (f ()) q') :
    Obeys next Q (Prog.tell o >>= f) q := by
  rw [Prog.tell_bind]
  exact h

end Obeys

/-! ## Programs that may begin in any state -/

/-- Whatever came before, every operation of the program is allowed. -/
def Always (next : Protocol O A ε τ) (p : Prog O A ε α) : Prop :=
  ∀ q, Obeys next (fun _ _ => True) p q

namespace Always

variable {next : Protocol O A ε τ}

theorem bind {p : Prog O A ε α} {f : α → Prog O A ε β} (hp : Always next p)
    (hf : ∀ a, Always next (f a)) : Always next (p >>= f) := by
  intro q
  rw [Obeys.bind_iff]
  refine (hp q).mono ?_
  rintro (e | a) q' -
  · trivial
  · exact hf a q'

theorem attempt {p : Prog O A ε α} (hp : Always next p) : Always next p.attempt :=
  fun q => Obeys.attempt_iff.mpr (hp q)

theorem of_only {P : O → Prop} {p : Prog O A ε α} (h : p.Only P)
    (hP : ∀ o, P o → ∀ q r, ∃ q', next q o r = some q') : Always next p := by
  induction p with
  | ret a => exact fun _ => trivial
  | raise e => exact fun _ => trivial
  | op o k ih =>
    intro q r
    obtain ⟨q', hnext⟩ := hP o h.1 q r
    exact ⟨q', hnext, ih r (h.2 r) q'⟩

theorem inside {enter leave : Prog O A ε Unit} {p : Prog O A ε α} (henter : Always next enter)
    (hleave : Always next leave) (hp : Always next p) :
    Always next (Prog.inside enter leave p) := by
  refine bind henter fun _ => bind (attempt hp) fun result => bind hleave fun _ => ?_
  exact fun q => Obeys.ofExcept_iff.mpr trivial

end Always

/-! ## Calls between two turns -/

theorem runOn_stops {sync : Statements O A ε σ ℓ} {p : Prog O A ε α} {o : O}
    {k : Except ε (A o) → Prog O A ε α} {s s' : σ} {l l' : ℓ}
    (h : runOn sync p s l = (.op o k, s', l')) : sync o = none := by
  induction p generalizing s l with
  | ret a => cases h
  | raise e => cases h
  | op o' k' ih =>
    rw [runOn] at h
    cases ho : sync o' with
    | some f =>
      rw [ho] at h
      exact ih _ h
    | none =>
      rw [ho] at h
      cases h
      exact ho

/-- A call that is not over awaits something. -/
def Loop.Awaits (L : Loop O A ε α σ ℓ C) (t : Thread O A ε α ℓ C) : Prop :=
  ∀ o k, t.prog = .op o k → L.sync o = none

theorem Loop.awaits_of_reaches {L : Loop O A ε α σ ℓ C} {P P' : Pool O A ε α σ ℓ C}
    (h : L.Reaches P P') (hP : ∀ t ∈ P.threads, L.Awaits t) : ∀ t ∈ P'.threads, L.Awaits t := by
  induction h with
  | refl => exact hP
  | tail _ hturn ih =>
    obtain ⟨m, hm⟩ := hturn
    cases hm with
    | spawn c hc hrun =>
      intro t ht
      rcases List.mem_append.mp ht with hold | hnew
      · exact ih t hold
      · obtain rfl := List.mem_singleton.mp hnew
        rintro o k rfl
        exact runOn_stops hrun
    | run hi hop hanswer hrun =>
      intro u hu
      rcases List.mem_or_eq_of_mem_set hu with hold | rfl
      · exact ih u hold
      · rintro o k rfl
        exact runOn_stops hrun
    | env he => exact ih

/-- What an operation does, statement or not. -/
def Loop.Does (L : Loop O A ε α σ ℓ C) (c : C) : OpSem O A ε σ ℓ := fun o s l r s' l' =>
  match L.sync o with
  | some f => f s l = (r, s', l')
  | none => L.sem c o s l r s' l'

theorem Loop.does_of_sync {L : Loop O A ε α σ ℓ C} {o : O} {f : σ → ℓ → Except ε (A o) × σ × ℓ}
    (ho : L.sync o = some f) (c : C) (s : σ) (l : ℓ) :
    L.Does c o s l (f s l).1 (f s l).2.1 (f s l).2.2 := by
  rw [Does, ho]

theorem Loop.does_of_sem {L : Loop O A ε α σ ℓ C} {c : C} {o : O} {r : Except ε (A o)} {s s' : σ}
    {l l' : ℓ} (ho : L.sync o = none) (h : L.sem c o s l r s' l') : L.Does c o s l r s' l' := by
  rw [Does, ho]
  exact h

/-! ## The calls of a loop -/

/-! ## Traces -/

/-- The state a trace leads to; `none` where one of its operations is forbidden. -/
def Protocol.follow (next : Protocol O A ε τ) (q : τ) (trace : List (Event O A ε)) : Option τ :=
  trace.foldlM (fun q event => next q event.1 event.2) q

/-- What obeys a protocol performs no operation that it forbids. -/
theorem Obeys.follow {next : Protocol O A ε τ} {Q : Except ε α → τ → Prop} {p : Prog O A ε α}
    {q : τ} (h : Obeys next Q p q) {trace : List (Event O A ε)} {x : Except ε α}
    (hrun : p.Run trace x) : ∃ q', next.follow q trace = some q' ∧ Q x q' := by
  induction p generalizing q trace with
  | ret a =>
    obtain ⟨rfl, rfl⟩ := hrun
    exact ⟨q, rfl, h⟩
  | raise e =>
    obtain ⟨rfl, rfl⟩ := hrun
    exact ⟨q, rfl, h⟩
  | op o k ih =>
    obtain ⟨r, rest, rfl, hrest⟩ := hrun
    obtain ⟨q₁, hnext, hk⟩ := h r
    obtain ⟨q', hfollow, hQ⟩ := ih r hk hrest
    refine ⟨q', ?_, hQ⟩
    rw [Protocol.follow, List.foldlM_cons, hnext]
    exact hfollow

/-- Each operation of a trace is allowed in the state the trace has led to before it. -/
theorem Protocol.follow_append_cons {next : Protocol O A ε τ} {q q' : τ}
    {before after : List (Event O A ε)} {event : Event O A ε}
    (h : next.follow q (before ++ event :: after) = some q') :
    ∃ q₁ q₂, next.follow q before = some q₁ ∧ next q₁ event.1 event.2 = some q₂ := by
  rw [Protocol.follow, List.foldlM_append] at h
  obtain ⟨q₁, hbefore, h⟩ := Option.bind_eq_some_iff.mp h
  rw [List.foldlM_cons] at h
  obtain ⟨q₂, hnext, -⟩ := Option.bind_eq_some_iff.mp h
  exact ⟨q₁, q₂, hbefore, hnext⟩

namespace Loop

variable {L : Loop O A ε α σ ℓ C} {P P' : Pool O A ε α σ ℓ C}

/-- What every operation of a call keeps, its statements keep. -/
theorem held_runOn {I : Prog O A ε α → ℓ → Prop} {c : C}
    (hstep : ∀ o k s l r s' l', L.Does c o s l r s' l' → I (.op o k) l → I (k r) l')
    {p p' : Prog O A ε α} {s s' : σ} {l l' : ℓ} (hI : I p l)
    (hrun : runOn L.sync p s l = (p', s', l')) : I p' l' := by
  induction p generalizing s l with
  | ret a =>
    obtain ⟨rfl, rfl, rfl⟩ := by simpa [runOn] using hrun
    exact hI
  | raise e =>
    obtain ⟨rfl, rfl, rfl⟩ := by simpa [runOn] using hrun
    exact hI
  | op o k ih =>
    rw [runOn] at hrun
    cases ho : L.sync o with
    | some f =>
      rw [ho] at hrun
      exact ih _ (hstep _ _ _ _ _ _ _ (does_of_sync ho c s l) hI) hrun
    | none =>
      rw [ho] at hrun
      obtain ⟨rfl, rfl, rfl⟩ := by simpa using hrun
      exact hI

/-- **What its own operations keep holds of every call**, in every order of turns. -/
theorem held_of_reaches (I : C → Prog O A ε α → ℓ → Prop)
    (hbody : ∀ c, L.admits c → I c (L.body c) L.start)
    (hstep : ∀ c o k s l r s' l', L.Does c o s l r s' l' → I c (.op o k) l → I c (k r) l') {s : σ}
    (h : L.Reaches ⟨s, []⟩ P) : ∀ t ∈ P.threads, I t.call t.prog t.sess := by
  induction h with
  | refl => simp
  | tail hreaches hturn ih =>
    obtain ⟨m, hm⟩ := hturn
    cases hm with
    | spawn c hc hrun =>
      intro t ht
      rcases List.mem_append.mp ht with hold | hnew
      · exact ih t hold
      · obtain rfl := List.mem_singleton.mp hnew
        exact held_runOn (hstep c) (hbody c hc) hrun
    | @run s ts i t o k r s₁ l₁ p s' l' hi hop hanswer hrun =>
      intro u hu
      rcases List.mem_or_eq_of_mem_set hu with hold | rfl
      · exact ih u hold
      · have ht := List.mem_of_getElem? hi
        have hawaited := awaits_of_reaches hreaches (by simp) t ht o k hop
        have hI := ih t ht
        rw [hop] at hI
        exact held_runOn (hstep t.call)
          (hstep _ _ _ _ _ _ _ _ (does_of_sem hawaited hanswer) hI) hrun
    | env he => exact ih

/-- **Every call keeps to its protocol**, in every order of turns, when its session tells the
state it is in. -/
theorem obeys_of_reaches {next : Protocol O A ε τ} (Q : C → Except ε α → τ → Prop) (R : τ → ℓ → Prop)
    (hdoes : ∀ c o s l r s' l' q q', L.Does c o s l r s' l' → R q l → next q o r = some q' →
      R q' l')
    (hbody : ∀ c, L.admits c → ∃ q, R q L.start ∧ Obeys next (Q c) (L.body c) q) {s : σ}
    (h : L.Reaches ⟨s, []⟩ P) :
    ∀ t ∈ P.threads, ∃ q, R q t.sess ∧ Obeys next (Q t.call) t.prog q := by
  refine held_of_reaches (fun c p l => ∃ q, R q l ∧ Obeys next (Q c) p q) hbody ?_ h
  rintro c o k s l r s' l' hstep ⟨q, hR, hobeys⟩
  obtain ⟨q', hnext, hk⟩ := hobeys r
  exact ⟨q', hdoes _ _ _ _ _ _ _ q q' hstep hR hnext, hk⟩

/-! ## Conservation -/

section Conservation

variable {M : Type} [AddCancelCommMonoid M] {f : σ → M} {g : ℓ → M}

/-- A turn adds to the store what it adds to the account of its own session. -/
theorem conserved_runOn {c : C}
    (hdoes : ∀ o s l r s' l', L.Does c o s l r s' l' → f s' + g l = f s + g l')
    {p p' : Prog O A ε α} {s s' : σ} {l l' : ℓ} (hrun : runOn L.sync p s l = (p', s', l')) :
    f s' + g l = f s + g l' := by
  refine runOn_rel (R := fun x y => f y.1 + g x.2 = f x.1 + g y.2) (fun _ => rfl) ?_ ?_ hrun
  · rintro ⟨s₁, l₁⟩ ⟨s₂, l₂⟩ ⟨s₃, l₃⟩ h₁₂ h₂₃
    dsimp only at h₁₂ h₂₃ ⊢
    apply add_right_cancel (b := g l₂)
    calc f s₃ + g l₁ + g l₂ = f s₃ + g l₂ + g l₁ := add_right_comm _ _ _
      _ = f s₂ + g l₁ + g l₃ := by rw [h₂₃, add_right_comm]
      _ = f s₁ + g l₃ + g l₂ := by rw [h₁₂, add_right_comm]
  · intro o f' s l ho
    exact hdoes _ _ _ _ _ _ (does_of_sync ho c s l)

/-- **Conservation**, for the calls of a loop: the store holds what it held at the start and the
accounts of all sessions. -/
theorem conserved (f : σ → M) (g : ℓ → M) (hstart : g L.start = 0)
    (henv : ∀ s s', L.env s s' → f s' = f s)
    (hdoes : ∀ c o s l r s' l', L.Does c o s l r s' l' → f s' + g l = f s + g l') {s₀ : σ}
    (h : L.Reaches ⟨s₀, []⟩ P) : f P.store = f s₀ + P.total g := by
  induction h with
  | refl => simp [Pool.total]
  | tail hreaches hturn ih =>
    obtain ⟨m, hm⟩ := hturn
    cases hm with
    | @spawn s ts p s' l' c hc hrun =>
      have hturn := conserved_runOn (hdoes c) hrun
      rw [hstart, add_zero] at hturn
      rw [hturn, ih]
      simp [Pool.total, add_assoc]
    | @run s ts i t o k r s₁ l₁ p s' l' hi hop hanswer hrun =>
      have ht := List.mem_of_getElem? hi
      have hawaited := awaits_of_reaches hreaches (by simp) t ht o k hop
      have hfirst := hdoes _ _ _ _ _ _ _ (does_of_sem hawaited hanswer)
      have hrest := conserved_runOn (hdoes t.call) hrun
      have hset := Pool.total_set s s' { t with sess := l', prog := p } g hi
      dsimp only at ih hset ⊢
      -- both sides carry what the call had contributed before this turn
      apply add_right_cancel (b := g t.sess + g l₁)
      calc f s' + (g t.sess + g l₁)
          = f s' + g l₁ + g t.sess := by rw [add_comm (g t.sess), add_assoc]
        _ = f s₁ + g t.sess + g l' := by rw [hrest, add_right_comm]
        _ = f s + g l₁ + g l' := by rw [hfirst]
        _ = f s₀ + (Pool.total ⟨s, ts⟩ g + g l') + g l₁ := by
          rw [ih, add_right_comm, add_assoc (f s₀)]
        _ = f s₀ + (Pool.total ⟨s', ts.set i { t with sess := l', prog := p }⟩ g + g t.sess) +
              g l₁ := by rw [hset]
        _ = _ := by rw [← add_assoc, add_assoc]
    | env he => exact (henv _ _ he).trans ih

end Conservation

end Loop

end EmployeePortal.Framework
