import EmployeePortal.Framework.Prog

/-!
# Traces of one call

What a call asked for, operation by operation, what it was answered, and how it
ended. A statement about all traces of a program is a statement about every
behaviour of whatever answers it.
-/

namespace EmployeePortal.Framework

variable {O : Type} {A : O → Type} {ε α β : Type}

/-- An operation and its answer. -/
abbrev Event (O : Type) (A : O → Type) (ε : Type) : Type := (o : O) × Except ε (A o)

namespace Prog

/-- The program performs these operations with these answers and ends with this
result. -/
def Run : Prog O A ε α → List (Event O A ε) → Except ε α → Prop
  | ret a, es, x => es = [] ∧ x = .ok a
  | raise e, es, x => es = [] ∧ x = .error e
  | op o k, es, x => ∃ r es', es = ⟨o, r⟩ :: es' ∧ Run (k r) es' x

section Run

variable {p : Prog O A ε α} {es : List (Event O A ε)} {x : Except ε α}

@[simp] theorem run_ret {a : α} : (ret a : Prog O A ε α).Run es x ↔ es = [] ∧ x = .ok a :=
  Iff.rfl

@[simp] theorem run_raise {e : ε} :
    (raise e : Prog O A ε α).Run es x ↔ es = [] ∧ x = .error e := Iff.rfl

theorem run_op {o : O} {k : Except ε (A o) → Prog O A ε α} :
    (op o k).Run es x ↔ ∃ r es', es = ⟨o, r⟩ :: es' ∧ (k r).Run es' x := Iff.rfl

@[simp] theorem run_ofExcept {y : Except ε α} :
    (ofExcept y : Prog O A ε α).Run es x ↔ es = [] ∧ x = y := by
  cases y <;> exact Iff.rfl

@[simp] theorem run_perform {o : O} {x : Except ε (A o)} :
    (perform o : Prog O A ε (A o)).Run es x ↔ es = [⟨o, x⟩] := by
  rw [perform, run_op]
  constructor
  · rintro ⟨r, es', rfl, h⟩
    obtain ⟨rfl, rfl⟩ := run_ofExcept.mp h
    rfl
  · rintro rfl
    exact ⟨x, [], rfl, run_ofExcept.mpr ⟨rfl, rfl⟩⟩

/-- A bind runs its first part to the end and then the second, or stops at an
exception of the first. -/
theorem run_bind {f : α → Prog O A ε β} {x : Except ε β} :
    (p >>= f).Run es x ↔
      (∃ a es₁ es₂, es = es₁ ++ es₂ ∧ p.Run es₁ (.ok a) ∧ (f a).Run es₂ x) ∨
        ∃ e, x = .error e ∧ p.Run es (.error e) := by
  induction p generalizing es with
  | ret a => simp
  | raise e => simp [and_comm]
  | op o k ih =>
    simp only [op_bind, run_op, ih]
    constructor
    · rintro ⟨r, es', rfl, ⟨a, es₁, es₂, rfl, h₁, h₂⟩ | ⟨e, rfl, h⟩⟩
      · exact Or.inl ⟨a, ⟨o, r⟩ :: es₁, es₂, rfl, ⟨r, es₁, rfl, h₁⟩, h₂⟩
      · exact Or.inr ⟨e, rfl, r, es', rfl, h⟩
    · rintro (⟨a, _, es₂, rfl, ⟨r, es₁, rfl, h₁⟩, h₂⟩ | ⟨e, rfl, r, es', rfl, h⟩)
      · exact ⟨r, es₁ ++ es₂, rfl, Or.inl ⟨a, es₁, es₂, rfl, h₁, h₂⟩⟩
      · exact ⟨r, es', rfl, Or.inr ⟨e, rfl, h⟩⟩

/-- `try` ends as its body does, or runs the handler on the body's exception. -/
theorem run_tryCatch {h : ε → Prog O A ε α} :
    (tryCatchThe ε p h).Run es x ↔
      (∃ a, x = .ok a ∧ p.Run es (.ok a)) ∨
        ∃ e es₁ es₂, es = es₁ ++ es₂ ∧ p.Run es₁ (.error e) ∧ (h e).Run es₂ x := by
  induction p generalizing es with
  | ret a =>
    show (ret a).Run es x ↔ _
    simp [and_comm]
  | raise e =>
    show (h e).Run es x ↔ _
    simp
  | op o k ih =>
    show (op o fun r => tryCatchThe ε (k r) h).Run es x ↔ _
    simp only [run_op, ih]
    constructor
    · rintro ⟨r, es', rfl, ⟨a, rfl, ha⟩ | ⟨e, es₁, es₂, rfl, h₁, h₂⟩⟩
      · exact Or.inl ⟨a, rfl, r, es', rfl, ha⟩
      · exact Or.inr ⟨e, ⟨o, r⟩ :: es₁, es₂, rfl, ⟨r, es₁, rfl, h₁⟩, h₂⟩
    · rintro (⟨a, rfl, r, es', rfl, ha⟩ | ⟨e, _, es₂, rfl, ⟨r, es₁, rfl, h₁⟩, h₂⟩)
      · exact ⟨r, es', rfl, Or.inl ⟨a, rfl, ha⟩⟩
      · exact ⟨r, es₁ ++ es₂, rfl, Or.inr ⟨e, es₁, es₂, rfl, h₁, h₂⟩⟩

end Run

/-- A trace has only the operations the program may come to. -/
theorem Only.run {P : O → Prop} {p : Prog O A ε α} {es : List (Event O A ε)} {x : Except ε α}
    (h : p.Only P) (hrun : p.Run es x) : ∀ e ∈ es, P e.1 := by
  induction p generalizing es with
  | ret a =>
    obtain ⟨rfl, -⟩ := hrun
    exact fun e he => absurd he List.not_mem_nil
  | raise e =>
    obtain ⟨rfl, -⟩ := hrun
    exact fun e he => absurd he List.not_mem_nil
  | op o k ih =>
    obtain ⟨r, es', rfl, hrest⟩ := hrun
    exact List.forall_mem_cons.mpr ⟨h.1, ih r (h.2 r) hrest⟩

section Next

variable {es : List (Event O A ε)} {x : Except ε β}

/-- A call of an operation: its answer and the rest, or its exception. -/
theorem run_perform_bind {o : O} {f : A o → Prog O A ε β} :
    (perform o >>= f).Run es x ↔
      (∃ a es', es = ⟨o, .ok a⟩ :: es' ∧ (f a).Run es' x) ∨
        ∃ e, es = [⟨o, .error e⟩] ∧ x = .error e := by
  rw [run_bind]
  constructor
  · rintro (⟨a, es₁, es₂, rfl, h₁, h₂⟩ | ⟨e, rfl, h⟩)
    · obtain rfl := run_perform.mp h₁
      exact Or.inl ⟨a, es₂, rfl, h₂⟩
    · exact Or.inr ⟨e, run_perform.mp h, rfl⟩
  · rintro (⟨a, es', rfl, h⟩ | ⟨e, rfl, rfl⟩)
    · exact Or.inl ⟨a, [_], es', rfl, run_perform.mpr rfl, h⟩
    · exact Or.inr ⟨e, rfl, run_perform.mpr rfl⟩

/-- A check: what is left when it passes, or its exception. -/
theorem run_ofExcept_bind {y : Except ε α} {f : α → Prog O A ε β} :
    (ofExcept y >>= f).Run es x ↔
      (∃ a, y = .ok a ∧ (f a).Run es x) ∨ ∃ e, y = .error e ∧ es = [] ∧ x = .error e := by
  cases y with
  | ok a => simp
  | error e => simp

/-- A run whose answer is only looked at. -/
theorem run_bind_ofExcept {p : Prog O A ε α} {f : α → Except ε β} :
    (p >>= fun a => ofExcept (f a)).Run es x ↔ ∃ r, p.Run es r ∧ x = r >>= f := by
  rw [run_bind]
  constructor
  · rintro (⟨a, es₁, es₂, rfl, h₁, h₂⟩ | ⟨e, rfl, h⟩)
    · obtain ⟨rfl, rfl⟩ := run_ofExcept.mp h₂
      exact ⟨.ok a, by rwa [List.append_nil], rfl⟩
    · exact ⟨.error e, h, rfl⟩
  · rintro ⟨r, h, rfl⟩
    cases r with
    | ok a => exact Or.inl ⟨a, es, [], (List.append_nil es).symm, h, run_ofExcept.mpr ⟨rfl, rfl⟩⟩
    | error e => exact Or.inr ⟨e, rfl, h⟩

theorem run_attempt_bind {o : O} {f : Except ε (A o) → Prog O A ε β} :
    (attempt (perform o) >>= f).Run es x ↔
      ∃ r es', es = ⟨o, r⟩ :: es' ∧ (f r).Run es' x := by
  rw [attempt_perform, op_bind, run_op]
  simp only [ret_bind]

theorem run_tell_bind {o : O} {f : Unit → Prog O A ε β} :
    (tell o >>= f).Run es x ↔ ∃ r es', es = ⟨o, r⟩ :: es' ∧ (f ()).Run es' x := by
  rw [tell_bind, run_op]

end Next

/-! ## A trace on a store -/

/-- The operations of the trace, answered one after the other with nobody else at the
store, lead from `s` and `l` to `s'` and `l'`. -/
def Plays {σ ℓ : Type} (sem : (o : O) → σ → ℓ → Except ε (A o) → σ → ℓ → Prop) :
    List (Event O A ε) → σ → ℓ → σ → ℓ → Prop
  | [], s, l, s', l' => s' = s ∧ l' = l
  | e :: es, s, l, s', l' => ∃ s₁ l₁, sem e.1 s l e.2 s₁ l₁ ∧ Plays sem es s₁ l₁ s' l'

section Plays

variable {σ ℓ : Type} {sem : (o : O) → σ → ℓ → Except ε (A o) → σ → ℓ → Prop}
  {es es' : List (Event O A ε)} {s s' : σ} {l l' : ℓ}

theorem plays_append : Plays sem (es ++ es') s l s' l' ↔
    ∃ s₁ l₁, Plays sem es s l s₁ l₁ ∧ Plays sem es' s₁ l₁ s' l' := by
  induction es generalizing s l with
  | nil =>
    constructor
    · intro h
      exact ⟨s, l, ⟨rfl, rfl⟩, h⟩
    · rintro ⟨s₁, l₁, ⟨rfl, rfl⟩, h⟩
      exact h
  | cons e es ih =>
    simp only [List.cons_append, Plays, ih]
    constructor
    · rintro ⟨s₁, l₁, hsem, s₂, l₂, hes, hes'⟩
      exact ⟨s₂, l₂, ⟨s₁, l₁, hsem, hes⟩, hes'⟩
    · rintro ⟨s₂, l₂, ⟨s₁, l₁, hsem, hes⟩, hes'⟩
      exact ⟨s₁, l₁, hsem, s₂, l₂, hes, hes'⟩

/-- What every answer of the trace satisfies, under an invariant of the store. -/
theorem answer_of_plays {inv : σ → Prop} {p : (o : O) → Except ε (A o) → Prop}
    (h : ∀ o s l r s' l', inv s → sem o s l r s' l' → p o r ∧ inv s') (hs : inv s)
    (hplays : Plays sem es s l s' l') : ∀ e ∈ es, p e.1 e.2 := by
  induction es generalizing s l with
  | nil => exact fun e he => absurd he List.not_mem_nil
  | cons e es ih =>
    obtain ⟨s₁, l₁, hsem, hrest⟩ := hplays
    obtain ⟨hp, hs₁⟩ := h _ _ _ _ _ _ hs hsem
    exact List.forall_mem_cons.mpr ⟨hp, ih hs₁ hrest⟩

end Plays

/-! ## Driving a program -/

/-- Run the program on answers computed from hints, and keep the trace. -/
def drive {H : Type} (answer : (o : O) → H → Option (Except ε (A o))) :
    Prog O A ε α → List H → Option (List (Event O A ε) × Except ε α)
  | ret a, [] => some ([], .ok a)
  | raise e, [] => some ([], .error e)
  | op o k, h :: hs => (answer o h).bind fun r =>
      (drive answer (k r) hs).map fun x => (⟨o, r⟩ :: x.1, x.2)
  | _, _ => none

theorem drive_run {H : Type} {answer : (o : O) → H → Option (Except ε (A o))}
    {p : Prog O A ε α} {hs : List H} {es : List (Event O A ε)} {x : Except ε α}
    (h : drive answer p hs = some (es, x)) : p.Run es x := by
  induction p generalizing hs es with
  | ret a =>
    cases hs with
    | nil =>
      obtain ⟨rfl, rfl⟩ := by simpa [drive] using h
      exact ⟨rfl, rfl⟩
    | cons _ _ => cases h
  | raise e =>
    cases hs with
    | nil =>
      obtain ⟨rfl, rfl⟩ := by simpa [drive] using h
      exact ⟨rfl, rfl⟩
    | cons _ _ => cases h
  | op o k ih =>
    cases hs with
    | nil => cases h
    | cons hint hs =>
      obtain ⟨r, -, h⟩ := Option.bind_eq_some_iff.mp h
      obtain ⟨⟨es', x'⟩, hdrive, heq⟩ := Option.map_eq_some_iff.mp h
      obtain ⟨rfl, rfl⟩ := Prod.mk.inj heq
      exact ⟨r, es', rfl, ih r hdrive⟩

/-- Every answer of a trace is one that was computed. -/
theorem drive_mem {H : Type} {answer : (o : O) → H → Option (Except ε (A o))}
    {p : Prog O A ε α} {hs : List H} {es : List (Event O A ε)} {x : Except ε α}
    (h : drive answer p hs = some (es, x)) : ∀ e ∈ es, ∃ hint, answer e.1 hint = some e.2 := by
  induction p generalizing hs es with
  | ret a =>
    cases hs with
    | nil =>
      obtain ⟨rfl, rfl⟩ := by simpa [drive] using h
      simp
    | cons _ _ => cases h
  | raise e =>
    cases hs with
    | nil =>
      obtain ⟨rfl, rfl⟩ := by simpa [drive] using h
      simp
    | cons _ _ => cases h
  | op o k ih =>
    cases hs with
    | nil => cases h
    | cons hint hs =>
      obtain ⟨r, hr, h⟩ := Option.bind_eq_some_iff.mp h
      obtain ⟨⟨es', x'⟩, hdrive, heq⟩ := Option.map_eq_some_iff.mp h
      obtain ⟨rfl, rfl⟩ := Prod.mk.inj heq
      exact List.forall_mem_cons.mpr ⟨⟨hint, hr⟩, ih r hdrive⟩

/-- Run the program on a store, each operation as its cue decides. -/
def play {H σ ℓ : Type} (act : (o : O) → σ → ℓ → H → Option (Except ε (A o) × σ × ℓ)) :
    Prog O A ε α → List H → σ → ℓ → Option (List (Event O A ε) × Except ε α × σ × ℓ)
  | ret a, [], s, l => some ([], .ok a, s, l)
  | raise e, [], s, l => some ([], .error e, s, l)
  | op o k, h :: hs, s, l => (act o s l h).bind fun x =>
      (play act (k x.1) hs x.2.1 x.2.2).map fun y => (⟨o, x.1⟩ :: y.1, y.2)
  | _, _, _, _ => none

theorem play_run {H σ ℓ : Type} {act : (o : O) → σ → ℓ → H → Option (Except ε (A o) × σ × ℓ)}
    {sem : (o : O) → σ → ℓ → Except ε (A o) → σ → ℓ → Prop}
    (hact : ∀ o s l h r s' l', act o s l h = some (r, s', l') → sem o s l r s' l')
    {p : Prog O A ε α} {hs : List H} {s s' : σ} {l l' : ℓ} {es : List (Event O A ε)}
    {x : Except ε α} (h : play act p hs s l = some (es, x, s', l')) :
    p.Run es x ∧ Plays sem es s l s' l' := by
  induction p generalizing hs s l es with
  | ret a =>
    cases hs with
    | nil =>
      obtain ⟨rfl, rfl, rfl, rfl⟩ := by simpa [play] using h
      exact ⟨⟨rfl, rfl⟩, rfl, rfl⟩
    | cons _ _ => cases h
  | raise e =>
    cases hs with
    | nil =>
      obtain ⟨rfl, rfl, rfl, rfl⟩ := by simpa [play] using h
      exact ⟨⟨rfl, rfl⟩, rfl, rfl⟩
    | cons _ _ => cases h
  | op o k ih =>
    cases hs with
    | nil => cases h
    | cons hint hs =>
      obtain ⟨⟨r, s₁, l₁⟩, hr, h⟩ := Option.bind_eq_some_iff.mp h
      obtain ⟨⟨es', x', s₂, l₂⟩, hplay, heq⟩ := Option.map_eq_some_iff.mp h
      obtain ⟨rfl, hend⟩ := Prod.mk.inj heq
      obtain ⟨rfl, hstore⟩ := Prod.mk.inj hend
      obtain ⟨rfl, rfl⟩ := Prod.mk.inj hstore
      obtain ⟨hrun, hplays⟩ := ih r hplay
      exact ⟨⟨r, es', rfl, hrun⟩, s₁, l₁, hact _ _ _ _ _ _ _ hr, hplays⟩

/-- These events, and then a trace and its result. -/
def after {E R : Type} (es : List E) (x : List E × R) : List E × R := (es ++ x.1, x.2)

@[simp] theorem after_fst {E R : Type} (es : List E) (x : List E × R) :
    (after es x).1 = es ++ x.1 := rfl

@[simp] theorem after_snd {E R : Type} (es : List E) (x : List E × R) : (after es x).2 = x.2 := rfl

@[simp] theorem after_after {E R : Type} (es es' : List E) (x : List E × R) :
    after es (after es' x) = after (es ++ es') x := by
  rw [after, after, after, List.append_assoc]

/-- Run the program against something that has an answer to every operation and a state
of its own, and keep the trace. -/
def consult {S : Type} (answer : (o : O) → S → Except ε (A o) × S) :
    Prog O A ε α → S → List (Event O A ε) × Except ε α
  | ret a, _ => ([], .ok a)
  | raise e, _ => ([], .error e)
  | op o k, s => after [⟨o, (answer o s).1⟩] (consult answer (k (answer o s).1) (answer o s).2)

theorem consult_run {S : Type} (answer : (o : O) → S → Except ε (A o) × S)
    (p : Prog O A ε α) (s : S) : p.Run (consult answer p s).1 (consult answer p s).2 := by
  induction p generalizing s with
  | ret a => exact ⟨rfl, rfl⟩
  | raise e => exact ⟨rfl, rfl⟩
  | op o k ih => exact ⟨(answer o s).1, _, rfl, ih _ _⟩

section Consult

variable {S : Type} {answer : (o : O) → S → Except ε (A o) × S} {o : O} {s : S}

theorem consult_perform_bind {a : A o} {s' : S} (h : answer o s = (.ok a, s'))
    (f : A o → Prog O A ε α) :
    consult answer (perform o >>= f) s = after [⟨o, .ok a⟩] (consult answer (f a) s') := by
  rw [perform, op_bind, consult, h]
  rfl

/-- An operation that fails ends the program. -/
theorem consult_perform_error {e : ε} {s' : S} (h : answer o s = (.error e, s'))
    (f : A o → Prog O A ε α) :
    consult answer (perform o >>= f) s = ([⟨o, .error e⟩], .error e) := by
  rw [perform, op_bind, consult, h]
  rfl

theorem consult_attempt_bind {r : Except ε (A o)} {s' : S} (h : answer o s = (r, s'))
    (f : Except ε (A o) → Prog O A ε α) :
    consult answer (attempt (perform o) >>= f) s = after [⟨o, r⟩] (consult answer (f r) s') := by
  rw [attempt_perform, op_bind, consult, h]
  rfl

theorem consult_tell_bind {r : Except ε (A o)} {s' : S} (h : answer o s = (r, s'))
    (f : Unit → Prog O A ε α) :
    consult answer (tell o >>= f) s = after [⟨o, r⟩] (consult answer (f ()) s') := by
  rw [tell_bind, consult, h]

theorem consult_ofExcept (x : Except ε α) :
    consult answer (ofExcept x : Prog O A ε α) s = ([], x) := by
  cases x <;> rfl

/-- The result of a program whose answer is only looked at. -/
theorem consult_bind_ofExcept (p : Prog O A ε α) (f : α → Except ε β) :
    (consult answer (p >>= fun a => ofExcept (f a)) s).2 = (consult answer p s).2 >>= f := by
  induction p generalizing s with
  | ret a => exact congrArg Prod.snd (consult_ofExcept (f a))
  | raise e => rfl
  | op o k ih => exact ih _

end Consult

end Prog

/-! ## Positions of a trace -/

section Along

variable {E : Type}

/-- `p past e future` at every position, with `past` before the first one. -/
def Along (p : List E → E → List E → Prop) : List E → List E → Prop
  | _, [] => True
  | past, e :: es => p past e es ∧ Along p (past ++ [e]) es

theorem along_iff {p : List E → E → List E → Prop} {past es : List E} :
    Along p past es ↔ ∀ pre e post, es = pre ++ e :: post → p (past ++ pre) e post := by
  induction es generalizing past with
  | nil => simp [Along]
  | cons e es ih =>
    rw [Along, ih]
    constructor
    · rintro ⟨hhere, hrest⟩ pre e' post heq
      rcases List.cons_eq_append_iff.mp heq with ⟨rfl, hsame⟩ | ⟨pre, rfl, hlater⟩
      · obtain ⟨rfl, rfl⟩ := List.cons.inj hsame
        rw [List.append_nil]
        exact hhere
      · have h := hrest pre e' post hlater
        rwa [List.append_assoc, List.singleton_append] at h
    · intro h
      constructor
      · have hhere := h [] e es rfl
        rwa [List.append_nil] at hhere
      · intro pre e' post heq
        have hrest := h (e :: pre) e' post (by rw [heq]; rfl)
        rwa [List.append_assoc, List.singleton_append]

end Along

end EmployeePortal.Framework
