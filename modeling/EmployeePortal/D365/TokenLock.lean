import EmployeePortal.D365.SingleFlight
import EmployeePortal.Framework.Locks

/-!
# The lock of the token service

`get_access_token` holds the lock while MSAL acquires a token in another thread, and
`_get` comes back to it on every attempt. Whatever the identity provider and D365
answer, the lock is freed, and no call waits for it in vain.
-/

namespace EmployeePortal.D365.D365TokenService

open EmployeePortal.Python EmployeePortal.Framework

section Started

variable {π : Type} {answers : Provider π}

/-! ## Acquisitions under way -/

/-- An acquisition is awaited once it has been started. -/
def startedFirst : Protocol ServiceOp ServiceOp.Answer Exc Bool := fun started o _ =>
  match o with
  | .toThread => some true
  | .acquireTokenForClient => if started then some true else none
  | _ => some started

/-- The session knows of the acquisition. -/
def Knows (started : Bool) (l : TokenSession π) : Prop :=
  started = true → l.started.isSome = true

theorem heard_started (l : TokenSession π) (p : π) (r : Except Exc Response) :
    (l.heard p r).started = l.started := by
  cases r with
  | error e => rfl
  | ok response =>
    simp only [TokenSession.heard]
    split <;> rfl

theorem knows_statement {o : ServiceOp} {f} {s : Service π} {l : TokenSession π}
    {started started' : Bool} (ho : statements o = some f) (h : Knows started l)
    (hnext : startedFirst started o (f s l).1 = some started') : Knows started' (f s l).2.2 := by
  cases o with
  | toThread =>
    obtain rfl := Option.some.inj ho
    exact fun _ => rfl
  | lockAcquire | acquireTokenForClient | response | sleep delay => cases ho
  | _ =>
    obtain rfl := Option.some.inj ho
    obtain rfl := Option.some.inj hnext
    exact h

theorem knows_awaited {o : ServiceOp} {s s' : Service π} {l l' : TokenSession π}
    {r : Except Exc o.Answer} {started started' : Bool} (hsem : Awaited answers o s l r s' l')
    (h : Knows started l) (hnext : startedFirst started o r = some started') :
    Knows started' l' := by
  cases hsem with
  | acquireTokenForClient hstarted _ => exact fun _ => hstarted ▸ rfl
  | response r =>
    obtain rfl := Option.some.inj hnext
    rw [Knows, heard_started]
    exact h
  | _ =>
    obtain rfl := Option.some.inj hnext
    exact h

/-- The operation has nothing to do with acquisitions. -/
def Plain (o : ServiceOp) : Prop := o ≠ .acquireTokenForClient

theorem always_of_plain {α : Type} {p : Task α} (h : p.Only Plain) : Always startedFirst p := by
  refine Always.of_only h fun o ho started r => ?_
  cases o with
  | acquireTokenForClient => exact absurd rfl ho
  | _ => exact ⟨_, rfl⟩

end Started

section Lock

variable [UnicodeData] [FloatData] {π : Type} {max_retries : ℤ} {answers : Provider π}

/-- Calls of the service itself and of the clients it serves, side by side. -/
def sharedLoop (max_retries : ℤ) (answers : Provider π) : Loop ServiceOp ServiceOp.Answer Exc
    (Option String ⊕ Response) (Service π) (TokenSession π) (TokenCall ⊕ ClientCall) where
  body := fun
    | .inl c => do return .inl (← (tokenLoop answers).body c)
    | .inr c => do return .inr (← (clientLoop max_retries answers).body c)
  start := {}
  sem := fun _ => Awaited answers
  sync := statements

instance : DecidablePred (sharedLoop max_retries answers).admits := fun _ => .isTrue trivial

def ServiceOp.acquires : ServiceOp → Option Unit
  | .lockAcquire => some ()
  | _ => none

def ServiceOp.releases : ServiceOp → Option Unit
  | .lockRelease => some ()
  | _ => none

variable (max_retries answers) in
def serviceLock : Locks (sharedLoop max_retries answers) Unit where
  acquires := ServiceOp.acquires
  releases := ServiceOp.releases
  locked := fun _ => Service.locked
  awaited := by
    intro o i ho
    cases o with
    | lockAcquire => rfl
    | _ => cases ho
  statement := by
    intro o f s l hf i
    cases o with
    | lockAcquire | acquireTokenForClient | response | sleep delay => cases hf
    | lockRelease =>
      obtain rfl := Option.some.inj hf
      exact (Bool.and_false _).symm
    | _ =>
      obtain rfl := Option.some.inj hf
      exact (Bool.and_true _).symm
  taken := by
    intro c o s l r s' l' i hsem ho
    cases hsem with
    | lockAcquire hfree => exact ⟨hfree, rfl⟩
    | _ => cases ho
  passed := by
    intro c o s l r s' l' i hsem ho
    cases hsem with
    | lockAcquire hfree => exact absurd rfl ho
    | _ => rfl
  unreleased := by
    intro o ho
    cases o with
    | lockRelease => cases ho
    | _ => rfl
  granted := by
    intro o i c s l ho hfree
    cases o with
    | lockAcquire => exact ⟨_, _, _, .lockAcquire hfree⟩
    | _ => cases ho
  answer := fun _ => ⟨.error .typeError⟩
  env := fun henv => False.elim henv

/-! ## The calls -/

theorem refresh_neutral (force_refresh : Bool) :
    (refresh force_refresh).Only (serviceLock max_retries answers).Neutral := by
  unfold refresh acquire
  refine .bind (.perform ⟨rfl, rfl⟩) fun now => .bind (.perform ⟨rfl, rfl⟩) fun token => ?_
  split
  · trivial
  · refine .bind (.tell ⟨rfl, rfl⟩) fun _ => .bind (.perform ⟨rfl, rfl⟩) fun result => ?_
    exact .bind (.ofExcept _) fun _ => .bind (.tell ⟨rfl, rfl⟩) fun _ => trivial

theorem getAccessToken_brackets (force_refresh : Bool) :
    (serviceLock max_retries answers).Brackets (getAccessToken force_refresh) none := by
  unfold getAccessToken
  refine Locks.brackets_bind (Locks.brackets_of_only (.perform ⟨rfl, rfl⟩)) fun now => ?_
  refine Locks.brackets_bind (Locks.brackets_of_only (.perform ⟨rfl, rfl⟩)) fun token => ?_
  split
  · rfl
  · exact Locks.brackets_inside (Locks.obeys_acquire rfl) (Locks.obeys_release rfl rfl)
      (refresh_neutral force_refresh)

/-- Attempt by attempt: the lock is free before the next one. -/
theorem attempts_brackets (request : String → GetRequest) (is : List ℕ) (refreshed forced : Bool) :
    (serviceLock max_retries answers).Brackets
      (D365Client.attempts wire max_retries request is refreshed forced) none := by
  induction is generalizing refreshed forced with
  | nil => rfl
  | cons i is ih =>
    refine Locks.brackets_bind (getAccessToken_brackets forced) fun token => ?_
    refine Locks.brackets_bind (Locks.brackets_of_only (.attempt
      (.bind (.tell ⟨rfl, rfl⟩) fun _ => .perform ⟨rfl, rfl⟩))) fun outcome => ?_
    split
    · exact Locks.brackets_of_only (.ofExcept _)
    · exact Locks.brackets_bind (Locks.brackets_of_only (.perform ⟨rfl, rfl⟩)) fun _ => ih _ _
    · exact Locks.brackets_bind (Locks.brackets_of_only (.tell ⟨rfl, rfl⟩)) fun _ => ih _ _

theorem sharedLoop_brackets (c : TokenCall ⊕ ClientCall) :
    (serviceLock max_retries answers).Brackets ((sharedLoop max_retries answers).body c)
      none := by
  rcases c with (force_refresh | _) | c
  · refine Locks.brackets_bind (Locks.brackets_bind ?_ fun _ => rfl) fun _ => rfl
    exact getAccessToken_brackets force_refresh
  · refine Locks.brackets_bind (Locks.brackets_bind ?_ fun _ => rfl) fun _ => rfl
    exact Locks.brackets_of_only (.tell ⟨rfl, rfl⟩)
  · exact Locks.brackets_bind (attempts_brackets _ _ _ _) fun _ => rfl

/-! ## Acquisitions of the calls -/

theorem acquire_obeys (now : ℚ) : Obeys startedFirst (fun _ _ => True) (acquire now) true := by
  refine Obeys.perform fun r => ⟨true, rfl, ?_⟩
  cases r with
  | error e => trivial
  | ok result =>
    refine always_of_plain (.bind (.ofExcept _) fun answer => ?_) true
    exact .bind (.tell (by simp [Plain])) fun _ => trivial

theorem getAccessToken_always (force_refresh : Bool) :
    Always startedFirst (getAccessToken force_refresh) := by
  have hchecks : ∀ o ∈ [ServiceOp.time, .token, .lockAcquire, .lockRelease], Plain o := by
    simp [Plain]
  unfold getAccessToken
  refine .bind (always_of_plain (.perform (hchecks _ (by simp)))) fun now => ?_
  refine .bind (always_of_plain (.perform (hchecks _ (by simp)))) fun token => ?_
  split
  · exact fun _ => trivial
  refine .inside (always_of_plain (.perform (hchecks _ (by simp))))
    (always_of_plain (.tell (hchecks _ (by simp)))) ?_
  unfold refresh
  refine .bind (always_of_plain (.perform (hchecks _ (by simp)))) fun now => ?_
  refine .bind (always_of_plain (.perform (hchecks _ (by simp)))) fun token => ?_
  split
  · exact fun _ => trivial
  · exact fun started => Obeys.tell fun r => ⟨true, rfl, acquire_obeys now⟩

theorem attempts_always (request : String → GetRequest) (is : List ℕ) (refreshed forced : Bool) :
    Always startedFirst
      (D365Client.attempts wire max_retries request is refreshed forced) := by
  induction is generalizing refreshed forced with
  | nil => exact fun _ => trivial
  | cons i is ih =>
    refine .bind (getAccessToken_always forced) fun token => ?_
    refine .bind (.attempt (always_of_plain (.bind (.tell (by simp [Plain])) fun _ =>
      .perform (by simp [Plain])))) fun outcome => ?_
    split
    · exact always_of_plain (.ofExcept _)
    · exact .bind (always_of_plain (.perform (by simp [Plain]))) fun _ => ih _ _
    · exact .bind (always_of_plain (.tell (by simp [Plain]))) fun _ => ih _ _

theorem sharedLoop_always (c : TokenCall ⊕ ClientCall) :
    Always startedFirst ((sharedLoop max_retries answers).body c) := by
  rcases c with (force_refresh | _) | c
  · exact .bind (.bind (getAccessToken_always force_refresh) fun _ _ => trivial) fun _ _ => trivial
  · exact always_of_plain (.bind (.bind (.tell (by simp [Plain])) fun _ => trivial) fun _ => trivial)
  · exact .bind (attempts_always _ _ _ _) fun _ _ => trivial

/-! ## The loop -/

theorem knows_does {c : TokenCall ⊕ ClientCall} {o : ServiceOp} {s s' : Service π}
    {l l' : TokenSession π} {r : Except Exc o.Answer} {started started' : Bool}
    (hdoes : (sharedLoop max_retries answers).Does c o s l r s' l') (h : Knows started l)
    (hnext : startedFirst started o r = some started') : Knows started' l' := by
  unfold Loop.Does at hdoes
  cases ho : statements (π := π) o with
  | some f =>
    rw [show (sharedLoop max_retries answers).sync o = some f from ho] at hdoes
    have hknows : startedFirst started o (f s l).1 = some started' → Knows started' (f s l).2.2 :=
      knows_statement ho h
    rw [hdoes] at hknows
    exact hknows hnext
  | none =>
    rw [show (sharedLoop max_retries answers).sync o = none from ho] at hdoes
    exact knows_awaited hdoes h hnext

/-- Where the provider answers every acquisition, all that a call awaits apart from the lock
is answered. -/
theorem sharedLoop_answered (hprovider : ∀ p started, ∃ r p', answers p started r p')
    {s : Service π} {P} (h : (sharedLoop max_retries answers).Reaches ⟨s, []⟩ P) :
    (serviceLock max_retries answers).Answered P := by
  have hobeys := Loop.obeys_of_reaches (fun _ _ _ => True) Knows
    (fun c o s l r s' l' q q' => knows_does) (fun c _ => ⟨false, nofun, sharedLoop_always c false⟩) h
  intro t ht o k hop hother
  have hawaits := Loop.awaits_of_reaches h (by simp) t ht o k hop
  cases o with
  | acquireTokenForClient =>
    obtain ⟨started, hknows, hallowed⟩ := hobeys t ht
    rw [hop] at hallowed
    obtain ⟨started', hnext, -⟩ := hallowed (.error .typeError)
    have hstarted : started = true := by
      by_contra hnot
      simp [startedFirst, hnot] at hnext
    obtain ⟨time, htime⟩ := Option.isSome_iff_exists.mp (hknows hstarted)
    obtain ⟨r, p', hanswers⟩ := hprovider P.store.provider time
    exact ⟨_, _, _, .acquireTokenForClient htime hanswers⟩
  | response => exact ⟨_, _, _, .response (.error .typeError)⟩
  | sleep delay => exact ⟨_, _, _, .sleep (.ok ())⟩
  | lockAcquire => cases hother
  | _ => cases hawaits

/-- **The lock of the token service.** In every order of turns the lock is taken exactly
while one call has it, and whatever the provider and D365 answer, the calls come to their
ends and leave the lock free. -/
theorem service_lock_settles (hprovider : ∀ p started, ∃ r p', answers p started r p')
    {s : Service π} {P} (hfree : s.locked = false)
    (h : (sharedLoop max_retries answers).Reaches ⟨s, []⟩ P) :
    (serviceLock max_retries answers).Tidy P ∧ (serviceLock max_retries answers).Settles P :=
  Locks.tidy_settles (fun _ => hfree) (fun c _ => sharedLoop_brackets c)
    (fun _ h' => sharedLoop_answered hprovider h') h

end Lock

section Example

open Ascii

/-- A request of a client has the lock, and another call waits for it. -/
theorem service_lock_settles_waiting :
    ∃ P, (sharedLoop 3 (fun (_ : Unit) _ r (_ : Unit) => r = hourly)).Reaches
        ⟨{ clock := Clock.ticking, provider := () }, []⟩ P ∧ P.store.locked = true ∧
      (serviceLock 3 (fun (_ : Unit) _ r (_ : Unit) => r = hourly)).Tidy P ∧
      (serviceLock 3 (fun (_ : Unit) _ r (_ : Unit) => r = hourly)).Settles P := by
  have hrun : (Loop.play (sharedLoop 3 (fun (_ : Unit) _ r (_ : Unit) => r = hourly))
      (answer fun _ _ => some (hourly, ())) (fun _ _ => none)
      [.spawn (.inr ⟨"$metadata", none, none⟩), .spawn (.inl (.getAccessToken true)),
        .run 0 (.error .typeError)]
      ⟨{ clock := Clock.ticking, provider := () }, []⟩).any (fun P => P.store.locked) = true := by
    decide +kernel
  obtain ⟨P, hplay, hlocked⟩ := (Option.any_eq_true _ _).mp hrun
  have hreaches := Loop.play_reaches (answer_awaited (by simp)) (fun _ _ _ h => by cases h) hplay
  exact ⟨P, hreaches, hlocked, service_lock_settles (fun _ _ => ⟨_, (), rfl⟩) rfl hreaches⟩

end Example

end EmployeePortal.D365.D365TokenService
