import EmployeePortal.D365.RetryDelay
import EmployeePortal.D365.RetryProtocol

/-!
# What the retry loop makes of its outcomes

The token requests and the GETs of one `_get` end as an unbounded sequence says, and the
waits last as long as the loop works out. The loop carries a flag and a budget; what it
ends in can be said without either, by the first outcome that is not worth another
attempt, as long as no wait before it fails to be worked out.
-/

namespace EmployeePortal.D365

open EmployeePortal.Python EmployeePortal.Framework

namespace D365Client

/-- How a GET ends: with a response, or with an exception of the transport. -/
abbrev Outcome : Type := Except HttpxKind Response

namespace Outcome

def answer : Outcome → Except Exc Response
  | .ok response => .ok response
  | .error kind => .error (.httpx kind)

/-- A timeout or a network error. -/
def isLost : Outcome → Bool
  | .error .timeout | .error .network => true
  | _ => false

/-- The status of the response, where there is one. -/
def status : Outcome → Option ℕ
  | .ok response => some response.status_code
  | .error _ => none

def isRejected : Outcome → Bool
  | .ok response => response.status_code = 401
  | .error _ => false

/-- Worth another attempt whenever there is one. -/
def isPassing : Outcome → Bool
  | .ok response => response.status_code = 429 || 500 ≤ response.status_code
  | .error kind => isLost (.error kind)

/-- What the call ends in when the outcome of its last attempt is worth another one. -/
def exhaustion : Outcome → Exc
  | .ok response =>
      if response.status_code = 429 then
        .d365 .rateLimit "D365 rate limit retry budget was exhausted"
      else if response.status_code = 401 then retriesExhausted
      else .d365 .unavailable "D365 service is temporarily unavailable"
  | .error _ => retriesExhausted

/-- What any attempt makes of an outcome that is not worth another one. -/
def conclusion : Outcome → Except Exc Response
  | .error kind => .error (.httpx kind)
  | .ok response =>
      if response.status_code = 401 then
        .error (.d365 .authentication "D365 rejected the application credential")
      else if response.status_code = 403 then
        .error (.d365 .authorization "D365 denied access to the requested resource")
      else if 200 ≤ response.status_code ∧ response.status_code < 300 then .ok response
      else .error (.d365 .unavailable
        ("D365 request failed with HTTP " ++ toString response.status_code))

/-- The wait before the next attempt. -/
def delay (attempt : ℕ) : Outcome → Delay
  | .ok response =>
      if response.status_code = 429 then .retryDelay response.retry_after attempt
      else .backoff attempt
  | .error _ => .backoff attempt

end Outcome

/-- The verdict on an outcome, by what the outcome is worth. -/
theorem verdict_answer (max_retries : ℤ) (attempt : ℕ) (refreshed : Bool) (o : Outcome) :
    verdict max_retries attempt refreshed o.answer =
      if o.isPassing = true then
        if max_retries ≤ attempt then .done (.error o.exhaustion) else .wait (o.delay attempt)
      else if o.isRejected = true ∧ refreshed = false then .renew
      else .done o.conclusion := by
  cases o with
  | error kind => cases kind <;> rfl
  | ok response =>
    simp only [Outcome.answer, verdict, Outcome.isPassing, Outcome.isRejected, Outcome.exhaustion,
      Outcome.delay, Outcome.conclusion, Bool.or_eq_true, decide_eq_true_eq]
    by_cases h401 : response.status_code = 401
    · simp [h401]
    · by_cases h429 : response.status_code = 429
      · simp [h429]
      · by_cases h500 : 500 ≤ response.status_code
        · have h403 : response.status_code ≠ 403 := by omega
          simp [h401, h429, h500, h403]
        · simp only [h401, h429, h500, false_and, if_false, or_self]
          split_ifs <;> rfl

/-! ## One call on a transport -/

/-- What the calls of one `_get` meet: the token service raises `D365AuthenticationError`
or nothing, and the `i`-th GET ends in the `i`-th outcome. -/
structure Transport where
  tokens : ℕ → Except String String
  outcomes : ℕ → Outcome
  /-- `datetime.now(UTC)` after the `i`-th GET. -/
  clock : ℕ → ℚ

namespace Transport

/-- Every token request succeeds. -/
def issuing (tokens : ℕ → String) (outcomes : ℕ → Outcome) (clock : ℕ → ℚ) : Transport where
  tokens := fun i => .ok (tokens i)
  outcomes := outcomes
  clock := clock

def token (t : Transport) (i : ℕ) : Except Exc String :=
  (t.tokens i).mapError (.d365 .authentication)

/-- The answers, after `i` GETs. A wait raises what working it out raises: `asyncio.sleep`
takes any float, and NaN for no time at all. -/
def answer [HeaderData] (t : Transport) : (o : ClientOp) → ℕ → Except Exc o.Answer × ℕ
  | .getAccessToken _, i => (t.token i, i)
  | .invalidate, i => (.ok (), i)
  | .get _, i => ((t.outcomes i).answer, i + 1)
  | .sleep delay, i => ((secondsOf (t.clock i) delay).map fun _ => (), i)

end Transport

section Calls

variable [HeaderData] (t : Transport) (n : ℕ) (request : String → GetRequest)

/-- What a call asks for and how it ends. -/
def callOn (path : String) (params : Option (Dict String)) (accept : Option String) :
    List Call × Except Exc Response :=
  Prog.consult t.answer (get calls n path params accept) 0

def getOn (path : String) (params : Option (Dict String)) (accept : Option String) :
    Except Exc Response :=
  (callOn t n path params accept).2

/-- The loop from the `i`-th attempt on, with `k` attempts left. -/
def loopFrom (k i : ℕ) (b f : Bool) : List Call × Except Exc Response :=
  Prog.consult t.answer (attempts calls n request (List.range' i k) b f) i

/-- The token request and the GET of an attempt. -/
def roundOf (token : String) (i : ℕ) (f : Bool) : List Call :=
  [⟨.getAccessToken f, .ok token⟩, ⟨.get (request token), (t.outcomes i).answer⟩]

/-- What the `i`-th attempt comes to with its token, where `k` others are left. -/
inductive Attempted (token : String) (k i : ℕ) (b f : Bool) :
    List Call × Except Exc Response → Prop where
  | exhausted (hpassing : (t.outcomes i).isPassing = true) (hi : n ≤ i) :
      Attempted token k i b f
        (roundOf t request token i f, .error (t.outcomes i).exhaustion)
  | failed {e} (hpassing : (t.outcomes i).isPassing = true) (hi : i < n)
      (hwait : secondsOf (t.clock (i + 1)) ((t.outcomes i).delay i) = .error e) :
      Attempted token k i b f
        (roundOf t request token i f ++ [⟨.sleep ((t.outcomes i).delay i), .error e⟩], .error e)
  | waited (hpassing : (t.outcomes i).isPassing = true) (hi : i < n)
      (hwait : Workable ((t.outcomes i).delay i)) :
      Attempted token k i b f
        (Prog.after (roundOf t request token i f ++ [⟨.sleep ((t.outcomes i).delay i), .ok ()⟩])
          (loopFrom t n request k (i + 1) b false))
  | renewed (hrejected : (t.outcomes i).isRejected = true) (hb : b = false) :
      Attempted token k i b f
        (Prog.after (roundOf t request token i f ++ [⟨.invalidate, .ok ()⟩])
          (loopFrom t n request k (i + 1) true true))
  | decided (hpassing : (t.outcomes i).isPassing = false)
      (hrejected : (t.outcomes i).isRejected = true → b = true) :
      Attempted token k i b f (roundOf t request token i f, (t.outcomes i).conclusion)

variable {t n request} {k i : ℕ} {b f : Bool}

theorem loopFrom_refused {message : String} (h : t.tokens i = .error message) :
    (loopFrom t n request (k + 1) i b f).2 = .error (.d365 .authentication message) := by
  have htoken : t.answer (.getAccessToken f) i = (.error (.d365 .authentication message), i) := by
    rw [Transport.answer, Transport.token, h]
    rfl
  rw [loopFrom, List.range'_succ, attempts]
  change (Prog.consult _ (Prog.perform (ClientOp.getAccessToken f) >>= _) i).2 = _
  rw [Prog.consult_perform_error htoken]

/-- An attempt: its token request and its GET, and what the verdict says. -/
theorem loopFrom_attempted {token : String} (h : t.tokens i = .ok token) :
    Attempted t n request token k i b f (loopFrom t n request (k + 1) i b f) := by
  have htoken : t.answer (.getAccessToken f) i = (.ok token, i) := by
    rw [Transport.answer, Transport.token, h]
    rfl
  rw [loopFrom, List.range'_succ, attempts]
  change Attempted t n request token k i b f
    (Prog.consult _ (Prog.perform (ClientOp.getAccessToken f) >>= _) i)
  rw [Prog.consult_perform_bind htoken]
  change Attempted t n request token k i b f (Prog.after _ (Prog.consult _
    (Prog.attempt (Prog.perform (ClientOp.get (request token))) >>= _) i))
  rw [Prog.consult_attempt_bind rfl, Prog.after_after, verdict_answer]
  by_cases hpassing : (t.outcomes i).isPassing = true
  · rw [if_pos hpassing]
    by_cases hlast : (n : ℤ) ≤ i
    · rw [if_pos hlast]
      exact .exhausted hpassing (by omega)
    · rw [if_neg hlast]
      change Attempted t n request token k i b f (Prog.after _ (Prog.consult _
        (Prog.perform (ClientOp.sleep ((t.outcomes i).delay i)) >>= _) (i + 1)))
      cases hwait : secondsOf (t.clock (i + 1)) ((t.outcomes i).delay i) with
      | error e =>
        have hanswer : t.answer (.sleep ((t.outcomes i).delay i)) (i + 1) = (.error e, i + 1) := by
          rw [Transport.answer, hwait]
          rfl
        rw [Prog.consult_perform_error hanswer]
        exact .failed hpassing (by omega) hwait
      | ok seconds =>
        have hanswer : t.answer (.sleep ((t.outcomes i).delay i)) (i + 1) = (.ok (), i + 1) := by
          rw [Transport.answer, hwait]
          rfl
        rw [Prog.consult_perform_bind hanswer, Prog.after_after]
        exact .waited hpassing (by omega) ((secondsOf_ok_iff _ _).mp ⟨seconds, hwait⟩)
  · rw [if_neg hpassing]
    by_cases hfirst : (t.outcomes i).isRejected = true ∧ b = false
    · rw [if_pos hfirst]
      change Attempted t n request token k i b f (Prog.after _ (Prog.consult _
        (Prog.tell ClientOp.invalidate >>= _) (i + 1)))
      rw [Prog.consult_tell_bind rfl, Prog.after_after]
      exact .renewed hfirst.1 hfirst.2
    · rw [if_neg hfirst]
      dsimp only
      rw [Prog.consult_ofExcept]
      exact .decided (Bool.not_eq_true _ ▸ hpassing) fun hrejected =>
        Bool.not_eq_false _ ▸ fun hb => hfirst ⟨hrejected, hb⟩

end Calls

/-! ## The outcome that decides -/

/-- The `i`-th outcome is worth another attempt: it may pass, or it is the first 401. -/
def Retryable (outcomes : ℕ → Outcome) (i : ℕ) : Prop :=
  (outcomes i).isPassing = true ∨
    (outcomes i).isRejected = true ∧ ∀ j < i, (outcomes j).isRejected = false

/-- The `i`-th outcome is the first one that is not. -/
def Decides (outcomes : ℕ → Outcome) (i : ℕ) : Prop :=
  ¬ Retryable outcomes i ∧ ∀ j < i, Retryable outcomes j

theorem Decides.unique {outcomes : ℕ → Outcome} {i j : ℕ} (hi : Decides outcomes i)
    (hj : Decides outcomes j) : i = j := by
  rcases lt_trichotomy i j with hlt | heq | hlt
  · exact absurd (hj.2 i hlt) hi.1
  · exact heq
  · exact absurd (hi.2 j hlt) hj.1

section Flag

variable {outcomes : ℕ → Outcome} {i : ℕ} {b : Bool}

theorem not_isPassing_of_isRejected {o : Outcome} (h : o.isRejected = true) :
    o.isPassing = false := by
  cases o with
  | error kind => cases h
  | ok response =>
    have h401 : response.status_code = 401 := of_decide_eq_true h
    simp [Outcome.isPassing, h401]

/-- The flag says whether there has been a 401. -/
def Refreshed (outcomes : ℕ → Outcome) (i : ℕ) (b : Bool) : Prop :=
  b = true ↔ ∃ j < i, (outcomes j).isRejected = true

theorem Refreshed.retryable_iff (hb : Refreshed outcomes i b) : Retryable outcomes i ↔
    (outcomes i).isPassing = true ∨ (outcomes i).isRejected = true ∧ b = false := by
  have hnone : (∀ j < i, (outcomes j).isRejected = false) ↔ b = false := by
    rw [Refreshed] at hb
    rw [← Bool.not_eq_true b, hb]
    push Not
    simp only [Bool.not_eq_true]
  rw [Retryable, hnone]

theorem Refreshed.passed (hb : Refreshed outcomes i b)
    (hpassing : (outcomes i).isPassing = true) : Refreshed outcomes (i + 1) b := by
  rw [Refreshed] at hb ⊢
  rw [hb]
  constructor
  · rintro ⟨j, hj, hrejected⟩
    exact ⟨j, Nat.lt_succ_of_lt hj, hrejected⟩
  · rintro ⟨j, hj, hrejected⟩
    rcases Nat.lt_succ_iff_lt_or_eq.mp hj with hlt | rfl
    · exact ⟨j, hlt, hrejected⟩
    · rw [not_isPassing_of_isRejected hrejected] at hpassing
      cases hpassing

theorem Refreshed.renewed (hrejected : (outcomes i).isRejected = true) :
    Refreshed outcomes (i + 1) true :=
  ⟨fun _ => ⟨i, Nat.lt_succ_self i, hrejected⟩, fun _ => rfl⟩

theorem exhaustion_of_isRejected {o : Outcome} (h : o.isRejected = true) :
    o.exhaustion = retriesExhausted := by
  cases o with
  | error kind => rfl
  | ok response =>
    have h401 : response.status_code = 401 := of_decide_eq_true h
    simp [Outcome.exhaustion, h401]

theorem refreshed_zero : Refreshed outcomes 0 false := by
  rw [Refreshed]
  simp

end Flag

/-! ## Where a call ends -/

section Ends

variable [HeaderData] (t : Transport) (n : ℕ)

/-- The `i`-th attempt leads to another one: it has its token, its outcome is worth it, and
the wait before that can be worked out. -/
structure GoesOn (i : ℕ) : Prop where
  token : ∃ token, t.tokens i = .ok token
  retryable : Retryable t.outcomes i
  workable : (t.outcomes i).isPassing = true → Workable ((t.outcomes i).delay i)

/-- How the call may end with its `i`-th attempt. -/
inductive EndsAt : ℕ → Except Exc Response → Prop where
  | refused {i message} (h : t.tokens i = .error message) :
      EndsAt i (.error (.d365 .authentication message))
  | decided {i token} (htoken : t.tokens i = .ok token) (h : ¬ Retryable t.outcomes i) :
      EndsAt i (t.outcomes i).conclusion
  | failed {i token e} (htoken : t.tokens i = .ok token)
      (hpassing : (t.outcomes i).isPassing = true) (hi : i < n)
      (hwait : secondsOf (t.clock (i + 1)) ((t.outcomes i).delay i) = .error e) :
      EndsAt i (.error e)
  | exhausted {token} (htoken : t.tokens n = .ok token) (h : Retryable t.outcomes n) :
      EndsAt n (.error (t.outcomes n).exhaustion)

variable {t n} {request : String → GetRequest} {k i : ℕ} {b f : Bool}

/-- The loop ends with one of its attempts, and every earlier one has led on. There is no
attempt left only when the last one was spent on a 401. -/
theorem loopFrom_endsAt (hk : i + k = n + 1) (hpast : ∀ j < i, GoesOn t j)
    (hb : Refreshed t.outcomes i b) (hspent : k = 0 → (t.outcomes n).isRejected = true) :
    ∃ j ≤ n, (∀ m < j, GoesOn t m) ∧ EndsAt t n j (loopFrom t n request k i b f).2 := by
  induction k generalizing i b f with
  | zero =>
    have hlast := hpast n (by omega)
    obtain ⟨token, htoken⟩ := hlast.token
    refine ⟨n, le_rfl, fun m hm => hpast m (by omega), ?_⟩
    have hresult : (loopFrom t n request 0 i b f).2 = .error (t.outcomes n).exhaustion := by
      rw [exhaustion_of_isRejected (hspent rfl)]
      rfl
    rw [hresult]
    exact .exhausted htoken hlast.retryable
  | succ k ih =>
    have hi : i ≤ n := by omega
    cases htoken : t.tokens i with
    | error message =>
      rw [loopFrom_refused htoken]
      exact ⟨i, hi, hpast, .refused htoken⟩
    | ok token =>
      have hextend : GoesOn t i → ∀ j < i + 1, GoesOn t j := by
        intro hon j hj
        rcases Nat.lt_succ_iff_lt_or_eq.mp hj with hlt | rfl
        · exact hpast j hlt
        · exact hon
      have hattempt : Attempted t n request token k i b f (loopFrom t n request (k + 1) i b f) :=
        loopFrom_attempted htoken
      generalize loopFrom t n request (k + 1) i b f = result at hattempt
      -- a passing outcome or a first 401 leads on; any other decides
      cases hattempt with
      | exhausted hpassing hlast =>
        obtain rfl : i = n := by omega
        exact ⟨i, le_rfl, hpast, .exhausted htoken (Or.inl hpassing)⟩
      | failed hpassing hlt hwait => exact ⟨i, hi, hpast, .failed htoken hpassing hlt hwait⟩
      | waited hpassing hlt hworkable =>
        exact ih (by omega) (hextend ⟨⟨token, htoken⟩, Or.inl hpassing, fun _ => hworkable⟩)
          (hb.passed hpassing) fun h => by omega
      | renewed hrejected hfirst =>
        have hretryable := hb.retryable_iff.mpr (Or.inr ⟨hrejected, hfirst⟩)
        have hon : GoesOn t i := by
          refine ⟨⟨token, htoken⟩, hretryable, fun hpassing => ?_⟩
          rw [not_isPassing_of_isRejected hrejected] at hpassing
          cases hpassing
        refine ih (by omega) (hextend hon) (Refreshed.renewed hrejected) fun hzero => ?_
        obtain rfl : i = n := by omega
        exact hrejected
      | decided hpassing hrejected =>
        refine ⟨i, hi, hpast, .decided htoken ?_⟩
        rw [hb.retryable_iff, hpassing]
        rintro (h | ⟨h401, hfirst⟩)
        · cases h
        · rw [hrejected h401] at hfirst
          cases hfirst

theorem callOn_eq (path : String) (params : Option (Dict String)) (accept : Option String) :
    callOn t n path params accept =
      loopFrom t n (fun token => ⟨path, params, token, accept⟩) (n + 1) 0 false false := by
  have hattempts : ((n : ℤ) + 1).toNat = n + 1 := by omega
  rw [callOn, get, hattempts, List.range_eq_range', loopFrom]

theorem getOn_endsAt (path : String) (params : Option (Dict String)) (accept : Option String) :
    ∃ j ≤ n, (∀ m < j, GoesOn t m) ∧ EndsAt t n j (getOn t n path params accept) := by
  rw [getOn, callOn_eq]
  exact loopFrom_endsAt (by omega) (fun j hj => absurd hj (Nat.not_lt_zero j)) refreshed_zero
    fun h => absurd h (Nat.succ_ne_zero n)

end Ends

/-! ## The result that is called for -/

section Ending

variable {n : ℕ} {outcomes : ℕ → Outcome} {i : ℕ}

theorem exists_decides_iff {p : ℕ → Prop} (hi : i ≤ n) (h : Decides outcomes i) :
    (∃ j ≤ n, Decides outcomes j ∧ p j) ↔ p i := by
  constructor
  · rintro ⟨j, -, hj, hp⟩
    rwa [h.unique hj]
  · intro hp
    exact ⟨i, hi, h, hp⟩

theorem not_exists_decides {p : ℕ → Prop} (h : ∀ i ≤ n, Retryable outcomes i) :
    ¬ ∃ j ≤ n, Decides outcomes j ∧ p j := by
  rintro ⟨j, hj, hdecides, -⟩
  exact hdecides.1 (h j hj)

/-- A deciding 401 is not the first one. -/
theorem Decides.second (h : Decides outcomes i) (h401 : (outcomes i).status = some 401) :
    ∃ j < i, (outcomes j).status = some 401 := by
  by_contra hfirst
  push Not at hfirst
  refine h.1 (Or.inr ⟨?_, fun j hj => ?_⟩)
  · cases ho : outcomes i with
    | error kind =>
      rw [ho] at h401
      cases h401
    | ok response =>
      rw [ho] at h401
      exact decide_eq_true (Option.some.inj h401)
  · cases ho : outcomes j with
    | error kind => rfl
    | ok response =>
      have hne := hfirst j hj
      rw [ho] at hne
      exact decide_eq_false fun heq => hne (congrArg some heq)

end Ending

/-- The result of a call with a budget of `n` retries is the one these outcomes call for. -/
structure CalledFor (n : ℕ) (outcomes : ℕ → Outcome) (result : Except Exc Response) : Prop where
  returned : ∀ response, result = .ok response ↔ ∃ i ≤ n, Decides outcomes i ∧
    outcomes i = .ok response ∧ 200 ≤ response.status_code ∧ response.status_code < 300
  authorization : (∃ message, result = .error (.d365 .authorization message)) ↔
    ∃ i ≤ n, Decides outcomes i ∧ (outcomes i).status = some 403
  authentication : (∃ message, result = .error (.d365 .authentication message)) ↔
    ∃ i ≤ n, Decides outcomes i ∧ (outcomes i).status = some 401 ∧
      ∃ j < i, (outcomes j).status = some 401
  unavailable : ∀ i ≤ n, Decides outcomes i → ∀ status, (outcomes i).status = some status →
    ¬ (200 ≤ status ∧ status < 300) → status ≠ 401 → status ≠ 403 →
    ∃ message, result = .error (.d365 .unavailable message)
  exhausted : (∀ i ≤ n, Retryable outcomes i) →
    if (outcomes n).status = some 429 then ∃ message, result = .error (.d365 .rateLimit message)
    else ∃ message, result = .error (.d365 .unavailable message)

section CalledFor

variable {n : ℕ} {outcomes : ℕ → Outcome} {i : ℕ}

theorem conclusion_eq_ok {o : Outcome} {response : Response} :
    o.conclusion = .ok response ↔
      o = .ok response ∧ 200 ≤ response.status_code ∧ response.status_code < 300 := by
  cases o with
  | error kind => simp [Outcome.conclusion]
  | ok r =>
    constructor
    · intro heq
      rw [Outcome.conclusion] at heq
      split_ifs at heq with h401 h403 hok
      obtain rfl := Except.ok.inj heq
      exact ⟨rfl, hok⟩
    · rintro ⟨heq, hlow, hhigh⟩
      obtain rfl := Except.ok.inj heq
      rw [Outcome.conclusion, if_neg (by omega), if_neg (by omega), if_pos ⟨hlow, hhigh⟩]

/-- A 2xx answer is not worth another attempt. -/
theorem not_retryable_of_ok {response : Response} (h : outcomes i = .ok response)
    (hok : 200 ≤ response.status_code ∧ response.status_code < 300) : ¬ Retryable outcomes i := by
  rintro (hpassing | ⟨hrejected, -⟩)
  · rw [h] at hpassing
    simp only [Outcome.isPassing, Bool.or_eq_true, decide_eq_true_eq] at hpassing
    omega
  · rw [h] at hrejected
    have h401 : response.status_code = 401 := of_decide_eq_true hrejected
    omega

theorem calledFor_of_decides (hi : i ≤ n) (h : Decides outcomes i) :
    CalledFor n outcomes (outcomes i).conclusion := by
  refine ⟨fun response => ?_, ?_, ?_, ?_, fun hall => absurd (hall i hi) h.1⟩
  · rw [exists_decides_iff hi h]
    exact conclusion_eq_ok
  · rw [exists_decides_iff hi h]
    cases outcomes i with
    | error kind => simp [Outcome.conclusion, Outcome.status]
    | ok r =>
      simp only [Outcome.conclusion, Outcome.status]
      split_ifs with h401 h403 hok
      · simp [h401]
      · simp [h403]
      · simp [h403]
      · simp [h403]
  · rw [exists_decides_iff hi h]
    -- a 401 that decides is never the first one
    have hsecond : (outcomes i).status = some 401 ∧ (∃ j < i, (outcomes j).status = some 401) ↔
        (outcomes i).status = some 401 := and_iff_left_of_imp h.second
    rw [hsecond]
    cases outcomes i with
    | error kind => simp [Outcome.conclusion, Outcome.status]
    | ok r =>
      simp only [Outcome.conclusion, Outcome.status]
      split_ifs with h401 h403 hok
      · simp [h401]
      · simp [h403]
      · simp [h401]
      · simp [h401]
  · intro j hj hdecides status hstatus hnot h401 h403
    obtain rfl := h.unique hdecides
    cases ho : outcomes i with
    | error kind =>
      rw [ho] at hstatus
      cases hstatus
    | ok r =>
      rw [ho] at hstatus
      obtain rfl := Option.some.inj hstatus
      exact ⟨_, by rw [Outcome.conclusion, if_neg h401, if_neg h403, if_neg hnot]⟩

theorem calledFor_of_exhausted (h : ∀ i ≤ n, Retryable outcomes i) :
    CalledFor n outcomes (.error (outcomes n).exhaustion) := by
  have hkind : (outcomes n).status = some 429 ∧
        (∃ message, (outcomes n).exhaustion = .d365 .rateLimit message) ∨
      (outcomes n).status ≠ some 429 ∧
        ∃ message, (outcomes n).exhaustion = .d365 .unavailable message := by
    cases outcomes n with
    | error kind => exact Or.inr ⟨by simp [Outcome.status], _, rfl⟩
    | ok r =>
      by_cases h429 : r.status_code = 429
      · exact Or.inl ⟨congrArg some h429, _, if_pos h429⟩
      · refine Or.inr ⟨by simpa [Outcome.status] using h429, ?_⟩
        rw [Outcome.exhaustion, if_neg h429]
        split_ifs
        · exact ⟨_, rfl⟩
        · exact ⟨_, rfl⟩
  refine ⟨fun response => ?_, ?_, ?_, ?_, fun _ => ?_⟩
  · rw [iff_false_right (not_exists_decides h)]
    simp
  · rw [iff_false_right (not_exists_decides h)]
    rcases hkind with ⟨-, m, hm⟩ | ⟨-, m, hm⟩ <;> simp [hm]
  · rw [iff_false_right (not_exists_decides h)]
    rcases hkind with ⟨-, m, hm⟩ | ⟨-, m, hm⟩ <;> simp [hm]
  · intro j hj hdecides
    exact absurd (h j hj) hdecides.1
  · rcases hkind with ⟨h429, m, hm⟩ | ⟨h429, m, hm⟩
    · rw [if_pos h429]
      exact ⟨m, by rw [hm]⟩
    · rw [if_neg h429]
      exact ⟨m, by rw [hm]⟩

end CalledFor

/-! ## Waits that cannot be worked out -/

section Waits

variable {n : ℕ} {outcomes : ℕ → Outcome} {i : ℕ}

/-- An exception decides, and not a response: one that is neither a timeout nor a network
error. -/
def Unanswered (n : ℕ) (outcomes : ℕ → Outcome) : Prop :=
  ∃ i ≤ n, Decides outcomes i ∧ (outcomes i).status = none

theorem exists_decides (h : ¬ ∀ i ≤ n, Retryable outcomes i) : ∃ i ≤ n, Decides outcomes i := by
  classical
  push Not at h
  obtain ⟨i, hi, hnot⟩ := h
  have hfound : ∃ i, ¬ Retryable outcomes i := ⟨i, hnot⟩
  refine ⟨Nat.find hfound, (Nat.find_min' hfound hnot).trans hi, Nat.find_spec hfound, ?_⟩
  exact fun j hj => not_not.mp (Nat.find_min hfound hj)

/-- Where a response decides or none is left to, some error of D365 or that response is due. -/
theorem unanswered_of_calledFor {e : Exc} (he : ¬ e.IsD365)
    (h : CalledFor n outcomes (.error e)) : Unanswered n outcomes := by
  have hnot : ∀ kind, ¬ ∃ message, (.error e : Except Exc Response) = .error (.d365 kind message) :=
    fun kind ⟨message, heq⟩ => he ⟨kind, message, Except.error.inj heq⟩
  by_cases hall : ∀ i ≤ n, Retryable outcomes i
  · have hexhausted := h.exhausted hall
    split_ifs at hexhausted
    · exact absurd hexhausted (hnot _)
    · exact absurd hexhausted (hnot _)
  · obtain ⟨i, hi, hdecides⟩ := exists_decides hall
    cases ho : outcomes i with
    | error kind => exact ⟨i, hi, hdecides, by rw [ho, Outcome.status]⟩
    | ok response =>
      have hstatus : (outcomes i).status = some response.status_code := by rw [ho, Outcome.status]
      by_cases hok : 200 ≤ response.status_code ∧ response.status_code < 300
      · cases (h.returned response).mpr ⟨i, hi, hdecides, ho, hok⟩
      by_cases h403 : response.status_code = 403
      · exact absurd (h.authorization.mpr ⟨i, hi, hdecides, h403 ▸ hstatus⟩) (hnot _)
      by_cases h401 : response.status_code = 401
      · rw [h401] at hstatus
        exact absurd (h.authentication.mpr ⟨i, hi, hdecides, hstatus, hdecides.second hstatus⟩)
          (hnot _)
      · exact absurd (h.unavailable i hi hdecides _ hstatus hok h401 h403) (hnot _)

theorem calledFor_of_unanswered {e : Exc} (he : ¬ e.IsD365) (h : Unanswered n outcomes) :
    CalledFor n outcomes (.error e) := by
  have hnot : ∀ kind, ¬ ∃ message, (.error e : Except Exc Response) = .error (.d365 kind message) :=
    fun kind ⟨message, heq⟩ => he ⟨kind, message, Except.error.inj heq⟩
  obtain ⟨i, hi, hdecides, hnone⟩ := h
  refine ⟨fun response => ?_, ?_, ?_, fun j hj hj' => ?_, fun hall => absurd (hall i hi) hdecides.1⟩
  · rw [exists_decides_iff hi hdecides]
    refine iff_of_false (fun heq => by cases heq) fun heq => ?_
    rw [heq.1] at hnone
    cases hnone
  · rw [exists_decides_iff hi hdecides, hnone]
    exact iff_of_false (hnot _) fun heq => by cases heq
  · rw [exists_decides_iff hi hdecides, hnone]
    exact iff_of_false (hnot _) fun heq => by cases heq.1
  · obtain rfl := hdecides.unique hj'
    rw [hnone]
    exact fun status hstatus => by cases hstatus

variable [HeaderData]

/-- Every wait that the call gets to can be worked out. -/
def Unhindered (n : ℕ) (outcomes : ℕ → Outcome) : Prop :=
  ∀ i < n, (∀ j < i, Retryable outcomes j) → (outcomes i).isPassing = true →
    Workable ((outcomes i).delay i)

/-- Past the outcome that decides there is no wait. -/
theorem unhindered_of_decides (h : Decides outcomes i)
    (hpast : ∀ j < i, (outcomes j).isPassing = true → Workable ((outcomes j).delay j)) :
    Unhindered n outcomes := by
  intro j _ hretryable hpassing
  rcases lt_trichotomy j i with hlt | rfl | hgt
  · exact hpast j hlt hpassing
  · exact absurd (Or.inl hpassing) h.1
  · exact absurd (hretryable i hgt) h.1

/-- **The result is the one the outcomes call for**, whatever the budget and however the GETs
end, if and only if every wait the call gets to can be worked out, or no response decides. -/
theorem get_calledFor_iff (n : ℕ) (tokens : ℕ → String) (outcomes : ℕ → Outcome) (clock : ℕ → ℚ)
    (path : String) (params : Option (Dict String)) (accept : Option String) :
    CalledFor n outcomes (getOn (.issuing tokens outcomes clock) n path params accept) ↔
      Unhindered n outcomes ∨ Unanswered n outcomes := by
  obtain ⟨i, hi, hpast, hends⟩ := getOn_endsAt (t := .issuing tokens outcomes clock) (n := n)
    path params accept
  generalize getOn (.issuing tokens outcomes clock) n path params accept = result at hends ⊢
  cases hends with
  | refused h => cases h
  | decided _ h =>
    have hdecides : Decides outcomes i := ⟨h, fun j hj => (hpast j hj).retryable⟩
    refine iff_of_true (calledFor_of_decides hi hdecides) (Or.inl ?_)
    exact unhindered_of_decides hdecides fun j hj => (hpast j hj).workable
  | failed _ hpassing hlt hwait =>
    have hforeign := secondsOf_foreign hwait
    have hhindered : ¬ Unhindered n outcomes := fun h => not_workable_of_error hwait
      (h i hlt (fun j hj => (hpast j hj).retryable) hpassing)
    rw [or_iff_right hhindered]
    exact ⟨unanswered_of_calledFor hforeign, calledFor_of_unanswered hforeign⟩
  | exhausted _ h =>
    have hall : ∀ j ≤ n, Retryable outcomes j := by
      intro j hj
      rcases Nat.lt_or_eq_of_le hj with hlt | rfl
      · exact (hpast j hlt).retryable
      · exact h
    exact iff_of_true (calledFor_of_exhausted hall)
      (Or.inl fun j hj _ => (hpast j hj).workable)

end Waits

section Example

open scoped Ascii

/-- A 429 with a date whose year does not fit a C int, and then an answer. -/
def overflowing : ℕ → Outcome
  | 0 => .ok { status_code := 429, retry_after := some "Mon, 01 Jan 99999999999 00:00:00 GMT" }
  | _ => .ok { status_code := 200 }

/-- The exception of the date ends the call, which a retry would have answered. -/
theorem overflowing_not_calledFor :
    let _ := exampleHeaders
    let result := getOn (.issuing (fun _ => "t") overflowing fun _ => 0) 1 "WorkersV2" none none
    result = .error (.other "OverflowError") ∧ ¬ CalledFor 1 overflowing result := by
  intro _ result
  have hresult : result = .error (.other "OverflowError") := rfl
  refine ⟨hresult, fun h => ?_⟩
  have hdecides : Decides overflowing 1 := by
    refine ⟨not_retryable_of_ok rfl (by decide), fun j hj => ?_⟩
    obtain rfl : j = 0 := by omega
    exact Or.inl rfl
  have hreturned := (h.returned { status_code := 200 }).mpr
    ⟨1, le_rfl, hdecides, rfl, by decide, by decide⟩
  rw [hresult] at hreturned
  cases hreturned

end Example

end D365Client

end EmployeePortal.D365
