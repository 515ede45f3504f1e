import EmployeePortal.D365.RetryDelay
import EmployeePortal.D365.RetryProtocol
import Mathlib.Algebra.Order.BigOperators.Group.List
import Mathlib.Tactic.Linarith

/-!
# How long the server can make a call wait

`Retry-After` comes from the remote side. The wait it asks for is clamped to half a minute,
by comparisons that NaN passes through, and its date is parsed by a function that raises
more than the two exceptions that are caught. Apart from these two, no header gets past
the clamp.
-/

namespace EmployeePortal.D365

open EmployeePortal.Python EmployeePortal.Framework

namespace D365Client

/-! ## One wait -/

/-- A real number of seconds from 0 to 30, and no exception. -/
def Bounded (delay : Except Exc PyFloat) : Prop :=
  ∃ d : ℚ, delay = .ok (.ofRat d) ∧ 0 ≤ d ∧ d ≤ 30

theorem clamp_nan : clamp none = none := rfl

theorem clamp_ofRat (q : ℚ) : ∃ d, clamp (.ofRat q) = .ofRat d ∧ 0 ≤ d ∧ d ≤ 30 := by
  refine ⟨min (max q 0) 30, ?_, ?_, min_le_right _ _⟩
  · rw [clamp, PyFloat.max_ofRat, PyFloat.min_ofRat]
  · exact le_min (le_max_right _ _) (by norm_num)

/-- Everything else than NaN ends between the bounds, the infinities too. -/
theorem clamp_of_ne_nan {x : PyFloat} (h : x ≠ none) :
    ∃ d, clamp x = .ofRat d ∧ 0 ≤ d ∧ d ≤ 30 := by
  match x, h with
  | none, h => exact absurd rfl h
  | some none, _ => exact ⟨0, rfl, le_rfl, by norm_num⟩
  | some (some none), _ => exact ⟨30, rfl, by norm_num, le_rfl⟩
  | some (some (some q)), _ => exact clamp_ofRat q

/-- The two exponential waits, while the power of two is a float. -/
theorem bounded_scaled {factor : ℚ} (hfactor : 0 ≤ factor) {attempt : ℕ} (h : attempt < 1000) :
    Bounded (do return (← PyFloat.scaled factor attempt).min (.ofRat 4)) := by
  have hnonneg : 0 ≤ factor * 2 ^ attempt := mul_nonneg hfactor (pow_nonneg (by norm_num) _)
  refine ⟨min (factor * 2 ^ attempt) 4, ?_, le_min hnonneg (by norm_num), ?_⟩
  · rw [PyFloat.scaled, if_pos (by omega), ← PyFloat.min_ofRat]
    rfl
  · exact (min_le_right _ _).trans (by norm_num)

section Headers

variable [HeaderData]

/-- The header is no spelling of NaN, and where it is no number, parsing it as a date raises
nothing that is not caught. -/
def Tame (retry_after : Option String) : Prop :=
  ∀ value, truthy retry_after = some value →
    HeaderData.float value ≠ some none ∧
      (HeaderData.float value = none →
        ∀ e, HeaderData.parsedateToDatetime value = .error e → dateCatches e = true)

theorem retryDelay_bounded_iff (now : ℚ) (retry_after : Option String) {attempt : ℕ}
    (h : attempt < 1000) : Bounded (retryDelay now retry_after attempt) ↔ Tame retry_after := by
  have hdefault : Bounded (defaultDelay attempt) := bounded_scaled (by norm_num) h
  unfold retryDelay Tame
  cases truthy retry_after with
  | none => exact iff_of_true hdefault fun value hvalue => by cases hvalue
  | some value =>
    simp only [Option.some.injEq, forall_eq']
    -- a number is clamped; a date is, or raises
    cases hfloat : HeaderData.float value with
    | some seconds =>
      cases seconds with
      | none =>
        refine iff_of_false ?_ fun hnan => hnan.1 rfl
        rintro ⟨d, hd, -⟩
        cases clamp_nan.symm.trans (Except.ok.inj hd)
      | some x =>
        obtain ⟨d, hd, hbounds⟩ := clamp_of_ne_nan (Option.some_ne_none x)
        exact iff_of_true ⟨d, congrArg Except.ok hd, hbounds⟩ ⟨by simp, by simp⟩
    | none =>
      cases hdate : HeaderData.parsedateToDatetime value with
      | ok retry_at =>
        obtain ⟨d, hd, hbounds⟩ := clamp_ofRat (secondsUntil now retry_at)
        exact iff_of_true ⟨d, congrArg Except.ok hd, hbounds⟩ ⟨by simp, by simp⟩
      | error e =>
        dsimp only
        by_cases hcaught : dateCatches e = true
        · rw [if_pos hcaught]
          exact iff_of_true hdefault ⟨by simp, by simpa using hcaught⟩
        · rw [if_neg hcaught]
          refine iff_of_false ?_ fun htame => hcaught (htame.2 rfl e rfl)
          rintro ⟨d, hd, -⟩
          cases hd

end Headers

/-! ## The waits of one call -/

/-- A call that waits, and for how long. -/
def Call.delay? : Call → Option Delay
  | ⟨.sleep delay, _⟩ => some delay
  | _ => none

def waits (trace : List Call) : List Delay := trace.filterMap Call.delay?

theorem length_waits (trace : List Call) :
    (waits trace).length = trace.countP (·.1.kind = .sleep) := by
  induction trace with
  | nil => rfl
  | cons c trace ih =>
    obtain ⟨o, answer⟩ := c
    cases o with
    | sleep delay =>
      show (delay :: waits trace).length = _
      rw [List.length_cons, ih, List.countP_cons_of_pos (by simp)]
    | _ =>
      show (waits trace).length = _
      rw [ih, List.countP_cons_of_neg (by simp)]

/-- A wait is one of the two exponential ones, or what a 429 asks for. -/
theorem verdict_delay {max_retries : ℤ} {attempt : ℕ} {refreshed : Bool}
    {outcome : Except Exc Response} {delay : Delay}
    (h : verdict max_retries attempt refreshed outcome = .wait delay) :
    delay = .backoff attempt ∨ ∃ response, outcome = .ok response ∧
      response.status_code = 429 ∧ delay = .retryDelay response.retry_after attempt := by
  unfold verdict at h
  split at h
  · split at h
    · cases h
    · exact Or.inl (Verdict.wait.inj h).symm
  · split at h
    · cases h
    · exact Or.inl (Verdict.wait.inj h).symm
  · cases h
  · rename_i response
    split_ifs at h with h401 h401' h403 h429 hlast h500 hlast'
    · exact Or.inr ⟨response, rfl, h429, (Verdict.wait.inj h).symm⟩
    · exact Or.inl (Verdict.wait.inj h).symm

theorem verdict_rateLimited {max_retries : ℤ} {attempt : ℕ} {refreshed : Bool}
    {response : Response} (h429 : response.status_code = 429) :
    verdict max_retries attempt refreshed (.ok response) =
      if max_retries ≤ attempt then
        .done (.error (.d365 .rateLimit "D365 rate limit retry budget was exhausted"))
      else .wait (.retryDelay response.retry_after attempt) := by
  simp [verdict, h429]

/-- A 429 of a trace that is waited for: the call goes on after it. -/
def RateLimited (trace : List Call) (response : Response) : Prop :=
  response.status_code = 429 ∧ ∃ request, (⟨.get request, .ok response⟩ : Call) ∈ trace.dropLast

theorem RateLimited.cons {trace : List Call} {response : Response} (h : RateLimited trace response)
    (c : Call) : RateLimited (c :: trace) response := by
  obtain ⟨h429, request, hmem⟩ := h
  refine ⟨h429, request, ?_⟩
  rw [List.dropLast_cons_of_ne_nil (by rintro rfl; cases hmem)]
  exact List.mem_cons_of_mem _ hmem

theorem not_rateLimited_nil {response : Response} : ¬ RateLimited [] response := by
  rintro ⟨-, request, hmem⟩
  cases hmem

/-- A GET with others behind it. -/
theorem rateLimited_of_get {request : GetRequest} {response : Response} {c : Call}
    {trace : List Call} (h429 : response.status_code = 429) :
    RateLimited (⟨.get request, .ok response⟩ :: c :: trace) response :=
  ⟨h429, request, List.mem_cons_self⟩

theorem RateLimited.head_or_tail {c : Call} {trace : List Call} {response : Response}
    (h : RateLimited (c :: trace) response) :
    (response.status_code = 429 ∧ ∃ request, c = ⟨.get request, .ok response⟩) ∨
      RateLimited trace response := by
  obtain ⟨h429, request, hmem⟩ := h
  cases trace with
  | nil => cases hmem
  | cons c' trace =>
    rcases List.mem_cons.mp hmem with heq | hmem
    · exact Or.inl ⟨h429, request, heq.symm⟩
    · exact Or.inr ⟨h429, request, hmem⟩

theorem RateLimited.tail {c : Call} {trace : List Call} {response : Response}
    (hc : c.1.kind ≠ .get) (h : RateLimited (c :: trace) response) :
    RateLimited trace response := by
  refine h.head_or_tail.resolve_left ?_
  rintro ⟨-, request, rfl⟩
  exact hc rfl

/-- A wait of a trace: before the last attempt, and for as long as a header of that trace
says where a header says it. -/
def Grounded (n : ℕ) (trace : List Call) (delay : Delay) : Prop :=
  ∃ attempt < n, delay = .backoff attempt ∨ ∃ response,
    RateLimited trace response ∧ delay = .retryDelay response.retry_after attempt

theorem Grounded.cons {n : ℕ} {trace : List Call} {delay : Delay} (h : Grounded n trace delay)
    (c : Call) : Grounded n (c :: trace) delay := by
  obtain ⟨attempt, hlt, hbackoff | ⟨response, hlimited, hdelay⟩⟩ := h
  · exact ⟨attempt, hlt, Or.inl hbackoff⟩
  · exact ⟨attempt, hlt, Or.inr ⟨response, hlimited.cons c, hdelay⟩⟩

theorem attempts_grounded {n : ℕ} {request : String → GetRequest} {is : List ℕ} {b f : Bool}
    {es : List Call} {x : Except Exc Response} (h : (attempts calls n request is b f).Run es x) :
    ∀ delay ∈ waits es, Grounded n es delay := by
  induction is generalizing b f es with
  | nil =>
    obtain ⟨rfl, -⟩ := h
    exact fun delay hdelay => absurd hdelay List.not_mem_nil
  | cons i is ih =>
    rcases attempts_run_cons h with ⟨e, rfl⟩ | ⟨token, outcome, es', rfl, hnext⟩
    · exact fun delay hdelay => absurd hdelay List.not_mem_nil
    have hlater : ∀ {b' f' c es''}, (attempts calls n request is b' f').Run es'' x →
        ∀ delay ∈ waits es'', Grounded n (⟨.getAccessToken f, .ok token⟩ ::
          ⟨.get (request token), outcome⟩ :: c :: es'') delay := by
      intro b' f' c es'' hrest delay hdelay
      exact (((ih hrest delay hdelay).cons _).cons _).cons _
    cases hv : verdict n i b outcome with
    | done result =>
      rw [hv] at hnext
      obtain rfl := hnext
      exact fun delay hdelay => absurd hdelay List.not_mem_nil
    | wait delay =>
      rw [hv] at hnext
      have hgrounded : ∀ c es'', Grounded n (⟨.getAccessToken f, .ok token⟩ ::
          ⟨.get (request token), outcome⟩ :: c :: es'') delay := by
        intro c es''
        refine ⟨i, Int.ofNat_lt.mp (verdict_wait hv).2, (verdict_delay hv).imp_right ?_⟩
        rintro ⟨response, rfl, h429, hdelay⟩
        exact ⟨response, (rateLimited_of_get h429).cons _, hdelay⟩
      rcases hnext with ⟨es'', rfl, hrest⟩ | ⟨e, rfl⟩
      · intro delay' hdelay'
        rcases List.mem_cons.mp hdelay' with rfl | hmem
        · exact hgrounded _ _
        · exact hlater hrest delay' hmem
      · intro delay' hdelay'
        obtain rfl := List.mem_singleton.mp hdelay'
        exact hgrounded _ _
    | renew =>
      rw [hv] at hnext
      obtain ⟨answer, es'', rfl, hrest⟩ := hnext
      exact hlater hrest

/-- Every 429 that the call goes on after is waited for. -/
theorem attempts_waited {n : ℕ} {request : String → GetRequest} {is : List ℕ} {b f : Bool}
    {es : List Call} {x : Except Exc Response} (h : (attempts calls n request is b f).Run es x)
    {response : Response} (hlimited : RateLimited es response) :
    ∃ attempt < n, .retryDelay response.retry_after attempt ∈ waits es := by
  induction is generalizing b f es with
  | nil =>
    obtain ⟨rfl, -⟩ := h
    exact absurd hlimited not_rateLimited_nil
  | cons i is ih =>
    rcases attempts_run_cons h with ⟨e, rfl⟩ | ⟨token, outcome, es', rfl, hnext⟩
    · exact absurd (hlimited.tail (by simp)) not_rateLimited_nil
    have hget : RateLimited (⟨.get (request token), outcome⟩ :: es') response :=
      hlimited.tail (by simp)
    -- a token request and a GET add no wait
    have hwaits : waits (⟨.getAccessToken f, .ok token⟩ :: ⟨.get (request token), outcome⟩ ::
        es') = waits es' := rfl
    rw [hwaits]
    cases hv : verdict n i b outcome with
    | done result =>
      rw [hv] at hnext
      obtain rfl := hnext
      obtain ⟨-, request', hmem⟩ := hget
      cases hmem
    | wait delay =>
      rw [hv] at hnext
      have hdelay : delay ∈ waits es' := by
        rcases hnext with ⟨es'', rfl, -⟩ | ⟨e, rfl⟩
        · exact List.mem_cons_self
        · exact List.mem_cons_self
      rcases hget.head_or_tail with ⟨h429, request', heq⟩ | hrest
      · cases heq
        refine ⟨i, Int.ofNat_lt.mp (verdict_wait hv).2, ?_⟩
        rw [verdict_rateLimited h429] at hv
        split_ifs at hv
        exact Verdict.wait.inj hv ▸ hdelay
      · rcases hnext with ⟨es'', rfl, hrun⟩ | ⟨e, rfl⟩
        · obtain ⟨attempt, hlt, hmem⟩ := ih hrun (hrest.tail (by simp))
          exact ⟨attempt, hlt, List.mem_cons_of_mem _ hmem⟩
        · exact absurd (hrest.tail (by simp)) not_rateLimited_nil
    | renew =>
      rw [hv] at hnext
      obtain ⟨answer, es'', rfl, hrun⟩ := hnext
      rcases hget.head_or_tail with ⟨h429, request', heq⟩ | hrest
      · cases heq
        rw [verdict_rateLimited h429] at hv
        split_ifs at hv
      · have hnone : waits (⟨.invalidate, answer⟩ :: es'') = waits es'' := rfl
        rw [hnone]
        exact ih hrun (hrest.tail (by simp))

section Total

variable [HeaderData]

/-- Every wait can be worked out at any time and is bounded, and together they last no longer
than half a minute for each retry. -/
structure WaitsBounded (n : ℕ) (trace : List Call) : Prop where
  each : ∀ delay ∈ waits trace, ∀ now, Bounded (secondsOf now delay)
  total : ∀ seconds : List ℚ, List.Forall₂ (fun delay d => ∃ now,
    secondsOf now delay = .ok (.ofRat d)) (waits trace) seconds → seconds.sum ≤ 30 * n

theorem sum_le_of_bounded {delays : List Delay} {seconds : List ℚ}
    (hbounded : ∀ delay ∈ delays, ∀ now, Bounded (secondsOf now delay))
    (hlast : List.Forall₂ (fun delay d => ∃ now, secondsOf now delay = .ok (.ofRat d))
      delays seconds) : seconds.sum ≤ 30 * delays.length := by
  induction hlast with
  | nil => simp
  | @cons delay d delays seconds hd hrest ih =>
    obtain ⟨now, hnow⟩ := hd
    obtain ⟨d', hd', -, hle⟩ := hbounded delay List.mem_cons_self now
    obtain rfl := PyFloat.ofRat_injective (Except.ok.inj (hnow.symm.trans hd'))
    have htail := ih fun delay' hmem => hbounded delay' (List.mem_cons_of_mem _ hmem)
    rw [List.sum_cons, List.length_cons]
    push_cast
    linarith

/-- The headers of the 429s that a trace waits for. -/
def TameHeaders (trace : List Call) : Prop :=
  ∀ response, RateLimited trace response → Tame response.retry_after

theorem get_waitsBounded_iff {n : ℕ} (hn : n ≤ 1000) {path : String}
    {params : Option (Dict String)} {accept : Option String} {trace : List Call}
    {x : Except Exc Response} (hrun : (get calls n path params accept).Run trace x) :
    WaitsBounded n trace ↔ TameHeaders trace := by
  have hattempts : ((n : ℤ) + 1).toNat = n + 1 := by omega
  rw [get, hattempts, List.range_eq_range'] at hrun
  constructor
  · intro h response hlimited
    obtain ⟨attempt, hlt, hmem⟩ := attempts_waited hrun hlimited
    exact (retryDelay_bounded_iff 0 _ (by omega)).mp (h.each _ hmem 0)
  · intro htame
    have heach : ∀ delay ∈ waits trace, ∀ now, Bounded (secondsOf now delay) := by
      intro delay hdelay now
      obtain ⟨attempt, hlt, rfl | ⟨response, hlimited, rfl⟩⟩ :=
        attempts_grounded hrun delay hdelay
      · exact bounded_scaled (by norm_num) (by omega)
      · exact (retryDelay_bounded_iff now _ (by omega)).mpr (htame response hlimited)
    refine ⟨heach, fun seconds hlast => (sum_le_of_bounded heach hlast).trans ?_⟩
    have hcount := rounds_sleeps (attempts_rounds (fun _ => rfl) (Nat.zero_add _) hrun)
    rw [← length_waits] at hcount
    have hcast : ((waits trace).length : ℚ) ≤ n := by exact_mod_cast hcount
    linarith

/-- **What the server can dictate.** Whatever the header, the time and the attempt: the wait
is a number of seconds from 0 to 30 exactly when the header is no spelling of NaN and its
date, where it is no number, raises nothing that is not caught. On every call all the waits are
bounded, and so is their sum, exactly when each 429 that is waited for carries such a header. -/
theorem retryDelay_and_total_bounded :
    (∀ (now : ℚ) (retry_after : Option String) (attempt : ℕ), attempt < 1000 →
      (Bounded (retryDelay now retry_after attempt) ↔ Tame retry_after)) ∧
    ∀ n : ℕ, n ≤ 1000 → ∀ path params accept (trace : List Call) (x : Except Exc Response),
      (get calls n path params accept).Run trace x → (WaitsBounded n trace ↔ TameHeaders trace) :=
  ⟨fun now retry_after _ h => retryDelay_bounded_iff now retry_after h,
    fun _ hn _ _ _ _ _ hrun => get_waitsBounded_iff hn hrun⟩

end Total

/-! ## Headers of a server -/

section Example

open scoped Ascii

theorem parse_nan : PyFloat.parse "nan" = some none := by decide +kernel

theorem parse_hour : PyFloat.parse "3600" = some (.ofRat 3600) := by decide +kernel

theorem retryDelay_nan : @retryDelay exampleHeaders 0 (some "nan") 0 = .ok none := by
  have hfloat : exampleHeaders.float "nan" = some none := parse_nan
  unfold retryDelay
  rw [show truthy (some "nan") = some "nan" from rfl]
  dsimp only
  rw [hfloat]
  rfl

/-- `nan` is returned as it is, and the date raises an exception that nobody catches. -/
theorem not_retryDelay_bounded :
    let _ := exampleHeaders
    retryDelay 0 (some "nan") 0 = .ok none ∧
      retryDelay 0 (some "Mon, 01 Jan 99999999999 00:00:00 GMT") 0 =
        .error (.other "OverflowError") ∧
      ¬ ∀ (now : ℚ) (retry_after : Option String) (attempt : ℕ), attempt < 1000 →
        Bounded (retryDelay now retry_after attempt) := by
  intro _
  refine ⟨retryDelay_nan, by decide +kernel, fun hall => ?_⟩
  obtain ⟨d, hd, -⟩ := hall 0 (some "nan") 0 (by decide)
  rw [retryDelay_nan] at hd
  cases hd

theorem tame_hour : @Tame exampleHeaders (some "3600") := by
  intro value hvalue
  obtain ⟨heq, -⟩ := truthy_eq_some.mp hvalue
  obtain rfl := Option.some.inj heq
  have hfloat : exampleHeaders.float "3600" = some (.ofRat 3600) := parse_hour
  rw [hfloat]
  exact ⟨by simp [PyFloat.ofRat], by simp⟩

/-- A 429 that asks for an hour, and an answer, with one retry. -/
def hourTrace : List Call :=
  [⟨.getAccessToken false, .ok "t"⟩,
    ⟨.get ⟨"$metadata", none, "t", none⟩, .ok ⟨429, some "3600", .ok .null⟩⟩,
    ⟨.sleep (.retryDelay (some "3600") 0), .ok ()⟩,
    ⟨.getAccessToken false, .ok "t"⟩,
    ⟨.get ⟨"$metadata", none, "t", none⟩, .ok ⟨200, none, .ok .null⟩⟩]

theorem hour_bounded :
    let _ := exampleHeaders
    Bounded (retryDelay 0 (some "3600") 0) ∧ WaitsBounded 1 hourTrace := by
  intro _
  obtain ⟨hdelay, htotal⟩ := retryDelay_and_total_bounded
  refine ⟨(hdelay 0 (some "3600") 0 (by decide)).mpr tame_hour, ?_⟩
  have hdrive : Prog.drive answerGets (get calls (1 : ℕ) "$metadata" none none)
      (List.replicate 3 (.ok ⟨429, some "3600", .ok .null⟩) ++
        List.replicate 2 (.ok ⟨200, none, .ok .null⟩)) = some (hourTrace, _) := rfl
  refine (htotal 1 (by decide) _ _ _ _ _ (Prog.drive_run hdrive)).mpr ?_
  rintro response ⟨h429, request, hmem⟩
  have hheader : response.retry_after = some "3600" := by
    simp only [hourTrace, List.dropLast_cons_cons, List.dropLast_singleton, List.mem_cons,
      List.not_mem_nil, or_false] at hmem
    rcases hmem with h | h | h | h
    · cases h
    · cases h
      rfl
    · cases h
    · cases h
  rw [hheader]
  exact tame_hour

end Example

end D365Client

end EmployeePortal.D365
