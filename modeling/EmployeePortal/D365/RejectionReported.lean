import EmployeePortal.D365.RetryOutcomes

/-!
# When a 401 is reported as one

The token is dropped after a first 401, and the attempt that follows it counts against
the budget like any other. So a 401 that is reached is refreshed and reported as an
authentication error exactly when a later attempt still hears from D365.
-/

namespace EmployeePortal.D365

open EmployeePortal.Python EmployeePortal.Framework

namespace D365Client

/-! ## What a call owes its 401s -/

/-- The response a call received. -/
def Call.received : Call → Option Response
  | ⟨.get _, .ok response⟩ => some response
  | _ => none

def lastReceived (trace : List Call) : Option Response := trace.reverse.findSome? Call.received

/-- What follows the first 401. -/
def afterRejection : List Call → Option (List Call)
  | [] => none
  | c :: trace => if c.rejected then some trace else afterRejection trace

/-- The next GET is sent with a token that was asked for by force. -/
def RenewedNext (future : List Call) : Prop :=
  ∃ pre token request outcome rest,
    future = pre ++ ⟨.getAccessToken true, .ok token⟩ :: ⟨.get request, outcome⟩ :: rest ∧
    request.token = token ∧ ∀ c ∈ pre, c.1.kind ≠ .get

/-- The first 401 is followed by a GET with a renewed token, and a call that hears a 401
last ends in an authentication error. -/
structure RejectionHeeded (trace : List Call) (result : Except Exc Response) : Prop where
  refreshed : ∀ future, afterRejection trace = some future → RenewedNext future
  reported : ∀ response, lastReceived trace = some response → response.status_code = 401 →
    ∃ message, result = .error (.d365 .authentication message)

theorem lastReceived_append (es es' : List Call) :
    lastReceived (es ++ es') = (lastReceived es').or (lastReceived es) := by
  rw [lastReceived, List.reverse_append, List.findSome?_append]
  rfl

theorem afterRejection_append {es : List Call} (h : ∀ c ∈ es, c.rejected = false)
    (es' : List Call) : afterRejection (es ++ es') = afterRejection es' := by
  induction es with
  | nil => rfl
  | cons c es ih =>
    rw [List.cons_append, afterRejection, h c List.mem_cons_self, if_neg Bool.false_ne_true]
    exact ih fun c' hc' => h c' (List.mem_cons_of_mem _ hc')

theorem rejected_of_received {c : Call} {response : Response} (h : c.received = some response)
    (h401 : response.status_code = 401) : c.rejected = true := by
  obtain ⟨o, answer⟩ := c
  cases o with
  | get request =>
    cases answer with
    | error e => cases h
    | ok r =>
      obtain rfl := Option.some.inj h
      exact decide_eq_true h401
  | _ => cases h

theorem afterRejection_eq_none {es : List Call} (h : ∀ c ∈ es, c.rejected = false) :
    afterRejection es = none := by
  have happend := afterRejection_append h []
  rwa [List.append_nil] at happend

/-- A call that hears no 401 owes nothing. -/
theorem heeded_of_unrejected {es : List Call} (h : ∀ c ∈ es, c.rejected = false)
    (result : Except Exc Response) : RejectionHeeded es result := by
  constructor
  · intro future hfuture
    rw [afterRejection_eq_none h] at hfuture
    cases hfuture
  · intro response hlast h401
    obtain ⟨c, hc, hreceived⟩ := List.exists_of_findSome?_eq_some hlast
    have hnot := h c (List.mem_reverse.mp hc)
    rw [rejected_of_received hreceived h401] at hnot
    cases hnot

/-! ## The outcomes after a 401 -/

section Sequence

variable [HeaderData]

/-- From the `i`-th attempt on, the first outcome that is not lost is a response and lies within
the budget, and the waits before it can be worked out. -/
def AnsweredFrom (n : ℕ) (outcomes : ℕ → Outcome) (i : ℕ) : Prop :=
  ∃ j, i ≤ j ∧ j ≤ n ∧ (outcomes j).status.isSome = true ∧
    ∀ m, i ≤ m → m < j → (outcomes m).isLost = true ∧ Workable ((outcomes m).delay m)

/-- The first 401 from the `i`-th attempt on, where it is reached, is followed by an attempt
that hears from D365. -/
def RejectionAnswered (n : ℕ) (outcomes : ℕ → Outcome) (i : ℕ) : Prop :=
  ∀ i', i ≤ i' → i' ≤ n → (outcomes i').isRejected = true →
    (∀ j, i ≤ j → j < i' → (outcomes j).isPassing = true ∧ Workable ((outcomes j).delay j)) →
    AnsweredFrom n outcomes (i' + 1)

variable {t : Transport} {n : ℕ} {outcomes : ℕ → Outcome} {request : String → GetRequest}
  {token : String} {k i : ℕ} {b f : Bool}

omit [HeaderData] in
/-- What the `i`-th attempt received. -/
theorem lastReceived_roundOf :
    lastReceived (roundOf t request token i f) = (t.outcomes i).toOption := by
  rw [lastReceived, roundOf]
  cases t.outcomes i with
  | error kind => rfl
  | ok response => rfl

theorem answeredFrom_iff (hi : i ≤ n) : AnsweredFrom n outcomes i ↔
    (outcomes i).status.isSome = true ∨
      ((outcomes i).isLost = true ∧ Workable ((outcomes i).delay i)) ∧
        AnsweredFrom n outcomes (i + 1) := by
  constructor
  · rintro ⟨j, hij, hjn, hresponse, hlost⟩
    rcases Nat.eq_or_lt_of_le hij with rfl | hlt
    · exact Or.inl hresponse
    · refine Or.inr ⟨hlost i le_rfl hlt, j, hlt, hjn, hresponse, ?_⟩
      exact fun m hm hmj => hlost m (Nat.le_of_succ_le hm) hmj
  · rintro (hresponse | ⟨hlost, j, hij, hjn, hresponse, hrest⟩)
    · exact ⟨i, le_rfl, hi, hresponse, fun m hm hmi => absurd hmi (not_lt.mpr hm)⟩
    · refine ⟨j, Nat.le_of_succ_le hij, hjn, hresponse, fun m hm hmj => ?_⟩
      rcases Nat.eq_or_lt_of_le hm with rfl | hlt
      · exact hlost
      · exact hrest m hlt hmj

theorem answeredFrom_of_lt (h : n < i) : ¬ AnsweredFrom n outcomes i := by
  rintro ⟨j, hij, hjn, -⟩
  omega

omit [HeaderData] in
theorem rejected_roundOf (h : (t.outcomes i).isRejected = false) :
    ∀ c ∈ roundOf t request token i f, c.rejected = false := by
  intro c hc
  rcases List.mem_pair.mp hc with rfl | rfl
  · rfl
  · cases ho : t.outcomes i with
    | error kind => rfl
    | ok response =>
      rw [ho] at h
      exact h

omit [HeaderData] in
theorem rejected_roundOf_append {c : Call} (hc : c.rejected = false)
    (h : (t.outcomes i).isRejected = false) :
    ∀ c' ∈ roundOf t request token i f ++ [c], c'.rejected = false := by
  intro c' hc'
  rcases List.mem_append.mp hc' with hmem | hmem
  · exact rejected_roundOf h c' hmem
  · rwa [List.mem_singleton.mp hmem]

omit [HeaderData] in
/-- A sleep or an `invalidate` after an attempt receives nothing. -/
theorem lastReceived_attempt {c : Call} (hc : c.received = none) :
    lastReceived (roundOf t request token i f ++ [c]) = (t.outcomes i).toOption := by
  have hone : lastReceived [c] = none := by
    rw [lastReceived, List.reverse_singleton, List.findSome?_singleton, hc]
  rw [lastReceived_append, hone, Option.none_or, lastReceived_roundOf]

omit [HeaderData] in
theorem isRejected_of_received {o : Outcome} {response : Response}
    (h : o.toOption = some response) (h401 : response.status_code = 401) :
    o.isRejected = true := by
  cases o with
  | error kind => cases h
  | ok r =>
    obtain rfl := Option.some.inj h
    exact decide_eq_true h401

omit [HeaderData] in
theorem exists_of_isRejected {o : Outcome} (h : o.isRejected = true) :
    ∃ response, o = .ok response ∧ response.status_code = 401 := by
  cases o with
  | error kind => cases h
  | ok response => exact ⟨response, rfl, of_decide_eq_true h⟩

omit [HeaderData] in
/-- A 401 is the first one of what it begins. -/
theorem afterRejection_roundOf (h : (t.outcomes i).isRejected = true) (es : List Call) :
    afterRejection (roundOf t request token i f ++ es) = some es := by
  obtain ⟨rejection, hhere, h401⟩ := exists_of_isRejected h
  have hcall : Call.rejected ⟨.get (request token), (t.outcomes i).answer⟩ = true := by
    rw [hhere]
    exact decide_eq_true h401
  change (if Call.rejected ⟨.get (request token), (t.outcomes i).answer⟩ = true then some es
    else afterRejection es) = some es
  exact if_pos hcall

omit [HeaderData] in
theorem conclusion_of_isRejected {o : Outcome} (h : o.isRejected = true) :
    ∃ message, o.conclusion = .error (.d365 .authentication message) := by
  obtain ⟨response, rfl, h401⟩ := exists_of_isRejected h
  exact ⟨_, if_pos h401⟩

omit [HeaderData] in
/-- A passing outcome is no 401. -/
theorem isRejected_of_isPassing {o : Outcome} (h : o.isPassing = true) : o.isRejected = false := by
  rw [← Bool.not_eq_true]
  intro hrejected
  rw [not_isPassing_of_isRejected hrejected] at h
  cases h

/-! ## After a 401 -/

/-- A second 401 ends the call, as what it is. -/
theorem loopFrom_reported (htokens : ∀ i, ∃ token, t.tokens i = .ok token) {response : Response}
    (hlast : lastReceived (loopFrom t n request k i true f).1 = some response)
    (h401 : response.status_code = 401) :
    ∃ message, (loopFrom t n request k i true f).2 = .error (.d365 .authentication message) := by
  induction k generalizing i f with
  | zero => cases hlast
  | succ k ih =>
    obtain ⟨token, htoken⟩ := htokens i
    have hnot : (t.outcomes i).isPassing = true → (t.outcomes i).toOption ≠ some response := by
      intro hpassing heq
      have hrejected := isRejected_of_isPassing hpassing
      rw [isRejected_of_received heq h401] at hrejected
      cases hrejected
    have hattempt : Attempted t n request token k i true f
        (loopFrom t n request (k + 1) i true f) := loopFrom_attempted htoken
    generalize loopFrom t n request (k + 1) i true f = result at hattempt hlast ⊢
    cases hattempt with
    | exhausted hpassing =>
      rw [lastReceived_roundOf] at hlast
      exact absurd hlast (hnot hpassing)
    | failed hpassing =>
      rw [lastReceived_attempt rfl] at hlast
      exact absurd hlast (hnot hpassing)
    | waited hpassing =>
      rw [Prog.after_fst, lastReceived_append, lastReceived_attempt rfl] at hlast
      rw [Prog.after_snd]
      refine ih ?_
      rcases Option.or_eq_some_iff.mp hlast with hrest | ⟨-, hhere⟩
      · exact hrest
      · exact absurd hhere (hnot hpassing)
    -- the token was renewed already
    | renewed _ hfirst => cases hfirst
    | decided =>
      rw [lastReceived_roundOf] at hlast
      exact conclusion_of_isRejected (isRejected_of_received hlast h401)

/-- What the rest of a call receives is what the outcomes hold. -/
theorem lastReceived_loopFrom (htokens : ∀ i, ∃ token, t.tokens i = .ok token)
    (hk : i + k = n + 1) :
    (lastReceived (loopFrom t n request k i true f).1).isSome = true ↔
      AnsweredFrom n t.outcomes i := by
  induction k generalizing i f with
  | zero =>
    refine iff_of_false (fun h => ?_) (answeredFrom_of_lt (by omega))
    cases h
  | succ k ih =>
    obtain ⟨token, htoken⟩ := htokens i
    have hsome : (t.outcomes i).toOption.isSome = (t.outcomes i).status.isSome := by
      cases t.outcomes i <;> rfl
    have hlost : (t.outcomes i).isLost = true → (t.outcomes i).isPassing = true := by
      cases t.outcomes i with
      | ok response => exact fun h => by cases h
      | error kind => exact id
    have hattempt : Attempted t n request token k i true f
        (loopFrom t n request (k + 1) i true f) := loopFrom_attempted htoken
    generalize loopFrom t n request (k + 1) i true f = result at hattempt ⊢
    -- an attempt is followed by others only when it passes and retries are left
    rw [answeredFrom_iff (by omega)]
    cases hattempt with
    | exhausted hpassing hlast =>
      rw [lastReceived_roundOf, hsome, or_iff_left]
      exact fun h => answeredFrom_of_lt (by omega) h.2
    | failed hpassing hi hwait =>
      rw [lastReceived_attempt rfl, hsome, or_iff_left]
      exact fun h => not_workable_of_error hwait h.1.2
    | waited hpassing hi hworkable =>
      rw [Prog.after_fst, lastReceived_append, lastReceived_attempt rfl, Option.isSome_or,
        Bool.or_eq_true, ih (by omega), hsome, or_comm, and_iff_left hworkable]
      cases ho : t.outcomes i with
      | ok response => simp [Outcome.status]
      | error kind =>
        rw [ho] at hpassing
        have hhere : Outcome.isLost (.error kind) = true := hpassing
        simp [Outcome.status, hhere]
    | renewed _ hfirst => cases hfirst
    | decided hpassing =>
      rw [lastReceived_roundOf, hsome, or_iff_left]
      rintro ⟨⟨h, -⟩, -⟩
      rw [hlost h] at hpassing
      cases hpassing

omit [HeaderData] in
theorem exhaustion_ne_authentication (o : Outcome) (message : String) :
    o.exhaustion ≠ .d365 .authentication message := by
  cases o with
  | error kind => simp [Outcome.exhaustion, retriesExhausted]
  | ok response =>
    rw [Outcome.exhaustion]
    split_ifs <;> simp [retriesExhausted]

/-- An authentication error needs a response. -/
theorem loopFrom_unreported (htokens : ∀ i, ∃ token, t.tokens i = .ok token) {message : String}
    (h : (loopFrom t n request k i true f).2 = .error (.d365 .authentication message)) :
    lastReceived (loopFrom t n request k i true f).1 ≠ none := by
  induction k generalizing i f with
  | zero => cases h
  | succ k ih =>
    obtain ⟨token, htoken⟩ := htokens i
    have hattempt : Attempted t n request token k i true f
        (loopFrom t n request (k + 1) i true f) := loopFrom_attempted htoken
    generalize loopFrom t n request (k + 1) i true f = result at hattempt h ⊢
    cases hattempt with
    | exhausted => exact absurd (Except.error.inj h) (exhaustion_ne_authentication _ _)
    | failed _ _ hwait => exact absurd ⟨_, _, Except.error.inj h⟩ (secondsOf_foreign hwait)
    | waited =>
      rw [Prog.after_fst, lastReceived_append, ne_eq, Option.or_eq_none_iff]
      exact fun hnone => ih h hnone.1
    | renewed _ hfirst => cases hfirst
    | decided =>
      rw [lastReceived_roundOf]
      cases ho : t.outcomes i with
      | error kind =>
        rw [ho] at h
        cases h
      | ok response => simp [Except.toOption]

/-! ## From the first attempt on -/

/-- An attempt begins with its token request and its GET. -/
theorem loopFrom_starts {token : String} (htoken : t.tokens i = .ok token) :
    ∃ rest, (loopFrom t n request (k + 1) i b f).1 = roundOf t request token i f ++ rest := by
  have hattempt : Attempted t n request token k i b f (loopFrom t n request (k + 1) i b f) :=
    loopFrom_attempted htoken
  generalize loopFrom t n request (k + 1) i b f = result at hattempt ⊢
  cases hattempt with
  | exhausted => exact ⟨[], (List.append_nil _).symm⟩
  | failed => exact ⟨_, rfl⟩
  | waited => exact ⟨_, List.append_assoc _ _ _⟩
  | renewed => exact ⟨_, List.append_assoc _ _ _⟩
  | decided => exact ⟨[], (List.append_nil _).symm⟩

/-- A call that has spent its budget sends nothing any more. -/
theorem renewedNext_iff (htokens : ∀ i, ∃ token, t.tokens i = .ok token) {c : Call}
    (hc : c.1.kind ≠ .get) (htoken : ∀ token, (request token).token = token) :
    RenewedNext (c :: (loopFrom t n request k i true true).1) ↔ k ≠ 0 := by
  constructor
  · rintro ⟨pre, token, sent, outcome, rest, heq, -⟩ rfl
    have hmem : (⟨.get sent, outcome⟩ : Call) ∈ [c] := by
      have hnil : (loopFrom t n request 0 i true true).1 = [] := rfl
      rw [hnil] at heq
      rw [heq]
      simp
    rw [← List.mem_singleton.mp hmem] at hc
    exact hc rfl
  · intro hk
    obtain ⟨k, rfl⟩ := Nat.exists_eq_succ_of_ne_zero hk
    obtain ⟨token, hissued⟩ := htokens i
    obtain ⟨rest, hrest⟩ : ∃ rest, (loopFrom t n request (k + 1) i true true).1 =
        roundOf t request token i true ++ rest := loopFrom_starts hissued
    refine ⟨[c], token, request token, (t.outcomes i).answer, rest, ?_, htoken _, ?_⟩
    · rw [hrest]
      rfl
    · intro c' hc'
      rwa [List.mem_singleton.mp hc']

theorem rejectionAnswered_iff (hi : i ≤ n) : RejectionAnswered n outcomes i ↔
    ((outcomes i).isRejected = true → AnsweredFrom n outcomes (i + 1)) ∧
      ((outcomes i).isPassing = true → Workable ((outcomes i).delay i) →
        RejectionAnswered n outcomes (i + 1)) := by
  constructor
  · intro h
    refine ⟨fun hrejected => h i le_rfl hi hrejected fun j hj hji => ?_, ?_⟩
    · exact absurd hji (not_lt.mpr hj)
    · intro hpassing hworkable i' hle hn hrejected hbefore
      refine h i' (Nat.le_of_succ_le hle) hn hrejected fun j hj hji => ?_
      rcases Nat.eq_or_lt_of_le hj with rfl | hlt
      · exact ⟨hpassing, hworkable⟩
      · exact hbefore j hlt hji
  · rintro ⟨hhere, hlater⟩ i' hle hn hrejected hbefore
    rcases Nat.eq_or_lt_of_le hle with rfl | hlt
    · exact hhere hrejected
    · obtain ⟨hpassing, hworkable⟩ := hbefore i le_rfl hlt
      refine hlater hpassing hworkable i' hlt hn hrejected fun j hj hji => ?_
      exact hbefore j (Nat.le_of_succ_le hj) hji

theorem rejectionAnswered_of_lt (h : n < i) : RejectionAnswered n outcomes i :=
  fun _ hle hn => absurd (hle.trans hn) (not_le.mpr h)

omit [HeaderData] in
/-- Behind an attempt that hears no 401, the rest of the call has to heed its own. -/
theorem heeded_after_wait {c : Call} (hc : c.received = none) (hnot : c.rejected = false)
    {es : List Call} {result : Except Exc Response} (h : (t.outcomes i).isRejected = false) :
    RejectionHeeded (roundOf t request token i f ++ [c] ++ es) result ↔
      RejectionHeeded es result := by
  have hafter : afterRejection (roundOf t request token i f ++ [c] ++ es) = afterRejection es :=
    afterRejection_append (rejected_roundOf_append hnot h) es
  have hlast : lastReceived (roundOf t request token i f ++ [c] ++ es) =
      (lastReceived es).or (t.outcomes i).toOption := by
    rw [lastReceived_append, lastReceived_attempt hc]
  constructor
  · rintro ⟨hrefreshed, hreported⟩
    rw [hafter] at hrefreshed
    refine ⟨hrefreshed, fun response hes h401 => hreported response ?_ h401⟩
    rw [hlast, hes, Option.some_or]
  · rintro ⟨hrefreshed, hreported⟩
    rw [← hafter] at hrefreshed
    refine ⟨hrefreshed, fun response hes h401 => hreported response ?_ h401⟩
    rw [hlast] at hes
    rcases Option.or_eq_some_iff.mp hes with hrest | ⟨-, hhere⟩
    · exact hrest
    · rw [isRejected_of_received hhere h401] at h
      cases h

/-- A first 401 is heeded when the attempts behind it hear from D365 again. -/
theorem heeded_after_renew (htokens : ∀ i, ∃ token, t.tokens i = .ok token)
    (htoken : ∀ token, (request token).token = token) (hk : i + 1 + k = n + 1)
    (h : (t.outcomes i).isRejected = true) :
    RejectionHeeded
      (Prog.after (roundOf t request token i f ++ [⟨.invalidate, .ok ()⟩])
        (loopFrom t n request k (i + 1) true true)).1
      (Prog.after (roundOf t request token i f ++ [⟨.invalidate, .ok ()⟩])
        (loopFrom t n request k (i + 1) true true)).2 ↔
    AnsweredFrom n t.outcomes (i + 1) := by
  obtain ⟨rejection, hhere, h401⟩ := exists_of_isRejected h
  rw [Prog.after_fst, Prog.after_snd]
  -- the 401 itself is the first rejection: what follows it is the renewal and the rest
  have hafter : afterRejection (roundOf t request token i f ++
      [⟨.invalidate, .ok ()⟩] ++ (loopFrom t n request k (i + 1) true true).1) =
      some (⟨.invalidate, .ok ()⟩ :: (loopFrom t n request k (i + 1) true true).1) := by
    rw [List.append_assoc, afterRejection_roundOf h]
    rfl
  have hlast : lastReceived (roundOf t request token i f ++ [⟨.invalidate, .ok ()⟩] ++
      (loopFrom t n request k (i + 1) true true).1) =
      (lastReceived (loopFrom t n request k (i + 1) true true).1).or
        (t.outcomes i).toOption := by
    rw [lastReceived_append, lastReceived_attempt rfl]
  have hanswered : (lastReceived (loopFrom t n request k (i + 1) true true).1).isSome = true ↔
      AnsweredFrom n t.outcomes (i + 1) := lastReceived_loopFrom htokens (by omega)
  rw [← hanswered]
  constructor
  -- with no later answer the 401 stays the last one received, and is not reported
  · rintro ⟨-, hreported⟩
    rw [Option.isSome_iff_ne_none]
    intro hnone
    rw [hlast, hnone, hhere] at hreported
    obtain ⟨message, hresult⟩ := hreported rejection rfl h401
    exact loopFrom_unreported htokens hresult hnone
  · intro hsome
    obtain ⟨response, hresponse⟩ := Option.isSome_iff_exists.mp hsome
    constructor
    · intro future hfuture
      rw [hafter] at hfuture
      obtain rfl := Option.some.inj hfuture
      refine (renewedNext_iff htokens (by decide) htoken).mpr ?_
      rintro rfl
      cases hresponse
    · intro last heard hunauthorized
      rw [hlast, hresponse, Option.some_or] at heard
      obtain rfl := Option.some.inj heard
      exact loopFrom_reported htokens hresponse hunauthorized

theorem loopFrom_heeded_iff (htokens : ∀ i, ∃ token, t.tokens i = .ok token)
    (htoken : ∀ token, (request token).token = token) (hk : i + k = n + 1) :
    RejectionHeeded (loopFrom t n request k i false f).1 (loopFrom t n request k i false f).2 ↔
      RejectionAnswered n t.outcomes i := by
  induction k generalizing i f with
  | zero =>
    refine iff_of_true ⟨fun _ h => ?_, fun _ h => ?_⟩ (rejectionAnswered_of_lt (by omega))
    · cases h
    · cases h
  | succ k ih =>
    obtain ⟨token, hissued⟩ := htokens i
    have hattempt : Attempted t n request token k i false f
        (loopFrom t n request (k + 1) i false f) := loopFrom_attempted hissued
    generalize loopFrom t n request (k + 1) i false f = result at hattempt ⊢
    -- up to the first 401 nothing is to be heeded; there `heeded_after_renew` decides
    rw [rejectionAnswered_iff (by omega)]
    cases hattempt with
    | exhausted hpassing hlast =>
      have hrejected := isRejected_of_isPassing hpassing
      refine iff_of_true (heeded_of_unrejected (rejected_roundOf hrejected) _) ⟨fun h => ?_, ?_⟩
      · rw [hrejected] at h
        cases h
      · exact fun _ _ => rejectionAnswered_of_lt (by omega)
    | @failed e hpassing hi hwait =>
      have hrejected := isRejected_of_isPassing hpassing
      refine iff_of_true (heeded_of_unrejected (rejected_roundOf_append rfl hrejected) _)
        ⟨fun h => ?_, fun _ hworkable => absurd hworkable (not_workable_of_error hwait)⟩
      rw [hrejected] at h
      cases h
    | waited hpassing hi hworkable =>
      have hrejected := isRejected_of_isPassing hpassing
      rw [Prog.after_fst, Prog.after_snd, heeded_after_wait rfl rfl hrejected, ih (by omega)]
      simp [hpassing, hrejected, hworkable]
    | renewed hrejected =>
      rw [heeded_after_renew htokens htoken (by omega) hrejected]
      simp [not_isPassing_of_isRejected hrejected, hrejected]
    | decided hpassing hfirst =>
      have hrejected : (t.outcomes i).isRejected = false :=
        Bool.not_eq_true _ ▸ fun h => by cases hfirst h
      refine iff_of_true (heeded_of_unrejected (rejected_roundOf hrejected) _) ⟨fun h => ?_, ?_⟩
      · rw [hrejected] at h
        cases h
      · intro h
        rw [hpassing] at h
        cases h

end Sequence

/-- For every budget and all outcomes, the first 401 of a call is refreshed and a final 401
reported exactly when no 401 is reached or the attempts left behind the first one hear from
D365 again. -/
theorem get_heeds_rejection_iff [HeaderData] (n : ℕ) (tokens : ℕ → String)
    (outcomes : ℕ → Outcome) (clock : ℕ → ℚ) (path : String) (params : Option (Dict String))
    (accept : Option String) :
    RejectionHeeded (callOn (.issuing tokens outcomes clock) n path params accept).1
      (callOn (.issuing tokens outcomes clock) n path params accept).2 ↔
    RejectionAnswered n outcomes 0 := by
  rw [callOn_eq]
  exact loopFrom_heeded_iff (fun i => ⟨tokens i, rfl⟩) (fun token => rfl) (Nat.zero_add _)

section Example

/-- Three times unavailable, and a 401 on the last of four attempts. -/
def rejectedAtLast (i : ℕ) : Outcome := .ok { status_code := if i < 3 then 503 else 401 }

/-- The token is dropped, nothing is sent with a new one, and the call ends as if D365
were away. -/
theorem rejectedAtLast_unheeded :
    let _ := noHeaders
    let call := callOn (.issuing (fun _ => "t") rejectedAtLast fun _ => 0) 3 "WorkersV2" none none
    ¬ RejectionHeeded call.1 call.2 := by
  rintro _ call ⟨-, hreported⟩
  obtain ⟨message, hresult⟩ := hreported { status_code := 401 } rfl rfl
  cases hresult

end Example

end D365Client

end EmployeePortal.D365
