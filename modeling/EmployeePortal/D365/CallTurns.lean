import EmployeePortal.D365.TokenService

/-!
# What a turn of a call does

A call of `_get` waits at one of four places: for the lock, for its acquisition, for an
answer of D365, or for a delay to pass. What each turn may do is read off from there.
-/

namespace EmployeePortal.D365.D365TokenService

open EmployeePortal.Python EmployeePortal.Framework

section Calls

variable [UnicodeData] [FloatData] {π : Type} {answers : Provider π} {max_retries : ℤ}
  {c : ClientCall}

/-! ## A call between its awaits -/

def requestOf (c : ClientCall) (token : String) : GetRequest := ⟨c.path, c.params, token, c.accept⟩

/-- The rest of the loop, after the attempts made so far. -/
def going (max_retries : ℤ) (c : ClientCall) (rest : List ℕ) (refreshed forced : Bool) :
    Task Response :=
  D365Client.attempts wire max_retries (requestOf c) rest refreshed forced

/-- What the loop makes of the outcome of an attempt. -/
def judged (max_retries : ℤ) (c : ClientCall) (attempt : ℕ) (rest : List ℕ) (refreshed : Bool)
    (outcome : Except Exc Response) : Task Response :=
  match D365Client.verdict max_retries attempt refreshed outcome with
  | .done result => Prog.ofExcept result
  | .wait delay => do
      Prog.perform (ServiceOp.sleep delay)
      going max_retries c rest refreshed false
  | .renew => do
      invalidate
      going max_retries c rest true true

/-- An attempt with its token. -/
def holding (max_retries : ℤ) (c : ClientCall) (attempt : ℕ) (rest : List ℕ) (refreshed : Bool)
    (token : String) : Task Response := do
  Prog.tell (ServiceOp.send (requestOf c token))
  let outcome ← (Prog.perform ServiceOp.response).attempt
  judged max_retries c attempt rest refreshed outcome

/-- A call at the lock, and what it does with the token. -/
def entered (forced : Bool) (next : String → Task Response) (r : Except Exc Unit) :
    Task Response := do
  let token ← (do
    let _ ← Prog.ofExcept r
    let result ← (refresh forced).attempt
    Prog.tell ServiceOp.lockRelease
    Prog.ofExcept result)
  next token

/-- A call whose acquisition is answered. -/
def acquired (now : ℚ) (next : String → Task Response) (r : Except Exc (Dict Json)) :
    Task Response := do
  let token ← (do
    let result ← Prog.attempt (do
      let result ← Prog.ofExcept r
      let token ← newToken now result
      Prog.tell (ServiceOp.setToken (some token))
      return token.value)
    Prog.tell ServiceOp.lockRelease
    Prog.ofExcept result)
  next token

/-- A call once it has waited. -/
def rested (max_retries : ℤ) (c : ClientCall) (rest : List ℕ) (refreshed : Bool)
    (r : Except Exc Unit) : Task Response := do
  Prog.ofExcept r
  going max_retries c rest refreshed false

theorem going_cons (attempt : ℕ) (rest : List ℕ) (refreshed forced : Bool) :
    going max_retries c (attempt :: rest) refreshed forced =
      getAccessToken forced >>= holding max_retries c attempt rest refreshed := by
  rw [going, D365Client.attempts]
  rfl

section Turns

variable (next : String → Task Response) (s : Service π) (l : TokenSession π)

theorem runOn_getAccessToken (forced : Bool) :
    runOn statements (getAccessToken forced >>= next) s l =
      match serve forced s.now s.token with
      | some token => runOn statements (next token) { s with ticks := s.ticks + 1 }
          { l with checked := s.now }
      | none => (.op .lockAcquire (entered forced next), { s with ticks := s.ticks + 1 },
          { l with checked := s.now }) := by
  simp only [getAccessToken, Prog.perform, Prog.op_bind, runOn, statements, Prog.ofExcept_ok,
    Prog.ret_bind]
  cases serve forced s.now s.token with
  | some token => rfl
  | none => rfl

theorem runOn_entered (forced : Bool) :
    runOn statements (entered forced next (.ok ())) s l =
      match serve forced s.now s.token with
      | some token => runOn statements (next token)
          { s with ticks := s.ticks + 1, locked := false } { l with checked := s.now }
      | none => (.op .acquireTokenForClient (acquired s.now next),
          { s with ticks := s.ticks + 2, acquisitions := s.acquisitions ++ [s.now] },
          { l with checked := s.now, started := some (s.clock (s.ticks + 1)) }) := by
  simp only [entered, refresh, Prog.perform, Prog.op_bind, Prog.attempt_op, runOn, statements,
    Prog.ofExcept_ok, Prog.ret_bind]
  cases serve forced s.now s.token with
  | some token => rfl
  | none => rfl

/-- An acquisition ends with a token in the cache, or with the call. -/
theorem runOn_acquired (now : ℚ) (r : Except Exc (Dict Json)) :
    (∃ e, runOn statements (acquired now next r) s l = (.raise e, { s with locked := false }, l)) ∨
      ∃ token expires_at, runOn statements (acquired now next r) s l = runOn statements
        (next token) { s with token := some ⟨token, expires_at⟩, locked := false } l := by
  cases r with
  | error e => exact Or.inl ⟨e, rfl⟩
  | ok result =>
    cases hread : newToken now result with
    | error e =>
      refine Or.inl ⟨e, ?_⟩
      simp only [acquired, Prog.ofExcept_ok, Prog.ret_bind, Prog.liftM_eq, hread]
      rfl
    | ok token =>
      refine Or.inr ⟨token.value, token.expires_at, ?_⟩
      simp only [acquired, Prog.ofExcept_ok, Prog.ret_bind, Prog.liftM_eq, hread]
      rfl

theorem runOn_holding (attempt : ℕ) (rest : List ℕ) (refreshed : Bool) (token : String) :
    runOn statements (holding max_retries c attempt rest refreshed token) s l =
      (.op .response (judged max_retries c attempt rest refreshed),
        { s with requests := s.requests ++ [⟨token, l.rejected⟩] },
        { l with sent := some token, rejected := none }) := by
  simp only [holding, Prog.tell_bind, Prog.attempt_perform, Prog.op_bind, runOn, statements,
    Prog.ret_bind]
  rfl

end Turns

/-! ## What a turn does -/

/-- A call between two turns. -/
inductive Phase (max_retries : ℤ) (c : ClientCall) (l : TokenSession π) : Task Response → Prop
  | queued {forced attempt rest} (hforced : l.rejected ≠ none → forced = true) :
      Phase max_retries c l (.op .lockAcquire
        (entered forced (holding max_retries c attempt rest l.refreshed)))
  | acquiring {now attempt rest} :
      Phase max_retries c l (.op .acquireTokenForClient
        (acquired now (holding max_retries c attempt rest l.refreshed)))
  | asked {attempt rest} (hclear : l.rejected = none) :
      Phase max_retries c l (.op .response (judged max_retries c attempt rest l.refreshed))
  | resting {delay rest} (hclear : l.rejected = none) :
      Phase max_retries c l (.op (.sleep delay) (rested max_retries c rest l.refreshed))
  | ended {p} (h : p.result.isSome = true) : Phase max_retries c l p

/-- A call waits for the lock. -/
def AtLock (p : Task Response) : Prop := ∃ k, p = .op .lockAcquire k

/-- A call waits for an answer of D365. -/
def AtResponse (p : Task Response) : Prop := ∃ k, p = .op .response k

/-- What a turn of a call may do to the service and to what is known about the call. -/
structure Acts (p : Task Response) (s : Service π) (l : TokenSession π) (p' : Task Response)
    (s' : Service π) (l' : TokenSession π) : Prop where
  sends : s'.requests ≠ s.requests →
    ∃ token expires_at, l'.sent = some token ∧ s'.token = some ⟨token, expires_at⟩
  asks : AtResponse p' → s'.requests ≠ s.requests
  acquires : s'.acquisitions ≠ s.acquisitions → AtLock p ∧ ¬ AtLock p'
  forced : AtLock p → l.rejected ≠ none → s'.acquisitions ≠ s.acquisitions
  refreshed : l.refreshed = true → l'.refreshed = true
  invalidates : l.refreshed = false → l'.refreshed = true → AtResponse p ∧ s'.token = none ∧
    ∀ token, l.sent = some token → ∃ rejection, l'.rejected = some rejection ∧
      rejection.token = token
  rejected : ∀ rejection, l'.rejected = some rejection → l.rejected = some rejection ∨
    (l.refreshed = false ∧ l'.refreshed = true ∧ l.sent = some rejection.token)
  queues : AtLock p' → ∀ rejection, l'.rejected = some rejection →
    l.refreshed = false ∧ l'.refreshed = true

section Acts

variable {p' : Task Response} {s s' : Service π} {l l' : TokenSession π}

omit [UnicodeData] [FloatData] in
theorem serve_eq_some {forced : Bool} {now : ℚ} {cached : Option AccessToken} {token : String}
    (h : serve forced now cached = some token) :
    forced = false ∧ ∃ expires_at, cached = some ⟨token, expires_at⟩ := by
  cases cached with
  | none => cases h
  | some stored =>
    rw [serve] at h
    obtain ⟨⟨hunforced, -⟩, rfl⟩ := by simpa using h
    exact ⟨hunforced, stored.expires_at, rfl⟩

open D365Client in
omit [UnicodeData] [FloatData] in
theorem heard_of_done (l : TokenSession π) (provider : π) {outcome : Except Exc Response}
    (h : ¬ (unauthorized outcome = true ∧ l.refreshed = false)) : l.heard provider outcome = l := by
  cases hunauthorized : unauthorized outcome with
  | false => exact heard_of_not_unauthorized l provider hunauthorized
  | true =>
    cases outcome with
    | error e => cases hunauthorized
    | ok response =>
      simp only [TokenSession.heard]
      exact if_neg fun hfirst => h ⟨hunauthorized, hfirst.2⟩

omit [UnicodeData] [FloatData] in
theorem not_atLock_of_over {p : Task Response} (h : p.result.isSome = true) : ¬ AtLock p := by
  rintro ⟨k, rfl⟩
  cases h

omit [UnicodeData] [FloatData] in
theorem not_atResponse_of_over {p : Task Response} (h : p.result.isSome = true) :
    ¬ AtResponse p := by
  rintro ⟨k, rfl⟩
  cases h

omit [UnicodeData] [FloatData] in
theorem not_atLock_response (k : Except Exc Response → Task Response) :
    ¬ AtLock (.op .response k) := by
  rintro ⟨k', hk⟩
  cases hk

omit [UnicodeData] [FloatData] in
theorem not_at_acquireTokenForClient (k : Except Exc (Dict Json) → Task Response) :
    ¬ AtLock (.op .acquireTokenForClient k) ∧ ¬ AtResponse (.op .acquireTokenForClient k) := by
  constructor <;> (rintro ⟨k', hk⟩; cases hk)

omit [UnicodeData] [FloatData] in
theorem not_at_sleep {delay : Delay} (k : Except Exc Unit → Task Response) :
    ¬ AtLock (.op (.sleep delay) k) ∧ ¬ AtResponse (.op (.sleep delay) k) := by
  constructor <;> (rintro ⟨k', hk⟩; cases hk)

/-- The next attempt, up to its first await. -/
structure Starts (max_retries : ℤ) (c : ClientCall) (s : Service π) (l : TokenSession π)
    (p' : Task Response) (s' : Service π) (l' : TokenSession π) : Prop where
  phase : Phase max_retries c l' p'
  sends : s'.requests ≠ s.requests →
    ∃ token expires_at, l'.sent = some token ∧ s'.token = some ⟨token, expires_at⟩
  asks : AtResponse p' → s'.requests ≠ s.requests
  token : s'.token = s.token
  acquisitions : s'.acquisitions = s.acquisitions
  refreshed : l'.refreshed = l.refreshed
  rejected : ∀ rejection, l'.rejected = some rejection → l.rejected = some rejection
  keeps : s.token = none → l'.rejected = l.rejected

theorem starts_holding {attempt : ℕ} {rest : List ℕ} {token : String} {expires_at : PyFloat}
    (htoken : s.token = some ⟨token, expires_at⟩)
    (hrun : runOn statements (holding max_retries c attempt rest l.refreshed token) s l =
      (p', s', l')) : Starts max_retries c s l p' s' l' ∧ ¬ AtLock p' := by
  rw [runOn_holding] at hrun
  obtain ⟨rfl, rfl, rfl⟩ := by simpa using hrun
  refine ⟨⟨.asked rfl, fun _ => ⟨token, expires_at, rfl, htoken⟩, fun _ => by simp, rfl, rfl, rfl,
    nofun, fun hnone => ?_⟩, not_atLock_response _⟩
  rw [htoken] at hnone
  cases hnone

theorem starts_going {rest : List ℕ} {forced : Bool}
    (hforced : l.rejected ≠ none → forced = true)
    (hrun : runOn statements (going max_retries c rest l.refreshed forced) s l = (p', s', l')) :
    Starts max_retries c s l p' s' l' := by
  cases rest with
  | nil =>
    obtain ⟨rfl, rfl, rfl⟩ := by simpa [going, D365Client.attempts, runOn] using hrun
    exact ⟨.ended rfl, fun h => absurd rfl h, fun h => absurd h (not_atResponse_of_over rfl), rfl,
      rfl, rfl, fun _ h => h, fun _ => rfl⟩
  | cons attempt rest =>
    rw [going_cons, runOn_getAccessToken] at hrun
    cases hserve : serve forced s.now s.token with
    | some token =>
      rw [hserve] at hrun
      obtain ⟨-, expires_at, htoken⟩ := serve_eq_some hserve
      have hstarts := starts_holding (s := { s with ticks := s.ticks + 1 })
        (l := { l with checked := s.now }) htoken hrun
      exact ⟨hstarts.1.phase, hstarts.1.sends, hstarts.1.asks, hstarts.1.token,
        hstarts.1.acquisitions, hstarts.1.refreshed, hstarts.1.rejected, hstarts.1.keeps⟩
    | none =>
      rw [hserve] at hrun
      obtain ⟨rfl, rfl, rfl⟩ := by simpa using hrun
      have hnot : ¬ AtResponse
          (.op .lockAcquire (entered forced (holding max_retries c attempt rest l.refreshed))) := by
        rintro ⟨k, hk⟩
        cases hk
      exact ⟨.queued (l := { l with checked := s.now }) hforced, fun h => absurd rfl h,
        fun h => absurd h hnot, rfl, rfl, rfl, fun _ h => h, fun _ => rfl⟩

omit [UnicodeData] [FloatData] in
/-- A call that ends with its session as it was. -/
theorem acts_over {p : Task Response} (hnot : ¬ AtLock p) (hover : p'.result.isSome = true)
    (hrequests : s'.requests = s.requests) (hacquisitions : s'.acquisitions = s.acquisitions)
    (hrefreshed : l'.refreshed = l.refreshed) (hrejected : l'.rejected = l.rejected) :
    Acts p s l p' s' l' where
  sends := fun hmore => absurd hrequests hmore
  asks := fun hask => absurd hask (not_atResponse_of_over hover)
  acquires := fun hmore => absurd hacquisitions hmore
  forced := fun hlock => absurd hlock hnot
  refreshed := fun htrue => hrefreshed.trans htrue
  invalidates := fun hfalse htrue => by
    rw [hrefreshed, hfalse] at htrue
    cases htrue
  rejected := fun rejection hrejection => Or.inl (hrejected ▸ hrejection)
  queues := fun hlock => absurd hlock (not_atLock_of_over hover)

/-- The next attempt of a call that has nothing to answer for. -/
theorem Starts.acts {p : Task Response} (h : Starts max_retries c s l p' s' l')
    (hclear : AtLock p ∨ AtLock p' → l.rejected = none) : Acts p s l p' s' l' where
  sends := h.sends
  asks := h.asks
  acquires := fun hmore => absurd h.acquisitions hmore
  forced := fun hlock hsome => absurd (hclear (Or.inl hlock)) hsome
  refreshed := fun htrue => h.refreshed.trans htrue
  invalidates := fun hfalse htrue => by
    rw [h.refreshed, hfalse] at htrue
    cases htrue
  rejected := fun rejection hrejection => Or.inl (h.rejected rejection hrejection)
  queues := by
    intro hlock _ hrejection
    have hnone := hclear (Or.inr hlock)
    rw [h.rejected _ hrejection] at hnone
    cases hnone

/-! ## One lemma for each await -/

/-- The lock is handed over: a forced call acquires. -/
theorem acts_entered {forced : Bool} {attempt : ℕ} {rest : List ℕ}
    (hforced : l.rejected ≠ none → forced = true)
    (hrun : runOn statements
      (entered forced (holding max_retries c attempt rest l.refreshed) (.ok ()))
      { s with locked := true } l = (p', s', l')) :
    Phase max_retries c l' p' ∧ Acts
      (.op .lockAcquire (entered forced (holding max_retries c attempt rest l.refreshed)))
      s l p' s' l' := by
  rw [runOn_entered] at hrun
  dsimp only [Service.now] at hrun
  cases hserve : serve forced (s.clock s.ticks) s.token with
  | some token =>
    rw [hserve] at hrun
    obtain ⟨hunforced, expires_at, htoken⟩ := serve_eq_some hserve
    have hclear : l.rejected = none := by
      by_contra hsome
      rw [hforced hsome] at hunforced
      cases hunforced
    have hstarts := (starts_holding (s := { s with ticks := s.ticks + 1, locked := false })
      (l := { l with checked := s.now }) htoken hrun).1
    have hacts := hstarts.acts (p := .op .lockAcquire
      (entered forced (holding max_retries c attempt rest l.refreshed))) fun _ => hclear
    exact ⟨hstarts.phase, hacts.sends, hacts.asks, hacts.acquires, hacts.forced, hacts.refreshed,
      hacts.invalidates, hacts.rejected, hacts.queues⟩
  | none =>
    rw [hserve] at hrun
    obtain ⟨rfl, rfl, rfl⟩ := by simpa using hrun
    obtain ⟨hlock, hask⟩ := not_at_acquireTokenForClient
      (acquired (s.clock s.ticks) (holding max_retries c attempt rest l.refreshed))
    exact ⟨.acquiring, fun h => absurd rfl h, fun h => absurd h hask,
      fun _ => ⟨⟨_, rfl⟩, hlock⟩, fun _ _ => by simp, id,
      fun hfalse htrue => absurd (hfalse.symm.trans htrue) Bool.false_ne_true,
      fun _ h => Or.inl h, fun h => absurd h hlock⟩

/-- MSAL has answered: the call is over, or it sends what it has stored. -/
theorem acts_acquired {now : ℚ} {provider : π} {r : Except Exc (Dict Json)} {attempt : ℕ}
    {rest : List ℕ}
    (hrun : runOn statements
      (acquired now (holding max_retries c attempt rest l.refreshed) r)
      { s with provider := provider } l = (p', s', l')) :
    Phase max_retries c l' p' ∧ Acts
      (.op .acquireTokenForClient (acquired now (holding max_retries c attempt rest l.refreshed)))
      s l p' s' l' := by
  have hnot := (not_at_acquireTokenForClient
    (acquired now (holding max_retries c attempt rest l.refreshed))).1
  rcases runOn_acquired (holding max_retries c attempt rest l.refreshed)
    { s with provider := provider } l now r with ⟨e, hfailed⟩ | ⟨token, expires_at, hstored⟩
  · obtain ⟨rfl, rfl, rfl⟩ := by simpa using hfailed.symm.trans hrun
    exact ⟨.ended rfl, acts_over hnot rfl rfl rfl rfl rfl⟩
  · obtain ⟨hstarts, hnot'⟩ := starts_holding rfl (hstored.symm.trans hrun)
    have hacts := hstarts.acts (p := .op .acquireTokenForClient
      (acquired now (holding max_retries c attempt rest l.refreshed)))
      fun hlock => hlock.elim (absurd · hnot) (absurd · hnot')
    exact ⟨hstarts.phase, hacts.sends, hacts.asks, hacts.acquires, hacts.forced, hacts.refreshed,
      hacts.invalidates, hacts.rejected, hacts.queues⟩

/-- D365 has answered: a first 401 empties the cache, and the call queues for the lock. -/
theorem acts_judged {attempt : ℕ} {rest : List ℕ} {outcome : Except Exc Response}
    (hclear : l.rejected = none)
    (hrun : runOn statements (judged max_retries c attempt rest l.refreshed outcome) s
      (l.heard s.provider outcome) = (p', s', l')) :
    Phase max_retries c l' p' ∧ Acts
      (.op .response (judged max_retries c attempt rest l.refreshed)) s l p' s' l' := by
  have hnot := not_atLock_response (judged max_retries c attempt rest l.refreshed)
  unfold judged at hrun
  cases hverdict : D365Client.verdict max_retries attempt l.refreshed outcome with
  | done result =>
    rw [hverdict, heard_of_done l _ (D365Client.verdict_done hverdict)] at hrun
    cases result with
    | ok response =>
      obtain ⟨rfl, rfl, rfl⟩ := by simpa [runOn] using hrun
      exact ⟨.ended rfl, acts_over hnot rfl rfl rfl rfl rfl⟩
    | error e =>
      obtain ⟨rfl, rfl, rfl⟩ := by simpa [runOn] using hrun
      exact ⟨.ended rfl, acts_over hnot rfl rfl rfl rfl rfl⟩
  | wait delay =>
    rw [hverdict, heard_of_not_unauthorized l _ (D365Client.verdict_wait hverdict).1] at hrun
    obtain ⟨rfl, rfl, rfl⟩ := by simpa [runOn, statements, Prog.perform] using hrun
    obtain ⟨hlock, hask⟩ := not_at_sleep (rested max_retries c rest l.refreshed)
    exact ⟨.resting hclear, fun h => absurd rfl h, fun h => absurd h hask,
      fun h => absurd rfl h, fun h => absurd h hnot, id,
      fun hfalse htrue => absurd (hfalse.symm.trans htrue) Bool.false_ne_true,
      fun _ h => Or.inl h, fun h => absurd h hlock⟩
  | renew =>
    obtain ⟨h401, hfirst⟩ := D365Client.verdict_renew hverdict
    rw [hverdict, heard_of_unauthorized s.provider h401 hfirst] at hrun
    have hstarts := starts_going (s := { s with token := none })
      (l := { l with refreshed := true, rejected := l.sent.map (⟨·, s.provider⟩) })
      (fun _ => rfl) hrun
    refine ⟨hstarts.phase, hstarts.sends, hstarts.asks,
      fun h => absurd hstarts.acquisitions h, fun h => absurd h hnot, fun _ => hstarts.refreshed,
      fun _ _ => ⟨⟨_, rfl⟩, hstarts.token, ?_⟩, ?_, fun _ _ _ => ⟨hfirst, hstarts.refreshed⟩⟩
    · intro token hsent
      exact ⟨_, (hstarts.keeps rfl).trans (congrArg (Option.map _) hsent), rfl⟩
    · intro rejection hrejection
      obtain ⟨token, hsent, rfl⟩ :=
        Option.map_eq_some_iff.mp (hstarts.rejected rejection hrejection)
      exact Or.inr ⟨hfirst, hstarts.refreshed, hsent⟩

theorem acts_rested {delay : Delay} {rest : List ℕ} {r : Except Exc Unit}
    (hclear : l.rejected = none)
    (hrun : runOn statements (rested max_retries c rest l.refreshed r) s l = (p', s', l')) :
    Phase max_retries c l' p' ∧ Acts
      (.op (.sleep delay) (rested max_retries c rest l.refreshed)) s l p' s' l' := by
  cases r with
  | error e =>
    obtain ⟨rfl, rfl, rfl⟩ := by simpa [rested, runOn] using hrun
    exact ⟨.ended rfl, acts_over (not_at_sleep _).1 rfl rfl rfl rfl rfl⟩
  | ok _ =>
    have hstarts := starts_going (fun hsome => absurd hclear hsome) hrun
    exact ⟨hstarts.phase, hstarts.acts fun _ => hclear⟩

end Acts

/-- What a turn does, by what the call was waiting for. -/
theorem Phase.turn {p p' : Task Response} {s s₁ s' : Service π} {l l₁ l' : TokenSession π}
    {o : ServiceOp} {k : Except Exc o.Answer → Task Response} {r : Except Exc o.Answer}
    (h : Phase max_retries c l p) (hop : p = .op o k) (hsem : Awaited answers o s l r s₁ l₁)
    (hrun : runOn statements (k r) s₁ l₁ = (p', s', l')) :
    Phase max_retries c l' p' ∧ Acts p s l p' s' l' := by
  cases h with
  | queued hforced =>
    cases hop
    cases hsem with
    | lockAcquire hfree => exact acts_entered hforced hrun
  | acquiring =>
    cases hop
    cases hsem with
    | acquireTokenForClient hstarted hanswer => exact acts_acquired hrun
  | asked hclear =>
    cases hop
    cases hsem with
    | response outcome => exact acts_judged hclear hrun
  | resting hclear =>
    cases hop
    cases hsem with
    | sleep r => exact acts_rested hclear hrun
  | ended hover =>
    rw [hop] at hover
    cases hover

end Calls

end EmployeePortal.D365.D365TokenService
