import EmployeePortal.D365.Retry
import EmployeePortal.Framework.EventLoop
import EmployeePortal.Python.Documents
import EmployeePortal.Python.Float

/-!
# `D365TokenService`

`get_access_token` and `invalidate` over the service's fields, its lock and the
identity provider, which MSAL asks from another thread. The calls of one process
share the service on one event loop: what stands between two awaits is not
interrupted.
-/

namespace EmployeePortal.D365

open EmployeePortal.Python EmployeePortal.Framework

structure AccessToken where
  value : String
  expires_at : PyFloat

/-- What the service and its client do, operation by operation. A request and an
acquisition are two operations each: they go out, and their answer is awaited. -/
inductive ServiceOp where
  /-- `time.time()`. -/
  | time
  /-- `self._token`. -/
  | token
  | setToken (token : Option AccessToken)
  | lockAcquire
  | lockRelease
  /-- `asyncio.to_thread(..)` starts the acquisition. -/
  | toThread
  | acquireTokenForClient
  /-- `self._client.get(..)` sends the request. -/
  | send (request : GetRequest)
  | response
  | sleep (delay : Delay)

abbrev ServiceOp.Answer : ServiceOp → Type
  | .time => ℚ
  | .token => Option AccessToken
  | .acquireTokenForClient => Dict Json
  | .response => Response
  | _ => Unit

abbrev Task (α : Type) : Type := Prog ServiceOp ServiceOp.Answer Exc α

namespace D365TokenService

/-! ## The code -/

/-- `self._token.expires_at - self._REFRESH_SKEW_SECONDS > now`. -/
def fresh (expires_at : PyFloat) (now : ℚ) : Bool := (PyFloat.ofRat now).lt (expires_at.plus (-300))

/-- The cached token, where the check lets it be served. -/
def serve (force_refresh : Bool) (now : ℚ) : Option AccessToken → Option String
  | some token =>
      if force_refresh = false ∧ fresh token.expires_at now then some token.value else none
  | none => none

section Code

variable [UnicodeData] [FloatData]

def acquisitionFailed (result : Dict Json) : Exc :=
  let error_code := (result.getD "error" (.str "authentication_failed")).text
  let correlation_id := (result.getD "correlation_id" (.str "unavailable")).text
  .d365 .authentication ("D365 token acquisition failed (" ++ error_code ++
    "); correlation ID: " ++ correlation_id)

/-- The token and the lifetime in an answer of MSAL. -/
def readAnswer (result : Dict Json) : Except Exc (String × ℤ) :=
  match result.get? "access_token" with
  | some (.str token) => do
      let expires_in ← (result.getD "expires_in" (.int 3600)).toInt
      return (token, max expires_in 60)
  | _ => .error (acquisitionFailed result)

/-- `AccessToken(value=token, expires_at=now + expires_in)`, `now` being the check before
the acquisition. The sum is one of floats, to which the integer is converted. -/
def newToken (now : ℚ) (result : Dict Json) : Except Exc AccessToken := do
  let (token, expires_in) ← readAnswer result
  let seconds ← PyFloat.ofInt expires_in
  return ⟨token, (PyFloat.ofRat now).plus seconds⟩

/-- What becomes of the answer to an acquisition. -/
def acquire (now : ℚ) : Task String := do
  let result ← Prog.perform ServiceOp.acquireTokenForClient
  let token ← newToken now result
  Prog.tell (ServiceOp.setToken (some token))
  return token.value

/-- `get_access_token` inside its lock. -/
def refresh (force_refresh : Bool) : Task String := do
  let now ← Prog.perform ServiceOp.time
  match serve force_refresh now (← Prog.perform ServiceOp.token) with
  | some value => return value
  | none =>
      Prog.tell ServiceOp.toThread
      acquire now

def getAccessToken (force_refresh : Bool) : Task String := do
  let now ← Prog.perform ServiceOp.time
  match serve force_refresh now (← Prog.perform ServiceOp.token) with
  | some value => return value
  | none =>
      Prog.inside (Prog.perform ServiceOp.lockAcquire) (Prog.tell ServiceOp.lockRelease)
        (refresh force_refresh)

def invalidate : Task Unit := Prog.tell (ServiceOp.setToken none)

/-- The collaborators of a `D365Client` with this service. -/
def wire : Wire ServiceOp ServiceOp.Answer where
  getAccessToken := getAccessToken
  invalidate := invalidate
  get := fun request => do
    Prog.tell (ServiceOp.send request)
    Prog.perform ServiceOp.response
  sleep := fun delay => Prog.perform (ServiceOp.sleep delay)

theorem newToken_ok {now : ℚ} {result : Dict Json} {token : AccessToken}
    (h : newToken now result = .ok token) :
    ∃ (lifetime : ℤ) (seconds : ℚ), readAnswer result = .ok (token.value, lifetime) ∧
      PyFloat.ofInt lifetime = .ok seconds ∧
      token.expires_at = (PyFloat.ofRat now).plus seconds := by
  obtain ⟨⟨value, lifetime⟩, hread, h⟩ := bind_eq_ok.mp h
  obtain ⟨seconds, hseconds, h⟩ := bind_eq_ok.mp h
  obtain rfl := Except.ok.inj h
  exact ⟨lifetime, seconds, hread, hseconds, rfl⟩

end Code

/-! ## The service on its loop -/

/-- The identity provider as MSAL asks it: with the provider in state `p`, an
acquisition started at `started` may answer `r` and leave `p'`. -/
abbrev Provider (π : Type) : Type := π → (started : ℚ) → Except Exc (Dict Json) → π → Prop

/-- D365 answered 401 to a request with this token when the provider was like this. -/
structure Rejection (π : Type) where
  token : String
  provider : π

/-- A request on its way: its token and, when it is the next attempt after a first
401, that rejection. -/
structure Sent (π : Type) where
  token : String
  rejected : Option (Rejection π)

/-- What the calls share. `clock` holds the readings to come from reading `ticks`
on; the last two fields are a record of what went out. -/
structure Service (π : Type) where
  clock : Clock
  ticks : ℕ := 0
  token : Option AccessToken := none
  locked : Bool := false
  provider : π
  /-- For each acquisition, the check that led to it. -/
  acquisitions : List ℚ := []
  requests : List (Sent π) := []

def Service.now {π : Type} (s : Service π) : ℚ := s.clock s.ticks

/-- What is known about one call: its last check, when its own acquisition started,
the token of its last request and, until its next one, its first rejection. -/
structure TokenSession (π : Type) where
  checked : ℚ := 0
  started : Option ℚ := none
  sent : Option String := none
  refreshed : Bool := false
  rejected : Option (Rejection π) := none

section Loop

variable {π : Type}

/-- What happens at once. -/
def statements : Statements ServiceOp ServiceOp.Answer Exc (Service π) (TokenSession π)
  | .time => some fun s l =>
      (.ok s.now, { s with ticks := s.ticks + 1 }, { l with checked := s.now })
  | .token => some fun s l => (.ok s.token, s, l)
  | .setToken token => some fun s l => (.ok (), { s with token := token }, l)
  | .lockRelease => some fun s l => (.ok (), { s with locked := false }, l)
  | .toThread => some fun s l =>
      (.ok (), { s with ticks := s.ticks + 1, acquisitions := s.acquisitions ++ [l.checked] },
        { l with started := some s.now })
  | .send request => some fun s l =>
      (.ok (), { s with requests := s.requests ++ [⟨request.token, l.rejected⟩] },
        { l with sent := some request.token, rejected := none })
  | _ => none

/-- The session after an answer of D365: a first 401 is remembered. -/
def TokenSession.heard (l : TokenSession π) (p : π) : Except Exc Response → TokenSession π
  | .ok response =>
      if response.status_code = 401 ∧ l.refreshed = false then
        { l with refreshed := true, rejected := l.sent.map (⟨·, p⟩) }
      else l
  | .error _ => l

/-- What is awaited. The lock is handed to one call at a time, the provider answers
as it may, and D365 and the waits may answer anything. -/
inductive Awaited (answers : Provider π) : (o : ServiceOp) → Service π → TokenSession π →
    Except Exc o.Answer → Service π → TokenSession π → Prop
  | lockAcquire {s l} (h : s.locked = false) :
      Awaited answers .lockAcquire s l (.ok ()) { s with locked := true } l
  | acquireTokenForClient {s l started r p} (hstarted : l.started = some started)
      (h : answers s.provider started r p) :
      Awaited answers .acquireTokenForClient s l r { s with provider := p } l
  | response {s l} (r : Except Exc Response) :
      Awaited answers .response s l r s (l.heard s.provider r)
  | sleep {s l delay} (r : Except Exc Unit) : Awaited answers (.sleep delay) s l r s l

/-! ## What every step keeps -/

/-- Whatever a call does, the clock goes on, acquisitions are only added, and its last
check is not in the future. -/
structure Moves (x y : Service π × TokenSession π) : Prop where
  clock : y.1.clock = x.1.clock
  ticks : x.1.ticks ≤ y.1.ticks
  acquisitions : x.1.acquisitions <+: y.1.acquisitions
  checked : Monotone x.1.clock → x.2.checked ≤ x.1.now →
    x.2.checked ≤ y.2.checked ∧ y.2.checked ≤ y.1.now

theorem Moves.refl (x : Service π × TokenSession π) : Moves x x :=
  ⟨rfl, le_rfl, List.prefix_rfl, fun _ h => ⟨le_rfl, h⟩⟩

theorem Moves.trans {x y z : Service π × TokenSession π} (h : Moves x y) (h' : Moves y z) :
    Moves x z where
  clock := h'.clock.trans h.clock
  ticks := h.ticks.trans h'.ticks
  acquisitions := h.acquisitions.trans h'.acquisitions
  checked := by
    intro hclock hx
    obtain ⟨hxy, hy⟩ := h.checked hclock hx
    obtain ⟨hyz, hz⟩ := h'.checked (h.clock ▸ hclock) hy
    exact ⟨hxy.trans hyz, hz⟩

theorem moves_statement (o : ServiceOp) (f) (s : Service π) (l : TokenSession π)
    (ho : statements o = some f) : Moves (s, l) (f s l).2 := by
  cases o with
  | time =>
    obtain rfl := Option.some.inj ho
    exact ⟨rfl, Nat.le_succ _, List.prefix_rfl,
      fun hclock hl => ⟨hl, hclock (Nat.le_succ _)⟩⟩
  | token =>
    obtain rfl := Option.some.inj ho
    exact Moves.refl _
  | setToken token =>
    obtain rfl := Option.some.inj ho
    exact ⟨rfl, le_rfl, List.prefix_rfl, fun _ hl => ⟨le_rfl, hl⟩⟩
  | lockRelease =>
    obtain rfl := Option.some.inj ho
    exact ⟨rfl, le_rfl, List.prefix_rfl, fun _ hl => ⟨le_rfl, hl⟩⟩
  | toThread =>
    obtain rfl := Option.some.inj ho
    exact ⟨rfl, Nat.le_succ _, List.prefix_append _ _,
      fun hclock hl => ⟨le_rfl, hl.trans (hclock (Nat.le_succ _))⟩⟩
  | send request =>
    obtain rfl := Option.some.inj ho
    exact ⟨rfl, le_rfl, List.prefix_rfl, fun _ hl => ⟨le_rfl, hl⟩⟩
  | _ => cases ho

open D365Client in
theorem heard_of_not_unauthorized (l : TokenSession π) (p : π) {r : Except Exc Response}
    (h : unauthorized r = false) : l.heard p r = l := by
  cases r with
  | error e => rfl
  | ok response =>
    have hstatus : response.status_code ≠ 401 := by simpa [unauthorized] using h
    simp only [TokenSession.heard]
    exact if_neg fun hfirst => hstatus hfirst.1

open D365Client in
theorem heard_of_unauthorized {l : TokenSession π} (p : π) {r : Except Exc Response}
    (h : unauthorized r = true) (hfirst : l.refreshed = false) :
    l.heard p r = { l with refreshed := true, rejected := l.sent.map (⟨·, p⟩) } := by
  cases r with
  | error e => cases h
  | ok response =>
    have hstatus : response.status_code = 401 := by simpa [unauthorized] using h
    simp only [TokenSession.heard]
    exact if_pos ⟨hstatus, hfirst⟩

theorem heard_checked (l : TokenSession π) (p : π) (r : Except Exc Response) :
    (l.heard p r).checked = l.checked := by
  cases r with
  | error e => rfl
  | ok response =>
    simp only [TokenSession.heard]
    split <;> rfl

theorem moves_awaited {answers : Provider π} {o : ServiceOp} {s s' : Service π}
    {l l' : TokenSession π} {r : Except Exc o.Answer} (h : Awaited answers o s l r s' l') :
    Moves (s, l) (s', l') := by
  cases h with
  | lockAcquire _ => exact ⟨rfl, le_rfl, List.prefix_rfl, fun _ hl => ⟨le_rfl, hl⟩⟩
  | acquireTokenForClient _ _ => exact ⟨rfl, le_rfl, List.prefix_rfl, fun _ hl => ⟨le_rfl, hl⟩⟩
  | response r =>
    refine ⟨rfl, le_rfl, List.prefix_rfl, ?_⟩
    intro _ hl
    change l.checked ≤ (l.heard s.provider r).checked ∧ (l.heard s.provider r).checked ≤ s.now
    rw [heard_checked]
    exact ⟨le_rfl, hl⟩
  | sleep r => exact Moves.refl _

/-- What a turn of a call keeps. -/
theorem moves_turn {α : Type} {answers : Provider π} {o : ServiceOp} {s s₁ s' : Service π}
    {l l₁ l' : TokenSession π} {r : Except Exc o.Answer} {p p' : Task α}
    (hsem : Awaited answers o s l r s₁ l₁) (hrun : runOn statements p s₁ l₁ = (p', s', l')) :
    Moves (s, l) (s', l') :=
  (moves_awaited hsem).trans (runOn_rel Moves.refl Moves.trans moves_statement hrun)

/-! ## One rule for each operation -/

section Rules

variable {α : Type} {K : Contract (Service π)}
  {sem : OpSem ServiceOp ServiceOp.Answer Exc (Service π) (TokenSession π)}
  {Q : Except Exc α → Service π → Service π → TokenSession π → Prop}
  {s₀ s : Service π} {l : TokenSession π}

theorem keeps_time {f : ℚ → Task α} :
    Keeps K statements sem Q (Prog.perform ServiceOp.time >>= f) s₀ s l ↔
      Keeps K statements sem Q (f s.now) s₀ { s with ticks := s.ticks + 1 }
        { l with checked := s.now } := by
  rw [Keeps.bind_iff, Keeps.perform_sync rfl]
  rfl

theorem keeps_token {f : Option AccessToken → Task α} :
    Keeps K statements sem Q (Prog.perform ServiceOp.token >>= f) s₀ s l ↔
      Keeps K statements sem Q (f s.token) s₀ s l := by
  rw [Keeps.bind_iff, Keeps.perform_sync rfl]
  rfl

theorem keeps_setToken {token : Option AccessToken} {f : Unit → Task α} :
    Keeps K statements sem Q (Prog.tell (ServiceOp.setToken token) >>= f) s₀ s l ↔
      Keeps K statements sem Q (f ()) s₀ { s with token := token } l := by
  rw [Prog.tell_bind, Keeps.op_sync rfl]

theorem keeps_lockRelease {f : Unit → Task α} :
    Keeps K statements sem Q (Prog.tell ServiceOp.lockRelease >>= f) s₀ s l ↔
      Keeps K statements sem Q (f ()) s₀ { s with locked := false } l := by
  rw [Prog.tell_bind, Keeps.op_sync rfl]

theorem keeps_toThread {f : Unit → Task α} :
    Keeps K statements sem Q (Prog.tell ServiceOp.toThread >>= f) s₀ s l ↔
      Keeps K statements sem Q (f ()) s₀
        { s with ticks := s.ticks + 1, acquisitions := s.acquisitions ++ [l.checked] }
        { l with started := some s.now } := by
  rw [Prog.tell_bind, Keeps.op_sync rfl]

theorem keeps_send {request : GetRequest} {f : Unit → Task α} :
    Keeps K statements sem Q (Prog.tell (ServiceOp.send request) >>= f) s₀ s l ↔
      Keeps K statements sem Q (f ()) s₀
        { s with requests := s.requests ++ [⟨request.token, l.rejected⟩] }
        { l with sent := some request.token, rejected := none } := by
  rw [Prog.tell_bind, Keeps.op_sync rfl]

variable {answers : Provider π} (hsem : ∀ o s l r s' l', sem o s l r s' l' →
  Awaited answers o s l r s' l')

include hsem

theorem keeps_lockAcquire {f : Unit → Task α} (hinv : K.inv s) (hguar : K.guar s₀ s)
    (h : ∀ s₁, K.rely s s₁ → K.inv s₁ → s₁.locked = false →
      Keeps K statements sem Q (f ()) s₁ { s₁ with locked := true } l) :
    Keeps K statements sem Q (Prog.perform ServiceOp.lockAcquire >>= f) s₀ s l := by
  rw [Keeps.bind_iff, Keeps.perform_await rfl]
  refine ⟨hinv, hguar, ?_⟩
  intro s₁ hrely hinv₁ r s₂ l₂ hanswer
  cases hsem _ _ _ _ _ _ hanswer with
  | lockAcquire hfree => exact h s₁ hrely hinv₁ hfree

theorem keeps_acquireTokenForClient {f : Dict Json → Task α} (hinv : K.inv s)
    (hguar : K.guar s₀ s)
    (h : ∀ s₁, K.rely s s₁ → K.inv s₁ → ∀ started r p, l.started = some started →
      answers s₁.provider started r p →
      sem .acquireTokenForClient s₁ l r { s₁ with provider := p } l →
      Keeps.andThen K statements sem f Q r s₁ { s₁ with provider := p } l) :
    Keeps K statements sem Q (Prog.perform ServiceOp.acquireTokenForClient >>= f) s₀ s l := by
  rw [Keeps.bind_iff, Keeps.perform_await rfl]
  refine ⟨hinv, hguar, ?_⟩
  intro s₁ hrely hinv₁ r s₂ l₂ hanswer
  cases hsem _ _ _ _ _ _ hanswer with
  | acquireTokenForClient hstarted hprovider =>
    exact h s₁ hrely hinv₁ _ _ _ hstarted hprovider hanswer

theorem keeps_response {Q : Except Exc Response → Service π → Service π → TokenSession π → Prop}
    (hinv : K.inv s) (hguar : K.guar s₀ s)
    (h : ∀ s₁, K.rely s s₁ → K.inv s₁ → ∀ r, Q r s₁ s₁ (l.heard s₁.provider r)) :
    Keeps K statements sem Q (Prog.perform ServiceOp.response) s₀ s l := by
  refine (Keeps.perform_await (o := ServiceOp.response) rfl).mpr ⟨hinv, hguar, ?_⟩
  intro s₁ hrely hinv₁ r s₂ l₂ hanswer
  cases hsem _ _ _ _ _ _ hanswer with
  | response r => exact h s₁ hrely hinv₁ r

theorem keeps_sleep {delay : Delay} {f : Unit → Task α} (hinv : K.inv s) (hguar : K.guar s₀ s)
    (h : ∀ s₁, K.rely s s₁ → K.inv s₁ → ∀ r, Keeps.andThen K statements sem f Q r s₁ s₁ l) :
    Keeps K statements sem Q (Prog.perform (ServiceOp.sleep delay) >>= f) s₀ s l := by
  rw [Keeps.bind_iff, Keeps.perform_await rfl]
  refine ⟨hinv, hguar, ?_⟩
  intro s₁ hrely hinv₁ r s₂ l₂ hanswer
  cases hsem _ _ _ _ _ _ hanswer with
  | sleep r => exact h s₁ hrely hinv₁ r

end Rules

/-! ## Playing the service -/

section Play

variable {C : Type} (provide : π → ℚ → Option (Except Exc (Dict Json) × π))

/-- What an awaited operation answers and leaves, with a provider that can be run; the
cue holds the answer of D365. -/
def answer (_ : C) : (o : ServiceOp) → Service π → TokenSession π → Except Exc Response →
    Option (Except Exc o.Answer × Service π × TokenSession π)
  | .lockAcquire, s, l, _ => if s.locked then none else some (.ok (), { s with locked := true }, l)
  | .acquireTokenForClient, s, l, _ => l.started.bind fun started =>
      (provide s.provider started).map fun x => (x.1, { s with provider := x.2 }, l)
  | .response, s, l, r => some (r, s, l.heard s.provider r)
  | .sleep _, s, l, _ => some (.ok (), s, l)
  | _, _, _, _ => none

theorem answer_awaited {provide : π → ℚ → Option (Except Exc (Dict Json) × π)}
    {answers : Provider π}
    (hprovide : ∀ p started r p', provide p started = some (r, p') → answers p started r p')
    (c : C) (o : ServiceOp) (s : Service π) (l : TokenSession π) (hint : Except Exc Response)
    (r : Except Exc o.Answer) (s' : Service π) (l' : TokenSession π)
    (h : answer provide c o s l hint = some (r, s', l')) : Awaited answers o s l r s' l' := by
  cases o with
  | lockAcquire =>
    cases hlocked : s.locked with
    | true => simp [answer, hlocked] at h
    | false =>
      obtain ⟨rfl, rfl, rfl⟩ := by simpa [answer, hlocked] using h
      exact .lockAcquire hlocked
  | acquireTokenForClient =>
    obtain ⟨started, hstarted, h⟩ := Option.bind_eq_some_iff.mp h
    obtain ⟨⟨r', p'⟩, hanswer, h⟩ := Option.map_eq_some_iff.mp h
    obtain ⟨rfl, rfl, rfl⟩ := by simpa using h
    exact .acquireTokenForClient hstarted (hprovide _ _ _ _ hanswer)
  | response =>
    obtain ⟨rfl, rfl, rfl⟩ := by simpa [answer] using h
    exact .response _
  | sleep delay =>
    obtain ⟨rfl, rfl, rfl⟩ := by simpa [answer] using h
    exact .sleep _
  | _ => cases h

end Play

end Loop

/-- Calls of the service itself. -/
inductive TokenCall where
  | getAccessToken (force_refresh : Bool)
  | invalidate
deriving DecidableEq

/-- `get_access_token` and `invalidate` calls sharing one service. -/
def tokenLoop [UnicodeData] [FloatData] {π : Type} (answers : Provider π) :
    Loop ServiceOp ServiceOp.Answer Exc (Option String) (Service π) (TokenSession π) TokenCall where
  body := fun
    | .getAccessToken force_refresh => do return some (← getAccessToken force_refresh)
    | .invalidate => do
        invalidate
        return none
  start := {}
  sem := fun _ => Awaited answers
  sync := statements

instance [UnicodeData] [FloatData] {π : Type} (answers : Provider π) :
    DecidablePred (tokenLoop answers).admits := fun _ => .isTrue trivial

/-- One request of a `D365Client`. -/
structure ClientCall where
  path : String
  params : Option (Dict String) := none
  accept : Option String := none

/-- `_get` calls of clients sharing one service. -/
def clientLoop [UnicodeData] [FloatData] {π : Type} (max_retries : ℤ) (answers : Provider π) :
    Loop ServiceOp ServiceOp.Answer Exc Response (Service π) (TokenSession π) ClientCall where
  body := fun c => D365Client.get wire max_retries c.path c.params c.accept
  start := {}
  sem := fun _ => Awaited answers
  sync := statements

instance [UnicodeData] [FloatData] {π : Type} (max_retries : ℤ) (answers : Provider π) :
    DecidablePred (clientLoop max_retries answers).admits := fun _ => .isTrue trivial

end D365TokenService

end EmployeePortal.D365
