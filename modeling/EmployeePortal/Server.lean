import EmployeePortal.Auth.KeyLock
import EmployeePortal.D365.TokenLock
import EmployeePortal.Framework.Refinement
import EmployeePortal.Health.Service
import EmployeePortal.Portal

/-!
# The server

One process of the backend: the requests to its routes share the validator's keys, the
database and the token service on one event loop. A request to an employee route is
authenticated, and then runs the portal's handler with every question to D365 asked
through the client: tokens, retries and waits included. The process has the database to
itself but for administrators: a second worker process, or a run of
`create_identity_mapping` meanwhile, is not part of it.
-/

namespace EmployeePortal

open EmployeePortal.Python EmployeePortal.Framework EmployeePortal.Auth EmployeePortal.D365
  EmployeePortal.Core EmployeePortal.Health

/-! ## Operations -/

/-- What a request does, by whom it asks. -/
inductive ServerOp (κ : Type) where
  /-- `bind_contextvars(user_oid=..)`: from here on the request is this user's. -/
  | bindUser (user : AuthenticatedUser)
  | auth (o : AuthOp κ)
  | database (o : Op)
  | service (o : ServiceOp)
  | health (o : HealthOp)

abbrev ServerOp.Answer {κ : Type} : ServerOp κ → Type
  | .bindUser _ => Unit
  | .auth o => AuthOp.Answer o
  | .database o => Op.Answer o
  | .service o => ServiceOp.Answer o
  | .health o => HealthOp.Answer o

abbrev ServerTask (κ α : Type) : Type := Prog (ServerOp κ) ServerOp.Answer Exc α

section Tasks

variable {κ α : Type}

def authTask (p : AuthTask κ α) : ServerTask κ α :=
  p.fill fun o => Prog.perform (ServerOp.auth o)

def serviceTask (p : D365.Task α) : ServerTask κ α :=
  p.fill fun o => Prog.perform (ServerOp.service o)

def healthTask (p : HealthTask α) : ServerTask κ α :=
  p.fill fun o => Prog.perform (ServerOp.health o)

section Code

variable [Jwt κ] [UnicodeData] [UrlData] [FloatData]

/-! ## `auth/dependencies.py` -/

def authenticationRequired : Exc :=
  .portal ⟨"AUTHENTICATION_REQUIRED", "Authentication is required.", 401⟩

/-- The token, where there is one that may be looked at. -/
def bearerToken : Option (String × String) → Except Exc String
  | none => .error authenticationRequired
  | some (scheme, token) =>
      if scheme.toList.flatMap lowerChar ≠ "bearer".toList then .error authenticationRequired
      else if 16384 < token.length then .error EntraTokenValidator.invalid
      else .ok token

def getCurrentUser (settings : Settings) (credentials : Option (String × String)) :
    ServerTask κ AuthenticatedUser := do
  let token ← bearerToken credentials
  let user ← authTask (EntraTokenValidator.validate settings token)
  Prog.tell (ServerOp.bindUser user)
  return user

/-! ## Asking D365 -/

/-- A request of the portal to D365, through the client. -/
def askD365 (max_retries : ℤ) (entity : String) (params : Dict String) :
    D365.Task (Dict Json) := do
  let response ← D365Client.get D365TokenService.wire max_retries entity (some params) none
  D365Client.readPayload response

/-- What an operation of the portal is in this process. -/
def perform (max_retries : ℤ) : (o : Op) → ServerTask κ o.Answer
  | .getEntity entity params => serviceTask (askD365 max_retries entity params)
  | .scalars w => Prog.perform (ServerOp.database (.scalars w))
  | .scalar w => Prog.perform (ServerOp.database (.scalar w))
  | .configuration mapping_key => Prog.perform (ServerOp.database (.configuration mapping_key))
  | .add row => Prog.perform (ServerOp.database (.add row))
  | .commit => Prog.perform (ServerOp.database .commit)
  | .rollback => Prog.perform (ServerOp.database .rollback)
  | .uuid4 => Prog.perform (ServerOp.database .uuid4)

end Code

end Tasks

/-! ## Requests -/

inductive Route where
  | me
  | myProfile
  | myLeaveBalances
deriving DecidableEq

/-- The handler of a route. -/
def Route.call (route : Route) (request : Audit.Request) (user : AuthenticatedUser) : Call :=
  match route with
  | .me => .me request user
  | .myProfile => .myProfile request user
  | .myLeaveBalances => .myLeaveBalances request user

inductive Endpoint where
  | employee (route : Route)
  | health
  | live
  | ready
deriving DecidableEq

/-- A request, with what `uuid4()` gives it. -/
structure ServerCall where
  endpoint : Endpoint
  request : HttpRequest
  uuid : Uuid

def ServerCall.request_id (c : ServerCall) : String := requestId c.request c.uuid

/-- What a handler answers with. -/
abbrev ServerAnswer : Type := Reply ⊕ HealthResponse

section Server

variable {κ π : Type} [Jwt κ] [UnicodeData] [UrlData] [FloatData]

def employeeRoute (settings : D365Settings) (c : ServerCall) (route : Route) :
    ServerTask κ (HttpReply ServerAnswer) := do
  let user ← getCurrentUser settings.toSettings c.request.credentials
  let reply ← (route.call (stated c.request c.request_id) user).body.fill
    (perform settings.D365_MAX_RETRIES)
  return { content := .answer (.inl reply) }

def handler (settings : D365Settings) (c : ServerCall) : ServerTask κ (HttpReply ServerAnswer) :=
  match c.endpoint with
  | .employee route => employeeRoute settings c route
  | .health | .live => return { content := .answer (.inr live) }
  | .ready => do
      let (status_code, response) ← healthTask ready
      return { status_code, content := .answer (.inr response) }

/-- What the requests share. -/
structure Server (κ π : Type) where
  keys : EntraTokenValidator.KeyCache κ
  database : Database
  service : D365TokenService.Service π

/-- What is known about one request: whose it is, what it did in each part, and what D365
answered to which of the GETs it sent. -/
structure ServerSession (π : Type) where
  user : Option AuthenticatedUser := none
  keys : EntraTokenValidator.KeySession := {}
  database : Session := {}
  service : D365TokenService.TokenSession π := {}
  sent : List GetRequest := []
  answered : List (GetRequest × Response) := []

/-- The GETs sent and the answers so far, after an operation: an answer is to the last GET. -/
def recordGet : (o : ServiceOp) → Except Exc o.Answer →
    List GetRequest × List (GetRequest × Response) →
      List GetRequest × List (GetRequest × Response)
  | .send request, _, q => (q.1 ++ [request], q.2)
  | .response, .ok response, q =>
      (q.1, q.2 ++ q.1.getLast?.toList.map fun request => (request, response))
  | _, _, q => q

def ServerSession.record (l : ServerSession π) (o : ServiceOp) (r : Except Exc o.Answer) :
    ServerSession π :=
  { l with
    sent := (recordGet o r (l.sent, l.answered)).1
    answered := (recordGet o r (l.sent, l.answered)).2 }

/-- Of a class that is not the application's own: Python's, which the application raises
too, or a library's. -/
def isForeign : Exc → Bool
  | .portal _ | .d365 _ _ | .systemExit _ => false
  | _ => true

/-- What comes from outside raises nothing of the application's own classes. -/
def foreign {β : Type} : Except Exc β → Bool
  | .ok _ => true
  | .error e => isForeign e

/-- Nor does reading the body of an answer. -/
def Auth.AuthOp.plain : (o : AuthOp κ) → Except Exc o.Answer → Bool
  | .get _, .ok response => foreign response.json
  | _, r => foreign r

def D365.ServiceOp.plain : (o : ServiceOp) → Except Exc o.Answer → Bool
  | .response, .ok answer => foreign answer.json
  | _, r => foreign r

/-- What happens at once. -/
def serverStatements :
    Statements (ServerOp κ) ServerOp.Answer Exc (Server κ π) (ServerSession π)
  | .bindUser user => some fun s l => (.ok (), s, { l with user := some user })
  | .auth o => (EntraTokenValidator.statements o).map fun f s l =>
      let x := f s.keys l.keys
      (x.1, { s with keys := x.2.1 }, { l with keys := x.2.2 })
  | .database (.add row) => some fun s l =>
      (.ok (), s,
        { l with database := { l.database with pending := l.database.pending ++ [row] } })
  | .service o => (D365TokenService.statements o).map fun f s l =>
      let x := f s.service l.service
      (x.1, { s with service := x.2.1 }, { l with service := x.2.2 }.record o x.1)
  | _ => none

/-- What is awaited: each part answers as it may. -/
inductive ServerAwaited (answers : D365TokenService.Provider π) :
    (o : ServerOp κ) → Server κ π → ServerSession π → Except Exc o.Answer →
      Server κ π → ServerSession π → Prop
  | auth {o s l r keys k} (h : EntraTokenValidator.Awaited o s.keys l.keys r keys k)
      (hr : o.plain r = true) :
      ServerAwaited answers (.auth o) s l r { s with keys := keys } { l with keys := k }
  | database {o s l r db l'} (h : Sem o s.database l.database r db l')
      (hlocal : ∀ entity params, o ≠ .getEntity entity params) :
      ServerAwaited answers (.database o) s l r { s with database := db } { l with database := l' }
  | service {o s l r s' l'} (h : D365TokenService.Awaited answers o s.service l.service r s' l')
      (hr : o.plain r = true) :
      ServerAwaited answers (.service o) s l r { s with service := s' }
        ({ l with service := l' }.record o r)
  | health {o s l} (r : Except Exc (HealthOp.Answer o)) (hr : foreign r = true) :
      ServerAwaited answers (.health o) s l r s l

/-- The process. Meanwhile administrators change the flags of mappings and the
configuration, and nobody else writes to the database. -/
def server (κ : Type) [Jwt κ] (settings : D365Settings) (answers : D365TokenService.Provider π) :
    Loop (ServerOp κ) ServerOp.Answer Exc (HttpReply ServerAnswer) (Server κ π) (ServerSession π)
      ServerCall where
  body := fun c => (handler settings c).conclude (dispatch c.request_id)
  start := {}
  sem := fun _ => ServerAwaited answers
  env := fun s s' => AdminStep s.database s'.database ∧ s' = { s with database := s'.database }
  sync := serverStatements

instance (settings : D365Settings) (answers : D365TokenService.Provider π) :
    DecidablePred (server κ settings answers).admits := fun _ => .isTrue trivial

/-- A process as it starts: no keys, no token, both locks free. -/
structure Fresh (s : Server κ π) : Prop where
  keys : ∃ (clock : Clock) (wall : ℕ → ℚ), Monotone clock ∧
    s.keys = EntraTokenValidator.KeyCache.start clock wall
  unlocked : s.service.locked = false

/-! ## Playing the server -/

/-- What a schedule decides, by whom it concerns. -/
inductive ServerHint where
  | http (r : Except Exc HttpResponse)
  | database (hint : Hint)
  | d365 (r : Except Exc Response)
  | probe (r : Except Exc Bool)

variable (provide : π → ℚ → Option (Except Exc (Dict Json) × π))

/-- What an awaited operation answers and leaves, with a provider that can be run. -/
def ServerOp.play : (o : ServerOp κ) → Server κ π → ServerSession π → ServerHint →
    Option (Except Exc o.Answer × Server κ π × ServerSession π)
  | .auth o, s, l, .http hint =>
      (EntraTokenValidator.answer (.validate "") o s.keys l.keys hint).bind fun x =>
        if o.plain x.1 then
          some (x.1, { s with keys := x.2.1 }, { l with keys := x.2.2 })
        else none
  | .database (.getEntity _ _), _, _, _ => none
  | .database o, s, l, .database hint =>
      (o.play s.database l.database hint).map fun x =>
        (x.1, { s with database := x.2.1 }, { l with database := x.2.2 })
  | .service o, s, l, .d365 hint =>
      (D365TokenService.answer provide () o s.service l.service hint).bind fun x =>
        if o.plain x.1 then
          some (x.1, { s with service := x.2.1 }, { l with service := x.2.2 }.record o x.1)
        else none
  | .health .selectOne, s, l, .probe r => if foreign r then some (r.map fun _ => (), s, l) else none
  | .health .ping, s, l, .probe r => if foreign r then some (r, s, l) else none
  | _, _, _, _ => none

omit [Jwt κ] [UnicodeData] [UrlData] [FloatData] in
theorem ServerOp.play_awaited {provide : π → ℚ → Option (Except Exc (Dict Json) × π)}
    {answers : D365TokenService.Provider π}
    (hprovide : ∀ p started r p', provide p started = some (r, p') → answers p started r p')
    {o : ServerOp κ} {s s' : Server κ π} {l l' : ServerSession π} {hint : ServerHint}
    {r : Except Exc o.Answer} (h : o.play provide s l hint = some (r, s', l')) :
    ServerAwaited answers o s l r s' l' := by
  cases o with
  | bindUser user => cases hint <;> cases h
  | auth o =>
    cases hint with
    | http hint =>
      obtain ⟨⟨r', keys, k⟩, hanswer, h⟩ := Option.bind_eq_some_iff.mp h
      dsimp only at h
      split at h
      · rename_i hforeign
        cases h
        exact .auth (EntraTokenValidator.answer_awaited _ _ _ _ _ _ _ _ hanswer) hforeign
      · cases h
    | _ => cases h
  | database o =>
    by_cases hlocal : ∀ entity params, o ≠ .getEntity entity params
    · have hplay : ∃ hint, (o.play s.database l.database hint).map (fun x =>
          (x.1, ({ s with database := x.2.1 } : Server κ π),
            ({ l with database := x.2.2 } : ServerSession π))) = some (r, s', l') := by
        cases o with
        | getEntity entity params => exact absurd rfl (hlocal entity params)
        | _ =>
          cases hint with
          | database hint => exact ⟨hint, h⟩
          | _ => cases h
      obtain ⟨hint, hplay⟩ := hplay
      obtain ⟨⟨r', db, l₁⟩, hanswer, heq⟩ := Option.map_eq_some_iff.mp hplay
      cases heq
      exact .database (Op.play_sem hanswer) hlocal
    · push Not at hlocal
      obtain ⟨entity, params, rfl⟩ := hlocal
      cases h
  | service o =>
    cases hint with
    | d365 hint =>
      obtain ⟨⟨r', service, t⟩, hanswer, h⟩ := Option.bind_eq_some_iff.mp h
      dsimp only at h
      split at h
      · rename_i hforeign
        cases h
        exact .service (D365TokenService.answer_awaited hprovide _ _ _ _ _ _ _ _ hanswer) hforeign
      · cases h
    | _ => cases h
  | health o =>
    cases hint with
    | probe hint =>
      cases o with
      | selectOne =>
        obtain ⟨hforeign, heq⟩ := Option.ite_none_right_eq_some.mp h
        cases heq
        refine .health _ ?_
        cases hint <;> exact hforeign
      | ping =>
        obtain ⟨hforeign, heq⟩ := Option.ite_none_right_eq_some.mp h
        cases heq
        exact .health _ hforeign
    | _ => cases o <;> cases h

end Server

end EmployeePortal
