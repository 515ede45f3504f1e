import EmployeePortal.D365.SingleFlight
import EmployeePortal.D365.TokenDestination
import EmployeePortal.Portal.Authorization
import EmployeePortal.Server.Asking

/-!
# The server refines the portal

Forget the validator, the client and the tokens, and what is left of a run of the server
is a schedule of the portal on the same database: an authenticated request to an employee
route is a call of that route by the user its token stands for, and its response is what
the portal's reply amounts to.
-/

namespace EmployeePortal

open EmployeePortal.Python EmployeePortal.Framework EmployeePortal.Auth EmployeePortal.D365
  EmployeePortal.Core EmployeePortal.Health

variable {κ π : Type}

/-! ## Sessions -/

/-- The request and the call did the same to the database, and what D365 answered to the call
it gave to a GET of the request. -/
structure SameSession (l' : ServerSession π) (l : Session) : Prop where
  database : l = { l'.database with answered := l.answered }
  answered : ∀ x ∈ l.answered, Gave (l'.sent, l'.answered) x.entity x.params x.payload

/-- No operation looks at what D365 answered. -/
theorem Sem.with_answered {o : Op} {db db' : Database} {l l' : Session} {r : Except Exc o.Answer}
    (h : Sem o db l r db' l') (hlocal : ∀ entity params, o ≠ .getEntity entity params)
    (answered : List Exchange) :
    Sem o db { l with answered := answered } r db' { l' with answered := answered } := by
  cases h with
  | selected hrows => exact .selected hrows
  | selectFailed => exact .selectFailed
  | first hrow => exact .first hrow
  | nothing hnone => exact .nothing hnone
  | firstFailed => exact .firstFailed
  | loaded => exact .loaded
  | loadFailed => exact .loadFailed
  | added => exact .added
  | committed hcommit => exact .committed hcommit
  | refused hcommit => exact .refused hcommit
  | commitFailed => exact .commitFailed
  | rolledBack => exact .rolledBack
  | rollbackFailed => exact .rollbackFailed
  | generated => exact .generated
  | answered => exact absurd rfl (hlocal _ _)
  | unanswered => exact absurd rfl (hlocal _ _)

theorem recordGet_subset (o : ServiceOp) (r : Except Exc o.Answer) (q : Heard) :
    q.2 ⊆ (recordGet o r q).2 := by
  unfold recordGet
  split
  · exact List.Subset.refl _
  · exact List.subset_append_left _ _
  · exact List.Subset.refl _

theorem Gave.mono {q q' : Heard} {entity : String} {params : Dict String} {payload : Dict Json}
    (h : Gave q entity params payload) (hq : q.2 ⊆ q'.2) : Gave q' entity params payload := by
  obtain ⟨x, hx, hfrom⟩ := h
  exact ⟨x, hq hx, hfrom⟩

theorem SameSession.record {l' : ServerSession π} {l : Session} (h : SameSession l' l)
    (o : ServiceOp) (r : Except Exc o.Answer) (t : D365TokenService.TokenSession π) :
    SameSession ({ l' with service := t }.record o r) l where
  database := h.database
  answered := fun x hx => (h.answered x hx).mono (recordGet_subset o r (l'.sent, l'.answered))

/-! ## Authentication -/

/-- Until the handler starts, only the validator is asked; a user is bound as the last thing. -/
def authenticating : Protocol (ServerOp κ) ServerOp.Answer Exc (Option AuthenticatedUser) :=
  fun user o _ =>
    match o with
    | .bindUser user' => some (some user')
    | .auth _ => some user
    | _ => none

theorem authTask_obeys {α : Type} (p : AuthTask κ α) (user : Option AuthenticatedUser) :
    Obeys authenticating (fun _ user' => user' = user) (authTask p : ServerTask κ α) user := by
  induction p with
  | ret a => rfl
  | raise e => rfl
  | op o k ih =>
    refine Obeys.bind_iff.mpr (Obeys.attempt_iff.mpr (Obeys.perform_iff.mpr fun r => ?_))
    exact ⟨user, rfl, ih r⟩

/-- The health routes ask nobody else. -/
theorem healthTask_only {α : Type} (p : HealthTask α) :
    (healthTask p : ServerTask κ α).Only fun o => ∃ o', o = .health o' :=
  (Prog.Only.of_forall (P := fun _ => True) (fun _ => trivial) p).fill _
    fun o _ => .perform ⟨o, rfl⟩

section Asking

variable [UnicodeData] [FloatData] {max_retries : ℤ}

/-! ## The handler's questions to D365 -/

/-- Between the operations of the portal: a question to D365 is under way, or the one operation
on the database is yet to come. -/
def Serves (max_retries : ℤ) : (o : Op) → ServerTask κ o.Answer → ServerSession π → Session → Prop
  | .getEntity entity params, m, l', l => SameSession l' l ∧
      Obeys fetching (fun r q => ∀ payload, r = .ok payload → Gave q entity params payload) m
        (l'.sent, l'.answered)
  | o, m, l', l => SameSession l' l ∧ m = perform max_retries o

theorem serves_perform (o : Op) {l' : ServerSession π} {l : Session} (h : SameSession l' l) :
    Serves max_retries o (perform max_retries o : ServerTask κ _) l' l := by
  cases o with
  | getEntity entity params => exact ⟨h, serviceTask_hears (askD365_hears entity params _)⟩
  | _ => exact ⟨h, rfl⟩

/-- An operation on the database is itself. -/
theorem serves_local {o : Op} (hlocal : ∀ entity params, o ≠ .getEntity entity params)
    {m : ServerTask κ o.Answer} {l' : ServerSession π} {l : Session}
    (h : Serves max_retries o m l' l) :
    SameSession l' l ∧ m = Prog.perform (ServerOp.database o) := by
  cases o with
  | getEntity entity params => exact absurd rfl (hlocal entity params)
  | _ => exact h

theorem serves_done {o : Op} {m : ServerTask κ o.Answer} {l' : ServerSession π} {l : Session}
    {x : Except Exc o.Answer} (h : Serves max_retries o m l' l)
    (hresult : m.result = some x) (db : Database) : ∃ l₂, Sem o db l x db l₂ ∧ SameSession l' l₂ := by
  by_cases hlocal : ∀ entity params, o ≠ .getEntity entity params
  · obtain ⟨-, rfl⟩ := serves_local hlocal h
    cases hresult
  · push Not at hlocal
    obtain ⟨entity, params, rfl⟩ := hlocal
    obtain ⟨hsame, hobeys⟩ := h
    rw [Prog.eq_ofExcept_of_result hresult, Obeys.ofExcept_iff] at hobeys
    cases x with
    | error e => exact ⟨l, .unanswered, hsame⟩
    | ok payload =>
      refine ⟨{ l with answered := l.answered ++ [⟨entity, params, payload⟩] }, .answered, ?_, ?_⟩
      · rw [hsame.database]
      intro y hy
      rcases List.mem_append.mp hy with hold | hnew
      · exact hsame.answered y hold
      · obtain rfl := List.mem_singleton.mp hnew
        exact hobeys payload rfl

end Asking

section Server

variable [Jwt κ] [UnicodeData] [UrlData] [FloatData] {settings : D365Settings}
  {answers : D365TokenService.Provider π}

/-! ## What an operation of the server does to the rest -/

/-- A step of the service. -/
theorem does_service {c : ServerCall} {o : ServiceOp} {s s' : Server κ π} {l l' : ServerSession π}
    {r : Except Exc o.Answer} (h : (server κ settings answers).Does c (.service o) s l r s' l') :
    (∃ service, s' = { s with service }) ∧ ∃ t, l' = { l with service := t }.record o r := by
  unfold Loop.Does at h
  cases hstatement : D365TokenService.statements (π := π) o with
  | some f =>
    have hsync : (server κ settings answers).sync (.service o) = _ :=
      congrArg (Option.map _) hstatement
    rw [hsync, Option.map_some] at h
    cases h
    exact ⟨⟨_, rfl⟩, _, rfl⟩
  | none =>
    have hsync : (server κ settings answers).sync (.service o) = _ :=
      congrArg (Option.map _) hstatement
    rw [hsync] at h
    cases h with
    | service hawaited hforeign => exact ⟨⟨_, rfl⟩, _, rfl⟩

/-- A step of the validator. -/
theorem does_auth {c : ServerCall} {o : AuthOp κ} {s s' : Server κ π} {l l' : ServerSession π}
    {r : Except Exc o.Answer} (h : (server κ settings answers).Does c (.auth o) s l r s' l') :
    (∃ keys, s' = { s with keys }) ∧ ∃ k, l' = { l with keys := k } := by
  unfold Loop.Does at h
  cases hstatement : EntraTokenValidator.statements o with
  | some f =>
    have hsync : (server κ settings answers).sync (.auth o) = _ :=
      congrArg (Option.map _) hstatement
    rw [hsync, Option.map_some] at h
    cases h
    exact ⟨⟨_, rfl⟩, _, rfl⟩
  | none =>
    have hsync : (server κ settings answers).sync (.auth o) = _ :=
      congrArg (Option.map _) hstatement
    rw [hsync] at h
    cases h with
    | auth hawaited hforeign => exact ⟨⟨_, rfl⟩, _, rfl⟩

/-- A step on the database is the portal's. -/
theorem does_database {c : ServerCall} {o : Op} {s s' : Server κ π} {l l' : ServerSession π}
    {r : Except Exc o.Answer} (h : (server κ settings answers).Does c (.database o) s l r s' l') :
    (∀ entity params, o ≠ .getEntity entity params) ∧
      ∃ db l₁, Sem o s.database l.database r db l₁ ∧ s' = { s with database := db } ∧
        l' = { l with database := l₁ } := by
  cases o with
  | add row =>
    change (_, _, _) = (r, s', l') at h
    cases h
    exact ⟨by simp, _, _, .added, rfl, rfl⟩
  | _ =>
    cases h with
    | database hsem hlocal => exact ⟨hlocal, _, _, hsem, rfl, rfl⟩

theorem does_health {c : ServerCall} {o : HealthOp} {s s' : Server κ π} {l l' : ServerSession π}
    {r : Except Exc o.Answer} (h : (server κ settings answers).Does c (.health o) s l r s' l') :
    s' = s ∧ l' = l := by
  cases h with
  | health r hforeign => exact ⟨rfl, rfl⟩

theorem does_bindUser {c : ServerCall} {user : AuthenticatedUser} {s s' : Server κ π}
    {l l' : ServerSession π} {r : Except Exc Unit}
    (h : (server κ settings answers).Does c (.bindUser user) s l r s' l') :
    s' = s ∧ l' = { l with user := some user } := by
  change (_, _, _) = (r, s', l') at h
  cases h
  exact ⟨rfl, rfl⟩

theorem serves_step {c : ServerCall} {o : Op} {o' : ServerOp κ}
    {k : Except Exc o'.Answer → ServerTask κ o.Answer} {l₁ l' : ServerSession π} {l : Session}
    {s s₁ : Server κ π} {r : Except Exc o'.Answer}
    (h : Serves settings.D365_MAX_RETRIES o (.op o' k) l' l)
    (hdoes : (server κ settings answers).Does c o' s l' r s₁ l₁) :
    s₁.database = s.database ∧ Serves settings.D365_MAX_RETRIES o (k r) l₁ l ∨
      ∃ x l₂, (k r).result = some x ∧ Sem o s.database l x s₁.database l₂ ∧ SameSession l₁ l₂ := by
  by_cases hlocal : ∀ entity params, o ≠ .getEntity entity params
  · obtain ⟨hsame, hop⟩ := serves_local hlocal h
    obtain ⟨rfl, hk⟩ := Prog.op.inj hop
    obtain rfl := eq_of_heq hk
    obtain ⟨-, db, l₂, hsem, rfl, rfl⟩ := does_database hdoes
    refine Or.inr ⟨r, { l₂ with answered := l.answered }, by cases r <;> rfl, ?_, rfl, ?_⟩
    · rw [hsame.database]
      exact hsem.with_answered hlocal l.answered
    · exact hsame.answered
  · push Not at hlocal
    obtain ⟨entity, params, rfl⟩ := hlocal
    obtain ⟨hsame, hobeys⟩ := h
    obtain ⟨q, hnext, hk⟩ := hobeys r
    cases o' with
    | service o' =>
      obtain ⟨⟨service, rfl⟩, t, rfl⟩ := does_service hdoes
      obtain rfl := Option.some.inj hnext
      exact Or.inl ⟨rfl, hsame.record o' r t, hk⟩
    | _ => cases hnext

variable (settings answers) in
/-- How the handler's program runs in the server. -/
def serving (c : ServerCall) (call : Call) :
    Serving ((server κ settings answers).Does c) (portal.sem call) Server.database SameSession
      (perform settings.D365_MAX_RETRIES : (o : Op) → ServerTask κ o.Answer) where
  serves := Serves settings.D365_MAX_RETRIES
  start := fun o _ _ h => serves_perform o h
  step := serves_step
  done := serves_done

/-! ## Before the handler -/

omit [FloatData] in
theorem getCurrentUser_obeys (settings : Settings) (credentials : Option (String × String))
    (user : Option AuthenticatedUser) :
    Obeys authenticating (fun r user' => ∀ u, r = .ok u → user' = some u)
      (getCurrentUser settings credentials : ServerTask κ AuthenticatedUser) user := by
  unfold getCurrentUser
  rw [Prog.liftM_eq, Obeys.bind_iff, Obeys.ofExcept_iff]
  cases bearerToken credentials with
  | error e =>
    intro u h
    cases h
  | ok token =>
    refine Obeys.bind_iff.mpr ((authTask_obeys _ user).mono ?_)
    rintro (e | user') _ rfl
    · intro u h
      cases h
    · refine Obeys.tell fun r => ⟨some user', rfl, ?_⟩
      intro u h
      rw [Except.ok.inj h]

/-! ## Where a request is -/

def serveRoute (settings : D365Settings) (c : ServerCall) (route : Route)
    (user : AuthenticatedUser) : ServerTask κ (HttpReply ServerAnswer) := do
  let reply ← (route.call (stated c.request c.request_id) user).body.fill
    (perform settings.D365_MAX_RETRIES)
  return { content := .answer (.inl reply) }

/-- The response to what the handler came to. -/
def routeResponse (c : ServerCall) (x : Except Exc Reply) : Except Exc (HttpReply ServerAnswer) :=
  dispatch c.request_id (x.map fun reply => { content := .answer (.inl reply) })

variable (settings answers) in
/-- Which call of the portal a request stands for, if it has come to the handler. -/
inductive Stands (c : ServerCall) : ServerTask κ (HttpReply ServerAnswer) → ServerSession π →
    Option Portal.Thread → Prop
  /-- No employee route, or not past the authentication. -/
  | outside {p l} (hp : p.Only fun o : ServerOp κ => ∃ o', o = .health o')
      (hclean : l.database = {}) (houtside : (∀ route, c.endpoint ≠ .employee route) ∨
        ∃ e, p = .ofExcept (dispatch c.request_id (.error e))) : Stands c p l none
  | authenticating {route} {m : ServerTask κ AuthenticatedUser} {l}
      (hroute : c.endpoint = .employee route) (hm : m.result = none)
      (h : Obeys authenticating (fun r user => ∀ u, r = .ok u → user = some u) m l.user)
      (hclean : l.database = {}) (hunasked : l.answered = []) :
      Stands c ((m >>= serveRoute settings c route).conclude (dispatch c.request_id)) l none
  | handling {route user} {q' : ServerTask κ Reply} {l q lp}
      (hroute : c.endpoint = .employee route) (huser : l.user = some user)
      (h : (serving settings answers c
        (route.call (stated c.request c.request_id) user)).Follows q' l q lp) :
      Stands c (q'.conclude (routeResponse c)) l
        (some ⟨route.call (stated c.request c.request_id) user, lp, q, false⟩)

omit [Jwt κ] [UrlData] in
theorem serveRoute_conclude (c : ServerCall) (route : Route) (user : AuthenticatedUser) :
    (serveRoute settings c route user : ServerTask κ _).conclude (dispatch c.request_id) =
      ((route.call (stated c.request c.request_id) user).body.fill
        (perform settings.D365_MAX_RETRIES)).conclude (routeResponse c) := by
  rw [serveRoute]
  generalize (route.call (stated c.request c.request_id) user).body.fill
    (perform settings.D365_MAX_RETRIES) = p
  induction p with
  | ret a => rfl
  | raise e => rfl
  | op o k ih => exact congrArg (Prog.op o) (funext ih)

/-- What authentication comes to decides whether the handler starts. -/
theorem stands_authenticated {c : ServerCall} {route : Route} {m : ServerTask κ AuthenticatedUser}
    {l : ServerSession π} (hroute : c.endpoint = .employee route)
    (h : Obeys authenticating (fun r user => ∀ u, r = .ok u → user = some u) m l.user)
    (hclean : l.database = {}) (hunasked : l.answered = []) (db : Database) :
    ∃ x, portal.Locally (db, none) (db, x) ∧ Stands settings answers c
      ((m >>= serveRoute settings c route).conclude (dispatch c.request_id)) l x := by
  cases hresult : m.result with
  | none => exact ⟨none, .refl, .authenticating hroute hresult h hclean hunasked⟩
  | some r =>
    rw [Prog.eq_ofExcept_of_result hresult] at h ⊢
    cases r with
    | error e =>
      exact ⟨none, .refl, .outside (Prog.Only.ofExcept _) hclean (Or.inr ⟨e, rfl⟩)⟩
    | ok user =>
      have huser : l.user = some user := Obeys.ofExcept_iff.mp h user rfl
      rw [Prog.ofExcept_ok, Prog.ret_bind, serveRoute_conclude]
      have hsame : SameSession l {} := by
        refine ⟨?_, by simp⟩
        rw [hclean]
      obtain ⟨p₁, l₁, hlocal, hfollows⟩ := Serving.follows_fill
        (V := serving (κ := κ) settings answers c
          (route.call (stated c.request c.request_id) user)) hsame
        (route.call (stated c.request c.request_id) user).body db
      exact ⟨_, .head (.spawn _ trivial) hlocal, .handling hroute huser hfollows⟩

/-- The handler binds nobody else. -/
theorem follows_user {c : ServerCall} {call : Call} {o : ServerOp κ}
    {k : Except Exc o.Answer → ServerTask κ Reply} {l l' : ServerSession π} {lp : Session}
    {q : Coroutine Reply} {s s' : Server κ π} {r : Except Exc o.Answer}
    (h : (serving settings answers c call).Follows (.op o k) l q lp)
    (hdoes : (server κ settings answers).Does c o s l r s' l') : l'.user = l.user := by
  cases o with
  | bindUser user =>
    generalize hq : Prog.op (ServerOp.bindUser user) k = q' at h
    cases h with
    | @ended x l lp hsame => cases x <;> cases hq
    | @inside o k' m l lp hm hserves =>
      obtain ⟨o'', k'', rfl⟩ := Prog.exists_op_of_result hm
      obtain ⟨rfl, hk⟩ := Prog.op.inj hq
      by_cases hlocal : ∀ entity params, o ≠ .getEntity entity params
      · obtain ⟨hbind, -⟩ := Prog.op.inj (serves_local hlocal hserves).2
        cases hbind
      · push Not at hlocal
        obtain ⟨entity, params, rfl⟩ := hlocal
        obtain ⟨q, hnext, -⟩ := hserves.2 (.ok ())
        cases hnext
  | auth o' =>
    obtain ⟨-, keys, rfl⟩ := does_auth hdoes
    rfl
  | database o' =>
    obtain ⟨-, db, l₁, -, -, rfl⟩ := does_database hdoes
    rfl
  | service o' =>
    obtain ⟨-, t, rfl⟩ := does_service hdoes
    rfl
  | health o' =>
    obtain ⟨-, rfl⟩ := does_health hdoes
    rfl

theorem stands_step {c : ServerCall} {o : ServerOp κ}
    {k : Except Exc o.Answer → ServerTask κ (HttpReply ServerAnswer)} {l l' : ServerSession π}
    {x : Option Portal.Thread} {s s' : Server κ π} {r : Except Exc o.Answer}
    (h : Stands settings answers c (.op o k) l x)
    (hdoes : (server κ settings answers).Does c o s l r s' l') :
    ∃ x', portal.Locally (s.database, x) (s'.database, x') ∧
      Stands settings answers c (k r) l' x' := by
  generalize hq : Prog.op o k = q at h
  cases h with
  | outside hp hclean houtside =>
    subst hq
    obtain ⟨⟨o', rfl⟩, hk⟩ := hp
    obtain ⟨rfl, rfl⟩ := does_health hdoes
    refine ⟨none, .refl, .outside (hk r) hclean (houtside.imp_right ?_)⟩
    rintro ⟨e, he⟩
    cases hx : dispatch (β := ServerAnswer) c.request_id (.error e) <;> rw [hx] at he <;> cases he
  | @authenticating route m l hroute hm h hclean hunasked =>
    obtain ⟨o'', k'', rfl⟩ := Prog.exists_op_of_result hm
    obtain ⟨rfl, hk⟩ := Prog.op.inj hq
    obtain rfl := eq_of_heq hk
    obtain ⟨user, hnext, hrest⟩ := h r
    cases o with
    | bindUser user' =>
      obtain rfl := Option.some.inj hnext
      obtain ⟨rfl, rfl⟩ := does_bindUser hdoes
      exact stands_authenticated (l := { l with user := some user' }) hroute hrest hclean hunasked _
    | auth o' =>
      obtain rfl := Option.some.inj hnext
      obtain ⟨⟨keys, rfl⟩, k, rfl⟩ := does_auth hdoes
      exact stands_authenticated (l := { l with keys := k }) hroute hrest hclean hunasked _
    | _ => cases hnext
  | @handling route user q' l q lp hroute huser h =>
    cases q' with
    | ret a => cases hx : routeResponse c (.ok a) <;> simp [Prog.conclude, hx] at hq
    | raise e => cases hx : routeResponse c (.error e) <;> simp [Prog.conclude, hx] at hq
    | op o'' k'' =>
      obtain ⟨rfl, hk⟩ := Prog.op.inj hq
      obtain rfl := eq_of_heq hk
      obtain ⟨p₁, l₂, hlocal, hfollows⟩ := Serving.follows_step h hdoes
      exact ⟨_, hlocal, .handling hroute ((follows_user h hdoes).trans huser) hfollows⟩

/-! ## Runs -/

variable (settings answers) in
def portalSimulation : Simulation (server κ settings answers) portal where
  abs := Server.database
  rel := Stands settings answers
  start := by
    intro c _
    change Stands settings answers c ((handler settings c).conclude (dispatch c.request_id)) {} none
    unfold handler
    cases hendpoint : c.endpoint with
    | employee route =>
      change Stands settings answers c ((getCurrentUser settings.toSettings c.request.credentials >>=
        serveRoute settings c route).conclude (dispatch c.request_id)) {} none
      have hobeys := getCurrentUser_obeys (κ := κ) settings.toSettings c.request.credentials none
      cases hresult : (getCurrentUser settings.toSettings c.request.credentials :
          ServerTask κ AuthenticatedUser).result with
      | none => exact .authenticating hendpoint hresult hobeys rfl rfl
      | some r =>
        rw [Prog.eq_ofExcept_of_result hresult] at hobeys ⊢
        cases r with
        | error e => exact .outside (Prog.Only.ofExcept _) rfl (Or.inr ⟨e, rfl⟩)
        | ok user => cases Obeys.ofExcept_iff.mp hobeys user rfl
    | health => exact .outside trivial rfl (Or.inl (by simp [hendpoint]))
    | live => exact .outside trivial rfl (Or.inl (by simp [hendpoint]))
    | ready =>
      refine .outside ?_ rfl (Or.inl (by simp [hendpoint]))
      exact Prog.Only.conclude _ (.bind (healthTask_only _) fun _ => trivial)
  step := stands_step
  env := fun henv => henv.1

abbrev ServerThread (κ π : Type) : Type :=
  Thread (ServerOp κ) ServerOp.Answer Exc (HttpReply ServerAnswer) (ServerSession π) ServerCall

abbrev ServerPool (κ π : Type) : Type :=
  Pool (ServerOp κ) ServerOp.Answer Exc (HttpReply ServerAnswer) (Server κ π) (ServerSession π)
    ServerCall

/-- The request is this call of the portal by its user; where it is over, so is the call, and
the response is what its result amounts to. -/
structure HandledAs (t : ServerThread κ π) (t' : Portal.Thread) (route : Route)
    (user : AuthenticatedUser) : Prop where
  endpoint : t.call.endpoint = .employee route
  bound : t.sess.user = some user
  call : t'.call = route.call (stated t.call.request t.call.request_id) user
  uncut : t'.cut = false
  result : ∀ x, t.prog.result = some x →
    ∃ y, t'.prog.result = some y ∧ x = routeResponse t.call y ∧ SameSession t.sess t'.sess

/-- The requests that came to a handler are the calls of the portal, one by one; the others did
nothing to the database and are refused, if they are for an employee route. -/
structure Refines (P' : ServerPool κ π) (P : Portal.Pool) (place : ℕ → Option ℕ) : Prop where
  store : P.store = P'.store.database
  injective : ∀ m n j, place m = some j → place n = some j → m = n
  onto : ∀ j, j < P.threads.length → ∃ n, place n = some j
  handled : ∀ n t j, P'.threads[n]? = some t → place n = some j →
    ∃ t' route user, P.threads[j]? = some t' ∧ HandledAs t t' route user
  refused : ∀ n t, P'.threads[n]? = some t → place n = none → t.sess.database = {} ∧
    ∀ route, t.call.endpoint = .employee route → ∀ x, t.prog.result = some x →
      ∃ e, x = dispatch t.call.request_id (.error e)

theorem Stands.handled {t : ServerThread κ π} {t' : Portal.Thread}
    (h : Stands settings answers t.call t.prog t.sess (some t')) :
    ∃ route user, HandledAs t t' route user := by
  obtain ⟨c, l, p, cut⟩ := t
  dsimp only at h
  cases h with
  | @handling route user q' l q lp hroute huser hfollows =>
    refine ⟨route, user, hroute, huser, rfl, rfl, fun x hx => ?_⟩
    cases hresult : q'.result with
    | none =>
      obtain ⟨o, k, rfl⟩ := Prog.exists_op_of_result hresult
      cases hx
    | some y =>
      obtain ⟨rfl, hsame⟩ := hfollows.result hresult
      refine ⟨y, by cases y <;> rfl, ?_, hsame⟩
      rw [Prog.eq_ofExcept_of_result hresult, Prog.conclude_ofExcept] at hx
      cases hy : routeResponse c y <;> rw [hy] at hx <;> exact (Option.some.inj hx).symm

theorem Stands.refused {t : ServerThread κ π}
    (h : Stands settings answers t.call t.prog t.sess none) : t.sess.database = {} ∧
      ∀ route, t.call.endpoint = .employee route → ∀ x, t.prog.result = some x →
        ∃ e, x = dispatch t.call.request_id (.error e) := by
  obtain ⟨c, l, p, cut⟩ := t
  dsimp only at h ⊢
  cases h with
  | outside hp hclean houtside =>
    refine ⟨hclean, fun route hroute x hx => ?_⟩
    rcases houtside with hother | ⟨e, rfl⟩
    · exact absurd hroute (hother route)
    · refine ⟨e, ?_⟩
      cases he : dispatch (β := ServerAnswer) c.request_id (.error e) <;> rw [he] at hx <;>
        exact (Option.some.inj hx).symm
  | @authenticating route m l hroute hm hobeys hclean hunasked =>
    refine ⟨hclean, fun _ _ x hx => ?_⟩
    obtain ⟨o, k, rfl⟩ := Prog.exists_op_of_result hm
    cases hx

theorem refines_of_matched {P' : ServerPool κ π} {P : Portal.Pool} {place : ℕ → Option ℕ}
    (h : (portalSimulation settings answers).Matched P' P place) : Refines P' P place := by
  refine ⟨h.store, h.injective, h.onto, fun n t j ht hplace => ?_, fun n t ht hplace => ?_⟩
  · have hrel := h.rel n t ht
    have hj := List.getElem?_eq_getElem (h.bound n j hplace).2
    rw [hplace, Option.bind_some, hj] at hrel
    obtain ⟨route, user, hhandled⟩ := Stands.handled hrel
    exact ⟨_, route, user, hj, hhandled⟩
  · have hrel := h.rel n t ht
    rw [hplace] at hrel
    exact Stands.refused hrel

/-- **The server refines the portal.** Every run of the server is a schedule of the portal on
its database. -/
theorem server_refines_portal {s : Server κ π} {P' : ServerPool κ π}
    (h : (server κ settings answers).Reaches ⟨s, []⟩ P') :
    ∃ (P : Portal.Pool) (place : ℕ → Option ℕ),
      portal.Reaches ⟨s.database, []⟩ P ∧ Refines P' P place := by
  obtain ⟨P, place, hreaches, hmatched⟩ := (portalSimulation settings answers).reaches h
  exact ⟨P, place, hreaches, refines_of_matched hmatched⟩

end Server

section Example

open Ascii EntraTokenValidator RsaKeys D365TokenService

/-- MSAL hands out tokens for an hour. -/
def hourlyProvider : D365TokenService.Provider Unit := fun _ _ r _ => r = hourly

def exampleSettings : D365Settings :=
  { D365Client.productionSettings with toSettings := testSettings }

abbrev exampleLoop : Loop (ServerOp (String × String)) ServerOp.Answer Exc
    (HttpReply ServerAnswer) (Server (String × String) Unit) (ServerSession Unit) ServerCall :=
  server (String × String) exampleSettings hourlyProvider

def exampleServer : Server (String × String) Unit where
  keys := KeyCache.start Clock.ticking (fun _ => 1760000000)
  database := exampleDatabase
  service := { clock := Clock.ticking, provider := () }

def exampleCall (route : Route) : ServerCall where
  endpoint := .employee route
  request := { credentials := some ("Bearer", signedToken), x_request_id := some "req-1" }
  uuid := firstId

/-- What is left of the request once its token has been found. -/
def exampleProgram (route : Route) :
    ServerTask (String × String) (HttpReply ServerAnswer) :=
  ((do
    let user ← authTask (validate testSettings signedToken)
    Prog.tell (ServerOp.bindUser user)
    return user) >>= serveRoute exampleSettings (exampleCall route) route).conclude
      (dispatch (exampleCall route).request_id)

theorem length_le_utf8ByteSize (s : String) : s.length ≤ s.utf8ByteSize := by
  rw [← String.length_toList]
  conv_rhs => rw [← String.ofList_toList (s := s)]
  induction s.toList with
  | nil => simp
  | cons c l ih =>
    have hc := Char.utf8Size_pos c
    rw [String.ofList_cons, String.utf8ByteSize_append, List.length_cons,
      String.utf8ByteSize_singleton]
    omega

theorem exampleLoop_body (route : Route) :
    exampleLoop.body (exampleCall route) = exampleProgram route := by
  have hshort : signedToken.length ≤ 16384 :=
    (length_le_utf8ByteSize _).trans (by decide +kernel)
  have htoken : bearerToken (some ("Bearer", signedToken)) = .ok signedToken := by
    rw [bearerToken, if_neg (by decide), if_neg (not_lt.mpr hshort)]
  have huser : (getCurrentUser testSettings (some ("Bearer", signedToken)) :
      ServerTask (String × String) AuthenticatedUser) = (do
        let user ← authTask (validate testSettings signedToken)
        Prog.tell (ServerOp.bindUser user)
        return user) := by
    rw [getCurrentUser, Prog.liftM_eq, htoken, Prog.ofExcept_ok, Prog.ret_bind]
  exact congrArg (fun p => (p >>= serveRoute exampleSettings (exampleCall route) route).conclude
    (dispatch (exampleCall route).request_id)) huser

/-- The process when the request has come to its first wait. -/
def exampleStarted (route : Route) : ServerPool (String × String) Unit :=
  let x := runOn exampleLoop.sync (exampleProgram route) exampleServer {}
  ⟨x.2.1, [⟨exampleCall route, x.2.2, x.1, false⟩]⟩

abbrev exampleServerPlay (route : Route) (hints : List ServerHint) :
    Option (ServerPool (String × String) Unit) :=
  Loop.play exampleLoop (fun _ o => o.play fun _ _ => some (hourly, ())) (fun _ _ => none)
    (hints.map (Loop.Cue.run 0)) (exampleStarted route)

theorem exampleServerPlay_reaches {route : Route} {hints : List ServerHint}
    {P' : ServerPool (String × String) Unit} (h : exampleServerPlay route hints = some P') :
    exampleLoop.Reaches ⟨exampleServer, []⟩ P' := by
  have hspawn : ∀ x, runOn exampleLoop.sync (exampleLoop.body (exampleCall route))
      exampleServer {} = x → exampleLoop.Turn ⟨exampleServer, []⟩ (.spawn (exampleCall route))
        ⟨x.2.1, [⟨exampleCall route, x.2.2, x.1, false⟩]⟩ := fun x hx => .spawn _ trivial hx
  refine .head ⟨_, hspawn _ (by rw [exampleLoop_body])⟩ (Loop.play_reaches
    (fun _ _ _ _ _ _ _ _ hplay => ServerOp.play_awaited ?_ hplay) (fun _ _ _ h => by cases h) h)
  rintro p started r p' hhourly
  exact ((Prod.mk.inj (Option.some.inj hhourly)).1).symm

/-- D365 knows one worker, whose balance it has too. -/
def exampleRecord : ServerHint :=
  .d365 (.ok { status_code := 200, json := .ok (.obj [("value", .arr [.obj [
    ("Oid", .str "aaaaaaaa-aaaa-aaaa-aaaa-aaaaaaaaaaaa"), ("Upn", .str "employee@example.test"),
    ("PersonnelNumber", .str "W1"), ("DataArea", .str "SSSA"),
    ("Type", .str "Annual"), ("Available", .int 12)]])]) })

/-- The keys are fetched, a token is acquired, the worker is found and mapped, and the balances
are shown. -/
def exampleServerHints : List ServerHint :=
  let go : ServerHint := .database .go
  [.http keysResponse, .http discoveryResponse, .http keysResponse, go, go, exampleRecord,
    exampleRecord, exampleRecord, go, .database (.uuid firstId), go, go, go, exampleRecord, go]

/-- A request for balances has a user and has been answered with a balance. -/
def isServed (t : ServerThread (String × String) Unit) : Bool :=
  t.call.endpoint = .employee .myLeaveBalances && t.sess.user.isSome &&
    match t.prog with
    | .ret { content := .answer (.inl (.balances response)), .. } => !response.balances.isEmpty
    | _ => false

theorem exampleServerRun : ∃ P', exampleLoop.Reaches ⟨exampleServer, []⟩ P' ∧
    ∃ t ∈ P'.threads, isServed t = true := by
  have hplay : (exampleServerPlay .myLeaveBalances exampleServerHints).any
      (fun P' => P'.threads.any isServed) = true := by
    decide +kernel
  obtain ⟨P', hplay, hserved⟩ := (Option.any_eq_true _ _).mp hplay
  exact ⟨P', exampleServerPlay_reaches hplay, List.any_eq_true.mp hserved⟩

/-- What was answered. -/
theorem isServed_answer {t : ServerThread (String × String) Unit} (h : isServed t = true) :
    t.call.endpoint = .employee .myLeaveBalances ∧ (∃ user, t.sess.user = some user) ∧
      ∃ reply response, t.prog = .ret reply ∧ reply.content = .answer (.inl (.balances response)) := by
  unfold isServed at h
  obtain ⟨hcall, hanswer⟩ := Bool.and_eq_true_iff.mp h
  obtain ⟨hendpoint, huser⟩ := Bool.and_eq_true_iff.mp hcall
  refine ⟨of_decide_eq_true hendpoint, Option.isSome_iff_exists.mp huser, ?_⟩
  split at hanswer
  · rename_i hret
    exact ⟨_, _, hret, rfl⟩
  · cases hanswer

theorem exampleServer_fresh : Fresh exampleServer :=
  ⟨⟨Clock.ticking, fun _ => 1760000000, Clock.ticking_monotone, rfl⟩, rfl⟩

theorem server_refines_portal_balances :
    ∃ (P' : ServerPool (String × String) Unit) (P : Portal.Pool) (place : ℕ → Option ℕ),
      exampleLoop.Reaches ⟨exampleServer, []⟩ P' ∧ (∃ t ∈ P'.threads, isServed t = true) ∧
      portal.Reaches ⟨exampleDatabase, []⟩ P ∧ Refines P' P place := by
  obtain ⟨P', h, hserved⟩ := exampleServerRun
  obtain ⟨P, place, hreaches, hrefines⟩ := server_refines_portal h
  exact ⟨P', P, place, h, hserved, hreaches, hrefines⟩

end Example

end EmployeePortal
