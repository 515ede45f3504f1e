import EmployeePortal.Framework.Sequels
import EmployeePortal.Server.PortalRefinement

/-!
# Who may touch what

A request is bound to the user its own token proves, under a fresh signing key, and to
nobody else. Until that has happened, and unless that user has a role of the portal, it
touches neither the database nor D365.
-/

namespace EmployeePortal

open EmployeePortal.Python EmployeePortal.Framework EmployeePortal.Auth EmployeePortal.D365
  EmployeePortal.Core EmployeePortal.Health EmployeePortal.Employees

variable {κ π : Type}

/-! ## Authenticated requests -/

section Token

variable [Jwt κ] [UnicodeData] [UrlData]

variable (κ) in
/-- The bearer token of the request passes every check, under a fresh key for its key id, as
this user's. -/
def Authenticated (settings : Settings) (request : HttpRequest) (user : AuthenticatedUser)
    (l : EntraTokenValidator.KeySession) : Prop :=
  ∃ (token kid : String) (key : κ) (time : ℚ), bearerToken request.credentials = .ok token ∧
    EntraTokenValidator.readHeader κ token = .ok kid ∧
    EntraTokenValidator.Fresh settings kid key l ∧ l.decoded = some time ∧
    EntraTokenValidator.checkToken settings token key time = .ok user

theorem authenticated_of_validated {settings : Settings} {request : HttpRequest} {token : String}
    {user : AuthenticatedUser} {l : EntraTokenValidator.KeySession}
    (htoken : bearerToken request.credentials = .ok token)
    {r : Except Exc AuthenticatedUser}
    (h : EntraTokenValidator.Validated (κ := κ) settings token l r) (hr : r = .ok user) :
    Authenticated κ settings request user l := by
  cases h with
  | header => cases hr
  | keyless => cases hr
  | checked hheader hkey hdecoded =>
    exact ⟨token, _, _, _, htoken, hheader, hkey.fresh rfl, hdecoded, hr⟩

end Token

/-! ## The two parts of a request -/

section Server

variable [Jwt κ] [UnicodeData] [UrlData] [FloatData] {settings : D365Settings}
  {answers : D365TokenService.Provider π}

omit [FloatData] in
/-- The user of a request to an employee route, which may be refused. -/
def authenticate (settings : Settings) (c : ServerCall) :
    ServerTask κ (Option (Route × AuthenticatedUser)) :=
  match c.endpoint with
  | .employee route => do
      let token ← bearerToken c.request.credentials
      let user ← authTask (EntraTokenValidator.validate settings token)
      return some (route, user)
  | _ => return none

def answerAs (settings : D365Settings) (c : ServerCall) :
    Option (Route × AuthenticatedUser) → ServerTask κ (HttpReply ServerAnswer)
  | some (route, user) => do
      Prog.tell (ServerOp.bindUser user)
      serveRoute settings c route user
  | none =>
      match c.endpoint with
      | .ready => do
          let (status_code, response) ← healthTask ready
          return { status_code, content := .answer (.inr response) }
      | _ => return { content := .answer (.inr live) }

theorem handler_eq (c : ServerCall) : (handler settings c : ServerTask κ _) =
    authenticate settings.toSettings c >>= answerAs settings c := by
  unfold handler authenticate answerAs
  cases c.endpoint with
  | employee route =>
    simp only [employeeRoute, getCurrentUser, serveRoute, bind_assoc, pure_bind]
  | _ => rfl

/-- What a request does before its user is known, and after. -/
def Opens : ServerOp κ → Prop
  | .auth _ => True
  | _ => False

/-- What a handler does. -/
def Asks : ServerOp κ → Prop
  | .database _ | .service _ => True
  | _ => False

def Closes : Option (Route × AuthenticatedUser) → ServerOp κ → Prop
  | some (_, user), .bindUser user' => user' = user
  | some _, o => Asks o
  | none, .health _ => True
  | none, _ => False

omit [Jwt κ] [UrlData] in
theorem serveRoute_only (c : ServerCall) (route : Route) (user : AuthenticatedUser) :
    (serveRoute settings c route user : ServerTask κ _).Only Asks := by
  have hany : ∀ {O : Type} {A : O → Type} {α : Type} (p : Prog O A Exc α),
      p.Only fun _ => True := fun p => .of_forall (fun _ => trivial) p
  refine .bind ((hany _).fill _ fun o _ => ?_) fun reply => trivial
  cases o with
  | getEntity entity params => exact (hany _).fill _ fun o _ => .perform trivial
  | _ => exact .perform trivial

omit [Jwt κ] [UrlData] in
theorem answerAs_only (c : ServerCall) (x : Option (Route × AuthenticatedUser)) :
    (answerAs settings c x : ServerTask κ _).Only (Closes x) := by
  cases x with
  | some x =>
    refine .bind (.tell rfl) fun _ => (serveRoute_only c x.1 x.2).mono fun o ho => ?_
    cases o with
    | database o => trivial
    | service o => trivial
    | _ => exact ho.elim
  | none =>
    unfold answerAs
    cases c.endpoint with
    | ready =>
      refine .bind ((healthTask_only _).mono ?_) fun _ => trivial
      rintro _ ⟨o, rfl⟩
      trivial
    | _ => trivial

omit [FloatData] in
theorem authenticate_only (c : ServerCall) :
    (authenticate settings.toSettings c : ServerTask κ _).Only Opens := by
  unfold authenticate
  cases c.endpoint with
  | employee route =>
    refine .bind (.ofExcept _) fun token => .bind ?_ fun user => trivial
    exact (Prog.Only.of_forall (P := fun _ => True) (fun _ => trivial) _).fill _
      fun o _ => .perform trivial
  | _ => trivial

variable (κ π) in
omit [FloatData] in
/-- The contract of the keys, in the server. -/
abbrev keyContract (settings : D365Settings) : Contract (Server κ π) :=
  (EntraTokenValidator.cacheContract settings.toSettings).comap Server.keys

/-- What has come of the authentication. -/
def Came (settings : D365Settings) (c : ServerCall) :
    Except Exc (Option (Route × AuthenticatedUser)) → ServerSession π → Prop
  | .ok (some (route, user)), l => c.endpoint = .employee route ∧
      Authenticated κ settings.toSettings c.request user l.keys ∧
      (l.user = none ∨ l.user = some user)
  | _, l => l.user = none

/-- An operation of the validator keeps in the server what it keeps on its own. -/
theorem auth_keeps {c : ServerCall} {o : AuthOp κ}
    {Q : Except Exc o.Answer → EntraTokenValidator.KeyCache κ → EntraTokenValidator.KeyCache κ →
      EntraTokenValidator.KeySession → Prop} {s₀ s : Server κ π} {l : ServerSession π}
    (h : Keeps (EntraTokenValidator.cacheContract settings.toSettings)
      EntraTokenValidator.statements EntraTokenValidator.Awaited Q (Prog.perform o) s₀.keys s.keys
      l.keys) :
    Keeps (keyContract κ π settings) (server κ settings answers).sync
      ((server κ settings answers).sem c)
      (fun r s₀ s l' => Q r s₀.keys s.keys l'.keys) (Prog.perform (ServerOp.auth o))
      s₀ s l := by
  cases ho : EntraTokenValidator.statements o with
  | some f =>
    have hsync : (server κ settings answers).sync (.auth o) = _ := congrArg (Option.map _) ho
    rw [Option.map_some] at hsync
    rw [Keeps.perform_sync ho] at h
    rw [Keeps.perform_sync hsync]
    exact h
  | none =>
    have hsync : (server κ settings answers).sync (.auth o) = none :=
      congrArg (Option.map _) ho
    rw [Keeps.perform_await ho] at h
    rw [Keeps.perform_await hsync]
    obtain ⟨hinv, hguar, hanswer⟩ := h
    refine ⟨hinv, hguar, fun s₁ hrely hinv₁ r s₂ l₂ hsem => ?_⟩
    cases hsem with
    | auth hawaited hforeign => exact hanswer _ hrely hinv₁ _ _ _ hawaited

theorem authenticate_keeps (c : ServerCall) (s : Server κ π)
    (h : EntraTokenValidator.Coherent settings.toSettings s.keys) :
    Keeps (keyContract κ π settings) (server κ settings answers).sync
      ((server κ settings answers).sem c)
      (ends (keyContract κ π settings) fun r _ l => l.user = none → Came (κ := κ) settings c r l)
      (authenticate settings.toSettings c) s s {} := by
  have hlater := EntraTokenValidator.Later.refl s.keys
  unfold authenticate
  cases hendpoint : c.endpoint with
  | employee route =>
    cases htoken : bearerToken c.request.credentials with
    | error e => exact ⟨h, hlater, id⟩
    | ok token =>
      dsimp only
      rw [Prog.liftM_eq, Prog.ofExcept_ok, Prog.ret_bind, Keeps.bind_iff]
      have hvalidate := EntraTokenValidator.validate_keeps (κ := κ) token h hlater
      refine Keeps.mono (Keeps.fill auth_keeps hvalidate) ?_
      rintro (e | user) s₀ s₁ l ⟨hinv, hguar, hvalidated⟩
      · exact ⟨hinv, hguar, id⟩
      · exact ⟨hinv, hguar, fun huser =>
          ⟨hendpoint, authenticated_of_validated htoken hvalidated rfl, Or.inl huser⟩⟩
  | _ => exact ⟨h, hlater, id⟩

variable (κ) in
/-- A request is authenticated, and then answered. -/
def authentication (settings : D365Settings) (answers : D365TokenService.Provider π) :
    Sequel (server κ settings answers) (keyContract κ π settings) (Option (Route × AuthenticatedUser))
      (HttpReply ServerAnswer) where
  first := authenticate settings.toSettings
  rest := answerAs settings
  last := fun c => dispatch c.request_id
  body := fun c _ => congrArg (Prog.conclude (dispatch c.request_id)) (handler_eq c)
  opening := Opens
  closing := fun _ => Closes
  first_only := authenticate_only
  rest_only := answerAs_only
  before := fun l => l.user = none
  came := Came (κ := κ) settings
  start := rfl
  keeps := authenticate_keeps
  opens := by
    intro c o s l r s' l' ho hdoes hl
    cases o with
    | auth o =>
      obtain ⟨-, k, rfl⟩ := does_auth hdoes
      exact hl
    | _ => exact ho.elim
  closes := by
    intro c x o s l r s' l' ho hdoes hinv hcame
    have hrely := EntraTokenValidator.Later.refl (κ := κ)
    cases o with
    | bindUser user =>
      obtain ⟨rfl, rfl⟩ := does_bindUser hdoes
      obtain - | ⟨route, user'⟩ := x
      · exact ho.elim
      · obtain rfl : user = user' := ho
        exact ⟨hinv, hrely _, hcame.1, hcame.2.1, Or.inr rfl⟩
    | auth o => cases x <;> exact ho.elim
    | database o =>
      obtain ⟨-, db, l₁, -, rfl, rfl⟩ := does_database hdoes
      exact ⟨hinv, hrely _, by cases x <;> exact hcame⟩
    | service o =>
      obtain ⟨⟨service, rfl⟩, t, rfl⟩ := does_service hdoes
      exact ⟨hinv, hrely _, by cases x <;> exact hcame⟩
    | health o =>
      obtain ⟨rfl, rfl⟩ := does_health hdoes
      exact ⟨hinv, hrely _, hcame⟩
  fair := fun _ _ h => h
  env := by
    rintro s s' hinv ⟨-, hs'⟩
    rw [hs']
    exact ⟨hinv, EntraTokenValidator.Later.refl _⟩

/-! ## Roles -/

/-- The request has done nothing to the database and has not asked for a token or for data. -/
structure Untouched (l : ServerSession π) : Prop where
  database : l.database = {}
  service : l.service = {}
  unsent : l.sent = []
  unasked : l.answered = []

def MayAsk (user : Option AuthenticatedUser) : Prop := ∃ u, user = some u ∧ portalUser u = .ok u

/-- One user is bound, and unless they have a role the database and the service stay untouched. -/
def mediated : Protocol (ServerOp κ) ServerOp.Answer Exc (Option AuthenticatedUser) :=
  fun user o _ =>
    match o with
    | .bindUser user' => if user = none then some (some user') else none
    | .auth _ | .health _ => some user
    | .database _ | .service _ =>
        if user.any fun u => (portalUser u).isOk then some user else none

omit [UnicodeData] [UrlData] [FloatData] [Jwt κ] in
theorem mayAsk_iff (user : Option AuthenticatedUser) :
    (user.any fun u => (portalUser u).isOk) = true ↔ MayAsk user := by
  rw [Option.any_eq_true]
  refine exists_congr fun u => and_congr Iff.rfl ?_
  cases hrole : portalUser u with
  | error e => simp [Except.isOk, Except.toBool]
  | ok u' =>
    obtain rfl := requireRoles_ok hrole
    simp [Except.isOk, Except.toBool]

omit [UrlData] [FloatData] [Jwt κ] in
/-- A route checks the roles before anything else. -/
theorem route_denied {route : Route} {request : Audit.Request} {user : AuthenticatedUser} {e : Exc}
    (h : portalUser user = .error e) : (route.call request user).body = .raise e := by
  have hroute : ∀ {α : Type} (required : Bool) (action resource : String)
      (fetch : Option Mapping → Coroutine α),
      Employees.route request user required action resource fetch = .raise e := by
    intro α required action resource fetch
    rw [Employees.route, h]
    rfl
  cases route with
  | me => exact congrArg (fun p => p >>= fun reply => .ret (Reply.me reply)) (hroute ..)
  | myProfile => exact congrArg (fun p => p >>= fun reply => .ret (Reply.profile reply)) (hroute ..)
  | myLeaveBalances =>
    exact congrArg (fun p => p >>= fun reply => .ret (Reply.balances reply)) (hroute ..)

theorem handler_mediated (c : ServerCall) :
    Obeys mediated (fun _ _ => True) ((server κ settings answers).body c) none := by
  change Obeys mediated _ ((handler settings c).conclude _) none
  rw [Obeys.conclude_iff, handler_eq, Obeys.bind_iff]
  refine .of_only (authenticate_only c) (fun o ho r => ?_) fun x => ?_
  · cases o with
    | auth o => rfl
    | _ => exact ho.elim
  obtain e | (- | ⟨route, user⟩) := x
  · trivial
  · refine .of_only (answerAs_only c none) (fun o ho r => ?_) fun _ => trivial
    cases o with
    | health o => rfl
    | _ => exact ho.elim
  · refine Obeys.tell fun r => ⟨some user, by rw [mediated, if_pos rfl], ?_⟩
    cases hrole : portalUser user with
    | error e =>
      rw [serveRoute, route_denied hrole]
      trivial
    | ok user' =>
      have hasks : MayAsk (some user) := ⟨user, rfl, by rw [hrole, requireRoles_ok hrole]⟩
      refine .of_only (serveRoute_only c route user) (fun o ho r => ?_) fun _ => trivial
      cases o with
      | database o => exact if_pos ((mayAsk_iff _).mpr hasks)
      | service o => exact if_pos ((mayAsk_iff _).mpr hasks)
      | _ => exact ho.elim

/-- Of the session, in a state of the protocol. -/
def Mediates (user : Option AuthenticatedUser) (l : ServerSession π) : Prop :=
  user = l.user ∧ (MayAsk user ∨ Untouched l)

theorem mediates_does {c : ServerCall} {o : ServerOp κ} {s s' : Server κ π}
    {l l' : ServerSession π} {r : Except Exc o.Answer} {user user' : Option AuthenticatedUser}
    (hdoes : (server κ settings answers).Does c o s l r s' l') (h : Mediates user l)
    (hnext : mediated user o r = some user') : Mediates user' l' := by
  obtain ⟨rfl, h⟩ := h
  cases o with
  | bindUser u =>
    obtain ⟨hnone, hsome⟩ := Option.ite_none_right_eq_some.mp hnext
    obtain rfl := Option.some.inj hsome
    obtain ⟨rfl, rfl⟩ := does_bindUser hdoes
    refine ⟨rfl, Or.inr ?_⟩
    rcases h with ⟨u', hu', -⟩ | h
    · rw [hnone] at hu'
      cases hu'
    · exact ⟨h.database, h.service, h.unsent, h.unasked⟩
  | auth o =>
    obtain rfl := Option.some.inj hnext
    obtain ⟨-, k, rfl⟩ := does_auth hdoes
    exact ⟨rfl, h.imp_right fun h => ⟨h.database, h.service, h.unsent, h.unasked⟩⟩
  | health o =>
    obtain rfl := Option.some.inj hnext
    obtain ⟨-, rfl⟩ := does_health hdoes
    exact ⟨rfl, h⟩
  | database o =>
    obtain ⟨hasks, hsome⟩ := Option.ite_none_right_eq_some.mp hnext
    obtain rfl := Option.some.inj hsome
    obtain ⟨-, db, l₁, -, -, rfl⟩ := does_database hdoes
    exact ⟨rfl, Or.inl ((mayAsk_iff _).mp hasks)⟩
  | service o =>
    obtain ⟨hasks, hsome⟩ := Option.ite_none_right_eq_some.mp hnext
    obtain rfl := Option.some.inj hsome
    obtain ⟨-, t, rfl⟩ := does_service hdoes
    exact ⟨rfl, Or.inl ((mayAsk_iff _).mp hasks)⟩

omit [UnicodeData] [UrlData] [FloatData] [Jwt κ] in
/-- A user that has come to be bound has been bound. -/
theorem mem_of_follow {user : AuthenticatedUser} {bound : Option AuthenticatedUser}
    {trace : List (Event (ServerOp κ) ServerOp.Answer Exc)}
    (h : mediated.follow bound trace = some (some user)) :
    bound = some user ∨ ∃ answer, ⟨.bindUser user, answer⟩ ∈ trace := by
  induction trace generalizing bound with
  | nil => exact Or.inl (Option.some.inj h)
  | cons event trace ih =>
    rw [Protocol.follow, List.foldlM_cons] at h
    obtain ⟨bound', hnext, h⟩ := Option.bind_eq_some_iff.mp h
    rcases ih h with rfl | ⟨answer, hmem⟩
    · obtain ⟨o, answer⟩ := event
      cases o with
      | bindUser user' =>
        obtain ⟨-, hsome⟩ := Option.ite_none_right_eq_some.mp hnext
        obtain rfl := Option.some.inj (Option.some.inj hsome)
        exact Or.inr ⟨answer, List.mem_cons_self⟩
      | auth o => exact Or.inl (Option.some.inj hnext)
      | health o => exact Or.inl (Option.some.inj hnext)
      | database o =>
        obtain ⟨-, hsome⟩ := Option.ite_none_right_eq_some.mp hnext
        exact Or.inl (Option.some.inj hsome)
      | service o =>
        obtain ⟨-, hsome⟩ := Option.ite_none_right_eq_some.mp hnext
        exact Or.inl (Option.some.inj hsome)
    · exact Or.inr ⟨answer, List.mem_cons_of_mem _ hmem⟩

/-- Before each operation on the database or on D365 a user with a role of the portal has been
bound. -/
def Mediated (trace : List (Event (ServerOp κ) ServerOp.Answer Exc)) : Prop :=
  ∀ before event after, trace = before ++ event :: after → Asks event.1 →
    ∃ user answer, ⟨.bindUser user, answer⟩ ∈ before ∧ portalUser user = .ok user

/-- Whatever its operations answer, also while others have their turns. -/
theorem body_mediated {c : ServerCall} {trace : List (Event (ServerOp κ) ServerOp.Answer Exc)}
    {x : Except Exc (HttpReply ServerAnswer)}
    (h : ((server κ settings answers).body c).Run trace x) : Mediated trace := by
  rintro before event after rfl hasks
  obtain ⟨bound, hfollow, -⟩ := (handler_mediated c).follow h
  obtain ⟨bound₁, bound₂, hbefore, hnext⟩ := Protocol.follow_append_cons hfollow
  have hmay : MayAsk bound₁ := by
    obtain ⟨o, answer⟩ := event
    cases o with
    | database o => exact (mayAsk_iff _).mp (Option.ite_none_right_eq_some.mp hnext).1
    | service o => exact (mayAsk_iff _).mp (Option.ite_none_right_eq_some.mp hnext).1
    | _ => exact hasks.elim
  obtain ⟨user, rfl, hrole⟩ := hmay
  obtain ⟨answer, hmem⟩ := (mem_of_follow hbefore).resolve_left nofun
  exact ⟨user, answer, hmem, hrole⟩

/-! ## Runs -/

theorem authenticated_of_reaches {s : Server κ π} (hs : Fresh s) {P' : ServerPool κ π}
    (h : (server κ settings answers).Reaches ⟨s, []⟩ P') {t : ServerThread κ π}
    (ht : t ∈ P'.threads) {user : AuthenticatedUser} (huser : t.sess.user = some user) :
    Authenticated κ settings.toSettings t.call.request user t.sess.keys ∧
      ∃ route, t.call.endpoint = .employee route := by
  obtain ⟨clock, wall, hclock, hkeys⟩ := hs.keys
  have hinv : (keyContract κ π settings).inv s := by
    change EntraTokenValidator.Coherent settings.toSettings s.keys
    rw [hkeys]
    exact .start hclock
  obtain ⟨-, hphases⟩ := (authentication κ settings answers).phase_of_reaches hinv h
  have hphase := hphases t ht
  obtain ⟨c, l, p, cut⟩ := t
  dsimp only at hphase huser ⊢
  cases hphase with
  | first hm honly hbefore =>
    rw [show l.user = none from hbefore] at huser
    cases huser
  | failed hbefore =>
    rw [show l.user = none from hbefore] at huser
    cases huser
  | @rest x q s l hq hcame =>
    obtain - | ⟨route, user'⟩ := x
    · rw [show l.user = none from hcame] at huser
      cases huser
    · obtain ⟨hroute, hauthenticated, hbound⟩ := hcame
      rw [huser] at hbound
      obtain rfl := Option.some.inj (hbound.resolve_left nofun)
      exact ⟨hauthenticated, route, hroute⟩

theorem mediates_of_reaches {s : Server κ π} {P' : ServerPool κ π}
    (h : (server κ settings answers).Reaches ⟨s, []⟩ P') {t : ServerThread κ π}
    (ht : t ∈ P'.threads) : MayAsk t.sess.user ∨ Untouched t.sess := by
  obtain ⟨user, ⟨rfl, hmediates⟩, -⟩ := Loop.obeys_of_reaches (fun _ _ _ => True) Mediates
    (fun c o s l r s' l' q q' hdoes hR hnext => mediates_does hdoes hR hnext)
    (fun c _ => ⟨none, ⟨rfl, Or.inr ⟨rfl, rfl, rfl, rfl⟩⟩, handler_mediated c⟩) h t ht
  exact hmediates

/-- **Complete mediation.** In every order of turns: the user of a request is the one its own
token proves, under a fresh key; whatever its operations answer, a request performs none on the
database or on D365 before it has a user with a role of the portal; and one without such a user
has left no trace there. -/
theorem server_mediates {s : Server κ π} (hs : Fresh s) {P' : ServerPool κ π}
    (h : (server κ settings answers).Reaches ⟨s, []⟩ P') {t : ServerThread κ π}
    (ht : t ∈ P'.threads) :
    (∀ user, t.sess.user = some user →
      Authenticated κ settings.toSettings t.call.request user t.sess.keys ∧
        ∃ route, t.call.endpoint = .employee route) ∧
    (∀ trace x, ((server κ settings answers).body t.call).Run trace x → Mediated trace) ∧
    ((∃ user, t.sess.user = some user ∧ portalUser user = .ok user) ∨ Untouched t.sess) :=
  ⟨fun _ huser => authenticated_of_reaches hs h ht huser, fun _ _ hrun => body_mediated hrun,
    mediates_of_reaches h ht⟩

end Server

section Example

open Ascii EntraTokenValidator RsaKeys

/-- A request whose token is found good. -/
theorem server_mediates_balances :
    ∃ (P' : ServerPool (String × String) Unit) (t : ServerThread (String × String) Unit)
      (user : AuthenticatedUser), exampleLoop.Reaches ⟨exampleServer, []⟩ P' ∧ t ∈ P'.threads ∧
      t.sess.user = some user ∧
      Authenticated (String × String) testSettings t.call.request user t.sess.keys := by
  obtain ⟨P', h, t, ht, hserved⟩ := exampleServerRun
  obtain ⟨-, ⟨user, huser⟩, -⟩ := isServed_answer hserved
  exact ⟨P', t, user, h, ht, huser, ((server_mediates exampleServer_fresh h ht).1 user huser).1⟩

end Example

end EmployeePortal
