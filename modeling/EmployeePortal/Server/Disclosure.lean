import EmployeePortal.Server.Mediation
import EmployeePortal.Server.Terms

/-!
# What a response discloses

From the token in the request to the records of D365 and back to the audit table: an
employee route answers with data of the user the request's own token proves, taken from
what D365 answered to this very request, and only once the view is on record under the
id that the response carries.
-/

namespace EmployeePortal

open EmployeePortal.Python EmployeePortal.Framework EmployeePortal.Auth EmployeePortal.D365
  EmployeePortal.Core EmployeePortal.Employees EmployeePortal.Audit

variable {κ π : Type}

section Routes

variable [UnicodeData]

/-! ## What a route answers with -/

theorem route_answers {db : Database} {P : Portal.Pool} (h : portal.Reaches ⟨db, []⟩ P)
    {t : Portal.Thread} (ht : t ∈ P.threads) {route : Route} {request : Request}
    {user : AuthenticatedUser} (hcall : t.call = route.call request user) {reply : Reply}
    (hret : t.Returned reply) : route.Answers reply := by
  have hany : ∀ {α : Type} (p : Coroutine α) (s : Database) (l : Session),
      Safe unconstrained Sem p (fun _ _ _ => True) s l :=
    Safe.trivial id fun _ _ _ _ _ _ _ _ => ⟨trivial, trivial⟩
  have hbody : ∀ (route : Route) (s : Database) (l : Session),
      Safe unconstrained Sem (route.call request user).body
        (fun r _ _ => ∀ reply, r = .ok reply → route.Answers reply) s l := by
    intro route s l
    cases route <;>
    · refine Safe.bind (hany _ s l) (fun a _ _ _ reply h => ?_) fun e _ _ _ reply h => by cases h
      obtain rfl := Except.ok.inj h
      trivial
  obtain ⟨i, hi⟩ := List.getElem?_of_mem ht
  have hsafe := System.safe_of_reaches (S := portal) (K := unconstrained)
    (Q := fun _ c r _ _ => ∀ route : Route, c = route.call request user → ∀ reply, r = .ok reply →
      route.Answers reply)
    (fun _ _ h => h) (fun _ _ _ _ _ _ h _ _ => h) (fun _ _ _ _ => ⟨trivial, trivial⟩)
    (fun _ c s _ _ => ?_) h (System.safe_nil _ _ _ trivial)
  · exact System.post_of_returned hsafe hi hret route hcall reply rfl
  · by_cases hroute : ∃ route : Route, c = route.call request user
    · obtain ⟨route, rfl⟩ := hroute
      refine (hbody route s {}).mono fun r _ _ hr route' hcall' => ?_
      have hsame : route' = route := by cases route <;> cases route' <;> cases hcall' <;> rfl
      exact hsame ▸ hr
    · exact (hany c.body s {}).mono fun _ _ _ _ route hcall => absurd ⟨route, hcall⟩ hroute

/-- What a route puts on record. -/
def Route.viewEntry (route : Route) (mapping : Option Mapping) : Entry :=
  match route with
  | .me => Employees.viewEntry "PROFILE_VIEW" "/api/v1/me" mapping
  | .myProfile => Employees.viewEntry "PROFILE_VIEW" "/api/v1/me/profile" mapping
  | .myLeaveBalances =>
      Employees.viewEntry "LEAVE_BALANCE_VIEW" "/api/v1/me/leave-balances" mapping

end Routes

/-! ## Where the data comes from -/

section Disclosed

variable [UnicodeData]

/-- D365 gave this payload to a GET of the request for the row's records. -/
def GivenFor (l : ServerSession π) (m : Mapping) (configuration : EntityMapping)
    (payload : Dict Json) : Prop :=
  configuration ∈ l.database.loaded ∧ ∃ entity params,
    AskedFor configuration m ⟨entity, params, payload⟩ ∧
      Gave (l.sent, l.answered) entity params payload

/-- The profile is what the payload given for the row says under the configured fields. -/
def ProfileFrom (l : ServerSession π) (m : Mapping) (response : EmployeeProfileResponse) : Prop :=
  ∃ configuration payload fields, GivenFor l m configuration payload ∧
    profileFields configuration.field_mapping = .ok fields ∧
    readProfileAnswer fields m payload = .ok response

/-- The balance is read off a record of the row's employee, under the configured fields. -/
def BalanceFrom (l : ServerSession π) (m : Mapping) (b : LeaveBalance) : Prop :=
  ∃ configuration payload records raw fields, GivenFor l m configuration payload ∧
    leaveFields configuration.field_mapping = .ok fields ∧
    payload.get? "value" = some (.arr records) ∧ Json.obj raw ∈ records ∧
    RecordOf configuration m raw ∧ readBalance fields raw = .ok (some b)

/-- The answer is about the mapping, and its data was given for it. -/
inductive Shows (l : ServerSession π) (user : AuthenticatedUser) :
    Route → Option Mapping → Reply → Prop
  | me (mapping : Option Mapping) : Shows l user .me mapping (.me (meResponse user mapping))
  | myProfile {m response} (hnumber : response.employee.personnelNumber = m.d365_personnel_number)
      (hfrom : ProfileFrom l m response) :
      Shows l user .myProfile (some m) (.profile response)
  | myLeaveBalances {m response} (hfrom : ∀ b ∈ response.balances, BalanceFrom l m b) :
      Shows l user .myLeaveBalances (some m) (.balances response)

/-- What an outcome of the portal says in the server. -/
theorem shows_of_outcome {route : Route} {request : Request} {user : AuthenticatedUser}
    {reply : Reply} {l : ServerSession π} {lp : Session} (hsame : SameSession l lp)
    (hanswers : route.Answers reply)
    (h : Outcome unconstrained (route.call request user) reply lp) :
    ∃ mapping, (∀ m, mapping = some m → ReadAsVerified l.database user.oid m) ∧
      Shows l user route mapping reply ∧
      Row.event (event request user (route.viewEntry mapping)) ∈ l.database.committed := by
  obtain ⟨hdatabase, hgave⟩ := hsame
  have hread : lp.read = l.database.read := by rw [hdatabase]
  have hcommitted : lp.committed = l.database.committed := by rw [hdatabase]
  have hloaded : lp.loaded = l.database.loaded := by rw [hdatabase]
  have hverified : ∀ {mapping : Option Mapping} {action resource : String},
      Disclosed unconstrained request user action resource lp mapping →
        ∀ m, mapping = some m → ReadAsVerified l.database user.oid m := by
    intro mapping action resource hdisclosed m hm
    obtain ⟨hheld, henabled, hisverified, howned⟩ := hdisclosed.readAsVerified hm
    rw [hread, hcommitted] at hheld
    exact ⟨hheld, henabled, hisverified, howned⟩
  have hgiven : ∀ {m : Mapping} {configuration : EntityMapping} {x : Exchange},
      configuration ∈ lp.loaded → x ∈ lp.answered → AskedFor configuration m x →
        GivenFor l m configuration x.payload :=
    fun hconfiguration hx hasked => ⟨hloaded ▸ hconfiguration, _, _, hasked, hgave _ hx⟩
  cases route with
  | me =>
    cases reply with
    | me response =>
      obtain ⟨mapping, hdisclosed, rfl⟩ := h
      exact ⟨mapping, hverified hdisclosed, .me mapping, hcommitted ▸ hdisclosed.audited⟩
    | _ => exact hanswers.elim
  | myProfile =>
    cases reply with
    | profile response =>
      obtain ⟨m, hdisclosed, hprofile⟩ := h
      obtain ⟨configuration, hconfiguration, x, hx, hasked, fields, hfields, hresponse⟩ :=
        hprofile.asked
      exact ⟨some m, hverified hdisclosed, .myProfile hprofile.personnel_number
        ⟨configuration, x.payload, fields, hgiven hconfiguration hx hasked, hfields, hresponse⟩,
        hcommitted ▸ hdisclosed.audited⟩
    | _ => exact hanswers.elim
  | myLeaveBalances =>
    cases reply with
    | balances response =>
      obtain ⟨m, hdisclosed, hbalances⟩ := h
      refine ⟨some m, hverified hdisclosed, .myLeaveBalances fun b hb => ?_,
        hcommitted ▸ hdisclosed.audited⟩
      obtain ⟨fields, raw, ⟨configuration, hconfiguration, x, hx, hasked, hfields, hrecord,
        records, hvalue, hraw⟩, hbalance⟩ := hbalances.fetched b hb
      exact ⟨configuration, x.payload, records, raw, fields,
        hgiven hconfiguration hx hasked, hfields, hvalue, hraw, hrecord, hbalance⟩
    | _ => exact hanswers.elim

end Disclosed

section Server

variable [Jwt κ] [UnicodeData] [UrlData] [FloatData] {settings : D365Settings}
  {answers : D365TokenService.Provider π}

omit [Jwt κ] [UnicodeData] [UrlData] [FloatData] in
/-- An answer of a route is that of its handler. -/
theorem routeResponse_answer {c : ServerCall} {y : Except Exc Reply}
    {reply : HttpReply ServerAnswer} {answer : ServerAnswer}
    (h : routeResponse c y = .ok reply) (hcontent : reply.content = .answer answer) :
    ∃ shown, y = .ok shown ∧ answer = .inl shown ∧ reply.status_code = 200 ∧
      Dict.get? reply.headers "X-Request-ID" = some c.request_id := by
  obtain ⟨inner, rfl, hinner | ⟨e, -, he⟩⟩ := dispatch_eq_ok h
  · cases y with
    | error e => cases hinner
    | ok shown =>
      obtain rfl := Except.ok.inj hinner
      obtain rfl := Content.answer.inj hcontent
      exact ⟨shown, rfl, rfl, rfl, by rw [requestContextMiddleware, get?_update]; rfl⟩
  · obtain rfl := Except.ok.inj he
    cases hcontent

/-- **From the token to the records.** Whatever an employee route answers, in every order of
turns and whatever the identity provider, D365 and the database answer: the request's own
token proves a user with a role of the portal; the answer is about a row which this request
found or wrote as that user's, enabled and verified, or about no row; its data is in what D365
gave to this request when asked for the row; and the view is in the audit table, with that user,
that employee and the id the response carries. -/
theorem server_discloses_own {s : Server κ π} (hs : Fresh s) {P' : ServerPool κ π}
    (h : (server κ settings answers).Reaches ⟨s, []⟩ P') {t : ServerThread κ π}
    (ht : t ∈ P'.threads) {route : Route} (hroute : t.call.endpoint = .employee route)
    {reply : HttpReply ServerAnswer} (hret : t.prog = .ret reply) {answer : ServerAnswer}
    (hcontent : reply.content = .answer answer) :
    ∃ user mapping shown, answer = .inl shown ∧
      Authenticated κ settings.toSettings t.call.request user t.sess.keys ∧
      portalUser user = .ok user ∧
      (∀ m, mapping = some m → ReadAsVerified t.sess.database user.oid m) ∧
      Shows t.sess user route mapping shown ∧
      event (stated t.call.request t.call.request_id) user (route.viewEntry mapping) ∈
        P'.store.database.events ∧
      reply.status_code = 200 ∧
      Dict.get? reply.headers "X-Request-ID" = some t.call.request_id := by
  obtain ⟨P, place, hreaches, hmatched⟩ := (portalSimulation settings answers).reaches h
  have hrefines := refines_of_matched hmatched
  obtain ⟨n, hn⟩ := List.getElem?_of_mem ht
  have hresult : t.prog.result = some (.ok reply) := by rw [hret]; rfl
  cases hplace : place n with
  | none =>
    -- it would have been refused
    obtain ⟨e, he⟩ := (hrefines.refused n t hn hplace).2 route hroute _ hresult
    have hrefused : routeResponse t.call (.error e) = .ok reply := he.symm
    obtain ⟨shown, hshown, -⟩ := routeResponse_answer hrefused hcontent
    cases hshown
  | some j =>
    obtain ⟨t', route', user, hj, hhandled⟩ := hrefines.handled n t j hn hplace
    obtain rfl := Endpoint.employee.inj (hroute.symm.trans hhandled.endpoint)
    obtain ⟨y, hy, hresponse, hsame⟩ := hhandled.result _ hresult
    obtain ⟨shown, rfl, hanswer, hstatus, hheader⟩ :=
      routeResponse_answer hresponse.symm hcontent
    have ht' := List.mem_of_getElem? hj
    have hreturned : t'.Returned shown := ⟨hhandled.uncut, Prog.result_eq_ok.mp hy⟩
    have houtcome := outcome_of_reaches hreaches ht' hreturned
    rw [hhandled.call] at houtcome
    have hanswers := route_answers hreaches ht' hhandled.call hreturned
    obtain ⟨mapping, hverified, hshows, hcommitted⟩ := shows_of_outcome hsame hanswers houtcome
    obtain ⟨hauthenticated, -⟩ := authenticated_of_reaches hs h ht hhandled.bound
    have hrole : portalUser user = .ok user := by
      rcases mediates_of_reaches h ht with ⟨user', huser', hrole⟩ | huntouched
      · obtain rfl := Option.some.inj (hhandled.bound.symm.trans huser')
        exact hrole
      · rw [huntouched.database] at hcommitted
        cases hcommitted
    refine ⟨user, mapping, shown, hanswer, hauthenticated, hrole, hverified, hshows, ?_, hstatus,
      hheader⟩
    rw [← hrefines.store]
    refine committed_event_stored hreaches ht' ?_
    rw [hsame.database]
    exact hcommitted

end Server

section Example

open Ascii EntraTokenValidator RsaKeys

/-- A balance goes back to a record that D365 gave. -/
theorem server_discloses_own_balances :
    ∃ (P' : ServerPool (String × String) Unit) (t : ServerThread (String × String) Unit)
      (user : AuthenticatedUser) (mapping : Option Mapping) (response : LeaveBalancesResponse),
      exampleLoop.Reaches ⟨exampleServer, []⟩ P' ∧ t ∈ P'.threads ∧
      Authenticated (String × String) testSettings t.call.request user t.sess.keys ∧
      Shows t.sess user .myLeaveBalances mapping (.balances response) := by
  obtain ⟨P', h, t, ht, hserved⟩ := exampleServerRun
  obtain ⟨hroute, -, reply, response, hret, hcontent⟩ := isServed_answer hserved
  obtain ⟨user, mapping, shown, hshown, hauthenticated, -, -, hshows, -⟩ :=
    server_discloses_own exampleServer_fresh h ht hroute hret hcontent
  obtain rfl := Sum.inl.inj hshown
  exact ⟨P', t, user, mapping, response, h, ht, hauthenticated, hshows⟩

end Example

end EmployeePortal
