import EmployeePortal.Server.Disclosure

/-!
# One view, one event

While one process has the database to itself, the audit table holds one view for every
answer an employee route has given, and no others: a request that was refused, has failed
or is not over has left none.
-/

namespace EmployeePortal

open EmployeePortal.Python EmployeePortal.Framework EmployeePortal.Auth EmployeePortal.D365
  EmployeePortal.Core EmployeePortal.Health EmployeePortal.Employees EmployeePortal.Audit

/-! ## Views -/

/-- The event says that data was shown. -/
def isView (e : AuditEvent) : Bool :=
  e.action = "PROFILE_VIEW" || e.action = "LEAVE_BALANCE_VIEW"

def Row.view? : Row → Option AuditEvent
  | .event e => if isView e then some e else none
  | _ => none

def views (rows : List Row) : List AuditEvent := rows.filterMap Row.view?

theorem views_append (rows rows' : List Row) : views (rows ++ rows') = views rows ++ views rows' :=
  List.filterMap_append

theorem views_insertAll (t : Tables) (rows : List Row) :
    (t.insertAll rows).events.filter isView = t.events.filter isView ++ views rows := by
  induction rows generalizing t with
  | nil => simp [views]
  | cons row rows ih =>
    rw [Tables.insertAll_cons, ih, ← List.singleton_append, views_append, ← List.append_assoc]
    congr 1
    cases row with
    | event e => by_cases he : isView e <;> simp [views, Row.view?, he]
    | _ => simp [views, Row.view?]

/-- A request adds to the views of the table what it commits. -/
theorem Sem.views {o : Op} {db db' : Database} {l l' : Session} {r : Except Exc o.Answer}
    (h : Sem o db l r db' l') :
    (db'.events.filter isView : Multiset AuditEvent) + EmployeePortal.views l.committed =
      db.events.filter isView + EmployeePortal.views l'.committed := by
  cases h with
  | committed hcommit =>
    rw [Database.commit_eq_some.mp hcommit, views_insertAll, views_append, ← Multiset.coe_add,
      ← Multiset.coe_add, add_right_comm, add_assoc]
  | _ => rfl

/-! ## Filing -/

/-- The views a session has added, and those it has committed. -/
structure Filing where
  pending : List AuditEvent := []
  filed : List AuditEvent := []

namespace Filing

def after (q : Filing) : (o : Op) → Except Exc o.Answer → Filing
  | .add row, _ => { q with pending := q.pending ++ views [row] }
  | .commit, .ok _ => { pending := [], filed := q.filed ++ q.pending }
  | .commit, .error _ | .rollback, _ => { q with pending := [] }
  | _, _ => q

def of (l : Session) : Filing := ⟨views l.pending, views l.committed⟩

theorem of_sem {o : Op} {db db' : Database} {l l' : Session} {r : Except Exc o.Answer}
    (h : Sem o db l r db' l') : of l' = (of l).after o r := by
  cases h <;> simp [of, after, views_append] <;> rfl

end Filing

/-- Once a view is on record nothing more is done. -/
def filing : Protocol Op Op.Answer Exc Filing := fun q o r =>
  if q.filed = [] then some (q.after o r) else none

/-- After a route: one view if it answers, none if it does not. -/
def Viewed {α : Type} (view : Option Mapping → AuditEvent) : Except Exc α → Filing → Prop
  | .ok _, q => ∃ mapping, q.filed = [view mapping]
  | .error _, q => q.filed = []

section Routes

/-- What is not on the way to a view: whatever happens, and no view is added. -/
abbrev unviewed : Terms Op Op.Answer Exc ℕ :=
  portalTerms (fun _ => True) fun row => row.view? = none

theorem files_nothing {α : Type} {G : Exc → Prop} {refusals : List Refusal} {n : ℕ} {p : Coroutine α}
    (h : Runs (fun _ => True) (fun row => row.view? = none) G refusals n p) :
    Obeys filing (fun _ q => q = {}) p {} := by
  have honly : p.Only unviewed.allowed := h.only fun o r => by
    cases o with
    | getEntity entity params => exact fun _ _ => Or.inl trivial
    | _ => exact fun _ _ => trivial
  refine .of_only honly (fun o ho r => ?_) fun _ => rfl
  have hafter : Filing.after {} o r = {} := by
    cases o with
    | add row =>
      have hrow : row.view? = none := ho
      simp [Filing.after, views, hrow]
    | commit => cases r <;> rfl
    | _ => rfl
  rw [filing, if_pos rfl, hafter]

theorem recordAudit_files {request : Request} {user : AuthenticatedUser} {entry : Entry}
    (hview : isView (event request user entry) = true) :
    Obeys filing (fun r q => q.filed = if r.isOk then [event request user entry] else [])
      (recordAudit request user entry) {} := by
  refine Obeys.perform fun r => ⟨_, if_pos rfl, ?_⟩
  cases r with
  | error e => rfl
  | ok _ =>
    refine Obeys.perform_iff.mpr fun r => ⟨_, if_pos rfl, ?_⟩
    cases r with
    | error e => rfl
    | ok _ => simp [Filing.after, views, Row.view?, hview, Except.isOk, Except.toBool]

variable [UnicodeData]

theorem route_files {α : Type} {request : Request} {user : AuthenticatedUser} {required : Bool}
    {action resource : String} {fetch : Option Mapping → Coroutine α} {G : Exc → Prop}
    {refusals : List Refusal} {n : ℕ}
    (hview : ∀ mapping,
      isView (event request user (Employees.viewEntry action resource mapping)) = true)
    (hfetch : ∀ mapping, Runs (fun _ => True) (fun row => row.view? = none) G refusals n
      (fetch mapping)) :
    Obeys filing (Viewed fun mapping => event request user
        (Employees.viewEntry action resource mapping))
      (route request user required action resource fetch) {} := by
  have hF : Foreign fun _ => True := fun _ _ => trivial
  unfold route
  cases hrole : portalUser user with
  | error e => rfl
  | ok user' =>
    obtain rfl := requireRoles_ok hrole
    have hidentity := resolveIdentity_runs (V := fun row => row.view? = none) hF
      (fun _ => rfl) (fun _ => rfl) (fun _ _ _ => rfl) request user' required
    rw [Prog.liftM_eq, Prog.ofExcept_ok, Prog.ret_bind, Obeys.bind_iff]
    refine (files_nothing hidentity).mono ?_
    rintro (e | mapping) q rfl
    · rfl
    refine Obeys.bind_iff.mpr ((files_nothing (hfetch mapping)).mono ?_)
    rintro (e | answer) q rfl
    · rfl
    refine Obeys.bind_iff.mpr ((recordAudit_files (hview mapping)).mono ?_)
    rintro (e | _) q hq
    · exact hq
    · exact ⟨mapping, hq⟩

theorem call_files (route : Route) (request : Request) (user : AuthenticatedUser) :
    Obeys filing (Viewed fun mapping => event request user (route.viewEntry mapping))
      (route.call request user).body {} := by
  have hF : Foreign fun _ => True := fun _ _ => trivial
  have hreply : ∀ {α : Type} {view : Option Mapping → AuditEvent} {p : Coroutine α} {f : α → Reply},
      Obeys filing (Viewed view) p {} →
        Obeys filing (Viewed view) (p >>= fun a => return f a) {} := by
    intro α view p f hp
    refine Obeys.bind_iff.mpr (hp.mono ?_)
    rintro (e | a) q hq <;> exact hq
  cases route with
  | me =>
    have hshown : ∀ mapping, Runs (fun _ => True) (fun row => row.view? = none) (fun _ => True) [] 0
        (return meResponse user mapping : Coroutine MeResponse) := fun _ => .ret _
    exact hreply (route_files (fun _ => rfl) hshown)
  | myProfile => exact hreply (route_files (fun _ => rfl) (asserted_runs hF (getProfile_runs hF)))
  | myLeaveBalances =>
    exact hreply (route_files (fun _ => rfl) (asserted_runs hF (getBalances_runs hF)))

end Routes

/-! ## In the server -/

section Server

variable {κ π : Type}

/-- Whose the request is, and its views. -/
abbrev Account : Type := Option AuthenticatedUser × Filing

def Account.after (q : Account) : (o : ServerOp κ) → Except Exc o.Answer → Account
  | .bindUser user, _ => (some user, q.2)
  | .database o, r => (q.1, q.2.after o r)
  | _, _ => q

def accounting : Protocol (ServerOp κ) ServerOp.Answer Exc Account := fun q o r =>
  if q.2.filed = [] then some (q.after o r) else none

def ServerSession.account (l : ServerSession π) : Account := (l.user, .of l.database)

variable [Jwt κ] [UnicodeData] [UrlData] [FloatData] {settings : D365Settings}
  {answers : D365TokenService.Provider π}

theorem account_does {c : ServerCall} {o : ServerOp κ} {s s' : Server κ π}
    {l l' : ServerSession π} {r : Except Exc o.Answer}
    (hdoes : (server κ settings answers).Does c o s l r s' l') :
    l'.account = l.account.after o r := by
  cases o with
  | bindUser user =>
    obtain ⟨rfl, rfl⟩ := does_bindUser hdoes
    rfl
  | auth o =>
    obtain ⟨-, k, rfl⟩ := does_auth hdoes
    rfl
  | database o =>
    obtain ⟨-, db, l₁, hsem, -, rfl⟩ := does_database hdoes
    exact congrArg (Prod.mk l.user) (Filing.of_sem hsem)
  | service o =>
    obtain ⟨-, t, rfl⟩ := does_service hdoes
    rfl
  | health o =>
    obtain ⟨rfl, rfl⟩ := does_health hdoes
    rfl

/-- The account is a state of the protocol. -/
theorem accounting_does {c : ServerCall} {o : ServerOp κ} {s s' : Server κ π}
    {l l' : ServerSession π} {r : Except Exc o.Answer} {q q' : Account}
    (hdoes : (server κ settings answers).Does c o s l r s' l') (hq : q = l.account)
    (hnext : accounting q o r = some q') : q' = l'.account := by
  subst hq
  rw [account_does hdoes]
  unfold accounting at hnext
  split at hnext
  · exact (Option.some.inj hnext).symm
  · cases hnext

omit [Jwt κ] [UrlData] in
/-- A question of the portal does in the server what it does to the filing. -/
theorem perform_accounts (max_retries : ℤ) (user : AuthenticatedUser) (o : Op) (q : Filing)
    (q' : Account) (hq : q' = (some user, q)) (hallowed : ∀ r, ∃ q₁, filing q o r = some q₁) :
    Obeys accounting (fun r q₁' => ∃ q₁, filing q o r = some q₁ ∧ q₁' = (some user, q₁))
      (perform max_retries o : ServerTask κ _) q' := by
  subst hq
  have hunfiled : q.filed = [] := by
    by_contra hfiled
    obtain ⟨q₁, hq₁⟩ := hallowed (.error .databaseError)
    rw [filing, if_neg hfiled] at hq₁
    cases hq₁
  have hdatabase : Obeys accounting
      (fun r q₁' => ∃ q₁, filing q o r = some q₁ ∧ q₁' = (some user, q₁))
      (Prog.perform (ServerOp.database o) : ServerTask κ _) (some user, q) :=
    Obeys.perform_iff.mpr fun r => ⟨_, if_pos hunfiled, _, if_pos hunfiled, rfl⟩
  cases o with
  | getEntity entity params =>
    have honly : (perform max_retries (.getEntity entity params) : ServerTask κ _).Only
        fun o => ∃ o', o = ServerOp.service o' :=
      (Prog.Only.of_forall (P := fun _ => True) (fun _ => trivial)
        (askD365 max_retries entity params)).fill _ fun o _ => .perform ⟨o, rfl⟩
    refine .of_only honly ?_ fun r => ⟨_, if_pos hunfiled, rfl⟩
    rintro _ ⟨o, rfl⟩ r
    exact if_pos hunfiled
  | _ => exact hdatabase

/-- What a request has to show for its result. -/
inductive Accounts (c : ServerCall) :
    Except Exc (HttpReply ServerAnswer) → Account → Prop
  | answered {route user mapping reply shown} {q : Filing}
      (hroute : c.endpoint = .employee route) (hcontent : reply.content = .answer (.inl shown))
      (hfiled : q.filed = [event (stated c.request c.request_id) user (route.viewEntry mapping)]) :
      Accounts c (.ok reply) (some user, q)
  | unanswered {r} {q : Account}
      (hnone : ∀ reply shown, r = .ok reply → reply.content ≠ .answer (.inl shown))
      (hfiled : q.2.filed = []) : Accounts c r q

omit [FloatData] in
theorem getCurrentUser_accounts (settings : Settings) (credentials : Option (String × String)) :
    Obeys accounting (fun r q => q.2 = {} ∧ ∀ user, r = .ok user → q.1 = some user)
      (getCurrentUser settings credentials : ServerTask κ AuthenticatedUser) (none, {}) := by
  have honly : ∀ token, (authTask (EntraTokenValidator.validate settings token) :
      ServerTask κ AuthenticatedUser).Only Opens := fun token =>
    (Prog.Only.of_forall (P := fun _ => True) (fun _ => trivial) _).fill _ fun o _ => .perform trivial
  rw [getCurrentUser, Prog.liftM_eq, Obeys.bind_iff, Obeys.ofExcept_iff]
  cases bearerToken credentials with
  | error e => exact ⟨rfl, fun _ h => by cases h⟩
  | ok token =>
    refine Obeys.bind_iff.mpr (.of_only (honly token) (fun o ho r => ?_) ?_)
    · cases o with
      | auth o => rfl
      | _ => exact ho.elim
    · rintro (e | user)
      · exact ⟨rfl, fun _ h => by cases h⟩
      · exact Obeys.tell fun r => ⟨(some user, {}), rfl, rfl, fun _ h => by
          rw [Except.ok.inj h]⟩

omit [UnicodeData] [UrlData] [FloatData] [Jwt κ] in
/-- An error is no answer. -/
theorem accounts_error (c : ServerCall) (e : Exc) {q : Account} (hq : q.2.filed = []) :
    Accounts c (dispatch c.request_id (.error e)) q := by
  refine .unanswered (fun reply shown hreply hcontent => ?_) hq
  obtain ⟨_, hshown, -⟩ := routeResponse_answer (y := .error e) hreply hcontent
  cases hshown

omit [UnicodeData] [UrlData] [FloatData] [Jwt κ] in
/-- Nor is the health of the process. -/
theorem accounts_health (c : ServerCall) (status : ℕ) (health : HealthResponse) :
    Accounts c (dispatch c.request_id
      (.ok { status_code := status, content := .answer (.inr health) })) (none, {}) := by
  refine .unanswered (fun reply shown hreply hcontent => ?_) rfl
  obtain rfl := Except.ok.inj hreply
  cases hcontent

theorem handler_accounts (c : ServerCall) :
    Obeys accounting (Accounts c) ((server κ settings answers).body c) (none, {}) := by
  change Obeys accounting _ ((handler settings c).conclude _) _
  rw [Obeys.conclude_iff]
  unfold handler
  split
  · rename_i route hroute
    refine Obeys.bind_iff.mpr ((getCurrentUser_accounts _ _).mono ?_)
    rintro (e | user) ⟨user', q⟩ ⟨hq, huser⟩
    · exact accounts_error c e (by rw [hq])
    · dsimp only at hq huser
      obtain rfl := huser user rfl
      subst hq
      have hfill := (call_files route (stated c.request c.request_id) user).fill
        (fun q q' => q' = (some user, q)) (fun o q q' hq hallowed =>
          perform_accounts (κ := κ) settings.D365_MAX_RETRIES user o q q' hq hallowed) rfl
      refine Obeys.bind_iff.mpr (hfill.mono ?_)
      rintro (e | shown) _ ⟨q, rfl, hviewed⟩
      · exact accounts_error c e hviewed
      · obtain ⟨mapping, hfiled⟩ := hviewed
        exact .answered hroute rfl hfiled
  · exact accounts_health c 200 _
  · exact accounts_health c 200 _
  · refine Obeys.bind_iff.mpr (.of_only (healthTask_only _) ?_ ?_)
    · rintro _ ⟨o, rfl⟩ r
      rfl
    · rintro (e | ⟨status, health⟩)
      · exact accounts_error c e rfl
      · exact accounts_health c status health

/-! ## Runs -/

/-- The views of a request: one of them, as its user, if it has been answered by its route. -/
inductive Accounted (t : ServerThread κ π) : Prop
  | answered {route user mapping reply shown} (hroute : t.call.endpoint = .employee route)
      (huser : t.sess.user = some user) (hret : t.prog = .ret reply)
      (hcontent : reply.content = .answer (.inl shown))
      (hviews : views t.sess.database.committed =
        [event (stated t.call.request t.call.request_id) user (route.viewEntry mapping)])
  | unanswered
      (hnone : ∀ reply shown, t.prog = .ret reply → reply.content ≠ .answer (.inl shown))
      (hviews : views t.sess.database.committed = [])

omit [Jwt κ] [UnicodeData] [UrlData] [FloatData] in
theorem accounted_of_obeys {t : ServerThread κ π}
    (h : Obeys accounting (Accounts t.call) t.prog t.sess.account) : Accounted t := by
  obtain ⟨c, l, p, cut⟩ := t
  dsimp only at h
  cases p with
  | ret reply =>
    have haccounts : Accounts c (.ok reply) l.account := h
    generalize hr : (Except.ok reply : Except Exc (HttpReply ServerAnswer)) = r at haccounts
    generalize hq : l.account = q at haccounts
    cases haccounts with
    | @answered route user mapping reply' shown q hroute hcontent hfiled =>
      obtain rfl := Except.ok.inj hr
      obtain ⟨huser, rfl⟩ := Prod.mk.inj hq
      exact .answered hroute huser rfl hcontent hfiled
    | unanswered hnone hfiled =>
      subst hr hq
      exact .unanswered (fun reply' shown hreply => hnone reply' shown
        (congrArg Except.ok (Prog.ret.inj hreply))) hfiled
  | raise e =>
    have haccounts : Accounts c (.error e) l.account := h
    generalize hq : l.account = q at haccounts
    cases haccounts with
    | unanswered hnone hfiled =>
      subst hq
      exact .unanswered (fun _ _ hreply => by cases hreply) hfiled
  | op o k =>
    refine .unanswered (fun _ _ hreply => by cases hreply) ?_
    by_contra hfiled
    change l.account.2.filed ≠ [] at hfiled
    obtain ⟨q, hnext, -⟩ := h (.error .databaseError)
    rw [accounting, if_neg hfiled] at hnext
    cases hnext

/-- What the database holds of something is what it held at the start and what the requests have
put there. -/
theorem database_conserved {M : Type} [AddCancelCommMonoid M] (f : Database → M) (g : Session → M)
    (hstart : g {} = 0) (hadmin : ∀ {db db'}, AdminStep db db' → f db' = f db)
    (hsem : ∀ {o db db' l l'} {r : Except Exc (Op.Answer o)}, Sem o db l r db' l' →
      f db' + g l = f db + g l')
    {s : Server κ π} {P' : ServerPool κ π} (h : (server κ settings answers).Reaches ⟨s, []⟩ P') :
    f P'.store.database = f s.database + P'.total (fun l => g l.database) := by
  refine Loop.conserved (L := server κ settings answers) (fun s => f s.database) (fun l => g l.database) hstart
    (fun s s' ⟨h, _⟩ => hadmin h) (fun c o s l r s' l' hdoes => ?_) h
  cases o with
  | bindUser user =>
    obtain ⟨rfl, rfl⟩ := does_bindUser hdoes
    rfl
  | auth o =>
    obtain ⟨⟨keys, rfl⟩, k, rfl⟩ := does_auth hdoes
    rfl
  | database o =>
    obtain ⟨-, db, l₁, hop, rfl, rfl⟩ := does_database hdoes
    exact hsem hop
  | service o =>
    obtain ⟨⟨service, rfl⟩, t, rfl⟩ := does_service hdoes
    rfl
  | health o =>
    obtain ⟨rfl, rfl⟩ := does_health hdoes
    rfl

/-- **One view, one event.** In every order of the turns of one process, the views in the audit
table are those it had at the start and those of the requests; and a request has one there, as
its own user's and under its own id, if an employee route has answered it, and none if it was
refused, has failed or is not over. -/
theorem server_audits_once {s : Server κ π} {P' : ServerPool κ π}
    (h : (server κ settings answers).Reaches ⟨s, []⟩ P') :
    (P'.store.database.events.filter isView : Multiset AuditEvent) =
      s.database.events.filter isView + P'.total (fun l => ↑(views l.database.committed)) ∧
    ∀ t ∈ P'.threads, Accounted t := by
  constructor
  · exact database_conserved (fun db => (db.events.filter isView : Multiset AuditEvent))
      (fun l => ↑(views l.committed)) rfl (fun hadmin => by rw [hadmin.events]) Sem.views h
  · intro t ht
    obtain ⟨q, rfl, hobeys⟩ := Loop.obeys_of_reaches Accounts (fun q l => q = l.account)
      (fun _ _ _ _ _ _ _ _ _ => accounting_does)
      (fun c _ => ⟨(none, {}), rfl, handler_accounts c⟩) h t ht
    exact accounted_of_obeys hobeys

end Server

section Example

open Ascii EntraTokenValidator RsaKeys

/-- A balance is shown, and its view is on record. -/
theorem server_audits_once_balances :
    ∃ (P' : ServerPool (String × String) Unit) (t : ServerThread (String × String) Unit)
      (user : AuthenticatedUser) (mapping : Option Mapping),
      exampleLoop.Reaches ⟨exampleServer, []⟩ P' ∧ t ∈ P'.threads ∧ isServed t = true ∧
      views t.sess.database.committed =
        [event (stated t.call.request t.call.request_id) user
          (Route.myLeaveBalances.viewEntry mapping)] := by
  obtain ⟨P', h, t, ht, hserved⟩ := exampleServerRun
  obtain ⟨hroute, -, reply, response, hret, hcontent⟩ := isServed_answer hserved
  have haccounted := (server_audits_once h).2 t ht
  cases haccounted with
  | @answered route user mapping reply' shown hroute' huser hret' hcontent' hviews =>
    obtain rfl := Endpoint.employee.inj (hroute.symm.trans hroute')
    exact ⟨P', t, user, mapping, h, ht, hserved, hviews⟩
  | unanswered hnone => exact absurd hcontent (hnone reply _ hret)

end Example

end EmployeePortal
