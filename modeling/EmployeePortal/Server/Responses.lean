import EmployeePortal.Auth.Failures
import EmployeePortal.Server.PortalRefinement
import EmployeePortal.Server.Terms
import Mathlib.Algebra.Order.Monoid.Prod

/-!
# What the server answers

Every response of every run is one of those an endpoint documents, with the headers the
middlewares promise; and whatever a request does, it sends no more requests to D365, and
its validator no more to the identity provider, than its endpoint allows.
-/

namespace EmployeePortal

open EmployeePortal.Python EmployeePortal.Framework EmployeePortal.Auth EmployeePortal.D365
  EmployeePortal.Core EmployeePortal.Health EmployeePortal.Employees Prog

/-- Of a class that is not the application's own. -/
abbrev IsForeign (e : Exc) : Prop := isForeign e = true

theorem isForeign_foreign : Foreign IsForeign := fun _ h => h

theorem foreign_iff {β : Type} {r : Except Exc β} : foreign r = true ↔ Raises IsForeign r := by
  cases r with
  | ok b => simp [foreign, Raises]
  | error e => simp [foreign, Raises]

/-! ## The client -/

/-- Each GET costs one. -/
def clientTerms : Terms ServiceOp ServiceOp.Answer Exc ℕ where
  allowed := fun _ => True
  price
    | .send _ => 1
    | _ => 0
  grants := fun o r => o.plain r = true

/-- `int` of a float may fail as Python's does. -/
def FloatRaises [FloatData] : Prop := ∀ repr, Raises IsForeign (FloatData.toInt repr)

section Client

theorem plain_raises {o : ServiceOp} {r : Except Exc o.Answer} (h : o.plain r = true) :
    ∀ e, r = .error e → orD365 IsForeign e := by
  rintro e rfl
  cases o <;> exact orD365_of e h

variable [UnicodeData] [FloatData] (hfloat : FloatRaises)

include hfloat

theorem toInt_foreign (value : Json) : Raises IsForeign value.toInt := by
  unfold Json.toInt
  split
  · exact .ok _
  · exact .ok _
  · exact hfloat _
  · split
    · exact .ok _
    · exact .error rfl
  · exact .error rfl

theorem readToken_raises (result : Dict Json) :
    Raises (orD365 IsForeign) (D365TokenService.readAnswer result) := by
  unfold D365TokenService.readAnswer
  split
  · exact ((toInt_foreign hfloat _).mono orD365_of).bind fun _ _ => .ok _
  · exact .error (Or.inr ⟨_, _, rfl⟩)

theorem newToken_raises (now : ℚ) (result : Dict Json) :
    Raises (orD365 IsForeign) (D365TokenService.newToken now result) := by
  have hsum : ∀ n, Raises (orD365 IsForeign) (PyFloat.ofInt n) := by
    intro n
    unfold PyFloat.ofInt
    split
    · exact .error (orD365_of _ rfl)
    · exact .ok _
  exact (readToken_raises hfloat result).bind fun _ _ => (hsum _).bind fun _ _ => .ok _

omit [UnicodeData] [FloatData] hfloat in
/-- A cached token is served at no cost. -/
theorem serve_spends {p : D365.Task String} (hp : p.Spends clientTerms (orD365 IsForeign) 0) :
    ∀ served : Option String, Spends clientTerms (orD365 IsForeign) 0 (match served with
      | some value => (return value : D365.Task String)
      | none => p)
  | some _ => .ret _
  | none => hp

theorem getAccessToken_spends (force_refresh : Bool) :
    (D365TokenService.getAccessToken force_refresh).Spends clientTerms (orD365 IsForeign) 0 := by
  unfold D365TokenService.getAccessToken
  refine Spends.perform_bind trivial rfl (fun _ => plain_raises) fun now => ?_
  refine Spends.perform_bind trivial rfl (fun _ => plain_raises) fun token => serve_spends ?_ _
  refine Spends.inside (Spends.perform (T := clientTerms) (o := ServiceOp.lockAcquire) trivial
    fun _ => plain_raises) ?_ (Spends.tell (T := clientTerms) (o := ServiceOp.lockRelease) trivial)
  unfold D365TokenService.refresh D365TokenService.acquire
  refine Spends.perform_bind trivial rfl (fun _ => plain_raises) fun now => ?_
  refine Spends.perform_bind trivial rfl (fun _ => plain_raises) fun token => serve_spends ?_ _
  refine Spends.tell_bind trivial rfl ?_
  refine Spends.perform_bind trivial rfl (fun _ => plain_raises) fun result => ?_
  refine Spends.ofExcept_bind (newToken_raises hfloat now result) fun token => ?_
  exact Spends.tell_bind trivial rfl (.ret _)

omit [UnicodeData] [FloatData] hfloat in
/-- What the loop gives up with. -/
theorem verdict_raises {max_retries : ℤ} {attempt : ℕ} {refreshed : Bool}
    {outcome result : Except Exc Response} (houtcome : Raises (orD365 IsForeign) outcome)
    (h : D365Client.verdict max_retries attempt refreshed outcome = .done result) :
    Raises (orD365 IsForeign) result := by
  have herror : ∀ {kind : D365Kind} {message : String}, Raises (orD365 IsForeign)
      (.error (.d365 kind message) : Except Exc Response) := .error (Or.inr ⟨_, _, rfl⟩)
  unfold D365Client.verdict at h
  split at h
  · split at h <;> cases h
    exact herror
  · split at h <;> cases h
    exact herror
  · cases h
    exact houtcome
  · split_ifs at h <;> cases h
    all_goals first
      | exact herror
      | exact .ok _

/-- A response, with a body that can be read or raises nothing of the application's own. -/
def Answered (r : Except Exc Response) : Prop :=
  Raises (orD365 IsForeign) r ∧ ∀ response, r = .ok response → Raises IsForeign response.json

omit hfloat in
theorem get_within (request : GetRequest) :
    (D365TokenService.wire.get request).Within clientTerms Answered 1 := by
  have hresponse : (Prog.perform ServiceOp.response : D365.Task Response).Within clientTerms
      Answered 0 := by
    refine Prog.Within.perform (T := clientTerms) (o := ServiceOp.response) trivial fun r hr => ?_
    refine ⟨plain_raises hr, ?_⟩
    rintro response rfl
    exact foreign_iff.mp hr
  exact ⟨trivial, 0, le_rfl, fun _ _ => hresponse⟩

/-- One GET for each attempt. -/
theorem attempts_within (max_retries : ℤ) (request : String → GetRequest) (is : List ℕ)
    (refreshed forced : Bool) :
    (D365Client.attempts D365TokenService.wire max_retries request is refreshed forced).Within
      clientTerms Answered is.length := by
  have hraised : ∀ e, orD365 IsForeign e → Answered (.error e) := fun e he =>
    ⟨.error he, fun _ h => by cases h⟩
  induction is generalizing refreshed forced with
  | nil => exact hraised _ (Or.inr ⟨_, _, rfl⟩)
  | cons i is ih =>
    rw [D365Client.attempts, List.length_cons, add_comm, ← zero_add (1 + is.length)]
    refine Within.bind (getAccessToken_spends hfloat forced) (fun token _ => ?_) fun e h =>
      hraised e (h e rfl)
    refine Within.attempt_bind (get_within (request token)) fun outcome houtcome => ?_
    cases hverdict : D365Client.verdict max_retries i refreshed outcome with
    | done result =>
      refine Within.ofExcept_iff.mpr ⟨verdict_raises houtcome.1 hverdict, ?_⟩
      rintro response rfl
      exact houtcome.2 response (verdict_done_ok hverdict).1
    | wait delay =>
      have hsleep : (Prog.perform (ServiceOp.sleep delay) : D365.Task Unit).Spends clientTerms
          (orD365 IsForeign) 0 :=
        Spends.perform (T := clientTerms) (o := ServiceOp.sleep delay) trivial
          fun _ => plain_raises
      rw [← zero_add is.length]
      exact Within.bind hsleep (fun _ _ => ih _ _) fun e h => hraised e (h e rfl)
    | renew =>
      rw [← zero_add is.length]
      exact Within.bind (Spends.tell (T := clientTerms) (E := orD365 IsForeign)
        (o := ServiceOp.setToken none) trivial) (fun _ _ => ih _ _) fun e h => hraised e (h e rfl)

/-- How often a question of the portal is sent at most. -/
def attemptsOf (max_retries : ℤ) : ℕ := (max_retries + 1).toNat

theorem askD365_spends (max_retries : ℤ) (entity : String) (params : Dict String) :
    (askD365 max_retries entity params).Spends clientTerms (orD365 IsForeign)
      (attemptsOf max_retries) := by
  have hloop := attempts_within hfloat max_retries
    (fun token => ⟨entity, some params, token, none⟩) (List.range (max_retries + 1).toNat) false
    false
  rw [List.length_range] at hloop
  unfold askD365 D365Client.get
  rw [← add_zero (attemptsOf max_retries)]
  refine Within.bind hloop (fun response hresponse => ?_) fun e h e' he =>
    h.1 e' (by rw [Except.error.inj he])
  refine Spends.ofExcept ?_
  have hjson := hresponse.2 response rfl
  unfold D365Client.readPayload
  split
  · exact Raises.error (Or.inr ⟨_, _, rfl⟩)
  · rename_i e _ he
    exact Raises.error (orD365_of e (hjson e he))
  · exact Raises.ok _
  · exact Raises.error (Or.inr ⟨_, _, rfl⟩)

end Client

/-! ## The validator -/

def authRefusals : List Refusal :=
  [("INVALID_TOKEN", 401), ("CLIENT_NOT_ALLOWED", 403), ("SCOPE_DENIED", 403),
    ("IDENTITY_PROVIDER_UNAVAILABLE", 503)]

section Validator

open EntraTokenValidator

variable {κ : Type}

variable (κ) in
/-- Each request the validator sends costs one. -/
def validatorTerms : Terms (AuthOp κ) AuthOp.Answer Exc ℕ where
  allowed := fun _ => True
  price
    | .get _ => 1
    | _ => 0
  grants := fun o r => o.plain r = true

theorem authPlain_raises {o : AuthOp κ} {r : Except Exc o.Answer}
    (h : (validatorTerms κ).grants o r) :
    ∀ e, r = .error e → Fails IsForeign authRefusals e := by
  rintro e rfl
  cases o <;> exact Or.inl h

theorem invalid_fails : Fails IsForeign authRefusals invalid := .portal (by decide)

/-- An answer that is read. -/
theorem readBody_raises {response : HttpResponse} (h : Raises IsForeign response.json) :
    Raises IsForeign (readBody response) := by
  unfold readBody HttpResponse.raiseForStatus
  refine Raises.bind ?_ fun _ _ => h
  split
  · exact .ok _
  · exact .error rfl

theorem jsonGet_foreign (value : Json) (key : String) (default : Json) :
    Raises IsForeign (value.get key default) := by
  unfold Json.get
  split
  · exact .ok _
  · exact .error rfl

variable [Jwt κ] (hjwt : JwtRaises κ) [UnicodeData] [UrlData] (settings : Settings)

omit [Jwt κ] in
theorem readDiscovery_foreign (discovery : Json) :
    Raises IsForeign (readDiscovery settings discovery) := by
  refine (jsonGet_foreign discovery "issuer" .null).bind fun issuer _ => ?_
  dsimp only
  split
  · exact .error rfl
  · refine Raises.bind ?_ fun jwks_uri _ => Raises.bind ?_ fun parsed _ => ?_
    · unfold Json.item
      split
      · split
        · exact .ok _
        · exact .error rfl
      · exact .error rfl
    · intro e he
      obtain ⟨message, rfl⟩ := urlparse_error he
      rfl
    · split
      · exact .error rfl
      · exact .ok _

omit [UrlData] in
include hjwt in
theorem addKey_foreign (keys : Dict κ) (item : Json) : Raises IsForeign (addKey keys item) := by
  cases item with
  | obj fields =>
    rcases addKey_obj keys fields with ⟨-, hadd⟩ | ⟨kid, -, hadd⟩
    · rw [hadd]
      exact .ok _
    · rw [hadd]
      cases hdict : (Jwt.from_dict (.obj fields) : Except Exc κ) with
      | ok key => exact .ok _
      | error e =>
        obtain rfl := hjwt.from_dict _ _ hdict
        exact .error rfl
  | _ => exact .error rfl

omit [UrlData] in
include hjwt in
theorem readKeys_foreign (document : Json) :
    Raises IsForeign (readKeys document : Except Exc (Dict κ)) := by
  refine (jsonGet_foreign _ _ _).bind fun raw_keys _ => Raises.bind ?_ fun keys _ => ?_
  · refine Raises.bind (fun e he => ?_) fun items _ => foldlM_raises (addKey_foreign hjwt) items []
    obtain rfl := Json.iterate_error he
    rfl
  · split
    · exact .error rfl
    · exact .ok _

omit [Jwt κ] [UnicodeData] [UrlData] in
/-- One request, and what is made of its answer. -/
theorem get_read_spends {β : Type} (url : String) (read : Json → Except Exc β)
    (hread : ∀ document, Raises IsForeign (read document)) :
    (do
      let response ← Prog.perform (AuthOp.get url)
      let document ← readBody response
      read document : AuthTask κ β).Spends (validatorTerms κ) IsForeign 1 := by
  have hget : (Prog.perform (AuthOp.get url) : AuthTask κ HttpResponse).Within (validatorTerms κ)
      (fun r => Raises IsForeign r ∧ ∀ response, r = .ok response →
        Raises IsForeign response.json) 1 := by
    refine Prog.Within.perform (T := validatorTerms κ) (o := AuthOp.get url) trivial fun r hr => ?_
    refine ⟨?_, ?_⟩
    · rintro e rfl
      exact hr
    · rintro response rfl
      exact foreign_iff.mp hr
  simp only [Prog.liftM_eq]
  rw [← add_zero 1]
  refine Within.bind hget (fun response hresponse => ?_) fun e h e' he =>
    h.1 e' (by rw [Except.error.inj he])
  refine Spends.ofExcept_bind (readBody_raises (hresponse.2 response rfl)) fun document => ?_
  exact Spends.ofExcept (hread document)

include hjwt

theorem fetchKeys_spends : (fetchKeys settings : AuthTask κ (Dict κ)).Spends (validatorTerms κ)
    IsForeign 2 := by
  have hdiscovery := get_read_spends (κ := κ) settings.entraDiscoveryUrl (readDiscovery settings)
    (readDiscovery_foreign settings)
  have hkeys : ∀ url, _ := fun url => get_read_spends (κ := κ) url (readKeys (κ := κ))
    (readKeys_foreign hjwt)
  have hsplit : (fetchKeys settings : AuthTask κ (Dict κ)) = (do
      let response ← Prog.perform (AuthOp.get settings.entraDiscoveryUrl)
      let document ← readBody response
      (readDiscovery settings document : AuthTask κ String)) >>= fun url => (do
      let response ← Prog.perform (AuthOp.get url)
      let document ← readBody response
      readKeys document) := by
    simp only [fetchKeys, bind_assoc]
  rw [hsplit]
  exact Spends.bind (n := 1) (m := 1) hdiscovery hkeys

theorem refreshLocked_spends (force : Bool) :
    (refreshLocked settings force : AuthTask κ Unit).Spends (validatorTerms κ)
      (Fails IsForeign authRefusals) 2 := by
  -- the check costs nothing
  have hvalid : (do
      if force then return false
      let now ← Prog.perform AuthOp.monotonic
      let expires_at ← Prog.perform AuthOp.expiresAt
      let keys ← Prog.perform AuthOp.keys
      return (decide (Extended.ofRat now < expires_at) && !keys.isEmpty : Bool) :
        AuthTask κ Bool).Spends (validatorTerms κ) (Fails IsForeign authRefusals) 0 := by
    cases force with
    | true => exact .ret _
    | false =>
      refine Spends.perform_bind trivial rfl (fun _ => authPlain_raises) fun now => ?_
      refine Spends.perform_bind trivial rfl (fun _ => authPlain_raises) fun expires_at => ?_
      exact Spends.perform_bind trivial rfl (fun _ => authPlain_raises) fun keys => .ret _
  have hfetch : (tryCatchThe Exc (fetchKeys settings : AuthTask κ (Dict κ)) fun e =>
      if refreshCatches e then throw identityProviderUnavailable else throw e).Spends
        (validatorTerms κ) (Fails IsForeign authRefusals) 2 := by
    refine Spends.tryCatch (m := 0) (fetchKeys_spends hjwt settings) fun e he => ?_
    split
    · exact .raise (.portal (by decide))
    · exact .raise (Or.inl he)
  unfold refreshLocked
  refine Spends.free_bind hvalid fun valid => ?_
  split
  · exact .ret _
  refine Spends.bind_free hfetch fun keys => ?_
  refine Spends.tell_bind trivial rfl ?_
  refine Spends.perform_bind trivial rfl (fun _ => authPlain_raises) fun now => ?_
  exact Spends.tell trivial

theorem getKey_spends (kid : String) : (getKey settings kid : AuthTask κ κ).Spends
    (validatorTerms κ) (Fails IsForeign authRefusals) 2 := by
  have hrefresh : ∀ force, (refreshKeys settings force : AuthTask κ Unit).Spends
      (validatorTerms κ) (Fails IsForeign authRefusals) 2 := fun force =>
    Spends.inside (Spends.perform (T := validatorTerms κ) (o := AuthOp.lockAcquire) trivial
      fun _ => authPlain_raises) (refreshLocked_spends hjwt settings force)
      (Spends.tell (T := validatorTerms κ) (o := AuthOp.lockRelease) trivial)
  have hfound : ∀ n, (lookUp kid : AuthTask κ κ).Spends (validatorTerms κ)
      (Fails IsForeign authRefusals) n := by
    intro n
    refine Spends.perform_bind trivial rfl (fun _ => authPlain_raises) fun keys => ?_
    unfold findKey
    split
    · exact .ret _
    · exact .raise invalid_fails
  rw [getKey_eq]
  refine Spends.perform_bind trivial rfl (fun _ => authPlain_raises) fun now => ?_
  refine Spends.perform_bind trivial rfl (fun _ => authPlain_raises) fun expires_at => ?_
  refine Spends.perform_bind trivial rfl (fun _ => authPlain_raises) fun keys => ?_
  split
  · exact Spends.bind (n := 2) (m := 0) (hrefresh _) fun _ => hfound 0
  · exact hfound 2

omit [UnicodeData] [UrlData] in
theorem readHeader_fails (token : String) :
    Raises (Fails IsForeign authRefusals) (readHeader κ token) := by
  unfold readHeader
  split
  · exact .error invalid_fails
  · rename_i e _ he
    rw [hjwt.get_unverified_header _ _ he]
    exact .error (Or.inl rfl)
  · split
    · split
      · exact .ok _
      · exact .error invalid_fails
    · exact .error invalid_fails

omit [UrlData] in
theorem checkToken_fails (token : String) (key : κ) (now : ℚ) :
    Raises (Fails IsForeign authRefusals) (checkToken settings token key now) := by
  unfold checkToken
  split
  · exact .error invalid_fails
  · rename_i e _ he
    rw [hjwt.decode _ _ _ _ _ _ he]
    exact .error (Or.inl rfl)
  · rename_i claims _
    rcases readClaims_cases settings claims with h | h | h | ⟨user, h, -⟩ <;> rw [h]
    · exact .error invalid_fails
    · exact .error (.portal (by decide))
    · exact .error (.portal (by decide))
    · exact .ok _

/-- At most the discovery document and the keys are asked for. -/
theorem validate_spends (token : String) :
    (validate settings token : AuthTask κ AuthenticatedUser).Spends (validatorTerms κ)
      (Fails IsForeign authRefusals) 2 := by
  unfold validate
  simp only [Prog.liftM_eq]
  refine Spends.ofExcept_bind (readHeader_fails hjwt token) fun kid => ?_
  refine Spends.bind_free (getKey_spends hjwt settings kid) fun key => ?_
  refine Spends.perform_bind trivial rfl (fun _ => authPlain_raises) fun now => ?_
  exact Spends.ofExcept (checkToken_fails hjwt settings token key now)

end Validator

/-! ## The probes -/

/-- The two probes cost nothing. -/
def healthTerms : Terms HealthOp HealthOp.Answer Exc ℕ where
  allowed := fun _ => True
  price := fun _ => 0
  grants := fun _ r => Raises IsForeign r

/-- What `ready` answers, by what the probes found. -/
def readiness (database redis : Bool) : ℕ × HealthResponse :=
  let okIf (found : Bool) := if found then "ok" else "unavailable"
  (if database && redis then 200 else 503, {
    status := if database && redis then "ready" else "not_ready"
    dependencies := some [("database", okIf database), ("redis", okIf redis)] })

/-- No class but the application's own gets past it. -/
theorem exceptException_within {p : HealthTask Bool} (h : p.Spends healthTerms IsForeign 0) :
    (exceptException p false).Within healthTerms (fun r => ∃ found, r = .ok found) 0 := by
  refine Within.tryCatch (n := 0) (m := 0) h (fun found _ => ⟨found, rfl⟩) fun e he => ?_
  have hforeign : IsForeign e := he e rfl
  cases e with
  | portal e => cases hforeign
  | d365 kind message => cases hforeign
  | systemExit message => cases hforeign
  | _ => exact ⟨false, rfl⟩

theorem ready_within : ready.Within healthTerms
    (fun r => ∃ database redis, r = .ok (readiness database redis)) 0 := by
  have hdatabase : databaseIsReady.Within healthTerms (fun r => ∃ found, r = .ok found) 0 := by
    refine exceptException_within ?_
    exact Spends.perform_bind (T := healthTerms) (o := HealthOp.selectOne) trivial rfl
      (fun _ h => h) fun _ => .ret _
  have hredis := exceptException_within
    (Spends.perform (T := healthTerms) (E := IsForeign) (o := HealthOp.ping) trivial fun _ h => h)
  unfold ready check
  rw [bind_assoc]
  refine Within.bind (n := 0) (m := 0) hdatabase (fun database _ => ?_) fun e ⟨_, h⟩ => by cases h
  rw [bind_assoc]
  refine Within.bind (n := 0) (m := 0) hredis (fun redis _ => ?_) fun e ⟨_, h⟩ => by cases h
  refine ⟨database, redis, ?_⟩
  cases database <;> cases redis <;> rfl

/-! ## What a request costs -/

section Costs

variable {κ π : Type}

variable (κ) in
/-- What a request costs: GETs to D365, and the validator's to the identity provider. What
MSAL asks the identity provider for a token is not counted. -/
def serverTerms : Terms (ServerOp κ) ServerOp.Answer Exc (ℕ × ℕ) where
  allowed := fun _ => True
  price
    | .auth (.get _) => (0, 1)
    | .service (.send _) => (1, 0)
    | _ => 0
  grants
    | .auth o, r => o.plain r = true
    | .service o, r => o.plain r = true
    | _, r => Raises IsForeign r

def ServerSession.spent (l : ServerSession π) : ℕ × ℕ := (l.sent.length, l.keys.exchanges.length)

def signInRefusals : List Refusal := ("AUTHENTICATION_REQUIRED", 401) :: authRefusals

def Endpoint.refusals : Endpoint → List Refusal
  | .employee route => signInRefusals ++ route.refusals
  | _ => []

/-- What is answered with a plain 500. -/
def Endpoint.escapes : Endpoint → Exc → Prop
  | .employee route => route.escapes IsForeign
  | _ => fun _ => False

/-- The answers of an endpoint, each with its status. -/
inductive Endpoint.Answers : Endpoint → ℕ → ServerAnswer → Prop
  | employee {route : Route} {reply : Reply} (h : route.Answers reply) :
      Answers (.employee route) 200 (.inl reply)
  | health : Answers .health 200 (.inr Health.live)
  | live : Answers .live 200 (.inr Health.live)
  | ready (database redis : Bool) :
      Answers .ready (readiness database redis).1 (.inr (readiness database redis).2)

/-- Each question to D365 is sent `max_retries` times more, and the validator fetches the
keys once. -/
def Endpoint.budget (max_retries : ℤ) : Endpoint → ℕ × ℕ
  | .employee route => (attemptsOf max_retries * route.questions, 2)
  | _ => 0

variable [Jwt κ] [UnicodeData] [UrlData] [FloatData] {settings : D365Settings}
  {answers : D365TokenService.Provider π}

omit [UnicodeData] [UrlData] [FloatData] [Jwt κ] in
theorem sem_foreign {o : Op} {s s' : Database} {l l' : Session} {r : Except Exc o.Answer}
    (h : Sem o s l r s' l') (hlocal : ∀ entity params, o ≠ .getEntity entity params) :
    Raises IsForeign r := by
  cases h with
  | answered => exact absurd rfl (hlocal _ _)
  | unanswered => exact absurd rfl (hlocal _ _)
  | selectFailed => exact .error rfl
  | firstFailed => exact .error rfl
  | loadFailed => exact .error rfl
  | refused => exact .error rfl
  | commitFailed => exact .error rfl
  | rollbackFailed => exact .error rfl
  | _ => exact .ok _

/-- What an operation answers is granted, and its price is what the session spends. -/
theorem does_granted {c : ServerCall} {o : ServerOp κ} {s s' : Server κ π} {l l' : ServerSession π}
    {r : Except Exc o.Answer} (h : (server κ settings answers).Does c o s l r s' l') :
    (serverTerms κ).grants o r ∧ l'.spent = l.spent + (serverTerms κ).price o := by
  cases o with
  | bindUser user =>
    cases h
    exact ⟨.ok _, rfl⟩
  | database o =>
    obtain ⟨hlocal, db, l₁, hsem, -, rfl⟩ := does_database h
    exact ⟨sem_foreign hsem hlocal, rfl⟩
  | health o =>
    cases h with
    | health r hforeign => exact ⟨foreign_iff.mp hforeign, rfl⟩
  | auth o =>
    cases o with
    | get url =>
      cases h with
      | auth hawaited hplain =>
        cases hawaited
        exact ⟨hplain, by simp [ServerSession.spent, serverTerms]⟩
    | lockAcquire =>
      cases h with
      | auth hawaited hplain =>
        cases hawaited
        exact ⟨hplain, rfl⟩
    | _ =>
      cases h
      exact ⟨rfl, rfl⟩
  | service o =>
    cases o with
    | send request =>
      cases h
      exact ⟨rfl, by simp [ServerSession.spent, serverTerms, ServerSession.record, recordGet]⟩
    | response =>
      cases h with
      | service hawaited hplain =>
        refine ⟨hplain, ?_⟩
        cases hawaited with
        | response r => cases r <;> rfl
    | lockAcquire =>
      cases h with
      | service hawaited hplain =>
        cases hawaited
        exact ⟨hplain, rfl⟩
    | acquireTokenForClient =>
      cases h with
      | service hawaited hplain =>
        cases hawaited
        exact ⟨hplain, rfl⟩
    | sleep delay =>
      cases h with
      | service hawaited hplain =>
        cases hawaited
        exact ⟨hplain, rfl⟩
    | _ =>
      cases h
      exact ⟨rfl, rfl⟩

/-! ### Part by part -/

omit [Jwt κ] [UnicodeData] [UrlData] [FloatData] in
theorem serviceTask_within {α : Type} {Q : Except Exc α → Prop} {n : ℕ} {p : D365.Task α}
    (h : p.Within clientTerms Q n) : (serviceTask p).Within (serverTerms κ) Q (n, 0) := by
  refine Within.fill (AddMonoidHom.inl ℕ ℕ)
    (fun _ _ hle => Prod.mk_le_mk.mpr ⟨hle, le_rfl⟩) (fun o _ => ?_) h
  have hperform := Within.perform (T := serverTerms κ) (o := ServerOp.service o)
    (Q := clientTerms.grants o) trivial fun _ hr => hr
  cases o <;> exact hperform

omit [Jwt κ] [UnicodeData] [UrlData] [FloatData] in
theorem authTask_within {α : Type} {Q : Except Exc α → Prop} {n : ℕ} {p : AuthTask κ α}
    (h : p.Within (validatorTerms κ) Q n) : (authTask p).Within (serverTerms κ) Q (0, n) := by
  refine Within.fill (AddMonoidHom.inr ℕ ℕ)
    (fun _ _ hle => Prod.mk_le_mk.mpr ⟨le_rfl, hle⟩) (fun o _ => ?_) h
  have hperform := Within.perform (T := serverTerms κ) (o := ServerOp.auth o)
    (Q := (validatorTerms κ).grants o) trivial fun _ hr => hr
  cases o <;> exact hperform

omit [Jwt κ] [UnicodeData] [UrlData] [FloatData] in
theorem healthTask_within {α : Type} {Q : Except Exc α → Prop} {p : HealthTask α}
    (h : p.Within healthTerms Q 0) : (healthTask p).Within (serverTerms κ) Q 0 := by
  refine Within.fill (AddMonoidHom.inl ℕ ℕ)
    (fun _ _ hle => Prod.mk_le_mk.mpr ⟨hle, le_rfl⟩) (fun o _ => ?_) h
  exact Within.perform (T := serverTerms κ) (o := ServerOp.health o)
    (Q := healthTerms.grants o) trivial fun _ hr => hr

omit [Jwt κ] [UrlData] in
/-- A question of the portal, asked through the client. -/
theorem perform_within (hfloat : FloatRaises) (max_retries : ℤ) (o : Op) :
    (perform max_retries o).Within (serverTerms κ)
      ((portalTerms IsForeign fun _ => True).grants o)
      (attemptsOf max_retries * (portalTerms IsForeign fun _ => True).price o, 0) := by
  have hdatabase : ∀ o : Op, (∀ entity params, o ≠ .getEntity entity params) →
      (Prog.perform (ServerOp.database o) : ServerTask κ o.Answer).Within (serverTerms κ)
        (Raises IsForeign) 0 := fun o _ =>
    Within.perform (T := serverTerms κ) (o := ServerOp.database o) trivial fun _ hr => hr
  cases o with
  | getEntity entity params =>
    rw [show (portalTerms IsForeign fun _ => True).price (.getEntity entity params) = 1 from rfl,
      mul_one]
    exact serviceTask_within (askD365_spends hfloat max_retries entity params)
  | _ => exact hdatabase _ fun _ _ h => by cases h

/-- How a handler ends. -/
def Endpoint.Ends (endpoint : Endpoint) (r : Except Exc (HttpReply ServerAnswer)) : Prop :=
  Raises (Fails endpoint.escapes endpoint.refusals) r ∧ ∀ reply, r = .ok reply →
    ∃ status answer, reply = { status_code := status, content := .answer answer } ∧
      endpoint.Answers status answer

variable (hjwt : EntraTokenValidator.JwtRaises κ) (hfloat : FloatRaises)

include hjwt

omit [FloatData] in
theorem getCurrentUser_spends (settings : Settings) (credentials : Option (String × String)) :
    (getCurrentUser settings credentials : ServerTask κ AuthenticatedUser).Spends (serverTerms κ)
      (Fails IsForeign signInRefusals) (0, 2) := by
  unfold getCurrentUser
  simp only [Prog.liftM_eq]
  refine Spends.ofExcept_bind ?_ fun token => ?_
  · unfold bearerToken
    split
    · exact Raises.error (.portal (by decide))
    · split
      · exact Raises.error (.portal (by decide))
      · split
        · exact Raises.error (.portal (by decide))
        · exact Raises.ok _
  have hvalidate : (authTask (EntraTokenValidator.validate settings token) :
      ServerTask κ AuthenticatedUser).Spends (serverTerms κ) (Fails IsForeign signInRefusals)
        (0, 2) :=
    (Spends.mono (authTask_within (validate_spends hjwt settings token)) le_rfl) fun e he =>
      he.mono (fun _ h => h) (List.subset_cons_self _ _)
  refine Spends.bind_free hvalidate fun user => ?_
  exact Spends.tell_bind trivial rfl (.ret _)

include hfloat

theorem employeeRoute_within (c : ServerCall) (route : Route) :
    (employeeRoute settings c route : ServerTask κ (HttpReply ServerAnswer)).Within (serverTerms κ)
      (Endpoint.employee route).Ends ((Endpoint.employee route).budget settings.D365_MAX_RETRIES) := by
  have huser := getCurrentUser_spends (κ := κ) hjwt settings.toSettings c.request.credentials
  have hbody : ∀ user, ((route.call (stated c.request c.request_id) user).body.fill
      (perform settings.D365_MAX_RETRIES) : ServerTask κ Reply).Within (serverTerms κ)
        (route.Ends IsForeign) (attemptsOf settings.D365_MAX_RETRIES * route.questions, 0) := by
    intro user
    refine Within.fill (T := portalTerms IsForeign fun _ => True)
      ((AddMonoidHom.inl ℕ ℕ).comp (AddMonoidHom.mulLeft (attemptsOf settings.D365_MAX_RETRIES)))
      (fun _ _ hle => Prod.mk_le_mk.mpr ⟨Nat.mul_le_mul_left _ hle, le_rfl⟩)
      (fun o _ => perform_within hfloat _ o) ?_
    exact call_runs isForeign_foreign (fun _ => trivial) (fun _ => trivial)
      (fun _ _ _ => trivial) route _ user
  have hsum : (Endpoint.employee route).budget settings.D365_MAX_RETRIES =
      (0, 2) + ((attemptsOf settings.D365_MAX_RETRIES * route.questions, 0) + 0) := by
    simp [Endpoint.budget]
  rw [hsum]
  refine Within.bind huser (fun user _ => ?_) fun e he => ⟨.error ?_, fun _ h => by cases h⟩
  · refine Within.bind (hbody user) (fun reply hreply => ?_) fun e he => ⟨.error ?_, fun _ h => by
      cases h⟩
    · refine ⟨.ok _, fun _ h => ?_⟩
      exact ⟨200, .inl reply, (Except.ok.inj h).symm, .employee (hreply.2 reply rfl)⟩
    · exact (he.1 e rfl).mono (fun _ h => h) (List.subset_append_right _ _)
  · refine (he e rfl).mono (fun e he => ?_) (List.subset_append_left _ _)
    cases route with
    | me => exact he
    | _ => exact orD365_of e he

theorem handler_within (c : ServerCall) :
    (handler settings c : ServerTask κ (HttpReply ServerAnswer)).Within (serverTerms κ)
      c.endpoint.Ends (c.endpoint.budget settings.D365_MAX_RETRIES) := by
  unfold handler
  split
  · rename_i route hroute
    rw [hroute]
    exact employeeRoute_within hjwt hfloat c route
  · rename_i hhealth
    rw [hhealth]
    exact ⟨.ok _, fun _ h => ⟨200, _, (Except.ok.inj h).symm, .health⟩⟩
  · rename_i hlive
    rw [hlive]
    exact ⟨.ok _, fun _ h => ⟨200, _, (Except.ok.inj h).symm, .live⟩⟩
  · rename_i hready
    rw [hready]
    refine Within.bind (n := 0) (m := 0) (healthTask_within ready_within) ?_ ?_
    · rintro answer ⟨database, redis, hanswer⟩
      obtain rfl := Except.ok.inj hanswer
      exact ⟨.ok _, fun _ h => ⟨_, _, (Except.ok.inj h).symm, .ready database redis⟩⟩
    · rintro e ⟨database, redis, he⟩
      cases he

end Costs

/-! ## What it says -/

section Replies

/-- A response that the endpoint documents, to the request with this id. -/
structure Documented (endpoint : Endpoint) (request_id : String) (reply : HttpReply ServerAnswer) :
    Prop where
  answer : ∀ answer, reply.content = .answer answer → endpoint.Answers reply.status_code answer
  refusal : ∀ code message id, reply.content = .error code message id →
    (code, reply.status_code) ∈ endpoint.refusals ∧ id = request_id
  id : Dict.get? reply.headers "X-Request-ID" = some request_id
  security : ∀ header ∈ securityHeaders, Dict.get? reply.headers header.1 = some header.2
  authenticate : Dict.get? reply.headers "WWW-Authenticate" =
    if reply.status_code = 401 then some "Bearer" else none

theorem Endpoint.Answers.authorized {endpoint : Endpoint} {status : ℕ} {answer : ServerAnswer}
    (h : endpoint.Answers status answer) : status ≠ 401 := by
  cases h with
  | ready database redis => cases database <;> cases redis <;> decide
  | _ => decide

/-- The middlewares add to the headers of a reply, whichever it has. -/
theorem documented_of_inner {endpoint : Endpoint} {request_id : String}
    {inner : HttpReply ServerAnswer}
    (hanswer : ∀ answer, inner.content = .answer answer → endpoint.Answers inner.status_code answer)
    (hrefusal : ∀ code message id, inner.content = .error code message id →
      (code, inner.status_code) ∈ endpoint.refusals ∧ id = request_id)
    (hheaders : inner.headers =
      if inner.status_code = 401 then [("WWW-Authenticate", "Bearer")] else []) :
    Documented endpoint request_id
      (requestContextMiddleware request_id (securityHeadersMiddleware inner)) := by
  refine ⟨hanswer, hrefusal, ?_, fun header hheader => ?_, ?_⟩
  · rw [requestContextMiddleware, get?_update]
    rfl
  · rw [requestContextMiddleware, get?_update, securityHeadersMiddleware, get?_update]
    simp only [securityHeaders, List.mem_cons, List.not_mem_nil, or_false] at hheader
    rcases hheader with rfl | rfl | rfl | rfl <;> rfl
  · rw [requestContextMiddleware, get?_update, securityHeadersMiddleware, get?_update]
    change Dict.get? inner.headers "WWW-Authenticate" = _
    rw [hheaders]
    change _ = if inner.status_code = 401 then _ else _
    split <;> rfl

theorem Endpoint.escapes_portal (endpoint : Endpoint) (error : PortalError) :
    ¬ endpoint.escapes (.portal error) := by
  have hroute : ¬ orD365 IsForeign (.portal error) := by
    rintro (hforeign | ⟨kind, message, he⟩)
    · cases hforeign
    · cases he
  cases endpoint with
  | employee route =>
    cases route with
    | me => exact fun h => hroute (orD365_of _ h)
    | _ => exact hroute
  | _ => exact id

/-- What a request is answered with, or what is raised instead. -/
structure Responds (c : ServerCall) (x : Except Exc (HttpReply ServerAnswer)) : Prop where
  documented : ∀ reply, x = .ok reply → Documented c.endpoint c.request_id reply
  escaped : Raises c.endpoint.escapes x

theorem dispatch_responds {c : ServerCall} {r : Except Exc (HttpReply ServerAnswer)}
    (h : c.endpoint.Ends r) : Responds c (dispatch c.request_id r) := by
  refine ⟨fun reply hreply => ?_, fun e he => ?_⟩
  · obtain ⟨inner, rfl, hinner | ⟨error, hraised, hinner⟩⟩ := dispatch_eq_ok hreply
    · obtain ⟨status, answer, rfl, hanswers⟩ := h.2 inner hinner
      refine documented_of_inner ?_ ?_ ?_
      · rintro answer' hcontent
        obtain rfl := Content.answer.inj hcontent
        exact hanswers
      · rintro code message id hcontent
        cases hcontent
      · rw [if_neg hanswers.authorized]
    · obtain rfl := Except.ok.inj hinner
      refine documented_of_inner ?_ ?_ rfl
      · rintro answer hcontent
        cases hcontent
      · rintro code message id hcontent
        obtain ⟨rfl, rfl, rfl⟩ := Content.error.inj hcontent
        refine ⟨?_, rfl⟩
        rcases h.1 _ hraised with hescapes | ⟨error', herror, hmem⟩
        · exact absurd hescapes (c.endpoint.escapes_portal _)
        · cases herror
          exact hmem
  · cases r with
    | ok reply => cases he
    | error e' =>
      rcases h.1 e' rfl with hescapes | ⟨error, rfl, -⟩
      · cases e' with
        | portal error => cases he
        | _ => exact Except.error.inj he ▸ hescapes
      · cases he

end Replies

/-! ## Runs -/

section Runs

variable {κ π : Type} [Jwt κ] [UnicodeData] [UrlData] [FloatData] {settings : D365Settings}
  {answers : D365TokenService.Provider π} (hjwt : EntraTokenValidator.JwtRaises κ)
  (hfloat : FloatRaises) {s : Server κ π} {P' : ServerPool κ π}
  (h : (server κ settings answers).Reaches ⟨s, []⟩ P') {t : ServerThread κ π}
  (ht : t ∈ P'.threads)

include hjwt hfloat h ht

/-- What a request has spent and what is left of it are within its budget. -/
theorem request_within : ∃ n,
    t.sess.spent + n ≤ t.call.endpoint.budget settings.D365_MAX_RETRIES ∧
      t.prog.Within (serverTerms κ) (Responds t.call) n := by
  refine Loop.within_of_reaches (T := fun _ => serverTerms κ) Responds
    (fun c => c.endpoint.budget settings.D365_MAX_RETRIES) ServerSession.spent rfl
    (fun _ _ _ _ _ _ _ hdoes => (does_granted hdoes).1)
    (fun _ _ _ _ _ _ _ hdoes => (does_granted hdoes).2) (fun c _ => ?_) h t ht
  refine Within.conclude ((handler_within hjwt hfloat c).mono le_rfl fun _ => ?_)
  exact dispatch_responds

/-- **What the server answers.** A request that is over, in any run, has been answered as its
endpoint documents: with an answer and its status, or with a refusal the endpoint has, under the
id of the request and with all headers; what is raised instead is of no class of the
application's own or, on the routes for profile and balances, an exception of D365. -/
theorem server_responds {x : Except Exc (HttpReply ServerAnswer)} (hx : t.prog.result = some x) :
    Responds t.call x := by
  obtain ⟨n, -, hwithin⟩ := request_within hjwt hfloat h ht
  rw [Prog.eq_ofExcept_of_result hx] at hwithin
  exact Within.ofExcept_iff.mp hwithin

/-- **What a request costs.** Over or not, a request has sent each question of its
route at most `D365_MAX_RETRIES` times more, and its validator has sent two requests to the
identity provider at most. -/
theorem server_budget :
    t.sess.sent.length ≤ (t.call.endpoint.budget settings.D365_MAX_RETRIES).1 ∧
      t.sess.keys.exchanges.length ≤ (t.call.endpoint.budget settings.D365_MAX_RETRIES).2 := by
  obtain ⟨n, hn, -⟩ := request_within hjwt hfloat h ht
  exact Prod.mk_le_mk.mp (le_self_add.trans hn)

end Runs

section Example

open Ascii EntraTokenValidator RsaKeys

theorem noFloats_raises : FloatRaises := fun _ => .error rfl

theorem server_responds_balances :
    ∃ (P' : ServerPool (String × String) Unit) (t : ServerThread (String × String) Unit)
      (reply : HttpReply ServerAnswer), exampleLoop.Reaches ⟨exampleServer, []⟩ P' ∧
      t ∈ P'.threads ∧ t.prog = .ret reply ∧
      Documented (.employee .myLeaveBalances) t.call.request_id reply := by
  obtain ⟨P', h, t, ht, hserved⟩ := exampleServerRun
  obtain ⟨hroute, -, reply, response, hret, -⟩ := isServed_answer hserved
  have hresult : t.prog.result = some (.ok reply) := by rw [hret]; rfl
  have hresponds := server_responds rsaKeys_raises noFloats_raises h ht hresult
  exact ⟨P', t, reply, h, ht, hret, hroute ▸ hresponds.documented reply rfl⟩

theorem server_budget_balances :
    ∃ (P' : ServerPool (String × String) Unit) (t : ServerThread (String × String) Unit),
      exampleLoop.Reaches ⟨exampleServer, []⟩ P' ∧ t ∈ P'.threads ∧ isServed t = true ∧
      t.sess.sent.length ≤ 12 ∧
      t.sess.keys.exchanges.length ≤ 2 := by
  obtain ⟨P', h, t, ht, hserved⟩ := exampleServerRun
  have hbudget := server_budget rsaKeys_raises noFloats_raises h ht
  rw [(isServed_answer hserved).1] at hbudget
  exact ⟨P', t, h, ht, hserved, hbudget⟩

end Example

end EmployeePortal
