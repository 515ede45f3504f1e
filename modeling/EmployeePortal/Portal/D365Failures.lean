import EmployeePortal.Framework.Traces
import EmployeePortal.Portal.Authorization

/-!
# When D365 fails

A route asks D365 in up to three places. `provision` turns an error of D365 into a
`PortalError`; the profile and the leave service let it through. Which one it was can
be told from the configuration the call loaded last.
-/

namespace EmployeePortal

open EmployeePortal.Python EmployeePortal.Framework EmployeePortal.Employees
  EmployeePortal.Tools EmployeePortal.Audit EmployeePortal.D365

/-! ## Failures and what becomes of them -/

/-- The error with which D365 fails a request. -/
def d365Error : (o : Op) → Except Exc o.Answer → Option Exc
  | .getEntity _ _, .error (.d365 kind message) => some (.d365 kind message)
  | _, _ => none

/-- The configuration loaded last, after this operation. -/
def Op.configures : Op → Option String → Option String
  | .configuration mapping_key, _ => some mapping_key
  | _, k => k

/-- The configuration loaded last in these events. -/
def configured : Option String → List (Event Op Op.Answer Exc) → Option String
  | k, [] => k
  | k, e :: events => configured (e.1.configures k) events

/-- What an error of D365 comes to: a `PortalError` in the identity lookup, itself
elsewhere. -/
def Translated (k : Option String) (e e' : Exc) : Prop :=
  if k = some "identity" then ∃ error, e' = .portal error else e' = e

/-- An error of D365 ends the program at once, translated as it should be; a program that
returns satisfies `Q` with the configuration it loaded last. -/
def Ends {α : Type} (Q : α → Option String → Prop) : Option String → Coroutine α → Prop
  | k, .ret a => Q a k
  | _, .raise _ => True
  | k, .op o c => ∀ r,
      match d365Error o r with
      | some e => ∃ e', c r = .raise e' ∧ Translated k e e'
      | none => Ends Q (o.configures k) (c r)

/-- A program that never asks D365. -/
def Quiet {α : Type} (p : Coroutine α) : Prop := p.Only fun o => ∀ r, d365Error o r = none

namespace Ends

variable {α β : Type} {Q : α → Option String → Prop} {k : Option String}

theorem op_iff {o : Op} {c : Except Exc o.Answer → Coroutine α} :
    Ends Q k (.op o c) ↔ ∀ r, (∀ e, d365Error o r = some e →
      ∃ e', c r = .raise e' ∧ Translated k e e') ∧
        (d365Error o r = none → Ends Q (o.configures k) (c r)) := by
  rw [Ends]
  refine forall_congr' fun r => ?_
  cases d365Error o r with
  | none => simp
  | some e => simp

theorem mono {Q' : α → Option String → Prop} {p : Coroutine α} (h : Ends Q k p)
    (hQ : ∀ a k', Q a k' → Q' a k') : Ends Q' k p := by
  induction p generalizing k with
  | ret a => exact hQ a k h
  | raise e => trivial
  | op o c ih =>
    rw [op_iff] at h ⊢
    exact fun r => ⟨(h r).1, fun hr => ih r ((h r).2 hr)⟩

theorem bind {Q : β → Option String → Prop} {p : Coroutine α} {f : α → Coroutine β}
    (h : Ends (fun a k' => Ends Q k' (f a)) k p) : Ends Q k (p >>= f) := by
  induction p generalizing k with
  | ret a => exact h
  | raise e => trivial
  | op o c ih =>
    rw [op_iff] at h
    rw [Prog.op_bind, op_iff]
    intro r
    refine ⟨?_, fun hr => ih r ((h r).2 hr)⟩
    intro e he
    obtain ⟨e', hraise, htranslated⟩ := (h r).1 e he
    exact ⟨e', by rw [hraise, Prog.raise_bind], htranslated⟩

theorem ofExcept {x : Except Exc α} (h : ∀ a, x = .ok a → Q a k) :
    Ends Q k (Prog.ofExcept x) := by
  cases x with
  | ok a => exact h a rfl
  | error e => trivial

theorem ofExcept_bind {x : Except Exc β} {f : β → Coroutine α}
    (h : ∀ b, x = .ok b → Ends Q k (f b)) : Ends Q k (Prog.ofExcept x >>= f) :=
  bind (ofExcept h)

/-- Loading a configuration. -/
theorem configuration {mapping_key : String} {Q : Option EntityMapping → Option String → Prop}
    (h : ∀ found, Q found (some mapping_key)) :
    Ends Q k (await (.configuration mapping_key)) := by
  rw [await, Prog.perform, op_iff]
  intro r
  constructor
  · intro e he
    cases he
  · intro _
    exact ofExcept fun found _ => h found

theorem of_quiet {p : Coroutine α} (h : Quiet p) : Ends (fun _ _ => True) k p := by
  induction p generalizing k with
  | ret a => trivial
  | raise e => trivial
  | op o c ih =>
    rw [op_iff]
    intro r
    constructor
    · intro e he
      rw [h.1 r] at he
      cases he
    · exact fun _ => ih r (h.2 r)

/-- An error of D365 ends the run, translated as it should be. -/
theorem run {p : Coroutine α} (h : Ends Q k p) {events : List (Event Op Op.Answer Exc)}
    {result : Except Exc α} (hrun : p.Run events result) {past future} {o : Op}
    {r : Except Exc o.Answer} {e : Exc} (hevents : events = past ++ ⟨o, r⟩ :: future)
    (he : d365Error o r = some e) :
    ∃ e', result = .error e' ∧ Translated (configured k past) e e' := by
  induction p generalizing k events past with
  | ret a =>
    obtain ⟨rfl, -⟩ := hrun
    simp at hevents
  | raise e' =>
    obtain ⟨rfl, -⟩ := hrun
    simp at hevents
  | op o' c ih =>
    obtain ⟨r', events', rfl, hrest⟩ := hrun
    rw [op_iff] at h
    cases past with
    | nil =>
      obtain ⟨hfirst, -⟩ := List.cons.inj hevents
      obtain ⟨rfl, hr⟩ := Sigma.mk.inj hfirst
      obtain rfl := eq_of_heq hr
      obtain ⟨e', hraise, htranslated⟩ := (h r').1 e he
      rw [hraise] at hrest
      exact ⟨e', hrest.2, htranslated⟩
    | cons first past =>
      obtain ⟨rfl, hlater⟩ := List.cons.inj hevents
      cases hr' : d365Error o' r' with
      | none => exact ih r' ((h r').2 hr') hrest hlater
      | some x =>
        obtain ⟨e', hraise, -⟩ := (h r').1 x hr'
        rw [hraise] at hrest
        rw [hrest.1] at hlater
        simp at hlater

end Ends

/-- How a failed request is answered. -/
theorem d365Error_getEntity {entity : String} {params : Dict String}
    {r : Except Exc (Dict Json)} {e : Exc} (h : d365Error (.getEntity entity params) r = some e) :
    r = .error e ∧ ∃ kind message, e = .d365 kind message := by
  cases r with
  | ok payload => cases h
  | error x =>
    cases x with
    | d365 kind message =>
      obtain rfl := Option.some.inj h
      exact ⟨rfl, kind, message, rfl⟩
    | _ => cases h

theorem quiet_recordAudit (request : Request) (user : AuthenticatedUser) (entry : Entry) :
    Quiet (recordAudit request user entry) :=
  recordAudit_only (fun _ => rfl) fun _ => rfl

theorem required_ends {k : Option String} (mapping : Option Mapping)
    (required : Bool) :
    Ends (fun _ _ => True) k (match mapping with
      | none => if required then throw mappingRequired else return none
      | some mapping => return some mapping) := by
  cases mapping with
  | some mapping => trivial
  | none => cases required <;> trivial

section Services

variable [UnicodeData] {k : Option String}

/-! ## The services -/

/-- A request outside the identity lookup raises what D365 raised. -/
theorem getEntity_ends {Q : Dict Json → Option String → Prop} (entity : String)
    (query : ODataQuery) (hk : k ≠ some "identity") (h : ∀ payload, Q payload k) :
    Ends Q k (getEntity entity query) := by
  unfold getEntity
  simp only [Prog.liftM_eq]
  refine Ends.ofExcept_bind fun name _ => Ends.ofExcept_bind fun params _ => ?_
  rw [await, Prog.perform, Ends.op_iff]
  intro r
  constructor
  · intro e he
    obtain ⟨rfl, -⟩ := d365Error_getEntity he
    exact ⟨e, rfl, by rw [Translated, if_neg hk]⟩
  · intro _
    exact Ends.ofExcept fun payload _ => h payload

theorem requiredConfiguration_ends {Q : EntityMapping → Option String → Prop}
    (mapping_key : String) (missing : PortalError)
    (h : ∀ configuration, Q configuration (some mapping_key)) :
    Ends Q k (requiredConfiguration mapping_key missing) := by
  unfold requiredConfiguration
  refine Ends.bind (Ends.configuration fun found => ?_)
  cases found with
  | none => trivial
  | some configuration =>
    simp only [Prog.liftM_eq]
    exact Ends.ofExcept_bind fun _ _ => h configuration

theorem leaveConfiguration_ends {Q : Option EntityMapping → Option String → Prop}
    (mapping_key : String) (required : Bool) (h : ∀ found, Q found (some mapping_key)) :
    Ends Q k (leaveConfiguration mapping_key required) := by
  unfold leaveConfiguration
  refine Ends.bind (Ends.configuration fun found => ?_)
  cases found.filter (·.mapping_key = mapping_key) with
  | none =>
    cases required with
    | true => trivial
    | false => exact h none
  | some configuration =>
    simp only [Prog.liftM_eq]
    refine Ends.ofExcept_bind fun _ _ => ?_
    cases truthy configuration.company_field with
    | none => exact h (some configuration)
    | some field => exact Ends.ofExcept_bind fun _ _ => h (some configuration)

theorem leaveRecords_ends {Q : List (Dict Json) × Dict String → Option String → Prop}
    (configuration : EntityMapping) (identity : Mapping) (hk : k ≠ some "identity")
    (h : ∀ records, Q records k) : Ends Q k (leaveRecords configuration identity) := by
  unfold leaveRecords
  simp only [Prog.liftM_eq]
  refine Ends.ofExcept_bind fun fields _ => Ends.ofExcept_bind fun personnel_field _ =>
    Ends.ofExcept_bind fun filter _ => ?_
  refine Ends.bind (getEntity_ends _ _ hk fun payload => ?_)
  exact Ends.ofExcept_bind fun records _ => h _

theorem getProfile_ends (identity : Mapping) :
    Ends (fun _ _ => True) k (getProfile identity) := by
  unfold getProfile
  simp only [Prog.liftM_eq]
  refine Ends.bind (requiredConfiguration_ends _ _ fun configuration => ?_)
  refine Ends.ofExcept_bind fun fields _ => Ends.ofExcept_bind fun personnel_field _ =>
    Ends.ofExcept_bind fun filter _ => ?_
  refine Ends.bind (getEntity_ends _ _ (by decide) fun payload => ?_)
  exact Ends.ofExcept fun _ _ => trivial

theorem getBalances_ends (identity : Mapping) :
    Ends (fun _ _ => True) k (getBalances identity) := by
  unfold getBalances
  simp only [Prog.liftM_eq]
  refine Ends.bind (leaveConfiguration_ends _ _ fun found => ?_)
  cases found with
  | none => trivial
  | some configuration =>
    refine Ends.bind (leaveRecords_ends _ _ (by decide) fun answer => ?_)
    obtain ⟨records, fields⟩ := answer
    dsimp only
    split
    · refine Ends.bind (leaveConfiguration_ends _ _ fun fallback => ?_)
      cases fallback with
      | none => exact Ends.ofExcept_bind fun _ _ => trivial
      | some fallback =>
        refine Ends.bind (leaveRecords_ends _ _ (by decide) fun answer => ?_)
        exact Ends.ofExcept_bind fun _ _ => trivial
    · exact Ends.ofExcept_bind fun _ _ => trivial

/-- What `provision` makes of an exception of the lookup. -/
def lookupRaises : Exc → Exc
  | .d365 _ _ => provisioningUnavailable
  | e => e

/-- The identity lookup turns an error of D365 into the one of provisioning. -/
theorem identityLookup_ends (configuration : EntityMapping) (fields : Dict String) (upn : String) :
    Ends (fun _ _ => True) (some "identity")
      (tryCatchThe Exc (identityQuery configuration fields upn) fun e =>
        Prog.raise (lookupRaises e)) := by
  have hraised : ∀ e : Exc, Ends (fun (_ : Dict Json) _ => True) (some "identity")
      (tryCatchThe Exc (Prog.raise e : Coroutine (Dict Json)) fun e =>
        Prog.raise (lookupRaises e)) := fun e => trivial
  unfold identityQuery getEntity
  simp only [Prog.liftM_eq]
  -- what fails before the request is translated by the same handler
  cases item fields "entraUpn" with
  | error e => exact hraised e
  | ok field =>
  rw [Prog.ofExcept_ok, Prog.ret_bind]
  cases equals field upn with
  | error e => exact hraised e
  | ok filter =>
  rw [Prog.ofExcept_ok, Prog.ret_bind]
  cases validateIdentifier configuration.entity_name with
  | error e => exact hraised e
  | ok name =>
  rw [Prog.ofExcept_ok, Prog.ret_bind]
  generalize ODataQuery.toParams _ = encoded
  cases encoded with
  | error e => exact hraised e
  | ok params =>
  rw [Prog.ofExcept_ok, Prog.ret_bind]
  change Ends _ _ (.op (.getEntity name params) fun r =>
    tryCatchThe Exc (Prog.ofExcept r) fun e => Prog.raise (lookupRaises e))
  rw [Ends.op_iff]
  intro r
  constructor
  · intro e he
    obtain ⟨rfl, kind, message, rfl⟩ := d365Error_getEntity he
    refine ⟨provisioningUnavailable, rfl, ?_⟩
    rw [Translated, if_pos rfl]
    exact ⟨_, rfl⟩
  · intro _
    cases r with
    | ok payload => trivial
    | error e => exact hraised e

theorem confirm_ends (user : AuthenticatedUser) :
    Ends (fun _ _ => True) k (confirm user) := by
  unfold confirm
  by_cases hupn : callerUpn user = ""
  · rw [if_pos hupn]
    trivial
  rw [if_neg hupn]
  cases Uuid.parse user.oid with
  | none => trivial
  | some oid =>
    simp only [Prog.liftM_eq]
    refine Ends.bind (requiredConfiguration_ends _ _ fun configuration => ?_)
    refine Ends.ofExcept_bind fun fields _ => Ends.bind ?_
    have hhandler : (fun e : Exc => match e with
        | .d365 _ _ => throw provisioningUnavailable
        | e => throw e : Exc → Coroutine (Dict Json)) = fun e => Prog.raise (lookupRaises e) := by
      funext e
      cases e <;> rfl
    refine Ends.mono (k := some "identity") (Q := fun _ _ => True) ?_
      fun payload _ _ => Ends.ofExcept fun _ _ => trivial
    exact hhandler ▸ identityLookup_ends configuration fields (callerUpn user)

/-! ## The routes -/

theorem resolveIdentity_ends (request : Request) (user : AuthenticatedUser) (required : Bool) :
    Ends (fun _ _ => True) k (resolveIdentity request user required) := by
  unfold resolveIdentity
  have hfind : Quiet (findVerified user.oid) := findVerified_only (fun _ _ => rfl) user.oid
  refine Ends.bind ((Ends.of_quiet hfind).mono fun found k' _ => ?_)
  cases found with
  | some mapping => exact required_ends (some mapping) required
  | none =>
    change Ends _ _ (provisionAudited request user >>= _)
    refine Ends.bind (Ends.mono (Q := fun _ _ => True) ?_ fun mapping k'' _ =>
      required_ends mapping required)
    unfold provisionAudited provision
    refine Ends.bind (Ends.bind ((confirm_ends user).mono fun w k'' _ => ?_))
    cases w with
    | none => trivial
    | some w =>
      have hsettle : Quiet (settle user w) := settle_only (fun _ _ => rfl) (fun _ => rfl)
        (fun _ => rfl) (fun _ => rfl) (fun _ _ => rfl) fun _ _ => rfl
      refine (Ends.of_quiet hsettle).mono fun mapping k₃ _ => ?_
      cases mapping with
      | none => trivial
      | some mapping =>
        exact Ends.bind ((Ends.of_quiet (quiet_recordAudit request user _)).mono
          fun _ _ _ => trivial)

theorem route_ends {α : Type} (request : Request) (user : AuthenticatedUser) (required : Bool)
    (action resource : String) {fetch : Option Mapping → Coroutine α}
    (hfetch : ∀ mapping k, Ends (fun _ _ => True) k (fetch mapping)) :
    Ends (fun _ _ => True) k (route request user required action resource fetch) := by
  unfold route
  simp only [Prog.liftM_eq]
  refine Ends.ofExcept_bind fun user _ => ?_
  refine Ends.bind ((resolveIdentity_ends request user required).mono fun mapping k' _ => ?_)
  refine Ends.bind ((hfetch mapping k').mono fun answer k'' _ => ?_)
  exact Ends.bind ((Ends.of_quiet (quiet_recordAudit request user _)).mono fun _ _ _ => trivial)

theorem body_ends {c : Call} (hc : c.isRoute = true) : Ends (fun _ _ => True) k c.body := by
  cases c with
  | me request user =>
    refine Ends.bind ((route_ends request user false _ _ fun _ _ => ?_).mono fun _ _ _ => ?_)
    · trivial
    · trivial
  | myProfile request user =>
    refine Ends.bind ((route_ends request user true _ _ fun mapping k => ?_).mono fun _ _ _ => ?_)
    · cases mapping with
      | none => trivial
      | some mapping => exact getProfile_ends mapping
    · trivial
  | myLeaveBalances request user =>
    refine Ends.bind ((route_ends request user true _ _ fun mapping k => ?_).mono fun _ _ _ => ?_)
    · cases mapping with
      | none => trivial
      | some mapping => exact getBalances_ends mapping
    · trivial
  | _ => cases hc

/-- **Which failures of D365 reach the browser sanitized.** In every run of an employee
route, whatever the database and D365 answer: when D365 fails a request with an error
of its own, the route ends in a `PortalError` if and only if that request was the
identity lookup, the one made after loading the `identity` configuration. -/
theorem d365_failures_sanitized {c : Call} (hc : c.isRoute = true)
    {events : List (Event Op Op.Answer Exc)} {result : Except Exc Reply}
    (hrun : c.body.Run events result) {past future} {entity : String} {params : Dict String}
    {kind : D365Kind} {message : String}
    (hevents : events = past ++ ⟨.getEntity entity params, .error (.d365 kind message)⟩ :: future) :
    (∃ error, result = .error (.portal error)) ↔ configured none past = some "identity" := by
  obtain ⟨e, rfl, htranslated⟩ := (body_ends hc).run hrun hevents rfl
  unfold Translated at htranslated
  by_cases hidentity : configured none past = some "identity"
  · rw [if_pos hidentity] at htranslated
    obtain ⟨error, rfl⟩ := htranslated
    exact ⟨fun _ => hidentity, fun _ => ⟨error, rfl⟩⟩
  · rw [if_neg hidentity] at htranslated
    constructor
    · rintro ⟨error, herror⟩
      rw [htranslated] at herror
      cases Except.error.inj herror
    · exact fun h => absurd h hidentity

end Services

/-! ## Runs -/

section Example

open scoped Ascii

def d365Down : Exc := .d365 .unavailable "D365 is unavailable"

/-- A first sign-in, the configuration of the profile, and D365 is down. -/
def downHints : List Hint :=
  [.go, .go, exampleAnswer exampleUser.oid "000123" "usmf", .go, .uuid firstId, .go, .go, .go,
    .go, .go, .go, .raise d365Down]

/-- The profile route ends in the error of D365. -/
theorem profile_unsanitized :
    ∃ (P : Portal.Pool) (t : Portal.Thread), portal.Reaches ⟨exampleDatabase, []⟩ P ∧
      t ∈ P.threads ∧ t.call = .myProfile {} exampleUser ∧ t.prog = .raise d365Down ∧
      ¬ ∃ error, d365Down = .portal error := by
  have hrun : (Portal.runCall exampleDatabase (.myProfile {} exampleUser)
      (downHints.map (.run 0))).bind (Portal.raised · 0) = some d365Down := by
    decide +kernel
  obtain ⟨P, t, hreaches, ht, hcall, hraise⟩ := Portal.exists_raise hrun
  refine ⟨P, t, hreaches, ht, hcall, hraise, ?_⟩
  rintro ⟨error, herror⟩
  cases herror

/-- The call of an event is a request that D365 did not answer. -/
def isDown (event : Event Op Op.Answer Exc) : Bool :=
  match event with
  | ⟨.getEntity _ _, .error e⟩ => e = d365Down
  | _ => false

theorem exists_of_isDown {event : Event Op Op.Answer Exc} (h : isDown event = true) :
    ∃ entity params, event = ⟨.getEntity entity params, .error d365Down⟩ := by
  unfold isDown at h
  split at h
  · rename_i entity params e
    obtain rfl := of_decide_eq_true h
    exact ⟨entity, params, rfl⟩
  · cases h

/-- The request for the profile is not the identity lookup. -/
theorem d365_failures_sanitized_profile :
    ∃ (events : List (Event Op Op.Answer Exc)) (result : Except Exc Reply)
      (past : List (Event Op Op.Answer Exc)) (entity : String) (params : Dict String),
      (Call.myProfile {} exampleUser).body.Run events result ∧
      events = past ++ [⟨.getEntity entity params, .error d365Down⟩] ∧
      ((∃ error, result = .error (.portal error)) ↔ configured none past = some "identity") := by
  have hrun : (Prog.drive (fun o hint => (o.play exampleDatabase {} hint).map (·.1))
      (Call.myProfile {} exampleUser).body downHints).any (fun x =>
        x.1.getLast?.any isDown) = true := by
    decide +kernel
  obtain ⟨⟨events, result⟩, hdrive, hlast⟩ := (Option.any_eq_true _ _).mp hrun
  obtain ⟨event, heq, hdown⟩ := (Option.any_eq_true _ _).mp hlast
  obtain ⟨entity, params, rfl⟩ := exists_of_isDown hdown
  have hevents := (List.dropLast_append_getLast? _ heq).symm
  have hroute := Prog.drive_run hdrive
  exact ⟨events, result, events.dropLast, entity, params, hroute, hevents,
    d365_failures_sanitized rfl hroute hevents⟩

end Example

end EmployeePortal
