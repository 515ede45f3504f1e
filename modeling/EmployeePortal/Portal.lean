import EmployeePortal.Employees.Router
import EmployeePortal.Tools.CreateIdentityMapping

/-!
# The portal as a system

Requests to the employee routes, the services under them and runs of the
administrator's tool, all against one database, while administrators change
flags and configurations. Any call may be cut off between two operations.
-/

namespace EmployeePortal

open EmployeePortal.Python EmployeePortal.Framework EmployeePortal.Employees
  EmployeePortal.Tools EmployeePortal.Audit

inductive Call where
  | findVerified (entra_oid : String)
  | provision (user : AuthenticatedUser)
  | resolveIdentity (request : Request) (user : AuthenticatedUser) (required : Bool)
  | createIdentityMapping (args : Args)
  | me (request : Request) (user : AuthenticatedUser)
  | myProfile (request : Request) (user : AuthenticatedUser)
  | myLeaveBalances (request : Request) (user : AuthenticatedUser)

/-- The requests to the employee routes. -/
def Call.isRoute : Call → Bool
  | .me _ _ | .myProfile _ _ | .myLeaveBalances _ _ => true
  | _ => false

inductive Reply where
  | mapping (m : Option Mapping)
  | exitCode (n : ℤ)
  | me (response : MeResponse)
  | profile (response : EmployeeProfileResponse)
  | balances (response : LeaveBalancesResponse)

/-- What an administrator does to the tables: the flags of a row, or the
configuration. -/
inductive AdminStep : Database → Database → Prop where
  | setFlags {db : Database} (id : Uuid) (verified enabled : Bool) :
      AdminStep db (db.setFlags id verified enabled)
  | configure {db db' : Database} (h : db'.toTables =
      { db.toTables with configurations := db'.configurations }) : AdminStep db db'

theorem AdminStep.events {db db' : Database} (h : AdminStep db db') :
    db'.events = db.events := by
  cases h with
  | setFlags id verified enabled => rfl
  | configure h => rw [h]

section Portal

variable [UnicodeData]

def Call.body : Call → Coroutine Reply
  | findVerified entra_oid => do return .mapping (← Employees.findVerified entra_oid)
  | provision user => do return .mapping (← Employees.provision user)
  | resolveIdentity request user required => do
      return .mapping (← Employees.resolveIdentity request user required)
  | createIdentityMapping args => do return .exitCode (← Tools.createIdentityMapping args)
  | me request user => do return .me (← Employees.me request user)
  | myProfile request user => do return .profile (← Employees.myProfile request user)
  | myLeaveBalances request user => do
      return .balances (← Employees.myLeaveBalances request user)

def portal : System Op Op.Answer Exc Reply Database Session Call where
  body := Call.body
  start := {}
  sem := fun _ => Sem
  env := AdminStep
  cuts := fun _ _ => True

instance : DecidablePred (portal : System _ _ _ _ _ _ _).admits :=
  fun _ => .isTrue trivial

instance (c : Call) : DecidablePred ((portal : System _ _ _ _ _ _ _).cuts c) :=
  fun _ => .isTrue trivial

abbrev Portal.Pool : Type := Framework.Pool Op Op.Answer Exc Reply Database Session Call

abbrev Portal.Thread : Type := Framework.Thread Op Op.Answer Exc Reply Session Call

/-- Play a schedule of the portal in which administrators do nothing. -/
def Portal.play (cues : List (System.Cue Hint Call)) (P : Portal.Pool) : Option Portal.Pool :=
  System.play portal (fun _ => Op.play) cues P

theorem Portal.play_reaches {cues : List (System.Cue Hint Call)} {P P' : Portal.Pool}
    (h : Portal.play cues P = some P') : portal.Reaches P P' :=
  System.play_reaches (fun _ _ _ _ _ _ _ _ => Op.play_sem) h

/-- As `Portal.play`, through databases satisfying `p`. -/
def Portal.playWithin (p : Database → Prop) [DecidablePred p]
    (cues : List (System.Cue Hint Call)) (P : Portal.Pool) : Option Portal.Pool :=
  System.play (portal.within p) (System.confine (fun _ => Op.play) p) cues P

theorem Portal.playWithin_reaches {p : Database → Prop} [DecidablePred p]
    {cues : List (System.Cue Hint Call)} {P P' : Portal.Pool}
    (h : Portal.playWithin p cues P = some P') : (portal.within p).Reaches P P' :=
  System.play_reaches
    (System.confine_sem (S := portal) (fun _ _ _ _ _ _ _ _ => Op.play_sem) p) h

/-- The reply of call `i`, if it returned. -/
def Portal.reply (P : Portal.Pool) (i : ℕ) : Option Reply :=
  match P.threads[i]? with
  | some ⟨_, _, .ret reply, false⟩ => some reply
  | _ => none

/-- The exception of call `i`, if it raised one. -/
def Portal.raised (P : Portal.Pool) (i : ℕ) : Option Exc :=
  match P.threads[i]? with
  | some ⟨_, _, .raise e, false⟩ => some e
  | _ => none

omit [UnicodeData] in
theorem Portal.returned_of_reply {P : Portal.Pool} {i : ℕ} {reply : Reply}
    (h : Portal.reply P i = some reply) :
    ∃ t : Portal.Thread, P.threads[i]? = some t ∧ t.Returned reply := by
  unfold Portal.reply at h
  split at h
  · rename_i ht
    obtain rfl := Option.some.inj h
    exact ⟨_, ht, rfl, rfl⟩
  · cases h

omit [UnicodeData] in
theorem Portal.raise_of_raised {P : Portal.Pool} {i : ℕ} {e : Exc}
    (h : Portal.raised P i = some e) :
    ∃ t : Portal.Thread, P.threads[i]? = some t ∧ t.prog = .raise e := by
  unfold Portal.raised at h
  split at h
  · rename_i ht
    obtain rfl := Option.some.inj h
    exact ⟨_, ht, rfl⟩
  · cases h

/-- A schedule that starts with the call `c` and plays the cues. -/
def Portal.runCall (db : Database) (c : Call) (cues : List (System.Cue Hint Call)) :
    Option Portal.Pool :=
  Portal.play cues ⟨db, [⟨c, {}, c.body, false⟩]⟩

/-- A schedule that leads to a pool as wanted. -/
theorem Portal.exists_pool (P₀ : Portal.Pool) (cues : List (System.Cue Hint Call))
    (check : Portal.Pool → Bool) (h : (Portal.play cues P₀).any check = true) :
    ∃ P, portal.Reaches P₀ P ∧ check P = true := by
  obtain ⟨P, hplay, hcheck⟩ := (Option.any_eq_true _ _).mp h
  exact ⟨P, Portal.play_reaches hplay, hcheck⟩

/-- Where the cues of a call lead, the call is the first one. -/
theorem Portal.runCall_reaches {db : Database} {c : Call} {cues : List (System.Cue Hint Call)}
    {P : Portal.Pool} (h : Portal.runCall db c cues = some P) :
    portal.Reaches ⟨db, []⟩ P ∧ ∀ t, P.threads[0]? = some t → t.call = c := by
  have hreaches := Portal.play_reaches h
  obtain ⟨t, ht, hcall⟩ := System.threads_of_reaches (i := 0) hreaches rfl
  refine ⟨.head ⟨.spawn c, .spawn c trivial⟩ hreaches, fun t' ht' => ?_⟩
  obtain rfl := Option.some.inj (ht.symm.trans ht')
  exact hcall

/-- From the pool `P`, through databases satisfying `p`: the call `c` is started and the cues
are played. -/
def Portal.runLater (p : Database → Prop) [DecidablePred p] (c : Call)
    (cues : List (System.Cue Hint Call)) (P : Portal.Pool) : Option Portal.Pool :=
  Portal.playWithin p cues { P with threads := P.threads ++ [⟨c, {}, c.body, false⟩] }

theorem Portal.runLater_reaches {p : Database → Prop} [DecidablePred p] {c : Call}
    {cues : List (System.Cue Hint Call)} {P P' : Portal.Pool}
    (h : Portal.runLater p c cues P = some P') :
    (portal.within p).Reaches P P' ∧
      ∃ t, P'.threads[P.threads.length]? = some t ∧ t.call = c := by
  have hreaches := Portal.playWithin_reaches h
  refine ⟨.head ⟨.spawn c, .spawn c trivial⟩ hreaches, ?_⟩
  exact System.threads_of_reaches (t := ⟨c, {}, c.body, false⟩) hreaches (by simp)

/-- A run whose first call returned a reply as wanted. -/
theorem Portal.exists_run {db : Database} {c : Call} {cues : List (System.Cue Hint Call)}
    (check : Reply → Bool)
    (h : ((Portal.runCall db c cues).bind (Portal.reply · 0)).any check = true) :
    ∃ (P : Portal.Pool) (t : Portal.Thread) (reply : Reply), portal.Reaches ⟨db, []⟩ P ∧
      t ∈ P.threads ∧ t.call = c ∧ t.Returned reply ∧ check reply = true := by
  obtain ⟨reply, hreply, hcheck⟩ := (Option.any_eq_true _ _).mp h
  obtain ⟨P, hplay, hP⟩ := Option.bind_eq_some_iff.mp hreply
  obtain ⟨hreaches, hcall⟩ := Portal.runCall_reaches hplay
  obtain ⟨t, ht, hret⟩ := Portal.returned_of_reply hP
  exact ⟨P, t, reply, hreaches, List.mem_of_getElem? ht, hcall t ht, hret, hcheck⟩

/-- A run whose first call raised this exception. -/
theorem Portal.exists_raise {db : Database} {c : Call} {cues : List (System.Cue Hint Call)}
    {e : Exc} (h : (Portal.runCall db c cues).bind (Portal.raised · 0) = some e) :
    ∃ (P : Portal.Pool) (t : Portal.Thread), portal.Reaches ⟨db, []⟩ P ∧ t ∈ P.threads ∧
      t.call = c ∧ t.prog = .raise e := by
  obtain ⟨P, hplay, hP⟩ := Option.bind_eq_some_iff.mp h
  obtain ⟨hreaches, hcall⟩ := Portal.runCall_reaches hplay
  obtain ⟨t, ht, hraise⟩ := Portal.raise_of_raised hP
  exact ⟨P, t, hreaches, List.mem_of_getElem? ht, hcall t ht, hraise⟩

end Portal

end EmployeePortal
