import EmployeePortal.Server.PortalRefinement

/-!
# Nobody is left waiting

A request may wait for the lock of the key cache and, once it is authenticated, for the
lock of the token service on every attempt at D365. It never waits for one while it has
the other, and whatever the identity provider, D365 and the database answer, it comes to
its end with both of them free.
-/

namespace EmployeePortal

open EmployeePortal.Python EmployeePortal.Framework EmployeePortal.Auth EmployeePortal.D365
  EmployeePortal.Core EmployeePortal.Health

variable {κ π : Type}

/-! ## The two locks -/

inductive LockName where
  | keys
  | token
deriving DecidableEq

def ServerOp.acquires : ServerOp κ → Option LockName
  | .auth o => (EntraTokenValidator.AuthOp.acquires o).map fun _ => .keys
  | .service o => (D365TokenService.ServiceOp.acquires o).map fun _ => .token
  | _ => none

def ServerOp.releases : ServerOp κ → Option LockName
  | .auth o => (EntraTokenValidator.AuthOp.releases o).map fun _ => .keys
  | .service o => (D365TokenService.ServiceOp.releases o).map fun _ => .token
  | _ => none

def Server.locked : LockName → Server κ π → Bool
  | .keys, s => s.keys.locked
  | .token, s => s.service.locked

section Server

variable [Jwt κ] [UnicodeData] [UrlData] [FloatData] {settings : D365Settings}
  {answers : D365TokenService.Provider π}

/-- Both parts keep their own lock. -/
theorem locked_statement {o : ServerOp κ} {f} (s : Server κ π) (l : ServerSession π)
    (ho : (server κ settings answers).sync o = some f) (i : LockName) :
    (f s l).2.1.locked i = (s.locked i && decide (o.releases ≠ some i)) := by
  have hkept : ∀ b : Bool, b = (b && decide ((none : Option LockName) ≠ some i)) := by simp
  cases o with
  | bindUser user =>
    obtain rfl := Option.some.inj ho
    exact hkept _
  | database o =>
    cases o with
    | add row =>
      obtain rfl := Option.some.inj ho
      exact hkept _
    | _ => cases ho
  | health o => cases ho
  | auth o =>
    obtain ⟨g, hg, rfl⟩ := Option.map_eq_some_iff.mp ho
    have hlock := (EntraTokenValidator.keyLock κ settings.toSettings).statement s.keys l.keys hg ()
    change (g s.keys l.keys).2.1.locked = _ at hlock
    cases i with
    | keys =>
      refine Eq.trans hlock ?_
      cases o <;> rfl
    | token => cases o <;> exact (Bool.and_true _).symm
  | service o =>
    obtain ⟨g, hg, rfl⟩ := Option.map_eq_some_iff.mp ho
    have hlock := (D365TokenService.serviceLock settings.D365_MAX_RETRIES answers).statement
      s.service l.service hg ()
    change (g s.service l.service).2.1.locked = _ at hlock
    cases i with
    | keys => cases o <;> exact (Bool.and_true _).symm
    | token =>
      refine Eq.trans hlock ?_
      cases o <;> rfl

omit [Jwt κ] [UnicodeData] [UrlData] [FloatData] in
theorem locked_awaited {o : ServerOp κ} {s s' : Server κ π} {l l' : ServerSession π}
    {r : Except Exc o.Answer} (h : ServerAwaited answers o s l r s' l') (i : LockName) :
    (o.acquires = some i → s.locked i = false ∧ s'.locked i = r.isOk) ∧
      (o.acquires ≠ some i → s'.locked i = s.locked i) := by
  cases h with
  | auth hawaited hforeign =>
    cases hawaited with
    | lockAcquire hfree => cases i <;> simp [ServerOp.acquires, EntraTokenValidator.AuthOp.acquires,
        Server.locked, hfree, Except.isOk, Except.toBool]
    | get r => cases i <;> simp [ServerOp.acquires, EntraTokenValidator.AuthOp.acquires,
        Server.locked]
  | database hsem hlocal => exact ⟨nofun, fun _ => by cases i <;> rfl⟩
  | service hawaited hforeign =>
    cases hawaited with
    | lockAcquire hfree => cases i <;> simp [ServerOp.acquires,
        D365TokenService.ServiceOp.acquires, Server.locked, hfree, Except.isOk, Except.toBool]
    | _ => cases i <;> simp [ServerOp.acquires, D365TokenService.ServiceOp.acquires,
        Server.locked]
  | health r hforeign => exact ⟨nofun, fun _ => rfl⟩

variable (κ settings answers) in
def serverLocks : Locks (server κ settings answers) LockName where
  acquires := ServerOp.acquires
  releases := ServerOp.releases
  locked := Server.locked
  awaited := by
    intro o i ho
    cases o with
    | auth o =>
      cases o with
      | lockAcquire => rfl
      | _ => cases ho
    | service o =>
      cases o with
      | lockAcquire => rfl
      | _ => cases ho
    | _ => cases ho
  statement := locked_statement
  taken := fun hsem ho => (locked_awaited hsem _).1 ho
  passed := fun hsem ho => (locked_awaited hsem _).2 ho
  unreleased := by
    intro o ho
    cases o with
    | auth o =>
      cases o with
      | lockRelease => cases ho
      | _ => rfl
    | service o =>
      cases o with
      | lockRelease => cases ho
      | _ => rfl
    | _ => rfl
  granted := by
    intro o i c s l ho hfree
    cases o with
    | auth o =>
      cases o with
      | lockAcquire =>
        obtain rfl := Option.some.inj ho
        exact ⟨_, _, _, .auth (.lockAcquire hfree) rfl⟩
      | _ => cases ho
    | service o =>
      cases o with
      | lockAcquire =>
        obtain rfl := Option.some.inj ho
        exact ⟨_, _, _, .service (.lockAcquire hfree) rfl⟩
      | _ => cases ho
    | _ => cases ho
  answer := fun _ => ⟨.error .typeError⟩
  env := by
    rintro s s' ⟨-, hs'⟩ i
    rw [hs']
    cases i <;> rfl

/-! ## Requests bracket their locks -/

/-- The programs of the validator. -/
theorem authTask_brackets {α : Type} {p : AuthTask κ α}
    (h : (EntraTokenValidator.keyLock κ settings.toSettings).Brackets p none) :
    (serverLocks κ settings answers).Brackets (authTask p) none := by
  refine Locks.brackets_lift (f := fun _ => LockName.keys) (fun o held hallowed => ?_) h
  refine Obeys.perform_iff.mpr fun r => ?_
  obtain ⟨held', hnext⟩ := hallowed r
  exact ⟨_, Locks.next_lift (K := EntraTokenValidator.keyLock κ settings.toSettings) (r := r)
    rfl rfl rfl hnext, held', hnext, rfl⟩

theorem serviceTask_brackets {α : Type} {p : D365.Task α}
    (h : (D365TokenService.serviceLock settings.D365_MAX_RETRIES answers).Brackets p none) :
    (serverLocks κ settings answers).Brackets (serviceTask p) none := by
  refine Locks.brackets_lift (f := fun _ => LockName.token) (fun o held hallowed => ?_) h
  refine Obeys.perform_iff.mpr fun r => ?_
  obtain ⟨held', hnext⟩ := hallowed r
  exact ⟨_, Locks.next_lift
    (K := D365TokenService.serviceLock settings.D365_MAX_RETRIES answers) (r := r)
    rfl rfl rfl hnext, held', hnext, rfl⟩

theorem perform_brackets (o : Op) :
    (serverLocks κ settings answers).Brackets (perform settings.D365_MAX_RETRIES o) none := by
  cases o with
  | getEntity entity params =>
    refine serviceTask_brackets (Locks.brackets_bind ?_ fun response => ?_)
    · exact D365TokenService.attempts_brackets _ _ _ _
    · exact Locks.brackets_of_only (.ofExcept _)
  | _ => exact Locks.brackets_of_only (.perform ⟨rfl, rfl⟩)

theorem handler_brackets (c : ServerCall) :
    (serverLocks κ settings answers).Brackets ((server κ settings answers).body c) none := by
  refine Locks.brackets_conclude ?_ _
  unfold handler
  cases c.endpoint with
  | employee route =>
    refine Locks.brackets_bind ?_ fun user =>
      Locks.brackets_bind (Locks.brackets_fill perform_brackets _) fun reply => rfl
    refine Locks.brackets_bind (Locks.brackets_of_only (.ofExcept _)) fun token => ?_
    refine Locks.brackets_bind (authTask_brackets (EntraTokenValidator.validate_brackets token))
      fun user => ?_
    exact Locks.brackets_of_only (.bind (.tell ⟨rfl, rfl⟩) fun _ => trivial)
  | ready =>
    refine Locks.brackets_bind (Locks.brackets_of_only ((healthTask_only _).mono ?_)) fun _ => rfl
    rintro _ ⟨o, rfl⟩
    exact ⟨rfl, rfl⟩
  | _ => rfl

/-! ## What a request awaits -/

/-- An acquisition is awaited once it has been started, and the database is not asked for what
D365 has. -/
def answerable : Protocol (ServerOp κ) ServerOp.Answer Exc Bool := fun started o r =>
  match o with
  | .service o => D365TokenService.startedFirst started o r
  | .database (.getEntity _ _) => none
  | _ => some started

/-- No acquisition of a token, and no question to the database for what D365 has. -/
def Easy : ServerOp κ → Prop
  | .service _ | .database (.getEntity _ _) => False
  | _ => True

omit [Jwt κ] [UnicodeData] [UrlData] [FloatData] in
theorem always_of_easy {α : Type} {p : ServerTask κ α} (h : p.Only Easy) : Always answerable p := by
  refine .of_only h fun o ho started r => ?_
  cases o with
  | database o =>
    cases o with
    | getEntity entity params => exact ho.elim
    | _ => exact ⟨_, rfl⟩
  | service o => exact ho.elim
  | _ => exact ⟨_, rfl⟩

omit [Jwt κ] [UnicodeData] [UrlData] [FloatData] in
theorem serviceTask_always {α : Type} {p : D365.Task α}
    (h : Always D365TokenService.startedFirst p) :
    Always answerable (serviceTask p : ServerTask κ α) := by
  intro started
  refine (Obeys.fill Eq ?_ (h started) rfl).mono fun _ _ _ => trivial
  rintro o q _ rfl hallowed
  refine Obeys.perform_iff.mpr fun r => ?_
  obtain ⟨q', hnext⟩ := hallowed r
  exact ⟨q', hnext, q', hnext, rfl⟩

omit [Jwt κ] [UrlData] in
theorem perform_always (o : Op) :
    Always answerable (perform settings.D365_MAX_RETRIES o : ServerTask κ _) := by
  cases o with
  | getEntity entity params =>
    refine serviceTask_always (.bind ?_ fun response => ?_)
    · exact D365TokenService.attempts_always _ _ _ _
    · exact D365TokenService.always_of_plain (.ofExcept _)
  | _ => exact always_of_easy (.perform trivial)

theorem handler_always (c : ServerCall) :
    Always answerable ((server κ settings answers).body c) := by
  refine .conclude ?_ _
  unfold handler
  cases c.endpoint with
  | employee route =>
    refine .bind (.bind (always_of_easy (.ofExcept _)) fun token => .bind ?_ fun user => ?_)
      fun user => .bind (.fill perform_always _) fun reply _ => trivial
    · refine always_of_easy ((Prog.Only.of_forall (P := fun _ => True) (fun _ => trivial) _).fill _
        fun o _ => ?_)
      exact .perform trivial
    · exact always_of_easy (.bind (.tell trivial) fun _ => trivial)
  | ready =>
    refine always_of_easy (.bind ((healthTask_only _).mono ?_) fun _ => trivial)
    rintro _ ⟨o, rfl⟩
    trivial
  | _ => exact fun _ => trivial

/-- The session knows of an acquisition under way. -/
def KnowsStarted (started : Bool) (l : ServerSession π) : Prop :=
  D365TokenService.Knows started l.service

theorem knowsStarted_does {c : ServerCall} {o : ServerOp κ} {s s' : Server κ π}
    {l l' : ServerSession π} {r : Except Exc o.Answer} {started started' : Bool}
    (hdoes : (server κ settings answers).Does c o s l r s' l') (h : KnowsStarted started l)
    (hnext : answerable started o r = some started') : KnowsStarted started' l' := by
  cases o with
  | bindUser user =>
    obtain ⟨rfl, rfl⟩ := does_bindUser hdoes
    obtain rfl := Option.some.inj hnext
    exact h
  | auth o =>
    obtain ⟨-, k, rfl⟩ := does_auth hdoes
    obtain rfl := Option.some.inj hnext
    exact h
  | database o =>
    obtain ⟨hlocal, db, l₁, -, -, rfl⟩ := does_database hdoes
    cases o with
    | getEntity entity params => exact absurd rfl (hlocal entity params)
    | _ =>
      obtain rfl := Option.some.inj hnext
      exact h
  | health o =>
    obtain ⟨-, rfl⟩ := does_health hdoes
    obtain rfl := Option.some.inj hnext
    exact h
  | service o =>
    unfold Loop.Does at hdoes
    cases ho : D365TokenService.statements (π := π) o with
    | some f =>
      have hsync : (server κ settings answers).sync (.service o) = _ := congrArg (Option.map _) ho
      rw [hsync, Option.map_some] at hdoes
      cases hdoes
      exact D365TokenService.knows_statement ho h hnext
    | none =>
      have hsync : (server κ settings answers).sync (.service o) = _ := congrArg (Option.map _) ho
      rw [hsync] at hdoes
      cases hdoes with
      | service hawaited hforeign => exact D365TokenService.knows_awaited hawaited h hnext

/-- Whatever a request awaits apart from the locks may be answered with an exception. -/
theorem server_answered (hprovider : ∀ p started, ∃ r p', answers p started r p' ∧ foreign r = true)
    {s : Server κ π} {P' : ServerPool κ π} (h : (server κ settings answers).Reaches ⟨s, []⟩ P') :
    (serverLocks κ settings answers).Answered P' := by
  have hobeys := Loop.obeys_of_reaches (fun _ _ _ => True) KnowsStarted
    (fun c o s l r s' l' q q' hdoes hR hnext => knowsStarted_does hdoes hR hnext)
    (fun c _ => ⟨false, nofun, handler_always c false⟩) h
  intro t ht o k hop hother
  have hawaits := Loop.awaits_of_reaches h (by simp) t ht o k hop
  obtain ⟨started, hknows, hallowed⟩ := hobeys t ht
  rw [hop] at hallowed
  obtain ⟨started', hnext, -⟩ := hallowed (.error .typeError)
  cases o with
  | bindUser user => cases hawaits
  | auth o =>
    cases o with
    | get url => exact ⟨_, _, _, .auth (.get (.error .typeError)) rfl⟩
    | lockAcquire => cases hother
    | _ => cases hawaits
  | database o =>
    cases o with
    | getEntity entity params => cases hnext
    | scalars w => exact ⟨_, _, _, .database .selectFailed (by simp)⟩
    | scalar w => exact ⟨_, _, _, .database .firstFailed (by simp)⟩
    | configuration mapping_key => exact ⟨_, _, _, .database .loadFailed (by simp)⟩
    | add row => cases hawaits
    | commit => exact ⟨_, _, _, .database .commitFailed (by simp)⟩
    | rollback => exact ⟨_, _, _, .database .rollbackFailed (by simp)⟩
    | uuid4 => exact ⟨_, _, _, .database (.generated (u := ⟨0, by decide⟩)) (by simp)⟩
  | health o => exact ⟨_, _, _, .health (.error .typeError) rfl⟩
  | service o =>
    cases o with
    | acquireTokenForClient =>
      have hstarted : started = true := by
        by_contra hnot
        simp [answerable, D365TokenService.startedFirst, hnot] at hnext
      obtain ⟨time, htime⟩ := Option.isSome_iff_exists.mp (hknows hstarted)
      obtain ⟨r, p', hanswers, hforeign⟩ := hprovider P'.store.service.provider time
      exact ⟨_, _, _, .service (.acquireTokenForClient htime hanswers) hforeign⟩
    | response => exact ⟨_, _, _, .service (.response (.error .typeError)) rfl⟩
    | sleep delay => exact ⟨_, _, _, .service (.sleep (.ok ())) rfl⟩
    | lockAcquire => cases hother
    | _ => cases hawaits

/-! ## Runs -/

/-- **Nobody is left waiting.** In every order of turns each lock is taken exactly while one
request has it, no request has both, and whatever is answered, the requests under way come to
their ends and leave both locks free. -/
theorem server_settles
    (hprovider : ∀ p started, ∃ r p', answers p started r p' ∧ foreign r = true)
    {s : Server κ π} (hs : Fresh s) {P' : ServerPool κ π}
    (h : (server κ settings answers).Reaches ⟨s, []⟩ P') :
    (serverLocks κ settings answers).Tidy P' ∧ (serverLocks κ settings answers).Settles P' := by
  obtain ⟨clock, wall, -, hkeys⟩ := hs.keys
  refine Locks.tidy_settles (fun i => ?_) (fun c _ => handler_brackets c)
    (fun _ h' => server_answered hprovider h') h
  cases i with
  | keys =>
    change s.keys.locked = false
    rw [hkeys]
    rfl
  | token => exact hs.unlocked

end Server

section Example

open Ascii EntraTokenValidator RsaKeys

/-- From the served request on, nobody waits in vain. -/
theorem server_settles_balances :
    ∃ P' : ServerPool (String × String) Unit, exampleLoop.Reaches ⟨exampleServer, []⟩ P' ∧
      P'.threads ≠ [] ∧
      (serverLocks (String × String) exampleSettings hourlyProvider).Tidy P' ∧
      (serverLocks (String × String) exampleSettings hourlyProvider).Settles P' := by
  obtain ⟨P', h, t, ht, -⟩ := exampleServerRun
  exact ⟨P', h, List.ne_nil_of_mem ht,
    server_settles (fun _ _ => ⟨_, (), rfl, rfl⟩) exampleServer_fresh h⟩

end Example

end EmployeePortal
