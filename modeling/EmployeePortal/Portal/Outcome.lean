import EmployeePortal.Portal

/-!
# What a call leaves behind

Every call of the portal is walked through once, here. The database changes at
three commits only: the two writers' and the audit's. A contract that allows
these (`Commits`) is kept by every call, and whatever a call returns comes with
its `Outcome`: the row it was granted on, where the data was fetched, the event
on record.
-/

namespace EmployeePortal

open EmployeePortal.Python EmployeePortal.Framework EmployeePortal.Employees
  EmployeePortal.Tools EmployeePortal.Audit EmployeePortal.D365

/-- The row was read or written by the session, it is enabled and verified, and
it was stored when the invariant held. -/
structure Granted (K : Contract Database) (l : Session) (m : Mapping) : Prop where
  enabled : m.enabled = true
  verified : m.verified = true
  held : m ∈ l.read ∨ Row.mapping m ∈ l.committed
  stored : ∃ s, K.inv s ∧ m ∈ s.mappings

theorem Granted.mono {K : Contract Database} {l l' : Session} {m : Mapping}
    (h : Granted K l m) (hread : l.read ⊆ l'.read) (hcommitted : l.committed ⊆ l'.committed) :
    Granted K l' m :=
  ⟨h.enabled, h.verified, h.held.imp (fun x => hread x) (fun x => hcommitted x), h.stored⟩

section Outcome

variable [UnicodeData]

/-- The row's oid is this one, as text or as a UUID. -/
def Owns (oid : String) (m : Mapping) : Prop :=
  m.entra_oid = some oid ∨
    ∃ u text, Uuid.parse oid = some u ∧ m.entra_oid = some text ∧ Uuid.parse text = some u

theorem Owns.of_toText {oid : String} {u : Uuid} {m : Mapping}
    (hu : Uuid.parse oid = some u) (hm : m.entra_oid = some u.toText) : Owns oid m :=
  Or.inr ⟨u, u.toText, hu, hm, Uuid.parse_toText u⟩

/-- A route showed what belongs to `mapping`: a row granted to the user, on record
as the employee concerned. -/
structure Disclosed (K : Contract Database) (request : Request) (user : AuthenticatedUser)
    (action resource : String) (l : Session) (mapping : Option Mapping) : Prop where
  granted : ∀ m, mapping = some m → Granted K l m ∧ Owns user.oid m
  audited : Row.event (event request user (viewEntry action resource mapping)) ∈ l.committed

def Outcome (K : Contract Database) : Call → Reply → Session → Prop
  | .findVerified oid, .mapping (some m), l => Granted K l m ∧ Owns oid m
  | .provision user, .mapping (some m), l => Granted K l m ∧ Owns user.oid m
  | .resolveIdentity _ user _, .mapping (some m), l => Granted K l m ∧ Owns user.oid m
  | .me request user, .me response, l => ∃ mapping,
      Disclosed K request user "PROFILE_VIEW" "/api/v1/me" l mapping ∧
        response = meResponse user mapping
  | .myProfile request user, .profile response, l => ∃ m,
      Disclosed K request user "PROFILE_VIEW" "/api/v1/me/profile" l (some m) ∧
        ProfileOf m l response
  | .myLeaveBalances request user, .balances response, l => ∃ m,
      Disclosed K request user "LEAVE_BALANCE_VIEW" "/api/v1/me/leave-balances" l (some m) ∧
        BalancesOf m l response
  | _, _, _ => True

/-- What each of the three commits of the portal owes to a contract: the two
writers', after their conflict query had found nothing at `s₁`, and the audit's. -/
structure Commits (K : Contract Database)
    (sem : OpSem Op Op.Answer Exc Database Session) : Prop where
  auto : ∀ {user w u s₁ s₂ s₃ id l₂ l₃}, Uuid.parse user.oid = some u →
    w.entra_oid = u.toText → K.inv s₁ → K.rely s₁ s₂ → K.inv s₂ →
    (∀ m ∈ s₁.mappings,
      ¬ (conflictRow w.entra_oid w.personnel_number w.company).holds m = true) →
    l₂.seen = s₁.mappings →
    l₂.pending = [.mapping (autoMapping id user w), .history (autoHistory id w)] →
    s₃.toTables = s₂.insertAll l₂.pending →
    sem .commit s₂ l₂ (.ok ()) s₃ l₃ → K.inv s₃ ∧ K.guar s₂ s₃
  manual : ∀ {args oid approved_by s₁ s₂ s₃ id l₂ l₃}, Uuid.parse args.oid = some oid →
    K.inv s₁ → K.rely s₁ s₂ → K.inv s₂ →
    (∀ m ∈ s₁.mappings, ¬ (takenRow oid.toText (strip args.personnel_number)
      (strip args.company)).holds m = true) →
    l₂.seen = s₁.mappings →
    l₂.pending = [.mapping (manualMapping id args oid),
      .history (manualHistory id args oid approved_by)] →
    s₃.toTables = s₂.insertAll l₂.pending →
    sem .commit s₂ l₂ (.ok ()) s₃ l₃ → K.inv s₃ ∧ K.guar s₂ s₃
  event : ∀ {s₁ s₂ e l₁ l₂}, K.inv s₁ → l₁.pending = [.event e] →
    s₂.toTables = s₁.insertAll l₁.pending →
    sem .commit s₁ l₁ (.ok ()) s₂ l₂ → K.inv s₂ ∧ K.guar s₁ s₂

variable {K : Contract Database} {sem : OpSem Op Op.Answer Exc Database Session}
  (hK : Conforms K sem) (hC : Commits K sem) {s : Database} {l : Session}

/-- The mapping of a call that returned one, with nothing left pending. -/
def GrantedTo (K : Contract Database) (oid : String) (mapping : Option Mapping) (l : Session) :
    Prop :=
  l.pending = [] ∧ ∀ m, mapping = some m → Granted K l m ∧ Owns oid m

theorem GrantedTo.none (K : Contract Database) (oid : String) {l : Session}
    (hl : l.pending = []) : GrantedTo K oid none l := ⟨hl, fun _ h => by cases h⟩

theorem GrantedTo.idle {oid : String} {mapping : Option Mapping} {l' : Session}
    (h : GrantedTo K oid mapping l) (hidle : l.Idle l') : GrantedTo K oid mapping l' := by
  refine ⟨hidle.pending.trans h.1, fun m hm => ⟨(h.2 m hm).1.mono ?_ ?_, (h.2 m hm).2⟩⟩
  · rw [hidle.read]
    exact List.Subset.refl _
  · rw [hidle.committed]
    exact List.Subset.refl _

include hK

theorem findVerified_granted (oid : String) (hl : l.pending = []) :
    Safe K sem (findVerified oid)
      (fun r _ l' => ∀ mapping, r = .ok mapping → GrantedTo K oid mapping l') s l := by
  refine findVerified_safe hK oid ?_ ?_ fun _ _ _ _ _ _ _ h => by cases h
  · intro s₁ m _ hinv hm hoid henabled hverified mapping h
    obtain rfl := Except.ok.inj h
    refine ⟨hl, fun m' h' => ?_⟩
    obtain rfl := Option.some.inj h'
    exact ⟨⟨henabled, hverified, Or.inl (by simp), s₁, hinv, hm⟩, Or.inl hoid⟩
  · intro s₁ _ _ mapping h
    obtain rfl := Except.ok.inj h
    exact .none K oid hl

include hC

theorem provision_granted (user : AuthenticatedUser) (hl : l.pending = []) :
    Safe K sem (provision user)
      (fun r _ l' => ∀ mapping, r = .ok mapping → GrantedTo K user.oid mapping l') s l := by
  refine provision_safe hK user ?_ ?_ fun _ _ _ _ _ h => by cases h
  · intro s₁ l₁ w u hidle hu hoid
    have hl₁ : l₁.pending = [] := hidle.pending.trans hl
    refine settle_safe hK user w hl₁ ?_ ?_ fun _ _ _ _ _ _ h => by cases h
    · intro s₂ seen m hinv hm hsame _ mapping h
      obtain rfl := Except.ok.inj h
      obtain ⟨howner, -, -, henabled, hverified⟩ := isSameMapping_iff.mp hsame
      refine ⟨hl₁, fun m' h' => ?_⟩
      obtain rfl := Option.some.inj h'
      exact ⟨⟨henabled, hverified, Or.inl (by simp), s₂, hinv, hm⟩,
        .of_toText hu (hoid ▸ howner)⟩
    · intro s₂ s₃ s₄ id l₂ l₃ hinv₂ hrely hinv₃ hfree hl₂ hl₃ htables hsem
      subst hl₂ hl₃
      obtain ⟨hinv₄, hguar⟩ := hC.auto hu hoid hinv₂ hrely hinv₃ hfree rfl rfl htables hsem
      refine ⟨hinv₄, hguar, fun mapping h => ?_⟩
      obtain rfl := Except.ok.inj h
      refine ⟨hl₁, fun m' h' => ?_⟩
      obtain rfl := Option.some.inj h'
      have hstored : autoMapping id user w ∈ s₄.mappings := by
        rw [htables]
        simp
      exact ⟨⟨rfl, rfl, Or.inr (by simp), s₄, hinv₄, hstored⟩,
        .of_toText hu (by rw [autoMapping, hoid])⟩
  · intro s₁ l₁ hidle mapping h
    obtain rfl := Except.ok.inj h
    exact .none K _ (hidle.pending.trans hl)

/-- An audit event is the contract's business and nobody else's. -/
theorem recordAudit_granted {request : Request} {user : AuthenticatedUser} {entry : Entry}
    {oid : String} {mapping : Option Mapping} (h : GrantedTo K oid mapping l) :
    Safe K sem (recordAudit request user entry) (fun r _ l' => ∀ x, r = .ok x →
      GrantedTo K oid mapping l' ∧ .event (event request user entry) ∈ l'.committed ∧
        l'.loaded = l.loaded ∧ l'.answered = l.answered) s l := by
  refine recordAudit_safe hK h.1 ?_ fun _ _ _ _ _ h => by cases h
  intro s₁ s₂ l₂ _ hinv htables hl₂ hsem
  subst hl₂
  obtain ⟨hinv₂, hguar⟩ := hC.event hinv rfl htables hsem
  refine ⟨hinv₂, hguar, fun _ _ => ⟨⟨h.1, fun m hm => ⟨(h.2 m hm).1.mono ?_ ?_, (h.2 m hm).2⟩⟩,
    by simp, rfl, rfl⟩⟩
  · exact List.Subset.refl _
  · exact List.subset_append_left _ _

theorem resolveIdentity_granted (request : Request) (user : AuthenticatedUser)
    (required : Bool) (hl : l.pending = []) :
    Safe K sem (resolveIdentity request user required)
      (fun r _ l' => ∀ mapping, r = .ok mapping → GrantedTo K user.oid mapping l') s l := by
  refine resolveIdentity_safe hK request user required hl ?_ ?_ fun _ _ _ _ _ _ h => by cases h
  · intro s₁ m _ hinv hm hoid henabled hverified mapping h
    obtain rfl := Except.ok.inj h
    refine ⟨hl, fun m' h' => ?_⟩
    obtain rfl := Option.some.inj h'
    exact ⟨⟨henabled, hverified, Or.inl (by simp), s₁, hinv, hm⟩, Or.inl hoid⟩
  · intro s₁ seen _
    unfold provisionAudited
    refine Safe.bind (provision_granted hK hC user hl) ?_ fun e _ _ _ _ h => by cases h
    rintro (_ | m) s₂ l₂ h
    · have hgranted := h none rfl
      cases required
      · exact fun mapping h => by cases h; exact hgranted
      · exact fun mapping h => by cases h
    · refine Safe.bind (recordAudit_granted hK hC (h (some m) rfl)) ?_
        fun e _ _ _ _ h => by cases h
      intro _ s₃ l₃ hrecorded mapping hm
      obtain rfl := Except.ok.inj hm
      exact (hrecorded () rfl).1

/-- What a route answers was fetched for the mapping it was granted. -/
theorem route_disclosed {α : Type} {request : Request} {user : AuthenticatedUser}
    {required : Bool} {action resource : String} {fetch : Option Mapping → Coroutine α}
    {P : Option Mapping → Session → α → Prop}
    (hP : ∀ {mapping a} {l l' : Session}, l'.loaded = l.loaded → l'.answered = l.answered →
      P mapping l a → P mapping l' a)
    (hfetch : ∀ mapping s l, Safe K sem (fetch mapping)
      (fun r _ l' => l.Idle l' ∧ ∀ a, r = .ok a → P mapping l' a) s l) (hl : l.pending = []) :
    Safe K sem (route request user required action resource fetch)
      (fun r _ l' => ∀ a, r = .ok a → ∃ mapping,
        Disclosed K request user action resource l' mapping ∧ P mapping l' a) s l := by
  unfold route
  cases hrole : portalUser user with
  | error e => exact fun _ h => by cases h
  | ok user' =>
  obtain rfl := requireRoles_ok hrole
  simp only [Prog.liftM_eq, Prog.ofExcept_ok, Prog.ret_bind]
  refine Safe.bind (resolveIdentity_granted hK hC request user' required hl) ?_
    fun e _ _ _ _ h => by cases h
  intro mapping s₁ l₁ hgranted
  refine Safe.bind (hfetch mapping s₁ l₁) ?_ fun e _ _ _ _ h => by cases h
  rintro a s₂ l₂ ⟨hidle, hanswer⟩
  refine Safe.bind (recordAudit_granted hK hC ((hgranted mapping rfl).idle hidle)) ?_
    fun e _ _ _ _ h => by cases h
  intro _ s₃ l₃ hrecorded a' ha
  obtain rfl := Except.ok.inj ha
  obtain ⟨hmapping, haudited, hloaded, hanswered⟩ := hrecorded () rfl
  exact ⟨mapping, ⟨hmapping.2, haudited⟩, hP hloaded hanswered (hanswer a rfl)⟩

-- without this, elaboration evaluates the UUID parser on a variable
attribute [local irreducible] Tools.createIdentityMapping

theorem createIdentityMapping_kept (args : Args) (hl : l.pending = []) :
    Safe K sem (createIdentityMapping args) (fun r _ _ => ∀ n, r = .ok n → True) s l := by
  refine createIdentityMapping_safe args (fun oid approved_by hoid => ?_) fun _ _ _ => trivial
  refine createApproved_safe hK args oid approved_by hl ?_ fun _ _ _ _ _ _ _ => trivial
  intro s₁ s₂ s₃ id l₂ l₃ hinv₁ hrely hinv₂ hfree hl₂ hl₃ htables hsem
  subst hl₂
  obtain ⟨hinv₃, hguar⟩ := hC.manual hoid hinv₁ hrely hinv₂ hfree rfl rfl htables hsem
  exact ⟨hinv₃, hguar, fun _ _ => trivial⟩

/-- **Every call keeps the contract and returns with its outcome.** -/
theorem body_safe (c : Call) (s : Database) :
    Safe K sem c.body (fun r _ l' => ∀ reply, r = .ok reply → Outcome K c reply l') s {} := by
  have hreply : ∀ {α : Type} {p : Coroutine α} {f : α → Reply} {P : α → Session → Prop},
      Safe K sem p (fun r _ l' => ∀ a, r = .ok a → P a l') s {} →
      (∀ a l', P a l' → Outcome K c (f a) l') →
      Safe K sem (do return f (← p))
        (fun r _ l' => ∀ reply, r = .ok reply → Outcome K c reply l') s {} := by
    intro α p f P hp hf
    refine Safe.bind hp ?_ fun e _ _ _ _ h => by cases h
    intro a _ l' ha reply h
    obtain rfl := Except.ok.inj h
    exact hf a l' (ha a rfl)
  -- a mapping answered was granted; the two D365 reads also keep what they were answered
  cases c with
  | findVerified oid =>
    exact hreply (findVerified_granted hK oid rfl) fun mapping l' h => by
      cases mapping with
      | none => trivial
      | some m => exact h.2 m rfl
  | provision user =>
    exact hreply (provision_granted hK hC user rfl) fun mapping l' h => by
      cases mapping with
      | none => trivial
      | some m => exact h.2 m rfl
  | resolveIdentity request user required =>
    exact hreply (resolveIdentity_granted hK hC request user required rfl)
      fun mapping l' h => by
        cases mapping with
        | none => trivial
        | some m => exact h.2 m rfl
  | createIdentityMapping args =>
    exact hreply (createIdentityMapping_kept hK hC args rfl) fun _ _ _ => trivial
  | me request user =>
    refine hreply (route_disclosed hK hC
      (P := fun mapping _ (response : MeResponse) => response = meResponse user mapping)
      (fun _ _ h => h) (fun mapping s l => ⟨.refl l, fun a h => (Except.ok.inj h).symm⟩) rfl)
      fun response l' h => h
  | myProfile request user =>
    refine hreply (route_disclosed hK hC
      (P := fun mapping l (response : EmployeeProfileResponse) =>
        ∃ m, mapping = some m ∧ ProfileOf m l response)
      (fun hloaded hanswered ⟨m, hm, h⟩ => ⟨m, hm, h.congr hloaded hanswered⟩)
      (fun mapping s l => ?_) rfl) fun response l' h => ?_
    · cases mapping with
      | none => exact ⟨.refl l, fun _ h => by cases h⟩
      | some m =>
        exact (getProfile_safe hK m).mono fun r _ l' ⟨hidle, hok⟩ =>
          ⟨hidle, fun response h => ⟨m, rfl, hok response h⟩⟩
    · obtain ⟨_, hdisclosed, m, rfl, hprofile⟩ := h
      exact ⟨m, hdisclosed, hprofile⟩
  | myLeaveBalances request user =>
    refine hreply (route_disclosed hK hC
      (P := fun mapping l (response : LeaveBalancesResponse) =>
        ∃ m, mapping = some m ∧ BalancesOf m l response)
      (fun hloaded hanswered ⟨m, hm, h⟩ => ⟨m, hm, h.congr hloaded hanswered⟩)
      (fun mapping s l => ?_) rfl) fun response l' h => ?_
    · cases mapping with
      | none => exact ⟨.refl l, fun _ h => by cases h⟩
      | some m =>
        exact (getBalances_safe hK m).mono fun r _ l' ⟨hidle, hok⟩ =>
          ⟨hidle, fun response h => ⟨m, rfl, hok response h⟩⟩
    · obtain ⟨_, hdisclosed, m, rfl, hbalances⟩ := h
      exact ⟨m, hdisclosed, hbalances⟩

end Outcome

/-- An invariant of the database that the commits and the administrators keep
holds in every state of every run. `S` is the portal, or the portal with what
its operations may answer restricted. -/
theorem inv_of_reaches [UnicodeData]
    {S : System Op Op.Answer Exc Reply Database Session Call} {inv : Database → Prop}
    (hbody : S.body = Call.body) (hstart : S.start = {})
    (hK : ∀ c, Conforms (.anyone inv) (S.sem c)) (hC : ∀ c, Commits (.anyone inv) (S.sem c))
    (henv : ∀ s s', inv s → S.env s s' → inv s') {db : Database} {P : Portal.Pool}
    (h : S.Reaches ⟨db, []⟩ P) (hdb : inv db) : inv P.store := by
  have hsafe := System.safe_of_reaches (S := S) (K := .anyone inv)
    (Q := fun _ c r _ l => ∀ reply, r = .ok reply → Outcome (.anyone inv) c reply l)
    (fun _ _ h => h) (fun _ _ _ _ _ _ h _ _ => h)
    (fun s s' hs he => ⟨henv s s' hs he, trivial⟩)
    (fun _ c s _ _ => by
      rw [hbody, hstart]
      exact body_safe (hK c) (hC c) c s)
    h (System.safe_nil _ _ _ hdb)
  exact hsafe.1

end EmployeePortal
