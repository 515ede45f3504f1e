import EmployeePortal.Employees.ProvisioningTrace
import EmployeePortal.Server.ViewAudit

/-!
# Where a mapping comes from

While one process has the database to itself, a row gets into the mapping table through
one request only: one whose own token proves the user, and to which D365 itself answered
with a record under that user's object id and name. Administrators change the flags of a
row and nothing else. The other ways into the table, a second worker process and
`create_identity_mapping`, are not open meanwhile.
-/

namespace EmployeePortal

open EmployeePortal.Python EmployeePortal.Framework EmployeePortal.Auth EmployeePortal.D365
  EmployeePortal.Core EmployeePortal.Employees EmployeePortal.Audit

/-! ## Mappings -/

def Row.mapping? : Row → Option Mapping
  | .mapping m => some m
  | _ => none

def mappingsOf (rows : List Row) : List Mapping := rows.filterMap Row.mapping?

theorem mappingsOf_append (rows rows' : List Row) :
    mappingsOf (rows ++ rows') = mappingsOf rows ++ mappingsOf rows' :=
  List.filterMap_append

/-- The row without its flags. -/
def Mapping.unflagged (m : Mapping) : Mapping := { m with verified := false, enabled := false }

theorem mappings_insertAll (t : Tables) (rows : List Row) :
    (t.insertAll rows).mappings = t.mappings ++ mappingsOf rows := by
  induction rows generalizing t with
  | nil => simp [mappingsOf]
  | cons row rows ih =>
    rw [Tables.insertAll_cons, ih, ← List.singleton_append, mappingsOf_append, ← List.append_assoc]
    congr 1
    cases row <;> simp [mappingsOf, Row.mapping?]

/-- A request adds to the mapping table what it commits. -/
theorem Sem.mappings {o : Op} {db db' : Database} {l l' : Session} {r : Except Exc o.Answer}
    (h : Sem o db l r db' l') :
    (db'.mappings.map Mapping.unflagged : Multiset Mapping) +
        (mappingsOf l.committed).map Mapping.unflagged =
      db.mappings.map Mapping.unflagged + (mappingsOf l'.committed).map Mapping.unflagged := by
  cases h with
  | committed hcommit =>
    rw [Database.commit_eq_some.mp hcommit, mappings_insertAll, mappingsOf_append, List.map_append,
      List.map_append, ← Multiset.coe_add, ← Multiset.coe_add, add_right_comm, add_assoc]
  | _ => rfl

/-- An administrator keeps everything but the flags. -/
theorem AdminStep.unflagged {db db' : Database} (h : AdminStep db db') :
    db'.mappings.map Mapping.unflagged = db.mappings.map Mapping.unflagged := by
  cases h with
  | setFlags id verified enabled =>
    change (List.map _ (List.map _ db.mappings)) = _
    rw [List.map_map]
    refine List.map_congr_left fun m _ => ?_
    dsimp only [Function.comp]
    split <;> rfl
  | configure h => rw [h]

/-! ## What a mapping rests on -/

section Vouched

variable [UnicodeData]

/-- The record is the caller's, under their own object id and name, and says this of them. -/
structure Vouched (user : AuthenticatedUser) (fields : Dict String) (record : Dict Json)
    (w : Worker) : Prop where
  entra_oid : ∃ u field, Uuid.parse user.oid = some u ∧ fields.get? "entraOid" = some field ∧
    Uuid.parse (record.getD field .null).text = some u ∧ w.entra_oid = u.toText
  entra_upn : ∃ field, fields.get? "entraUpn" = some field ∧
    strip (casefold (record.getD field (.str "")).text) = callerUpn user ∧
    callerUpn user ≠ "" ∧ w.entra_upn = callerUpn user
  personnel_number : ∃ field, fields.get? "personnelNumber" = some field ∧
    w.personnel_number = strip (record.getD field (.str "")).text ∧ w.personnel_number ≠ ""
  company : ∃ field, fields.get? "company" = some field ∧
    w.company = strip (record.getD field (.str "")).text ∧ w.company ≠ ""

/-- One record, from the configured entity. -/
def Confirmed (user : AuthenticatedUser) (loaded : List EntityMapping)
    (gave : String → Dict String → Dict Json → Prop) (w : Worker) : Prop :=
  ∃ configuration fields params payload record, configuration ∈ loaded ∧
    identityFields configuration.field_mapping = .ok fields ∧
    gave configuration.entity_name params payload ∧
    payload.get? "value" = some (.arr [.obj record]) ∧ Vouched user fields record w

/-- The row is the caller's, as D365 confirmed it. -/
def Linked (user : AuthenticatedUser) (loaded : List EntityMapping)
    (gave : String → Dict String → Dict Json → Prop) (m : Mapping) : Prop :=
  ∃ id w, m = autoMapping id user w ∧ Confirmed user loaded gave w

theorem Linked.mono {user : AuthenticatedUser} {loaded loaded' : List EntityMapping}
    {gave gave' : String → Dict String → Dict Json → Prop} {m : Mapping}
    (h : Linked user loaded gave m) (hloaded : loaded ⊆ loaded')
    (hgave : ∀ entity params payload, gave entity params payload → gave' entity params payload) :
    Linked user loaded' gave' m := by
  obtain ⟨id, w, hm, configuration, fields, params, payload, record, hconfiguration, hfields,
    hgiven, hrecord⟩ := h
  exact ⟨id, w, hm, configuration, fields, params, payload, record, hloaded hconfiguration,
    hfields, hgave _ _ _ hgiven, hrecord⟩

theorem vouched_of_readAnswer {user : AuthenticatedUser} {raw : Dict Json} {fields : Dict String}
    {u : Uuid} {payload : Dict Json} {w : Worker} (hoid : Uuid.parse user.oid = some u)
    (hnamed : callerUpn user ≠ "") (hfields : identityFields raw = .ok fields)
    (h : Employees.readAnswer payload fields u.toText (callerUpn user) = .ok (some w)) :
    ∃ record, payload.get? "value" = some (.arr [.obj record]) ∧ Vouched user fields record w := by
  unfold Employees.readAnswer at h
  split at h
  · cases h
  · rename_i record hvalue
    obtain ⟨⟨personnel_number, company⟩, hverify, hw⟩ := bind_eq_ok.mp h
    obtain rfl := Option.some.inj (Except.ok.inj hw)
    obtain ⟨oid_field, hoid_field, hoid_item, -⟩ :=
      item_identityFields hfields (show "entraOid" ∈ requiredIdentityFields by decide)
    obtain ⟨upn_field, hupn_field, hupn_item, -⟩ :=
      item_identityFields hfields (show "entraUpn" ∈ requiredIdentityFields by decide)
    obtain ⟨number_field, hnumber_field, hnumber_item, -⟩ :=
      item_identityFields hfields (show "personnelNumber" ∈ requiredIdentityFields by decide)
    obtain ⟨company_field, hcompany_field, hcompany_item, -⟩ :=
      item_identityFields hfields (show "company" ∈ requiredIdentityFields by decide)
    obtain ⟨⟨returned, hreturned, htext⟩, hupn, hnumber, hcompany, hnumber_ne, hcompany_ne⟩ :=
      (verifyRecord_eq_ok hoid_item hupn_item hnumber_item hcompany_item).mp hverify
    obtain rfl := toText_injective htext
    exact ⟨record, hvalue, ⟨_, _, hoid, hoid_field, hreturned, rfl⟩,
      ⟨_, hupn_field, hupn, hnamed, rfl⟩, ⟨_, hnumber_field, hnumber, hnumber_ne.1⟩,
      ⟨_, hcompany_field, hcompany, hcompany_ne.1⟩⟩
  · cases h
  · cases h

end Vouched

/-! ## Provisioning -/

/-- What a call has loaded and been answered, and the mappings it has added and committed. -/
structure Provisioning where
  loaded : List EntityMapping := []
  answered : List Exchange := []
  pending : List Mapping := []
  linked : List Mapping := []

namespace Provisioning

def after (q : Provisioning) : (o : Op) → Except Exc o.Answer → Provisioning
  | .configuration _, .ok found => { q with loaded := q.loaded ++ found.toList }
  | .getEntity entity params, .ok payload =>
      { q with answered := q.answered ++ [⟨entity, params, payload⟩] }
  | .add (.mapping m), _ => { q with pending := q.pending ++ [m] }
  | .commit, .ok _ => { q with pending := [], linked := q.linked ++ q.pending }
  | .commit, .error _ | .rollback, _ => { q with pending := [] }
  | _, _ => q

def gave (q : Provisioning) (entity : String) (params : Dict String) (payload : Dict Json) : Prop :=
  ⟨entity, params, payload⟩ ∈ q.answered

/-- Nothing has been added so far. -/
def Unlinked (q : Provisioning) : Prop := q.pending = [] ∧ q.linked = []

variable [UnicodeData]

/-- One mapping may be added, once D365 has confirmed it. -/
def Permits (user : AuthenticatedUser) (q : Provisioning) : Op → Prop
  | .add (.mapping m) => q.Unlinked ∧ Linked user q.loaded q.gave m
  | _ => True

open Classical in
noncomputable def protocol (user : AuthenticatedUser) :
    Protocol Op Op.Answer Exc Provisioning := fun q o r =>
  if q.Permits user o then some (q.after o r) else none

variable {user : AuthenticatedUser} {q : Provisioning}

theorem protocol_of_permits {o : Op} (h : q.Permits user o) (r : Except Exc o.Answer) :
    protocol user q o r = some (q.after o r) :=
  if_pos h

theorem permits_of_protocol {o : Op} {r : Except Exc o.Answer} {q' : Provisioning}
    (h : protocol user q o r = some q') : q.Permits user o ∧ q' = q.after o r := by
  unfold protocol at h
  split at h
  · rename_i hpermits
    exact ⟨hpermits, (Option.some.inj h).symm⟩
  · cases h

/-- No mapping is added. -/
def Idle : Op → Prop
  | .add row => row.mapping? = none
  | _ => True

theorem permits_idle {o : Op} (h : Idle o) : q.Permits user o := by
  cases o with
  | add row =>
    cases row with
    | mapping m => cases h
    | _ => trivial
  | _ => trivial

theorem idle_obeys {α : Type} {p : Coroutine α} (h : p.Only Idle) :
    Always (protocol user) p :=
  .of_only h fun _ ho _ r => ⟨_, protocol_of_permits (permits_idle ho) r⟩

omit [UnicodeData] in
theorem runs_idle {α : Type} {G : Exc → Prop} {refusals : List Refusal} {n : ℕ} {p : Coroutine α}
    (h : Runs (fun _ => True) (fun row => row.mapping? = none) G refusals n p) : p.Only Idle := by
  have honly := h.only fun o r => by
    cases o with
    | getEntity entity params => exact fun _ _ => Or.inl trivial
    | _ => exact fun _ _ => trivial
  refine honly.mono fun o ho => ?_
  cases o with
  | add row => exact ho
  | _ => trivial

/-- An operation of the portal before anything is added. -/
theorem perform_obeys (o : Op) (ho : Idle o) {Q : Except Exc o.Answer → Provisioning → Prop}
    (hQ : ∀ r, Q r (q.after o r)) : Obeys (protocol user) Q (await o) q :=
  Obeys.perform_iff.mpr fun r => ⟨_, protocol_of_permits (permits_idle ho) r, hQ r⟩

theorem requiredConfiguration_obeys (mapping_key : String) (missing : PortalError)
    (hq : q.Unlinked) : Obeys (protocol user)
      (fun r q' => q'.Unlinked ∧ ∀ c, r = .ok c → c ∈ q'.loaded)
      (requiredConfiguration mapping_key missing) q := by
  unfold requiredConfiguration
  refine Obeys.bind_iff.mpr (perform_obeys (.configuration mapping_key) trivial fun r => ?_)
  rcases r with e | (- | c)
  · exact ⟨hq, fun _ h => by cases h⟩
  · exact ⟨hq, fun _ h => by cases h⟩
  · refine Obeys.bind_iff.mpr (Obeys.ofExcept_iff.mpr ?_)
    cases validateIdentifier c.entity_name with
    | error e => exact ⟨hq, fun _ h => by cases h⟩
    | ok name =>
      refine ⟨hq, fun c' h => ?_⟩
      obtain rfl := Except.ok.inj h
      exact List.mem_append_right _ (List.mem_singleton_self _)

theorem identityQuery_obeys (configuration : EntityMapping) (fields : Dict String) (upn : String)
    (hq : q.Unlinked) : Obeys (protocol user)
      (fun r q' => q'.Unlinked ∧ q'.loaded = q.loaded ∧ ∀ payload, r = .ok payload →
        ∃ params, q'.gave configuration.entity_name params payload)
      (identityQuery configuration fields upn) q := by
  have hfail : ∀ {e : Exc}, q.Unlinked ∧ q.loaded = q.loaded ∧
      ∀ payload, (.error e : Except Exc (Dict Json)) = .ok payload →
        ∃ params, q.gave configuration.entity_name params payload :=
    ⟨hq, rfl, fun _ h => by cases h⟩
  unfold identityQuery getEntity
  simp only [Prog.liftM_eq]
  refine Obeys.bind_iff.mpr (Obeys.ofExcept_iff.mpr ?_)
  cases item fields "entraUpn" with
  | error e => exact hfail
  | ok field =>
    refine Obeys.bind_iff.mpr (Obeys.ofExcept_iff.mpr ?_)
    cases equals field upn with
    | error e => exact hfail
    | ok filter =>
      refine Obeys.bind_iff.mpr (Obeys.ofExcept_iff.mpr ?_)
      cases hname : validateIdentifier configuration.entity_name with
      | error e => exact hfail
      | ok name =>
        obtain ⟨-, rfl⟩ := validateIdentifier_ok.mp hname
        refine Obeys.bind_iff.mpr (Obeys.ofExcept_iff.mpr ?_)
        cases ODataQuery.toParams _ with
        | error e => exact hfail
        | ok params =>
          refine perform_obeys (.getEntity _ params) trivial fun r => ?_
          cases r with
          | error e => exact hfail
          | ok payload =>
            refine ⟨hq, rfl, fun payload' h => ⟨params, ?_⟩⟩
            obtain rfl := Except.ok.inj h
            exact List.mem_append_right _ (List.mem_singleton_self _)

/-- Asked for the caller, D365 may confirm them. -/
theorem confirm_obeys (hq : q.Unlinked) :
    Obeys (protocol user) (fun r q' => q'.Unlinked ∧
      ∀ w, r = .ok (some w) → Confirmed user q'.loaded q'.gave w) (confirm user) q := by
  have hfail : ∀ {q : Provisioning} {e : Exc}, q.Unlinked → q.Unlinked ∧
      ∀ w, (.error e : Except Exc (Option Worker)) = .ok (some w) →
        Confirmed user q.loaded q.gave w :=
    fun hq => ⟨hq, fun _ h => by cases h⟩
  unfold confirm
  by_cases hnamed : callerUpn user = ""
  · rw [if_pos hnamed]
    exact ⟨hq, fun _ h => by cases Except.ok.inj h⟩
  rw [if_neg hnamed]
  cases hoid : Uuid.parse user.oid with
  | none => exact hfail hq
  | some u =>
    simp only [Prog.liftM_eq]
    refine Obeys.bind_iff.mpr ((requiredConfiguration_obeys _ _ hq).mono ?_)
    rintro (e | configuration) q₁ ⟨hq₁, hloaded⟩
    · exact hfail hq₁
    refine Obeys.bind_iff.mpr (Obeys.ofExcept_iff.mpr ?_)
    cases hfields : identityFields configuration.field_mapping with
    | error e => exact hfail hq₁
    | ok fields =>
      refine Obeys.bind_iff.mpr (Obeys.tryCatch_iff.mpr
        ((identityQuery_obeys configuration fields (callerUpn user) hq₁).mono ?_))
      rintro (e | payload) q₂ ⟨hq₂, hloaded₂, hgave⟩
      · cases e <;> exact hfail hq₂
      · refine Obeys.ofExcept_iff.mpr ⟨hq₂, fun w hw => ?_⟩
        obtain ⟨params, hparams⟩ := hgave payload rfl
        obtain ⟨record, hvalue, hvouched⟩ := vouched_of_readAnswer hoid hnamed hfields hw
        exact ⟨configuration, fields, params, payload, record,
          hloaded₂ ▸ hloaded configuration rfl, hfields, hparams, hvalue, hvouched⟩

/-- What D365 confirmed may be added. -/
theorem settle_obeys {w : Worker} (hq : q.Unlinked) (hw : Confirmed user q.loaded q.gave w) :
    Obeys (protocol user) (fun _ _ => True) (settle user w) q := by
  unfold settle findConflicts
  refine Obeys.bind_iff.mpr (perform_obeys (.scalars _) trivial fun r => ?_)
  rcases r with e | (- | ⟨first, rest⟩)
  · trivial
  · change Obeys _ _ (insertMapping user w) q
    unfold insertMapping
    refine Obeys.bind_iff.mpr (perform_obeys .uuid4 trivial fun r => ?_)
    cases r with
    | error e => trivial
    | ok id =>
      have hlinked : q.Permits user (.add (.mapping (autoMapping id user w))) :=
        ⟨hq, id, w, rfl, hw⟩
      refine Obeys.bind_iff.mpr (Obeys.perform_iff.mpr fun r =>
        ⟨_, protocol_of_permits hlinked r, ?_⟩)
      cases r with
      | error e => trivial
      | ok _ =>
        -- what follows adds no mapping
        have hidle : ∀ o, Idle o → (await o).Only Idle := fun _ => .perform
        refine idle_obeys (.bind (hidle (.add (.history _)) rfl) fun _ => ?_) _
        refine .tryCatch (.bind (hidle .commit trivial) fun _ => trivial) fun e => ?_
        cases e with
        | integrityError =>
          change (reread w).Only Idle
          unfold reread
          refine .bind (hidle .rollback trivial) fun _ => ?_
          exact .bind (hidle (.scalars _) trivial) fun rows => sameOrConflict_only w rows
        | _ => trivial
  · exact idle_obeys (sameOrConflict_only w _) q

theorem provision_obeys (hq : q.Unlinked) :
    Obeys (protocol user) (fun _ _ => True) (provision user) q := by
  unfold provision
  refine Obeys.bind_iff.mpr ((confirm_obeys hq).mono ?_)
  rintro (e | (- | w)) q' ⟨hq', hconfirmed⟩
  · trivial
  · trivial
  · exact settle_obeys hq' (hconfirmed w rfl)

/-- What `resolve_identity` ends with. -/
theorem required_obeys {p : Coroutine (Option Mapping)} (required : Bool)
    (hp : Obeys (protocol user) (fun _ _ => True) p q) :
    Obeys (protocol user) (fun _ _ => True) (p >>= fun mapping => match mapping with
      | none => if required then throw mappingRequired else return none
      | some mapping => return some mapping) q := by
  refine Obeys.bind_iff.mpr (hp.mono ?_)
  rintro (e | (- | mapping)) q' -
  · trivial
  · cases required <;> trivial
  · trivial

theorem resolveIdentity_obeys (request : Request) (required : Bool) (hq : q.Unlinked) :
    Obeys (protocol user) (fun _ _ => True) (resolveIdentity request user required) q := by
  have haudit : ∀ m, (recordAudit request user (provisionEntry m)).Only Idle := fun m =>
    recordAudit_only rfl trivial
  have hprovision : Obeys (protocol user) (fun _ _ => True) (provisionAudited request user) q := by
    refine Obeys.bind_iff.mpr ((provision_obeys hq).mono ?_)
    rintro (e | mapping) q' -
    · trivial
    · cases mapping with
      | none => trivial
      | some mapping =>
        have honly : (do
            recordAudit request user (provisionEntry mapping)
            return some mapping : Coroutine (Option Mapping)).Only Idle :=
          .bind (haudit mapping) fun _ => trivial
        exact idle_obeys honly q'
  unfold resolveIdentity findVerified
  refine Obeys.bind_iff.mpr (Obeys.bind_iff.mpr (perform_obeys (.scalars _) trivial fun r => ?_))
  rcases r with e | (- | ⟨mapping, (- | ⟨_, _⟩)⟩)
  · trivial
  · exact required_obeys required hprovision
  · trivial
  · trivial

theorem route_obeys {α : Type} {request : Request} {required : Bool} {action resource : String}
    {fetch : Option Mapping → Coroutine α} (hfetch : ∀ mapping, (fetch mapping).Only Idle)
    (hq : q.Unlinked) :
    Obeys (protocol user) (fun _ _ => True) (route request user required action resource fetch)
      q := by
  unfold route
  cases hrole : portalUser user with
  | error e => trivial
  | ok user' =>
    obtain rfl := requireRoles_ok hrole
    rw [Prog.liftM_eq, Prog.ofExcept_ok, Prog.ret_bind]
    refine Obeys.bind_iff.mpr ((resolveIdentity_obeys request required hq).mono ?_)
    rintro (e | mapping) q' -
    · trivial
    · refine idle_obeys (.bind (hfetch mapping) fun answer => ?_) q'
      exact .bind (recordAudit_only rfl trivial) fun _ => trivial

theorem call_obeys (route : Route) (request : Request) (hq : q.Unlinked) :
    Obeys (protocol user) (fun _ _ => True) (route.call request user).body q := by
  have hF : Foreign fun _ => True := fun _ _ => trivial
  have hreply : ∀ {α : Type} {p : Coroutine α} {f : α → Reply},
      Obeys (protocol user) (fun _ _ => True) p q →
        Obeys (protocol user) (fun _ _ => True) (p >>= fun a => return f a) q := by
    intro α p f hp
    refine Obeys.bind_iff.mpr (hp.mono ?_)
    rintro (e | a) q' - <;> trivial
  cases route with
  | me => exact hreply (route_obeys (fun _ => trivial) hq)
  | myProfile =>
    exact hreply (route_obeys
      (fun mapping => runs_idle (asserted_runs hF (getProfile_runs hF) mapping)) hq)
  | myLeaveBalances =>
    exact hreply (route_obeys
      (fun mapping => runs_idle (asserted_runs hF (getBalances_runs hF) mapping)) hq)

end Provisioning

/-! ## In the server -/

section Server

variable {κ π : Type}

/-- Whose the request is, what it has loaded, asked and been answered, and its mappings. -/
structure Linking where
  user : Option AuthenticatedUser := none
  loaded : List EntityMapping := []
  heard : Heard := ([], [])
  pending : List Mapping := []
  linked : List Mapping := []

namespace Linking

def after (q : Linking) : (o : ServerOp κ) → Except Exc o.Answer → Linking
  | .bindUser user, _ => { q with user := some user }
  | .service o, r => { q with heard := recordGet o r q.heard }
  | .database (.configuration _), .ok found => { q with loaded := q.loaded ++ found.toList }
  | .database (.add (.mapping m)), _ => { q with pending := q.pending ++ [m] }
  | .database .commit, .ok _ => { q with pending := [], linked := q.linked ++ q.pending }
  | .database .commit, .error _ | .database .rollback, _ => { q with pending := [] }
  | _, _ => q

def of (l : ServerSession π) : Linking where
  user := l.user
  loaded := l.database.loaded
  heard := (l.sent, l.answered)
  pending := mappingsOf l.database.pending
  linked := mappingsOf l.database.committed

theorem of_database {o : Op} {db db' : Database} {l : ServerSession π} {l₁ : Session}
    {r : Except Exc o.Answer} (h : Sem o db l.database r db' l₁)
    (hlocal : ∀ entity params, o ≠ .getEntity entity params) :
    of { l with database := l₁ } = (of l).after (κ := κ) (.database o) r := by
  cases h with
  | @added row =>
    cases row <;> simp [of, after, mappingsOf, Row.mapping?]
  | committed hcommit => simp [of, after, mappingsOf]
  | answered => exact absurd rfl (hlocal _ _)
  | unanswered => exact absurd rfl (hlocal _ _)
  | _ => rfl

variable [UnicodeData]

/-- A user is bound once, and one mapping may be added, which D365 confirmed as theirs. -/
def Permits (q : Linking) : ServerOp κ → Prop
  | .bindUser _ => q.user = none
  | .database (.add (.mapping m)) => (q.pending = [] ∧ q.linked = []) ∧
      ∃ user, q.user = some user ∧ Linked user q.loaded (Gave q.heard) m
  | _ => True

open Classical in
noncomputable def protocol : Protocol (ServerOp κ) ServerOp.Answer Exc Linking := fun q o r =>
  if q.Permits o then some (q.after o r) else none

theorem protocol_of_permits {q : Linking} {o : ServerOp κ} (h : q.Permits o)
    (r : Except Exc o.Answer) : protocol q o r = some (q.after o r) :=
  if_pos h

theorem after_of_protocol {q q' : Linking} {o : ServerOp κ} {r : Except Exc o.Answer}
    (h : protocol q o r = some q') : q' = q.after o r := by
  unfold protocol at h
  split at h
  · exact (Option.some.inj h).symm
  · cases h

/-- The one mapping of the request is its user's, as D365 confirmed them to this request. -/
structure Sound (q : Linking) : Prop where
  single : (q.pending ++ q.linked).length ≤ 1
  confirmed : ∀ m ∈ q.pending ++ q.linked,
    ∃ user, q.user = some user ∧ Linked user q.loaded (Gave q.heard) m

theorem Sound.keep {q q' : Linking} (h : q.Sound) (huser : q'.user = q.user)
    (hloaded : q.loaded ⊆ q'.loaded) (hheard : q.heard.2 ⊆ q'.heard.2)
    (hsub : (q'.pending ++ q'.linked).Subperm (q.pending ++ q.linked)) : q'.Sound := by
  refine ⟨hsub.length_le.trans h.single, fun m hm => ?_⟩
  obtain ⟨user, hbound, hlinked⟩ := h.confirmed m (hsub.subset hm)
  exact ⟨user, huser.trans hbound, hlinked.mono hloaded fun _ _ _ hgave => hgave.mono hheard⟩

theorem Sound.step {q q' : Linking} {o : ServerOp κ} {r : Except Exc o.Answer} (h : q.Sound)
    (hnext : protocol q o r = some q') : q'.Sound := by
  unfold protocol at hnext
  split at hnext
  case isFalse => cases hnext
  case isTrue hpermits =>
  obtain rfl := Option.some.inj hnext
  have hsame : q.Sound := h
  have hloaded := List.Subset.refl q.loaded
  have hheard := List.Subset.refl q.heard.2
  have hsub := (List.Perm.refl (q.pending ++ q.linked)).subperm
  cases o with
  | bindUser user =>
    -- nobody was bound, so nothing was added
    have hnone : q.user = none := hpermits
    refine ⟨h.single, fun m hm => ?_⟩
    obtain ⟨user', hbound, -⟩ := h.confirmed m hm
    rw [hnone] at hbound
    cases hbound
  | auth o => exact h
  | health o => exact h
  | service o => exact h.keep rfl hloaded (recordGet_subset o r q.heard) hsub
  | database o =>
    cases o with
    | configuration k =>
      cases r with
      | ok found => exact h.keep rfl (List.subset_append_left _ _) hheard hsub
      | error e => exact h
    | add row =>
      cases row with
      | mapping m =>
        obtain ⟨⟨hpending, hlinked⟩, hconfirmed⟩ := hpermits
        have hrows : (q.pending ++ [m]) ++ q.linked = [m] := by rw [hpending, hlinked]; rfl
        refine ⟨?_, fun m' hm' => ?_⟩
        · change ((q.pending ++ [m]) ++ q.linked).length ≤ 1
          rw [hrows]
          rfl
        · change m' ∈ (q.pending ++ [m]) ++ q.linked at hm'
          rw [hrows] at hm'
          obtain rfl := List.mem_singleton.mp hm'
          exact hconfirmed
      | _ => exact h
    | commit =>
      cases r with
      | ok _ =>
        have hrows : (q.linked ++ q.pending).Subperm (q.pending ++ q.linked) :=
          List.perm_append_comm.subperm
        exact h.keep rfl hloaded hheard hrows
      | error e => exact h.keep rfl hloaded hheard (List.sublist_append_right _ _).subperm
    | rollback => exact h.keep rfl hloaded hheard (List.sublist_append_right _ _).subperm
    | _ => exact h

/-! ### What the portal asks for -/

/-- The call and the request are in the same place. -/
structure Along (user : AuthenticatedUser) (p : Provisioning) (q : Linking) : Prop where
  user : q.user = some user
  loaded : q.loaded = p.loaded
  answered : ∀ x ∈ p.answered, Gave q.heard x.entity x.params x.payload
  pending : q.pending = p.pending
  linked : q.linked = p.linked

variable {user : AuthenticatedUser} {p : Provisioning} {q : Linking}

/-- While D365 is asked, only what was heard changes. -/
theorem serviceTask_along {α : Type} {t : D365.Task α} {Q : Except Exc α → Heard → Prop}
    (h : Obeys hearing Q t q.heard) :
    Obeys protocol (fun r q' => q' = { q with heard := q'.heard } ∧ q.heard.2 ⊆ q'.heard.2 ∧
      Q r q'.heard) (serviceTask t : ServerTask κ α) q := by
  have hfill : Obeys protocol
      (fun r q' => ∃ heard, (q' = { q with heard } ∧ q.heard.2 ⊆ heard.2) ∧ Q r heard)
      (serviceTask t : ServerTask κ α) q := by
    refine Obeys.fill _ (fun o heard q' hq hallowed => ?_) h ⟨rfl, List.Subset.refl _⟩
    obtain ⟨rfl, hsub⟩ := hq
    exact Obeys.perform_iff.mpr fun r => ⟨_, protocol_of_permits (o := .service o) trivial r, _,
      rfl, rfl, List.Subset.trans hsub (recordGet_subset o r heard)⟩
  refine hfill.mono fun r q' ⟨heard, ⟨hq', hsub⟩, hQ⟩ => ?_
  subst hq'
  exact ⟨rfl, hsub, hQ⟩

variable [FloatData]

/-- A question of the portal does in the server what it does to the provisioning. -/
theorem perform_along (max_retries : ℤ) (o : Op) (h : Along user p q)
    (hallowed : ∀ r, ∃ p₁, Provisioning.protocol user p o r = some p₁) :
    Obeys protocol (fun r q₁ => ∃ p₁, Provisioning.protocol user p o r = some p₁ ∧
      Along user p₁ q₁) (perform max_retries o : ServerTask κ _) q := by
  have hpermits : p.Permits user o := by
    obtain ⟨p₁, hp₁⟩ := hallowed (.error .databaseError)
    exact (Provisioning.permits_of_protocol hp₁).1
  have hdatabase : ∀ (hserver : q.Permits (κ := κ) (.database o)),
      (∀ r, Along user (p.after o r) (q.after (κ := κ) (.database o) r)) →
        Obeys protocol (fun r q₁ => ∃ p₁, Provisioning.protocol user p o r = some p₁ ∧
          Along user p₁ q₁) (Prog.perform (ServerOp.database o) : ServerTask κ _) q :=
    fun hserver halong => Obeys.perform_iff.mpr fun r => ⟨_, protocol_of_permits hserver r, _,
      Provisioning.protocol_of_permits hpermits r, halong r⟩
  cases o with
  | getEntity entity params =>
    refine (serviceTask_along (askD365_hears entity params q.heard)).mono ?_
    rintro r q' ⟨hq', hsub, hgave⟩
    refine ⟨_, Provisioning.protocol_of_permits hpermits r, ?_⟩
    have hold : ∀ x ∈ p.answered, Gave q'.heard x.entity x.params x.payload := fun x hx =>
      (h.answered x hx).mono hsub
    rw [hq']
    cases r with
    | error e => exact ⟨h.user, h.loaded, hold, h.pending, h.linked⟩
    | ok payload =>
      refine ⟨h.user, h.loaded, fun x hx => ?_, h.pending, h.linked⟩
      rcases List.mem_append.mp hx with hx | hx
      · exact hold x hx
      · obtain rfl := List.mem_singleton.mp hx
        exact hgave payload rfl
  | configuration k =>
    refine hdatabase trivial fun r => ?_
    cases r with
    | error e => exact h
    | ok found =>
      exact ⟨h.user, congrArg (· ++ found.toList) h.loaded, h.answered, h.pending, h.linked⟩
  | add row =>
    cases row with
    | mapping m =>
      obtain ⟨⟨hpending, hlinked⟩, hconfirmed⟩ := hpermits
      refine hdatabase ⟨⟨h.pending.trans hpending, h.linked.trans hlinked⟩, user, h.user, ?_⟩
        fun r => ⟨h.user, h.loaded, h.answered, congrArg (· ++ [m]) h.pending, h.linked⟩
      rw [h.loaded]
      exact hconfirmed.mono (List.Subset.refl _) fun entity params payload hgave =>
        h.answered ⟨entity, params, payload⟩ hgave
    | _ => exact hdatabase trivial fun _ => h
  | commit =>
    refine hdatabase trivial fun r => ?_
    cases r with
    | error e => exact ⟨h.user, h.loaded, h.answered, rfl, h.linked⟩
    | ok _ =>
      exact ⟨h.user, h.loaded, h.answered, rfl, congrArg₂ (· ++ ·) h.linked h.pending⟩
  | rollback => exact hdatabase trivial fun _ => ⟨h.user, h.loaded, h.answered, rfl, h.linked⟩
  | _ => exact hdatabase trivial fun _ => h

end Linking

/-! ## Runs -/

section Runs

variable [Jwt κ] [UnicodeData] [UrlData] [FloatData] {settings : D365Settings}
  {answers : D365TokenService.Provider π}

theorem handler_links (c : ServerCall) :
    Obeys Linking.protocol (fun _ _ => True) ((server κ settings answers).body c) {} := by
  change Obeys Linking.protocol _ ((handler settings c).conclude _) {}
  rw [Obeys.conclude_iff, handler_eq, Obeys.bind_iff]
  refine .of_only (authenticate_only c) (fun o ho r => ?_) fun x => ?_
  · cases o with
    | auth o => exact Linking.protocol_of_permits (o := .auth o) trivial r
    | _ => exact ho.elim
  obtain e | (- | ⟨route, user⟩) := x
  · trivial
  · refine .of_only (answerAs_only c none) (fun o ho r => ?_) fun _ => trivial
    cases o with
    | health o => exact Linking.protocol_of_permits (o := .health o) trivial r
    | _ => exact ho.elim
  · refine Obeys.tell fun r =>
      ⟨_, Linking.protocol_of_permits (q := {}) (o := .bindUser user) rfl r, ?_⟩
    have hcall : Obeys (Provisioning.protocol user) (fun _ _ => True)
        (route.call (stated c.request c.request_id) user).body {} :=
      Provisioning.call_obeys route _ ⟨rfl, rfl⟩
    have halong : Linking.Along user {} { user := some user } :=
      ⟨rfl, rfl, (fun _ h => by cases h), rfl, rfl⟩
    have hfill := hcall.fill (Linking.Along user) (fun o _ _ halong hallowed =>
      Linking.perform_along (κ := κ) settings.D365_MAX_RETRIES o halong hallowed) halong
    refine Obeys.bind_iff.mpr (hfill.mono ?_)
    rintro (e | reply) q' - <;> trivial

theorem linking_does {c : ServerCall} {o : ServerOp κ} {s s' : Server κ π}
    {l l' : ServerSession π} {r : Except Exc o.Answer}
    (hdoes : (server κ settings answers).Does c o s l r s' l') :
    Linking.of l' = (Linking.of l).after o r := by
  cases o with
  | bindUser user =>
    obtain ⟨rfl, rfl⟩ := does_bindUser hdoes
    rfl
  | auth o =>
    obtain ⟨-, k, rfl⟩ := does_auth hdoes
    rfl
  | database o =>
    obtain ⟨hlocal, db, l₁, hsem, -, rfl⟩ := does_database hdoes
    exact Linking.of_database hsem hlocal
  | service o =>
    obtain ⟨-, t, rfl⟩ := does_service hdoes
    rfl
  | health o =>
    obtain ⟨rfl, rfl⟩ := does_health hdoes
    rfl

theorem linking_keeps {c : ServerCall} {o : ServerOp κ} {s s' : Server κ π}
    {l l' : ServerSession π} {r : Except Exc o.Answer} {q q' : Linking}
    (hdoes : (server κ settings answers).Does c o s l r s' l') (h : q = Linking.of l ∧ q.Sound)
    (hnext : Linking.protocol q o r = some q') : q' = Linking.of l' ∧ q'.Sound := by
  obtain ⟨rfl, hsound⟩ := h
  refine ⟨?_, hsound.step hnext⟩
  rw [linking_does hdoes]
  exact Linking.after_of_protocol hnext

theorem linking_of_reaches {s : Server κ π} {P' : ServerPool κ π}
    (h : (server κ settings answers).Reaches ⟨s, []⟩ P') {t : ServerThread κ π}
    (ht : t ∈ P'.threads) : (Linking.of t.sess).Sound := by
  have hstart : ({} : Linking) = Linking.of ({} : ServerSession π) ∧ ({} : Linking).Sound :=
    ⟨rfl, by decide, fun _ h => by cases h⟩
  obtain ⟨q, ⟨rfl, hsound⟩, -⟩ := Loop.obeys_of_reaches (fun _ _ _ => True)
    (fun q l => q = Linking.of l ∧ q.Sound) (fun _ _ _ _ _ _ _ _ _ => linking_keeps)
    (fun c _ => ⟨{}, hstart, handler_links c⟩) h t ht
  exact hsound

/-- **Where a mapping comes from.** In every order of the turns of one process, and but for the
flags, the mapping table holds the rows it had at the start and those the requests have
committed; a request has committed one at most, and then its own token proves the user, who has
a role of the portal, and D365 answered this very request with one record, under the user's
object id and name, that the row repeats. -/
theorem server_links_proven {s : Server κ π} (hs : Fresh s) {P' : ServerPool κ π}
    (h : (server κ settings answers).Reaches ⟨s, []⟩ P') :
    (P'.store.database.mappings.map Mapping.unflagged : Multiset Mapping) =
      s.database.mappings.map Mapping.unflagged +
        P'.total (fun l => ↑((mappingsOf l.database.committed).map Mapping.unflagged)) ∧
    ∀ t ∈ P'.threads, (mappingsOf t.sess.database.committed).length ≤ 1 ∧
      ∀ m ∈ mappingsOf t.sess.database.committed, ∃ user, t.sess.user = some user ∧
        Authenticated κ settings.toSettings t.call.request user t.sess.keys ∧
        portalUser user = .ok user ∧
        Linked user t.sess.database.loaded (Gave (t.sess.sent, t.sess.answered)) m := by
  constructor
  · exact database_conserved (fun db => (db.mappings.map Mapping.unflagged : Multiset Mapping))
      (fun l => ↑((mappingsOf l.committed).map Mapping.unflagged)) rfl
      (fun hadmin => by rw [hadmin.unflagged]) Sem.mappings h
  · intro t ht
    have hsound := linking_of_reaches h ht
    refine ⟨(List.sublist_append_right _ _).length_le.trans hsound.single, fun m hm => ?_⟩
    obtain ⟨user, huser, hlinked⟩ := hsound.confirmed m (List.mem_append_right _ hm)
    refine ⟨user, huser, (authenticated_of_reaches hs h ht huser).1, ?_, hlinked⟩
    rcases mediates_of_reaches h ht with ⟨user', huser', hrole⟩ | huntouched
    · obtain rfl := Option.some.inj (huser.symm.trans huser')
      exact hrole
    · rw [huntouched.database] at hm
      cases hm

end Runs

end Server

section Example

open Ascii EntraTokenValidator RsaKeys

/-- The request has put a mapping into the table. -/
def hasLinked (t : ServerThread (String × String) Unit) : Bool :=
  !(mappingsOf t.sess.database.committed).isEmpty

theorem exampleLinkRun : ∃ P', exampleLoop.Reaches ⟨exampleServer, []⟩ P' ∧
    ∃ t ∈ P'.threads, hasLinked t = true := by
  have hplay : (exampleServerPlay .myLeaveBalances exampleServerHints).any
      (fun P' => P'.threads.any hasLinked) = true := by
    decide +kernel
  obtain ⟨P', hplay, hlinked⟩ := (Option.any_eq_true _ _).mp hplay
  exact ⟨P', exampleServerPlay_reaches hplay, List.any_eq_true.mp hlinked⟩

/-- The first sign-in leaves a mapping that D365 has confirmed. -/
theorem server_links_proven_balances :
    ∃ (P' : ServerPool (String × String) Unit) (t : ServerThread (String × String) Unit)
      (user : AuthenticatedUser) (m : Mapping), exampleLoop.Reaches ⟨exampleServer, []⟩ P' ∧
      t ∈ P'.threads ∧ m ∈ mappingsOf t.sess.database.committed ∧
      Linked user t.sess.database.loaded (Gave (t.sess.sent, t.sess.answered)) m := by
  obtain ⟨P', h, t, ht, hlinked⟩ := exampleLinkRun
  obtain ⟨m, hm⟩ : ∃ m, m ∈ mappingsOf t.sess.database.committed := by
    unfold hasLinked at hlinked
    cases hrows : mappingsOf t.sess.database.committed with
    | nil => rw [hrows] at hlinked; cases hlinked
    | cons m rest => exact ⟨m, List.mem_cons_self⟩
  obtain ⟨user, -, -, -, hconfirmed⟩ :=
    ((server_links_proven exampleServer_fresh h).2 t ht).2 m hm
  exact ⟨P', t, user, m, h, ht, hm, hconfirmed⟩

end Example

end EmployeePortal
