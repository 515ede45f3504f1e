import EmployeePortal.D365.FilterReading
import EmployeePortal.Portal.Revocation

/-!
# Concurrent first sign-ins

Any number of `provision` calls of one user run at once, D365 confirms each, and
the database works. The table then has two states only: as it was, and as it was
with the one row of the user (`Joined`); it moves from the first to the second
once, at the first commit. A conflict query sees no row in the first state and
exactly that row in the second, so a call that meets the row returns it, a call
that does not inserts it, and a call overtaken in between is refused, rolls back
and meets it after all.

The companies may differ in case from answer to answer: the row is found by its
oid, where the exact comparison of companies does not matter, and accepted by
`_is_same_mapping`, which ignores case.
-/

namespace EmployeePortal

open EmployeePortal.Python EmployeePortal.Framework EmployeePortal.Employees EmployeePortal.D365

section Confirm

variable [UnicodeData]

/-! ## A record that confirms its caller -/

/-- The text a record has in the field configured for `key`. -/
def fieldText (fields : Dict String) (record : Dict Json) (key : String) (default : Json) :
    String :=
  (record.getD ((fields.get? key).getD "") default).text

/-- The record confirms the oid and the UPN, and names this worker, with the
company in any letter case. -/
structure Confirms (fields : Dict String) (record : Dict Json) (u : Uuid)
    (upn personnel_number company : String) : Prop where
  oid_eq : Denotes (fieldText fields record "entraOid" .null) u
  upn_eq : strip (casefold (fieldText fields record "entraUpn" (.str ""))) = upn
  number_eq : strip (fieldText fields record "personnelNumber" (.str "")) = personnel_number
  company_eq : casefold (strip (fieldText fields record "company" (.str ""))) = casefold company
  number_valid : personnel_number ≠ "" ∧ personnel_number.length ≤ 64
  company_valid : strip (fieldText fields record "company" (.str "")) ≠ "" ∧
    (strip (fieldText fields record "company" (.str ""))).length ≤ 32

instance (fields : Dict String) (record : Dict Json) (u : Uuid)
    (upn personnel_number company : String) :
    Decidable (Confirms fields record u upn personnel_number company) :=
  decidable_of_iff (_ ∧ _ ∧ _ ∧ _ ∧ _ ∧ _)
    ⟨fun ⟨a, b, c, d, e, f⟩ => ⟨a, b, c, d, e, f⟩, fun ⟨a, b, c, d, e, f⟩ => ⟨a, b, c, d, e, f⟩⟩

theorem verifyRecord_ok {raw record : Dict Json} {fields : Dict String} {u : Uuid}
    {upn personnel_number company : String} (hfields : identityFields raw = .ok fields)
    (h : Confirms fields record u upn personnel_number company) :
    verifyRecord record fields u.toText upn =
      .ok (personnel_number, strip (fieldText fields record "company" (.str ""))) := by
  have hitem : ∀ key ∈ requiredIdentityFields,
      item fields key = .ok ((fields.get? key).getD "") := by
    intro key hkey
    obtain ⟨field, hget, hitem, -⟩ := item_identityFields hfields hkey
    rw [hitem, hget, Option.getD_some]
  obtain ⟨hoid, hupn, hnumber, -, hvalid, hcompany⟩ := h
  unfold fieldText at *
  unfold verifyRecord
  simp only [hitem "entraOid" (by decide), hitem "entraUpn" (by decide),
    hitem "personnelNumber" (by decide), hitem "company" (by decide), bind, Except.bind]
  rw [show Uuid.parse _ = some u from hoid]
  simp only [hupn, hnumber, ne_eq, not_true_eq_false, or_self, if_false, hvalid.1, hcompany.1,
    Nat.not_lt.mpr hvalid.2, Nat.not_lt.mpr hcompany.2]
  rfl

/-- The request goes out as built from a valid configuration. -/
theorem identityQuery_eq {configuration : EntityMapping} {fields : Dict String} {upn : String}
    (hentity : isIdentifier configuration.entity_name = true)
    (hfields : identityFields configuration.field_mapping = .ok fields)
    (hupn : hasControl upn = false) :
    ∃ params, identityQuery configuration fields upn =
      await (.getEntity configuration.entity_name params) := by
  obtain ⟨field, -, hitem, hidentifier⟩ := item_identityFields hfields
    (show "entraUpn" ∈ requiredIdentityFields by decide)
  have hfilter : ∃ filter, equals field upn = .ok filter :=
    ⟨_, equals_ok (p := (field, upn)) hidentifier hupn⟩
  obtain ⟨filter, hfilter⟩ := hfilter
  let query : ODataQuery :=
    { select := (fields.map Prod.snd).eraseDups, filter_expression := some filter, top := some 2 }
  have hselect : ∃ select, joinIdentifiers "$select" query.select = .ok select := by
    unfold joinIdentifiers
    split
    · exact ⟨_, rfl⟩
    · have hnames : query.select.mapM validateIdentifier = .ok (query.select.map id) := by
        refine mapM_eq_ok fun name hname => ?_
        obtain ⟨pair, hpair, rfl⟩ := List.mem_map.mp (List.mem_eraseDups.mp hname)
        have hselect := (selectFields_of_checked hfields).1
        exact validateIdentifier_ok.mpr ⟨selectFields_ok hselect pair hpair, rfl⟩
      rw [hnames]
      exact ⟨_, rfl⟩
  obtain ⟨select, hselect⟩ := hselect
  have hparams : ∃ params, query.toParams = .ok params := by
    unfold ODataQuery.toParams
    rw [hselect]
    exact ⟨_, rfl⟩
  obtain ⟨params, hparams⟩ := hparams
  refine ⟨params, ?_⟩
  unfold identityQuery D365.getEntity
  rw [hitem, validateIdentifier_ok.mpr ⟨hentity, rfl⟩]
  simp only [Prog.liftM_eq, Prog.ofExcept_ok, Prog.ret_bind, hfilter]
  rw [hparams]
  rfl

end Confirm

/-! ## The setting -/

/-- A user about to sign in for the first time: the integration is configured, no
row has the oid of `u` or, in any letter case of its company, the worker, and
there is an id left. -/
structure FirstSignIn [UnicodeData] where
  db : Database
  u : Uuid
  configuration : EntityMapping
  fields : Dict String
  personnel_number : String
  company : String
  configured : db.configuration "identity" = some configuration
  entity_name : isIdentifier configuration.entity_name = true
  validated : identityFields configuration.field_mapping = .ok fields
  oid_free : ∀ m ∈ db.mappings, m.entra_oid ≠ some u.toText
  worker_free : ∀ m ∈ db.mappings, ∀ c, m.d365_personnel_number = personnel_number →
    m.d365_company = some c → casefold c ≠ casefold company
  id_free : ∃ id, id ∉ db.mappings.map Mapping.id

namespace FirstSignIn

variable [UnicodeData] (F : FirstSignIn)

/-- The payload is one record, and it confirms the user. -/
def Answers (user : AuthenticatedUser) (payload : Dict Json) : Prop :=
  match payload.get? "value" with
  | some (.arr [.obj record]) =>
      Confirms F.fields record F.u (callerUpn user) F.personnel_number F.company
  | _ => False

instance (user : AuthenticatedUser) (payload : Dict Json) :
    Decidable (F.Answers user payload) := by
  unfold Answers
  split <;> infer_instance

/-- The caller's oid denotes `u`, and D365 can be asked about the caller and can
answer. -/
structure Caller (user : AuthenticatedUser) : Prop where
  denotes : Denotes user.oid F.u
  named : callerUpn user ≠ ""
  printable : hasControl (callerUpn user) = false
  answered : ∃ payload, F.Answers user payload

/-- The database works, a commit is refused only for an oid already stored, and
D365 confirms the caller. -/
def Calm : Call → (o : Op) → Database → Session → Except Exc o.Answer → Prop
  | _, .scalars _, _, _, .error _ => False
  | _, .configuration _, _, _, .error _ => False
  | _, .rollback, _, _, .error _ => False
  | _, .commit, s, l, .error e => e = .integrityError ∧
      ∃ m ∈ l.added, ∃ m' ∈ s.mappings, m'.entra_oid = m.entra_oid
  | _, .uuid4, _, _, .ok id => id ∉ F.db.mappings.map Mapping.id
  | .provision user, .getEntity _ _, _, _, .ok payload => F.Answers user payload
  | _, .getEntity _ _, _, _, .error _ => False
  | _, _, _, _, _ => True

instance (c : Call) (o : Op) (s : Database) (l : Session) (r : Except Exc o.Answer) :
    Decidable (F.Calm c o s l r) := by
  unfold Calm
  split <;> infer_instance

/-- Any number of `provision` calls of the user. -/
def system : System Op Op.Answer Exc Reply Database Session Call :=
  (portal.only fun c => ∃ user, c = .provision user ∧ F.Caller user).undisturbed.given F.Calm

/-! ## The two states of the table -/

/-- A row of the user and the worker, active. -/
structure Own (m : Mapping) : Prop where
  entra_oid : m.entra_oid = some F.u.toText
  personnel_number : m.d365_personnel_number = F.personnel_number
  company : casefold (m.d365_company.getD "") = casefold F.company
  enabled : m.enabled = true
  verified : m.verified = true

/-- The table has the user's one row, and its history. -/
structure Joined (s : Database) (m : Mapping) : Prop where
  own : F.Own m
  mappings : s.mappings = F.db.mappings ++ [m]
  history : ∃ h : History, h.mapping_id = m.id ∧ s.history = F.db.history ++ [h]

/-- The table is as it was, or has the user's one row. -/
structure Stored (s : Database) : Prop where
  configurations : s.configurations = F.db.configurations
  mappings : (s.mappings = F.db.mappings ∧ s.history = F.db.history) ∨ ∃ m, F.Joined s m

theorem Joined.stable {F : FirstSignIn} {s s' : Database} {m : Mapping} (h : F.Joined s m)
    (hgrown : s.mappings <+: s'.mappings) (hs' : F.Stored s') : F.Joined s' m := by
  rcases hs'.mappings with ⟨hbefore, -⟩ | ⟨m', hjoined⟩
  · have hlength := hgrown.length_le
    simp [h.mappings, hbefore] at hlength
  · rw [h.mappings, hjoined.mappings] at hgrown
    have heq := hgrown.eq_of_length (by simp)
    obtain rfl : m = m' := by simpa using heq
    exact hjoined

/-- What D365 confirmed, with the company as some answer spells it. -/
structure Confirmed (w : Worker) : Prop where
  entra_oid : w.entra_oid = F.u.toText
  personnel_number : w.personnel_number = F.personnel_number
  company : casefold w.company = casefold F.company

theorem Confirmed.own {F : FirstSignIn} {w : Worker} (h : F.Confirmed w) (id : Uuid)
    (user : AuthenticatedUser) : F.Own (autoMapping id user w) where
  entra_oid := congrArg some h.entra_oid
  personnel_number := h.personnel_number
  company := h.company
  enabled := rfl
  verified := rfl

/-- No row of before is in the way. -/
theorem Confirmed.free {F : FirstSignIn} {w : Worker} (h : F.Confirmed w) :
    F.db.mappings.filter
      (conflictRow w.entra_oid w.personnel_number w.company).holds = [] := by
  refine List.filter_eq_nil_iff.mpr fun m hm hholds => ?_
  rcases conflictRow_holds.mp hholds with hoid | ⟨hnumber, hcompany⟩
  · exact F.oid_free m hm (hoid.trans (congrArg some h.entra_oid))
  · exact F.worker_free m hm w.company (hnumber.trans h.personnel_number) hcompany h.company

/-- The user's row is in the way of every confirmation, and it is the caller's own. -/
theorem Confirmed.meets {F : FirstSignIn} {w : Worker} {s : Database} {m : Mapping}
    (h : F.Confirmed w) (hm : F.Joined s m) :
    s.mappings.filter (conflictRow w.entra_oid w.personnel_number w.company).holds = [m] ∧
      isSameMapping m w = true := by
  obtain ⟨hoid, hnumber, hcompany, henabled, hverified⟩ := hm.own
  have howner : m.entra_oid = some w.entra_oid := hoid.trans (congrArg some h.entra_oid.symm)
  constructor
  · rw [hm.mappings, List.filter_append, h.free]
    simp [conflictRow_holds.mpr (Or.inl howner)]
  · exact isSameMapping_iff.mpr ⟨howner, hnumber.trans h.personnel_number.symm,
      hcompany.trans h.company.symm, henabled, hverified⟩

/-! ## One rule for each operation, on a calm day -/

/-- The others may insert the user's row, and every operation finds its answer. -/
def contract : Contract Database :=
  { Contract.along F.Stored (fun s s' => s.mappings <+: s'.mappings)
      (fun _ => List.prefix_refl _) (fun h h' => h.trans h') with live := True }

section Rules

variable {F} {c : Call} {s : Database} {l : Session}

theorem safe_configuration {k : String} {Q : Post Exc (Option EntityMapping) Database Session}
    (h : ∀ s₁, F.contract.rely s s₁ → F.Stored s₁ → Q (.ok (s₁.configuration k)) s₁
      { l with loaded := l.loaded ++ (s₁.configuration k).toList }) :
    Safe F.contract (F.system.sem c) (await (.configuration k)) Q s l := by
  refine Safe.perform (fun s₁ _ _ _ => ⟨_, s₁, _, .loaded, trivial⟩) ?_
  rintro s₁ hrely hinv r s₂ l₂ ⟨hsem, hcalm⟩
  cases hsem with
  | loaded => exact ⟨hinv, List.prefix_refl _, h s₁ hrely hinv⟩
  | loadFailed => exact hcalm.elim

theorem safe_getEntity {user : AuthenticatedUser} (huser : F.Caller user) {entity : String}
    {params : Dict String} {Q : Post Exc (Dict Json) Database Session}
    (h : ∀ s₁ payload l₁, F.Stored s₁ → F.Answers user payload → l₁.pending = l.pending →
      Q (.ok payload) s₁ l₁) :
    Safe F.contract (F.system.sem (.provision user)) (await (.getEntity entity params)) Q s l := by
  obtain ⟨payload, hpayload⟩ := huser.answered
  refine Safe.perform (fun s₁ _ _ _ => ⟨.ok payload, s₁, _, .answered, hpayload⟩) ?_
  rintro s₁ - hinv r s₂ l₂ ⟨hsem, hcalm⟩
  cases hsem with
  | answered => exact ⟨hinv, List.prefix_refl _, h s₁ _ _ hinv hcalm rfl⟩
  | unanswered => exact hcalm.elim

/-- A conflict query sees no row, or the user's. -/
theorem safe_findConflicts {w : Worker} (hw : F.Confirmed w)
    {Q : Post Exc (List Mapping) Database Session}
    (free : ∀ s₁ l₁, F.contract.rely s s₁ → F.Stored s₁ → l₁.pending = l.pending →
      s₁.mappings = F.db.mappings → Q (.ok []) s₁ l₁)
    (taken : ∀ s₁ l₁ m, F.Stored s₁ → F.Joined s₁ m → l₁.pending = l.pending →
      isSameMapping m w = true → Q (.ok [m]) s₁ l₁) :
    Safe F.contract (F.system.sem c) (findConflicts w) Q s l := by
  refine Safe.perform (fun s₁ _ _ _ => ⟨_, s₁, _, .selected (List.Perm.refl _), trivial⟩) ?_
  rintro s₁ hrely hinv r s₂ l₂ ⟨hsem, hcalm⟩
  cases hsem with
  | selected hrows =>
    refine ⟨hinv, List.prefix_refl _, ?_⟩
    rcases hinv.mappings with ⟨hbefore, -⟩ | ⟨m, hjoined⟩
    · rw [hbefore, hw.free] at hrows
      rw [List.perm_nil.mp hrows]
      exact free s₁ _ hrely hinv rfl hbefore
    · obtain ⟨hfilter, hsame⟩ := hw.meets hjoined
      rw [hfilter] at hrows
      rw [List.perm_singleton.mp hrows]
      exact taken s₁ _ m hinv hjoined rfl hsame
  | selectFailed => exact hcalm.elim

theorem safe_uuid4 {Q : Post Exc Uuid Database Session}
    (h : ∀ s₁ id, F.Stored s₁ → id ∉ F.db.mappings.map Mapping.id → Q (.ok id) s₁ l) :
    Safe F.contract (F.system.sem c) (await .uuid4) Q s l := by
  obtain ⟨id, hid⟩ := F.id_free
  refine Safe.perform (fun s₁ _ _ _ => ⟨.ok id, s₁, _, .generated, hid⟩) ?_
  rintro s₁ - hinv r s₂ l₂ ⟨hsem, hcalm⟩
  cases hsem with
  | generated => exact ⟨hinv, List.prefix_refl _, h s₁ _ hinv hcalm⟩

theorem safe_add {row : Row} {Q : Post Exc Unit Database Session}
    (h : ∀ s₁, F.Stored s₁ → Q (.ok ()) s₁ { l with pending := l.pending ++ [row] }) :
    Safe F.contract (F.system.sem c) (await (.add row)) Q s l := by
  refine Safe.perform (fun s₁ _ _ _ => ⟨_, s₁, _, .added, trivial⟩) ?_
  rintro s₁ - hinv r s₂ l₂ ⟨hsem, -⟩
  cases hsem with
  | added => exact ⟨hinv, List.prefix_refl _, h s₁ hinv⟩

theorem safe_rollback {Q : Post Exc Unit Database Session}
    (h : ∀ s₁, F.contract.rely s s₁ → F.Stored s₁ → Q (.ok ()) s₁ { l with pending := [] }) :
    Safe F.contract (F.system.sem c) (await .rollback) Q s l := by
  refine Safe.perform (fun s₁ _ _ _ => ⟨_, s₁, _, .rolledBack, trivial⟩) ?_
  rintro s₁ hrely hinv r s₂ l₂ ⟨hsem, hcalm⟩
  cases hsem with
  | rolledBack => exact ⟨hinv, List.prefix_refl _, h s₁ hrely hinv⟩
  | rollbackFailed => exact hcalm.elim

/-- The commit of the user's row: it goes in when the table is as it was, and is
refused when the row is there. -/
theorem safe_commit {id : Uuid} (user : AuthenticatedUser) {w : Worker} (hw : F.Confirmed w)
    (hid : id ∉ F.db.mappings.map Mapping.id)
    (hl : l.pending = [.mapping (autoMapping id user w), .history (autoHistory id w)])
    {Q : Post Exc Unit Database Session}
    (inserted : ∀ s₁ l₁, F.Stored s₁ → F.Joined s₁ (autoMapping id user w) → Q (.ok ()) s₁ l₁)
    (refused : ∀ s₁ m, F.Stored s₁ → F.Joined s₁ m →
      Q (.error .integrityError) s₁ { l with pending := [] }) :
    Safe F.contract (F.system.sem c) (await .commit) Q s l := by
  have hown := hw.own id user
  have hiff : ∀ s₁ : Database, (s₁.insertAll l.pending).Schema ↔
      id ∉ s₁.mappings.map Mapping.id ∧
        w.entra_oid ∉ s₁.mappings.filterMap Mapping.entra_oid :=
    fun s₁ => hl ▸ s₁.schema.mapping_iff rfl rfl
  -- in the first state the row fits, in the second its oid is taken
  have hfree : ∀ s₁ : Database, s₁.mappings = F.db.mappings →
      (s₁.insertAll l.pending).Schema := by
    intro s₁ hbefore
    refine (hiff s₁).mpr ⟨by rwa [hbefore], fun hmem => ?_⟩
    obtain ⟨m, hm, hoid⟩ := List.mem_filterMap.mp hmem
    exact F.oid_free m (hbefore ▸ hm) (hoid.trans (congrArg some hw.entra_oid))
  have htaken : ∀ (s₁ : Database) (m : Mapping), F.Joined s₁ m →
      m ∈ s₁.mappings ∧ m.entra_oid = (autoMapping id user w).entra_oid := by
    intro s₁ m hjoined
    refine ⟨?_, hjoined.own.entra_oid.trans hown.entra_oid.symm⟩
    rw [hjoined.mappings]
    exact List.mem_append_right _ (List.mem_singleton_self m)
  have hrefuse : ∀ (s₁ : Database) (m : Mapping), F.Joined s₁ m →
      ¬ (s₁.insertAll l.pending).Schema := by
    intro s₁ m hjoined hschema
    obtain ⟨hm, hoid⟩ := htaken s₁ m hjoined
    exact ((hiff s₁).mp hschema).2 (List.mem_filterMap.mpr ⟨m, hm, hoid⟩)
  refine Safe.perform (fun s₁ _ hinv _ => ?_) ?_
  · rcases hinv.mappings with ⟨hbefore, -⟩ | ⟨m, hjoined⟩
    · exact ⟨.ok (), ⟨_, hfree s₁ hbefore⟩, _,
        .committed (Database.commit_eq_some.mpr rfl), trivial⟩
    · obtain ⟨hm, hoid⟩ := htaken s₁ m hjoined
      refine ⟨.error .integrityError, s₁, _,
        .refused (Database.commit_eq_none.mpr (hrefuse s₁ m hjoined)), rfl, _, ?_, m, hm, hoid⟩
      simp [Session.added, hl]
  · rintro s₁ - hinv r s₂ l₂ ⟨hsem, hcalm⟩
    cases hsem with
    | committed hcommit =>
      have htables := Database.commit_eq_some.mp hcommit
      rcases hinv.mappings with ⟨hbefore, hhistory⟩ | ⟨m, hjoined⟩
      · rw [hl] at htables
        have hjoined : F.Joined s₂ (autoMapping id user w) := by
          refine ⟨hown, ?_, autoHistory id w, rfl, ?_⟩
          · rw [htables, ← hbefore]
            rfl
          · rw [htables, ← hhistory]
            rfl
        have hstored : F.Stored s₂ := by
          refine ⟨?_, Or.inr ⟨_, hjoined⟩⟩
          rw [htables, ← hinv.configurations]
          rfl
        refine ⟨hstored, ?_, inserted s₂ _ hstored hjoined⟩
        rw [show F.contract.guar s₁ s₂ ↔ s₁.mappings <+: s₂.mappings from Iff.rfl, hbefore,
          hjoined.mappings]
        exact List.prefix_append _ _
      -- the database never accepts a second row of the oid
      · exact absurd (htables ▸ s₂.schema) (hrefuse s₁ m hjoined)
    | refused hcommit =>
      rcases hinv.mappings with ⟨hbefore, -⟩ | ⟨m, hjoined⟩
      · exact absurd (hfree s₁ hbefore) (Database.commit_eq_none.mp hcommit)
      · exact ⟨hinv, List.prefix_refl _, refused s₁ m hinv hjoined⟩
    | commitFailed => exact absurd hcalm.1 (by decide)

/-! ## One call -/

/-- The call returns the user's row. -/
def Converged (F : FirstSignIn) : Post Exc (Option Mapping) Database Session :=
  fun r s _ => ∃ m, r = .ok (some m) ∧ F.Joined s m

theorem safe_own {w : Worker} {m : Mapping} (hm : F.Joined s m)
    (hsame : isSameMapping m w = true) :
    Safe F.contract (F.system.sem c) (sameOrConflict w [m]) F.Converged s l := by
  simp only [sameOrConflict, hsame, if_true]
  exact ⟨m, rfl, hm⟩

/-- Overtaken by another call, a call finds the row of that call. -/
theorem safe_reread {w : Worker} (hw : F.Confirmed w) {m : Mapping} (hm : F.Joined s m) :
    Safe F.contract (F.system.sem c) (reread w) F.Converged s l := by
  refine Safe.bind_iff.mpr (safe_rollback fun s₁ hrely hinv => ?_)
  have hm₁ := hm.stable hrely hinv
  refine Safe.bind_iff.mpr (safe_findConflicts hw ?_ ?_)
  · intro s₂ l₂ hrely₂ hinv₂ _ hbefore
    have hm₂ := (hm₁.stable hrely₂ hinv₂).mappings
    rw [hbefore] at hm₂
    exact absurd (congrArg List.length hm₂) (by simp)
  · exact fun s₂ l₂ m₂ _ hjoined _ hsame => safe_own hjoined hsame

theorem safe_insertMapping {w : Worker} (hw : F.Confirmed w) (user : AuthenticatedUser)
    (hl : l.pending = []) :
    Safe F.contract (F.system.sem c) (insertMapping user w) F.Converged s l := by
  unfold insertMapping
  refine Safe.bind_iff.mpr (safe_uuid4 fun s₁ id _ hid => ?_)
  refine Safe.bind_iff.mpr (safe_add fun s₂ _ => ?_)
  refine Safe.bind_iff.mpr (safe_add fun s₃ _ => ?_)
  refine Safe.tryCatch_iff.mpr (Safe.bind_iff.mpr (safe_commit user hw hid ?_ ?_ ?_))
  · simp [hl]
  · exact fun s₄ l₄ _ hjoined => ⟨_, rfl, hjoined⟩
  · exact fun s₄ m _ hjoined => safe_reread hw hjoined

theorem safe_settle {w : Worker} (hw : F.Confirmed w) (user : AuthenticatedUser)
    (hl : l.pending = []) :
    Safe F.contract (F.system.sem c) (settle user w) F.Converged s l := by
  refine Safe.bind_iff.mpr (safe_findConflicts hw ?_ ?_)
  · exact fun s₁ l₁ _ _ hl₁ _ => safe_insertMapping hw user (hl₁.trans hl)
  · exact fun s₁ l₁ m _ hjoined _ hsame => safe_own hjoined hsame

theorem readAnswer_confirmed {user : AuthenticatedUser} {payload : Dict Json}
    (h : F.Answers user payload) : ∃ w, F.Confirmed w ∧
      readAnswer payload F.fields F.u.toText (callerUpn user) = .ok (some w) := by
  unfold Answers at h
  split at h
  · rename_i record hvalue
    refine ⟨⟨F.u.toText, callerUpn user, F.personnel_number,
      strip (fieldText F.fields record "company" (.str ""))⟩, ⟨rfl, rfl, h.company_eq⟩, ?_⟩
    unfold readAnswer
    rw [hvalue]
    simp only [verifyRecord_ok F.validated h, bind, Except.bind]
    rfl
  · exact h.elim

theorem safe_requiredConfiguration :
    Safe F.contract (F.system.sem c) (requiredConfiguration "identity" provisioningNotConfigured)
      (fun r _ l₁ => r = .ok F.configuration ∧ l₁.pending = l.pending) s l := by
  refine Safe.bind_iff.mpr (safe_configuration fun s₁ _ hinv => ?_)
  have hconfigured : s₁.configuration "identity" = some F.configuration := by
    rw [Database.configuration, hinv.configurations]
    exact F.configured
  rw [hconfigured]
  show Safe _ _ (Prog.ofExcept (validateIdentifier F.configuration.entity_name) >>= _) _ _ _
  rw [validateIdentifier_ok.mpr ⟨F.entity_name, rfl⟩]
  exact ⟨rfl, rfl⟩

/-- D365 is asked, and it confirms. -/
theorem safe_confirm {user : AuthenticatedUser} (huser : F.Caller user) :
    Safe F.contract (F.system.sem (.provision user)) (confirm user)
      (fun r _ l₁ => ∃ w, r = .ok (some w) ∧ F.Confirmed w ∧ l₁.pending = l.pending) s l := by
  unfold confirm
  simp only [if_neg huser.named]
  rw [show Uuid.parse user.oid = some F.u from huser.denotes]
  refine Safe.bind safe_requiredConfiguration ?_ fun e _ _ ⟨h, _⟩ => by cases h
  rintro _ s₁ l₁ ⟨h, hl₁⟩
  obtain rfl := Except.ok.inj h
  obtain ⟨params, hquery⟩ := identityQuery_eq F.entity_name F.validated huser.printable
  simp only [F.validated, hquery, Prog.liftM_eq, Prog.ofExcept_ok, Prog.ret_bind]
  refine Safe.bind_iff.mpr (Safe.tryCatch_iff.mpr (safe_getEntity huser ?_))
  intro s₂ payload l₂ _ hanswers hl₂
  obtain ⟨w, hw, hread⟩ := readAnswer_confirmed hanswers
  show Safe _ _ (Prog.ofExcept _) _ _ _
  rw [hread]
  exact ⟨w, rfl, hw, hl₂.trans hl₁⟩

theorem safe_provision {user : AuthenticatedUser} (huser : F.Caller user) (hl : l.pending = []) :
    Safe F.contract (F.system.sem (.provision user)) (provision user) F.Converged s l := by
  refine Safe.bind (safe_confirm huser) ?_ fun e _ _ ⟨_, h, _⟩ => by cases h
  rintro _ s₁ l₁ ⟨w, h, hw, hl₁⟩
  obtain rfl := Except.ok.inj h
  exact safe_settle hw user (hl₁.trans hl)

end Rules

/-! ## All of them -/

section Pool

variable {F} {P : Portal.Pool}

/-- Every call is on its way to the one row. -/
theorem safe_of_reaches (h : F.system.Reaches ⟨F.db, []⟩ P) :
    P.Safe F.contract F.system
      (fun _ _ r s _ => ∃ m, r = .ok (.mapping (some m)) ∧ F.Joined s m) := by
  refine System.safe_of_reaches (fun _ _ h => h) ?_ (fun _ _ _ h => h.elim) ?_ h
    (System.safe_nil _ _ _ ⟨rfl, Or.inl ⟨rfl, rfl⟩⟩)
  · rintro _ _ r s s' _ ⟨m, hr, hm⟩ hrely hinv
    exact ⟨m, hr, hm.stable hrely hinv⟩
  · rintro _ _ s ⟨-, user, rfl, huser⟩ _
    refine Safe.bind (safe_provision huser rfl) ?_ fun e _ _ ⟨_, h, _⟩ => by cases h
    rintro _ s₁ l₁ ⟨m, h, hm⟩
    obtain rfl := Except.ok.inj h
    exact ⟨m, rfl, hm⟩

/-- **Concurrent first sign-ins converge.** Wherever a schedule of any number of
calls has got to, whoever is not done can go on, and without new calls there is
an end to it. When no call is running, all have returned the same row, which is the
one row the table has gained, with the one row of its history. -/
theorem first_sign_ins_converge (h : F.system.Reaches ⟨F.db, []⟩ P) :
    (∀ i t, P.threads[i]? = some t → ¬ t.Finished → ∃ P', F.system.Step P (.run i) P') ∧
    Acc (fun P₂ P₁ => ∃ i, F.system.Step P₁ (.run i) P₂) P ∧
    (P.Quiet → P.threads ≠ [] → ∃ m h, h.mapping_id = m.id ∧
      P.store.mappings = F.db.mappings ++ [m] ∧ P.store.history = F.db.history ++ [h] ∧
      ∀ t ∈ P.threads, t.Returned (.mapping (some m))) := by
  have hsafe := safe_of_reaches h
  refine ⟨fun i t ht hrunning => System.progress trivial hsafe ht hrunning,
    (System.run_wellFounded F.system).apply P, fun hquiet hne => ?_⟩
  have hreturned : ∀ t ∈ P.threads,
      ∃ m, F.Joined P.store m ∧ t.Returned (.mapping (some m)) := by
    intro t ht
    obtain ⟨i, hi⟩ := List.getElem?_of_mem ht
    -- nothing of this system is cut off
    have hcut : t.cut = false :=
      Bool.not_eq_true _ ▸ System.cuts_of_reaches h (fun _ ht => by cases ht) t ht
    have hown := hsafe.2 i t hi hcut
    rcases hquiet t ht with hcut' | ⟨a, hprog⟩ | ⟨e, hprog⟩
    · rw [hcut] at hcut'
      cases hcut'
    · rw [hprog] at hown
      obtain ⟨m, hr, hm⟩ := hown
      obtain rfl := Except.ok.inj hr
      exact ⟨m, hm, hcut, hprog⟩
    · rw [hprog] at hown
      obtain ⟨m, hr, -⟩ := hown
      cases hr
  obtain ⟨t₀, ht₀⟩ := List.exists_mem_of_ne_nil _ hne
  obtain ⟨m, hm, -⟩ := hreturned t₀ ht₀
  obtain ⟨hist, hid, hhistory⟩ := hm.history
  refine ⟨m, hist, hid, hm.mappings, hhistory, fun t ht => ?_⟩
  obtain ⟨m', hm', hret⟩ := hreturned t ht
  have heq := hm.mappings.symm.trans hm'.mappings
  obtain rfl : m = m' := by simpa using heq
  exact hret

end Pool

end FirstSignIn

/-! ## Three calls -/

section Example

open scoped Ascii

/-- `exampleUser` before the first sign-in. -/
def exampleFirstSignIn : FirstSignIn where
  db := exampleDatabase
  u := exampleUuid
  configuration := exampleConfiguration "identity" [("entraOid", "Oid"), ("entraUpn", "Upn"),
    ("personnelNumber", "PersonnelNumber"), ("company", "DataArea")]
  fields := [("entraOid", "Oid"), ("entraUpn", "Upn"), ("personnelNumber", "PersonnelNumber"),
    ("company", "DataArea")]
  personnel_number := "000123"
  company := "usmf"
  configured := rfl
  entity_name := by decide +kernel
  validated := rfl
  oid_free := fun _ hm => absurd hm List.not_mem_nil
  worker_free := fun _ hm => absurd hm List.not_mem_nil
  id_free := ⟨firstId, List.not_mem_nil⟩

theorem exampleCaller (user : AuthenticatedUser) (hdenotes : Denotes user.oid exampleUuid)
    (hupn : callerUpn user = "ada@example.org") : exampleFirstSignIn.Caller user where
  denotes := hdenotes
  named := by rw [hupn]; decide
  printable := by rw [hupn]; decide +kernel
  answered := by
    refine ⟨[("value", .arr [.obj [("Oid", .str exampleUser.oid),
      ("Upn", .str "ada@example.org"), ("PersonnelNumber", .str "000123"),
      ("DataArea", .str "usmf")]])], ?_⟩
    show Confirms _ _ _ (callerUpn user) _ _
    rw [hupn]
    decide +kernel

/-- Calls 0 and 1 look before either inserts, and are told of the company in
different letters; call 2 comes late. -/
def threeSignIns : List (System.Cue Hint Call) :=
  [.run 0 .go, .run 0 (exampleAnswer exampleUser.oid "000123" "usmf"), .run 0 .go,
    .run 1 .go, .run 1 (exampleAnswer exampleUser.oid "000123" "USMF"), .run 1 .go,
    .run 0 (.uuid firstId), .run 0 .go, .run 0 .go, .run 0 .go,
    .run 1 (.uuid secondId), .run 1 .go, .run 1 .go, .run 1 .go, .run 1 .go, .run 1 .go,
    .run 2 .go, .run 2 (exampleAnswer exampleUser.oid "000123" "Usmf"), .run 2 .go]

open Classical in
/-- One inserts, one is refused and looks again, one finds the row: all return it. -/
theorem first_sign_ins_converge_three :
    ∃ P : Portal.Pool, P.threads.length = 3 ∧ ∃ m, P.store.mappings = [m] ∧
      ∀ t ∈ P.threads, t.Returned (.mapping (some m)) := by
  let F := exampleFirstSignIn
  let thread (user : AuthenticatedUser) : Portal.Thread :=
    ⟨.provision user, {}, Call.body (.provision user), false⟩
  have hrun : (System.play F.system (System.heed (fun _ => Op.play) F.Calm) threeSignIns
      ⟨F.db, [thread exampleUser, thread exampleUserInCapitals, thread exampleUser]⟩).any
        (fun P => P.Quiet ∧ P.threads.length = 3) = true := by
    decide +kernel
  obtain ⟨P, hplay, hP⟩ := (Option.any_eq_true _ _).mp hrun
  obtain ⟨hquiet, hlength⟩ := of_decide_eq_true hP
  have hspawn : ∀ (s : Database) (ts : List Portal.Thread) (user : AuthenticatedUser),
      Denotes user.oid F.u → callerUpn user = "ada@example.org" →
      F.system.Reaches ⟨s, ts⟩ ⟨s, ts ++ [thread user]⟩ := by
    intro s ts user hdenotes hupn
    refine Relation.ReflTransGen.single ⟨_, System.Step.spawn (Call.provision user) ?_⟩
    exact ⟨trivial, user, rfl, exampleCaller user hdenotes hupn⟩
  have hstart := (hspawn F.db [] exampleUser (by decide +kernel) (by decide +kernel)).trans
    ((hspawn F.db _ exampleUserInCapitals (by decide +kernel) (by decide +kernel)).trans
      (hspawn F.db _ exampleUser (by decide +kernel) (by decide +kernel)))
  have hreaches := System.play_reaches (S := F.system) (System.heed_sem
    (S := (portal.only fun c => ∃ user, c = .provision user ∧ F.Caller user).undisturbed)
    (fun _ _ _ _ _ _ _ _ => Op.play_sem) F.Calm) hplay
  obtain ⟨-, -, hdone⟩ := FirstSignIn.first_sign_ins_converge (hstart.trans hreaches)
  obtain ⟨m, _, _, hmappings, -, hall⟩ := hdone hquiet (by
    intro h
    simp [h] at hlength)
  exact ⟨P, hlength, m, hmappings, hall⟩

end Example

end EmployeePortal
