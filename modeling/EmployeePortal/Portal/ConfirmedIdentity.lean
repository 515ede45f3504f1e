import EmployeePortal.Employees.ProvisioningTrace
import EmployeePortal.Portal.Authorization

/-!
# Written exactly when confirmed

`provision` alone on the database, whatever D365 answers: it adds one mapping with its
history when D365 confirms the caller and no row is in the way, and nothing otherwise.
What it stores is read off the record through `str`, whatever the record holds.
-/

namespace EmployeePortal

open EmployeePortal.Python EmployeePortal.Framework EmployeePortal.D365 EmployeePortal.Employees

/-! ## Alone on the database -/

/-- D365 answers this, and no operation of the database fails. -/
def Given (answer : Except Exc (Dict Json)) : (o : Op) → Except Exc o.Answer → Prop
  | .getEntity _ _, r => r = answer
  | _, r => ∃ a, r = .ok a

def alone (answer : Except Exc (Dict Json)) : OpSem Op Op.Answer Exc Database Session :=
  fun o db l r db' l' => Sem o db l r db' l' ∧ Given answer o r

section Alone

variable {answer : Except Exc (Dict Json)} {events : List (Event Op Op.Answer Exc)}
  {db db' : Database} {l l' : Session}

theorem not_broken (hplays : Prog.Plays (alone answer) events db l db' l') : ¬ Broken events := by
  rintro ⟨o, e, hmem, ho⟩
  have hgiven := Prog.answer_of_plays (p := Given answer)
    (fun _ _ _ _ _ _ _ h => ⟨h.2, trivial⟩) trivial hplays _ hmem
  cases o with
  | getEntity entity params => exact ho entity params rfl
  | _ =>
    obtain ⟨a, ha⟩ := hgiven
    cases ha

/-- The configuration is the one stored, where nothing fails. -/
theorem configuration_plays {k : String} {x : Except Exc (Option EntityMapping)}
    {rest : List (Event Op Op.Answer Exc)}
    (hplays : Prog.Plays (alone answer) (⟨.configuration k, x⟩ :: rest) db l db' l') :
    x = .ok (db.configuration k) ∧ ∃ l₁, l₁.pending = l.pending ∧
      Prog.Plays (alone answer) rest db l₁ db' l' := by
  obtain ⟨db₁, l₁, ⟨hsem, hgiven⟩, hrest⟩ := hplays
  cases hsem with
  | loaded =>
    refine ⟨rfl, _, ?_, hrest⟩
    rfl
  | loadFailed =>
    obtain ⟨a, ha⟩ := hgiven
    cases ha

theorem getEntity_plays {entity : String} {params : Dict String} {x : Except Exc (Dict Json)}
    (hplays : Prog.Plays (alone answer) [⟨.getEntity entity params, x⟩] db l db' l') :
    x = answer ∧ db' = db ∧ l'.pending = l.pending := by
  obtain ⟨db₁, l₁, ⟨hsem, hgiven⟩, rfl, rfl⟩ := hplays
  cases hsem with
  | answered => exact ⟨hgiven, rfl, rfl⟩
  | unanswered => exact ⟨hgiven, rfl, rfl⟩

theorem free_iff {w : Worker} :
    (∀ m ∈ db.mappings,
      ¬ (conflictRow w.entra_oid w.personnel_number w.company).holds m = true) ↔
    ∀ m ∈ db.mappings, m.entra_oid ≠ some w.entra_oid ∧
      ¬ (m.d365_personnel_number = w.personnel_number ∧ m.d365_company = some w.company) := by
  simp only [conflictRow_holds, not_or, ne_eq]

/-- Dictionaries read from the database have distinct keys. -/
theorem distinctFields_of_plays
    (hdistinct : ∀ c ∈ db.configurations, (c.field_mapping.map Prod.fst).Nodup)
    (hplays : Prog.Plays (alone answer) events db l db' l') : DistinctFields events := by
  intro mapping_key c hmem
  have hstep : ∀ (o : Op) (s : Database) (l : Session) (r : Except Exc o.Answer) (s' : Database)
      (l' : Session), (∀ c ∈ s.configurations, (c.field_mapping.map Prod.fst).Nodup) →
      alone answer o s l r s' l' →
      ((⟨o, r⟩ : Event Op Op.Answer Exc) = ⟨.configuration mapping_key, .ok (some c)⟩ →
        (c.field_mapping.map Prod.fst).Nodup) ∧
      ∀ c ∈ s'.configurations, (c.field_mapping.map Prod.fst).Nodup := by
    rintro o s l r s' l' hs ⟨hsem, -⟩
    refine ⟨fun heq => ?_, ?_⟩
    · cases heq
      generalize hr : (Except.ok (some c) : Except Exc (Option EntityMapping)) = r at hsem
      cases hsem with
      | loaded => exact hs c (Database.mem_of_configuration (Except.ok.inj hr).symm)
      | loadFailed => cases hr
    · rcases hsem.store with rfl | ⟨hcommit, -⟩
      · exact hs
      · rw [Database.commit_eq_some.mp hcommit, Tables.configurations_insertAll]
        exact hs
  exact Prog.answer_of_plays hstep hdistinct hplays _ hmem rfl

end Alone

section Writes

variable [UnicodeData]

/-- D365 confirms the caller, and no row is in the way. -/
structure Grounds (user : AuthenticatedUser) (answer : Except Exc (Dict Json)) (db : Database)
    (w : Worker) : Prop where
  confirmed : ∃ c payload, db.configuration "identity" = some c ∧ answer = .ok payload ∧
    Vouches user c payload w
  free : ∀ m ∈ db.mappings, m.entra_oid ≠ some w.entra_oid ∧
    ¬ (m.d365_personnel_number = w.personnel_number ∧ m.d365_company = some w.company)

/-- One verified mapping, under the canonical oid, and its history are added. -/
structure Adds (user : AuthenticatedUser) (db db' : Database) (w : Worker) : Prop where
  canonical : ∃ u, Uuid.parse user.oid = some u ∧ w.entra_oid = u.toText
  rows : ∃ id, db'.mappings = db.mappings ++ [autoMapping id user w] ∧
    db'.history = db.history ++ [autoHistory id w]

variable {user : AuthenticatedUser} {answer : Except Exc (Dict Json)}
  {events : List (Event Op Op.Answer Exc)} {db db' : Database} {l l' : Session}

/-- `confirm` finds the caller exactly when D365 confirms them, and touches nothing. -/
theorem confirming_plays {x : Except Exc (Option Worker)} (h : Confirming user events x)
    (hplays : Prog.Plays (alone answer) events db l db' l') :
    db' = db ∧ l'.pending = l.pending ∧ ∀ w, x = .ok (some w) ↔
      ∃ c payload, db.configuration "identity" = some c ∧ answer = .ok payload ∧
        Vouches user c payload w := by
  -- only the last way to confirm has an answer and a usable configuration
  cases h with
  | refused h hr =>
    obtain ⟨rfl, rfl⟩ := hplays
    refine ⟨rfl, rfl, fun w => iff_of_false (hr w) ?_⟩
    rintro ⟨c, payload, -, -, hconfirms⟩
    exact h c payload w hconfirms
  | unconfigured h =>
    obtain ⟨rfl, l₁, hpending, rfl, rfl⟩ := configuration_plays hplays
    refine ⟨rfl, hpending, fun w => iff_of_false (fun h => by cases h) ?_⟩
    rintro ⟨c, payload, hc, -⟩
    exact h c (congrArg Except.ok hc)
  | unusable h =>
    obtain ⟨hc, l₁, hpending, rfl, rfl⟩ := configuration_plays hplays
    refine ⟨rfl, hpending, fun w => iff_of_false (fun h => by cases h) ?_⟩
    rintro ⟨c, payload, hc', -, hconfirms⟩
    obtain rfl := Option.some.inj ((Except.ok.inj hc).trans hc')
    exact h payload w hconfirms
  | unanswered =>
    obtain ⟨-, l₁, hpending, hrest⟩ := configuration_plays hplays
    obtain ⟨rfl, rfl, hpending'⟩ := getEntity_plays hrest
    refine ⟨rfl, hpending'.trans hpending, fun w => iff_of_false (fun h => by cases h) ?_⟩
    rintro ⟨c, payload, -, hanswer, -⟩
    cases hanswer
  | answered h =>
    obtain ⟨hc, l₁, hpending, hrest⟩ := configuration_plays hplays
    obtain ⟨rfl, rfl, hpending'⟩ := getEntity_plays hrest
    refine ⟨rfl, hpending'.trans hpending, fun w => ?_⟩
    rw [h w]
    constructor
    · intro hconfirms
      exact ⟨_, _, (Except.ok.inj hc).symm, rfl, hconfirms⟩
    · rintro ⟨c, payload, hc', hanswer, hconfirms⟩
      obtain rfl := Option.some.inj ((Except.ok.inj hc).trans hc')
      obtain rfl := Except.ok.inj hanswer
      exact hconfirms

/-- `settle` adds the mapping and its history when no row is in the way. -/
theorem settling_plays {w : Worker} {r : Except Exc (Option Mapping)}
    (h : Settling user w events r) (hplays : Prog.Plays (alone answer) events db l db' l')
    (hpending : l.pending = []) :
    ((∀ m ∈ db.mappings,
        ¬ (conflictRow w.entra_oid w.personnel_number w.company).holds m = true) ∧
      ∃ id, db'.toTables =
        db.insertAll [.mapping (autoMapping id user w), .history (autoHistory id w)]) ∨
    (¬ (∀ m ∈ db.mappings,
        ¬ (conflictRow w.entra_oid w.personnel_number w.company).holds m = true) ∧
      db' = db) := by
  cases h with
  | broken h => exact absurd h (not_broken hplays)
  | looked hrows =>
    obtain ⟨db₁, l₁, ⟨hsem, -⟩, rfl, rfl⟩ := hplays
    cases hsem with
    | selected hperm =>
      refine Or.inr ⟨fun hfree => hrows ?_, rfl⟩
      rw [List.filter_eq_nil_iff.mpr hfree] at hperm
      exact List.perm_nil.mp hperm
  | @inserted id =>
    -- the events in their order: the query, the id, the two `add`s, the commit
    obtain ⟨db₁, l₁, ⟨hsem, -⟩, hplays⟩ := hplays
    cases hsem with
    | selected hperm =>
    have hfree := List.filter_eq_nil_iff.mp (List.nil_perm.mp hperm)
    obtain ⟨db₁, l₁, ⟨hsem, -⟩, hplays⟩ := hplays
    cases hsem
    obtain ⟨db₁, l₁, ⟨hsem, -⟩, hplays⟩ := hplays
    cases hsem
    obtain ⟨db₁, l₁, ⟨hsem, -⟩, hplays⟩ := hplays
    cases hsem
    obtain ⟨db₁, l₁, ⟨hsem, -⟩, rfl, rfl⟩ := hplays
    cases hsem with
    | committed hcommit =>
      refine Or.inl ⟨hfree, id, ?_⟩
      rw [Database.commit_eq_some] at hcommit
      rw [hcommit]
      simp [hpending]

theorem autoMapping_injective {id id' : Uuid} {w w' : Worker}
    (h : autoMapping id user w = autoMapping id' user w') : w = w' := by
  obtain ⟨oid, upn, personnel_number, company⟩ := w
  obtain ⟨oid', upn', personnel_number', company'⟩ := w'
  simp only [autoMapping, Mapping.mk.injEq, Option.some.injEq] at h
  obtain ⟨-, rfl, rfl, -, rfl, rfl, -⟩ := h
  rfl

theorem not_adds_self {w : Worker} : ¬ Adds user db db w := by
  rintro ⟨-, id, hmappings, -⟩
  simp at hmappings

/-- **Written exactly when confirmed.** For every caller, every database, every identity
configuration and every answer of D365 or failure to answer: one mapping and one history
row are added exactly when D365 confirms the caller and no row is in the way; otherwise
the database is unchanged. -/
theorem provision_writes (user : AuthenticatedUser) (answer : Except Exc (Dict Json))
    {result : Except Exc (Option Mapping)} (hpending : l.pending = [])
    (hdistinct : ∀ c ∈ db.configurations, (c.field_mapping.map Prod.fst).Nodup)
    (hrun : (provision user).Run events result)
    (hplays : Prog.Plays (alone answer) events db l db' l') :
    (∀ w, Adds user db db' w ↔ Grounds user answer db w) ∧
      ((∀ w, ¬ Grounds user answer db w) → db' = db) := by
  rcases provision_run hrun (distinctFields_of_plays hdistinct hplays) with
    ⟨x, hconfirming, hnone⟩ | ⟨w, es, es', rfl, hconfirming, hsettling⟩
  · obtain ⟨rfl, -, hfound⟩ := confirming_plays hconfirming hplays
    refine ⟨fun w => iff_of_false not_adds_self fun hgrounds => ?_, fun _ => rfl⟩
    exact hnone w ((hfound w).mpr hgrounds.confirmed)
  obtain ⟨db₁, l₁, hplays₁, hplays₂⟩ := Prog.plays_append.mp hplays
  obtain ⟨rfl, hpending₁, hfound⟩ := confirming_plays hconfirming hplays₁
  have hconfirmed := (hfound w).mp rfl
  have hunique : ∀ w', Grounds user answer db₁ w' → w' = w := by
    intro w' hgrounds
    exact (Option.some.inj (Except.ok.inj ((hfound w').mpr hgrounds.confirmed))).symm
  rcases settling_plays hsettling hplays₂ (hpending₁.trans hpending) with
    ⟨hfree, id, hadded⟩ | ⟨htaken, rfl⟩
  · have hgrounds : Grounds user answer db₁ w := ⟨hconfirmed, free_iff.mp hfree⟩
    refine ⟨fun w' => ⟨fun hadds => ?_, fun hgrounds' => ?_⟩, fun hnone => ?_⟩
    · obtain ⟨id', hmappings, -⟩ := hadds.rows
      rw [hadded] at hmappings
      have hsame := List.singleton_inj.mp (List.append_cancel_left hmappings)
      obtain rfl := autoMapping_injective hsame
      exact hgrounds
    · obtain rfl := hunique w' hgrounds'
      refine ⟨?_, id, by rw [hadded]; rfl, by rw [hadded]; rfl⟩
      obtain ⟨c, payload, -, -, hconfirms⟩ := hconfirmed
      obtain ⟨record, -, hconfirmedBy⟩ := hconfirms.record
      obtain ⟨u, -, hu, -, -, htext⟩ := hconfirmedBy.entra_oid
      exact ⟨u, hu, htext⟩
    · exact absurd hgrounds (hnone w)
  · refine ⟨fun w' => iff_of_false not_adds_self fun hgrounds => ?_, fun _ => rfl⟩
    obtain rfl := hunique w' hgrounds
    exact htaken (free_iff.mpr hgrounds.free)

/-! ## What is stored -/

def isTextOrNumber : Json → Bool
  | .int _ | .float _ | .str _ => true
  | _ => false

/-- A value of the record under this field, a text or a number, is stored as its text
without the blanks around it. -/
def StoredFrom (c : EntityMapping) (record : Dict Json) (key stored : String) : Prop :=
  ∃ value, Holds c record key value ∧ isTextOrNumber value = true ∧ stored = strip value.text

/-- The mapping that was added stores the confirmed record's data. -/
def BuiltFromData (events : List (Event Op Op.Answer Exc)) : Prop :=
  ∃ c ∈ loadedIn events, ∃ payload ∈ answeredIn events, ∃ m ∈ addedIn events, ∃ record company,
    payload.get? "value" = some (.arr [.obj record]) ∧
    StoredFrom c record "personnelNumber" m.d365_personnel_number ∧
    m.d365_company = some company ∧ StoredFrom c record "company" company

/-- What the answered record has as personnel number and company is a text or a number. -/
def TypedData (events : List (Event Op Op.Answer Exc)) : Prop :=
  ∀ c ∈ loadedIn events, ∀ payload ∈ answeredIn events, ∀ record key value,
    payload.get? "value" = some (.arr [.obj record]) → key ∈ ["personnelNumber", "company"] →
    Holds c record key value → isTextOrNumber value = true

/-- **What a mapping is built from.** In every run of `provision` that creates a mapping,
whatever the others do: it is built from the record's data exactly when that record's
personnel number and company are texts or numbers. -/
theorem provision_built_iff {result : Except Exc (Option Mapping)}
    (hdistinct : DistinctFields events) (hrun : (provision user).Run events result)
    (hcreated : commitEvent ∈ events) : BuiltFromData events ↔ TypedData events := by
  rcases provision_run hrun hdistinct with ⟨x, hconfirming, -⟩ |
    ⟨w, es, es', rfl, hconfirming, hsettling⟩
  · exact absurd hcreated hconfirming.not_committed
  have hlater : commitEvent ∈ es' :=
    (List.mem_append.mp hcreated).resolve_left hconfirming.not_committed
  cases hsettling with
  | looked h => simp [commitEvent, conflictQuery] at hlater
  | broken h hcommit => exact absurd hlater hcommit
  | @inserted id =>
  cases hconfirming with
  | refused h hr => exact absurd rfl (hr w)
  | @answered c params payload r h =>
  -- a row was committed, so one record was read and it names the caller
  have hvouches := (h w).mp rfl
  obtain ⟨record, hvalue, hconfirmed⟩ := hvouches.record
  obtain ⟨number, hnumber, hnumber_eq⟩ := hconfirmed.personnel_number
  obtain ⟨company, hcompany, hcompany_eq⟩ := hconfirmed.company
  constructor
  · rintro ⟨c', hc, payload', hpayload, m, -, record', company', hvalue', hpersonnel, -, hcompany'⟩
    obtain rfl := List.mem_singleton.mp hc
    obtain rfl := List.mem_singleton.mp hpayload
    intro c₁ hc₁ payload₁ hpayload₁ record₁ key value hvalue₁ hkey hholds
    obtain rfl := List.mem_singleton.mp hc₁
    obtain rfl := List.mem_singleton.mp hpayload₁
    obtain rfl : record' = record₁ := by
      rw [hvalue'] at hvalue₁
      simpa using hvalue₁
    have hstored : ∀ {key stored}, StoredFrom c₁ record' key stored → Holds c₁ record' key value →
        isTextOrNumber value = true := by
      rintro key stored ⟨value', hholds', htyped, -⟩ hholds
      rwa [hholds.unique hholds']
    rcases List.mem_pair.mp hkey with rfl | rfl
    · exact hstored hpersonnel hholds
    · exact hstored hcompany' hholds
  · intro htyped
    have hmem : ∀ {key value}, key ∈ ["personnelNumber", "company"] → Holds c record key value →
        isTextOrNumber value = true := fun hkey hholds =>
      htyped c List.mem_cons_self payload List.mem_cons_self record _ _ hvalue hkey hholds
    refine ⟨c, List.mem_cons_self, payload, List.mem_cons_self, autoMapping id user w,
      List.mem_cons_self, record, w.company, hvalue, ?_, rfl, ?_⟩
    · exact ⟨number, hnumber, hmem (by decide) hnumber, hnumber_eq⟩
    · exact ⟨company, hcompany, hmem (by decide) hcompany, hcompany_eq⟩

end Writes

/-! ### A confirmed caller -/

section Example

open scoped Ascii

def workerAnswer (personnel_number : Json) : Dict Json :=
  [("value", .arr [.obj [("Oid", .str exampleUser.oid), ("Upn", .str "Ada@example.org"),
    ("PersonnelNumber", personnel_number), ("DataArea", .str " usmf ")]])]

/-- What happens to an operation when D365 gives this answer and nothing fails. -/
def aloneCue (payload : Dict Json) : Op → Hint
  | .getEntity _ _ => .payload payload
  | .uuid4 => .uuid firstId
  | _ => .go

def aloneAct (payload : Dict Json) (o : Op) (db : Database) (l : Session) (_ : Unit) :
    Option (Except Exc o.Answer × Database × Session) :=
  (o.play db l (aloneCue payload o)).filter fun x => x.1.isOk

theorem aloneAct_sem {payload : Dict Json} {o : Op} {db db' : Database} {l l' : Session}
    {cue : Unit} {r : Except Exc o.Answer} (h : aloneAct payload o db l cue = some (r, db', l')) :
    alone (.ok payload) o db l r db' l' := by
  obtain ⟨hplay, hok⟩ := Option.filter_eq_some_iff.mp h
  have hreturned : ∃ a, r = .ok a := by
    cases r with
    | ok a => exact ⟨a, rfl⟩
    | error e => cases hok
  refine ⟨Op.play_sem hplay, ?_⟩
  cases o with
  | getEntity entity params =>
    obtain ⟨heq, -⟩ := Prod.mk.inj (Option.some.inj hplay)
    exact heq.symm
  | _ => exact hreturned

theorem play_alone {payload : Dict Json} {p : Coroutine (Option Mapping)} {cues : List Unit}
    {db db' : Database} {l l' : Session} {events : List (Event Op Op.Answer Exc)}
    {result : Except Exc (Option Mapping)}
    (h : Prog.play (aloneAct payload) p cues db l = some (events, result, db', l')) :
    p.Run events result ∧ Prog.Plays (alone (.ok payload)) events db l db' l' := by
  have hact : ∀ (o : Op) db l cue r db' l', aloneAct payload o db l cue = some (r, db', l') →
      alone (.ok payload) o db l r db' l' := fun _ _ _ _ _ _ _ h => aloneAct_sem h
  exact Prog.play_run hact h

/-- The run of `exampleUser` on a record with this personnel number. -/
def workerPlay (personnel_number : Json) :
    Option (List (Event Op Op.Answer Exc) × Except Exc (Option Mapping) × Database × Session) :=
  Prog.play (aloneAct (workerAnswer personnel_number)) (provision exampleUser)
    [(), (), (), (), (), (), ()] exampleDatabase {}

theorem exampleDatabase_distinct :
    ∀ c ∈ exampleDatabase.configurations, (c.field_mapping.map Prod.fst).Nodup := by
  decide +kernel

/-- The caller of `exampleUser`, as the record describes them. -/
def exampleWorker : Worker := ⟨exampleUser.oid, "ada@example.org", "000123", "usmf"⟩

theorem exampleUser_grounds : Grounds exampleUser (.ok (workerAnswer (.str "000123")))
    exampleDatabase exampleWorker where
  confirmed := by
    refine ⟨_, _, rfl, rfl, ⟨by decide, by decide, ⟨by decide, ?_⟩, _, rfl, ?_⟩⟩
    · intro key hkey
      simp only [requiredIdentityFields, List.mem_cons, List.not_mem_nil, or_false] at hkey
      rcases hkey with rfl | rfl | rfl | rfl <;> exact ⟨_, rfl, by decide⟩
    · refine ⟨⟨exampleUuid, _, by decide +kernel, ⟨"Oid", rfl, rfl⟩, by decide +kernel,
          by decide +kernel⟩, ⟨_, ⟨"Upn", rfl, rfl⟩, by decide +kernel, by decide +kernel⟩,
        ⟨_, ⟨"PersonnelNumber", rfl, rfl⟩, by decide +kernel⟩,
        ⟨_, ⟨"DataArea", rfl, rfl⟩, by decide +kernel⟩, by decide, by decide⟩
  free := fun _ hm => absurd hm List.not_mem_nil

theorem exampleUser_play : (workerPlay (.str "000123")).isSome = true := by
  decide +kernel

/-- The record is padded and capitalised, and the database empty: the mapping is added. -/
theorem provision_writes_example : ∃ events result db' l',
    (provision exampleUser).Run events result ∧
    Prog.Plays (alone (.ok (workerAnswer (.str "000123")))) events exampleDatabase {} db' l' ∧
    Adds exampleUser exampleDatabase db' exampleWorker := by
  obtain ⟨⟨events, result, db', l'⟩, hplay⟩ := Option.isSome_iff_exists.mp exampleUser_play
  obtain ⟨hrun, hplays⟩ := play_alone hplay
  refine ⟨events, result, db', l', hrun, hplays, ?_⟩
  have hgrounds := exampleUser_grounds
  -- nothing below looks into the caller
  generalize exampleUser = user at hrun hgrounds ⊢
  obtain ⟨hadds, -⟩ := provision_writes user _ rfl exampleDatabase_distinct hrun hplays
  exact (hadds exampleWorker).mpr hgrounds

/-! ### What `str` makes of a null -/

def isCommit : Event Op Op.Answer Exc → Bool
  | ⟨.commit, .ok _⟩ => true
  | _ => false

theorem eq_of_isCommit {event : Event Op Op.Answer Exc} (h : isCommit event = true) :
    event = commitEvent := by
  unfold isCommit at h
  split at h
  · rfl
  · cases h

/-- The configurations a run loads, by the columns that matter. -/
def ColumnsLoaded (events : List (Event Op Op.Answer Exc)) : Prop :=
  ∀ c ∈ loadedIn events, column c "personnelNumber" = some "PersonnelNumber" ∧
    column c "company" = some "DataArea"

instance (events : List (Event Op Op.Answer Exc)) : Decidable (ColumnsLoaded events) :=
  inferInstanceAs (Decidable (∀ c ∈ loadedIn events, _))

theorem workerPlay_spec {personnel_number : Json}
    (h : (workerPlay personnel_number).any (fun x =>
      x.1.any isCommit && ColumnsLoaded x.1) = true) :
    ∃ events result, (provision exampleUser).Run events result ∧ DistinctFields events ∧
      commitEvent ∈ events ∧ ColumnsLoaded events ∧
      ∀ payload ∈ answeredIn events, payload = workerAnswer personnel_number := by
  obtain ⟨⟨events, result, db', l'⟩, hplay, hevents⟩ := (Option.any_eq_true _ _).mp h
  obtain ⟨hcommit, hcolumns⟩ := Bool.and_eq_true_iff.mp hevents
  obtain ⟨event, hevent, hisCommit⟩ := List.any_eq_true.mp hcommit
  obtain rfl := eq_of_isCommit hisCommit
  obtain ⟨hrun, hplays⟩ := play_alone hplay
  refine ⟨events, result, hrun, distinctFields_of_plays exampleDatabase_distinct hplays, hevent,
    of_decide_eq_true hcolumns, fun payload hpayload => ?_⟩
  obtain ⟨entity, params, hmem⟩ := mem_answeredIn hpayload
  have hgiven := Prog.answer_of_plays
    (p := Given (.ok (workerAnswer personnel_number)))
    (fun _ _ _ _ _ _ _ h => ⟨h.2, trivial⟩) trivial hplays _ hmem
  exact Except.ok.inj hgiven

theorem null_play : (workerPlay .null).any (fun x =>
    x.1.any isCommit && ColumnsLoaded x.1) = true := by
  decide +kernel

/-- The record's personnel number is null: the mapping is created all the same. -/
theorem provision_null : ∃ events result, (provision exampleUser).Run events result ∧
    DistinctFields events ∧ commitEvent ∈ events ∧ ¬ BuiltFromData events := by
  obtain ⟨events, result, hrun, hdistinct, hcreated, hcolumns, hanswered⟩ :=
    workerPlay_spec null_play
  refine ⟨events, result, hrun, hdistinct, hcreated, ?_⟩
  rintro ⟨c, hc, payload, hpayload, m, -, record, company, hvalue, hstored, -⟩
  obtain rfl := hanswered payload hpayload
  obtain ⟨value, ⟨field, hfield, hget⟩, htyped, -⟩ := hstored
  rw [(hcolumns c hc).1] at hfield
  obtain rfl := Option.some.inj hfield
  cases hvalue
  cases hget
  cases htyped

theorem text_play : (workerPlay (.str "000123")).any (fun x =>
    x.1.any isCommit && ColumnsLoaded x.1) = true := by
  decide +kernel

/-- A record of texts: the mapping is built from it. -/
theorem provision_built_text : ∃ events result, (provision exampleUser).Run events result ∧
    commitEvent ∈ events ∧ BuiltFromData events := by
  obtain ⟨events, result, hrun, hdistinct, hcreated, hcolumns, hanswered⟩ :=
    workerPlay_spec text_play
  refine ⟨events, result, hrun, hcreated, (provision_built_iff hdistinct hrun hcreated).mpr ?_⟩
  rintro c hc payload hpayload record key value hvalue hkey ⟨field, hfield, hget⟩
  obtain rfl := hanswered payload hpayload
  cases hvalue
  rcases List.mem_pair.mp hkey with rfl | rfl
  · rw [(hcolumns c hc).1] at hfield
    cases hfield
    cases hget
    rfl
  · rw [(hcolumns c hc).2] at hfield
    cases hfield
    cases hget
    rfl

end Example

end EmployeePortal
