import EmployeePortal.Portal.History

/-!
# Revocation is sticky

Both writers store `str(uuid.UUID(..))`, so every stored oid is the one text of
its UUID (`Canonical`) and the unique constraint leaves room for one row a UUID.
While that row is disabled or unverified, a call that would return a mapping for
the UUID would have to return this row, and none returns a row that is not
enabled and verified.
-/

namespace EmployeePortal

open EmployeePortal.Python EmployeePortal.Framework EmployeePortal.Employees
  EmployeePortal.Tools

/-- Every stored oid is the text of a UUID. -/
def Canonical (db : Database) : Prop :=
  ∀ m ∈ db.mappings, ∀ text, m.entra_oid = some text → ∃ u : Uuid, text = u.toText

/-- The row of `u` is disabled or unverified. -/
def Revoked (u : Uuid) (db : Database) : Prop :=
  ∃ m ∈ db.mappings, m.entra_oid = some u.toText ∧ (m.enabled = false ∨ m.verified = false)

theorem canonical_empty (configurations : List EntityMapping)
    (h : (configurations.map EntityMapping.mapping_key).Nodup) :
    Canonical (.empty configurations h) := fun _ hm => by cases hm

instance (u : Uuid) : DecidablePred (Revoked u) :=
  fun db => inferInstanceAs (Decidable (∃ m ∈ db.mappings, _ ∧ _))

theorem Canonical.insert {db db' : Database} (h : Canonical db) {m : Mapping} {hist : History}
    {u : Uuid} (hm : m.entra_oid = some u.toText)
    (htables : db'.toTables = db.insertAll [.mapping m, .history hist]) : Canonical db' := by
  intro x hx text htext
  rw [htables] at hx
  rcases List.mem_append.mp hx with hx | hx
  · exact h x hx text htext
  · obtain rfl := List.mem_singleton.mp hx
    exact ⟨u, Option.some.inj (htext.symm.trans hm)⟩

theorem Canonical.event {db db' : Database} (h : Canonical db) {e : AuditEvent}
    (htables : db'.toTables = db.insertAll [.event e]) : Canonical db' := by
  unfold Canonical
  rw [htables]
  exact h

theorem AdminStep.canonical {db db' : Database} (h : AdminStep db db') (hdb : Canonical db) :
    Canonical db' := by
  cases h with
  | setFlags id verified enabled =>
    intro x hx text htext
    obtain ⟨m, hm, rfl⟩ := List.mem_map.mp hx
    refine hdb m hm text ?_
    split at htext <;> exact htext
  | configure h =>
    unfold Canonical
    rw [h]
    exact hdb

section Revocation

variable [UnicodeData]

/-- The text denotes the UUID, in whatever spelling. -/
def Denotes (oid : String) (u : Uuid) : Prop := Uuid.parse oid = some u

instance (oid : String) (u : Uuid) : Decidable (Denotes oid u) :=
  inferInstanceAs (Decidable (Uuid.parse oid = some u))

theorem commits_canonical : Commits (.anyone Canonical) Sem where
  auto _ hoid _ _ h _ _ hpending htables _ :=
    ⟨h.insert (by rw [autoMapping, hoid]) (hpending ▸ htables), trivial⟩
  manual _ _ _ h _ _ hpending htables _ := ⟨h.insert rfl (hpending ▸ htables), trivial⟩
  event h hpending htables _ := ⟨h.event (hpending ▸ htables), trivial⟩

theorem canonical_of_reaches {db : Database} {P : Portal.Pool} (hdb : Canonical db)
    (h : portal.Reaches ⟨db, []⟩ P) : Canonical P.store :=
  inv_of_reaches (S := portal) rfl rfl (fun _ => ⟨id, fun _ => trivial, id⟩)
    (fun _ => commits_canonical) (fun _ _ hs henv => henv.canonical hs) h hdb

/-- The row of a caller whose oid denotes `u` is the row of `u`. -/
theorem Owns.entra_oid {db : Database} (hdb : Canonical db) {m : Mapping} (hm : m ∈ db.mappings)
    {oid : String} {u : Uuid} (hu : Denotes oid u) (howns : Owns oid m) :
    m.entra_oid = some u.toText := by
  obtain ⟨text, htext, hparse⟩ : ∃ text, m.entra_oid = some text ∧ Denotes text u := by
    rcases howns with howns | ⟨v, text, hv, htext, hparse⟩
    · exact ⟨oid, howns, hu⟩
    · exact ⟨text, htext, hparse.trans (hv.symm.trans hu)⟩
  obtain ⟨v, rfl⟩ := hdb m hm text htext
  have hvu : some v = some u := (Uuid.parse_toText v).symm.trans hparse
  rw [htext, Option.some.inj hvu]

/-- A revoked row is granted to nobody. -/
theorem not_granted_of_revoked {u : Uuid} {oid : String} {l : Session} {m : Mapping}
    (hu : Denotes oid u)
    (h : Granted (.anyone fun s => Revoked u s ∧ Canonical s) l m) : ¬ Owns oid m := by
  intro howns
  obtain ⟨s, ⟨⟨m', hm', hoid', hinactive⟩, hcanonical⟩, hm⟩ := h.stored
  have hoid := howns.entra_oid hcanonical hm hu
  obtain rfl := s.schema.eq_of_oid hm hm' hoid hoid'
  rcases hinactive with hinactive | hinactive
  · rw [h.enabled] at hinactive
    cases hinactive
  · rw [h.verified] at hinactive
    cases hinactive

theorem conforms_within (p : Database → Prop) (c : Call) :
    Conforms (.anyone p) ((portal.within p).sem c) := ⟨fun hsem => hsem.1, fun _ => trivial, id⟩

/-- Within a period the contract of the period is kept for nothing. -/
theorem commits_within (p : Database → Prop) (c : Call) :
    Commits (.anyone p) ((portal.within p).sem c) where
  auto _ _ _ _ _ _ _ _ _ hsem := ⟨hsem.2, trivial⟩
  manual _ _ _ _ _ _ _ _ hsem := ⟨hsem.2, trivial⟩
  event _ _ _ hsem := ⟨hsem.2, trivial⟩

/-- The oid a call asks for, for the calls that return a mapping. -/
def Call.mappingOid : Call → Option String
  | .findVerified entra_oid => some entra_oid
  | .provision user => some user.oid
  | .resolveIdentity _ user _ => some user.oid
  | _ => none

theorem Outcome.granted {K : Contract Database} {c : Call} {m : Mapping} {l : Session}
    {oid : String} (h : Outcome K c (.mapping (some m)) l) (hc : c.mappingOid = some oid) :
    Granted K l m ∧ Owns oid m := by
  cases c <;> cases hc <;> exact h

/-- **Revocation is sticky.** In a run from a table that is canonical, as an empty
one is: from a state in which the row of `u` is disabled or unverified, as long as it
stays so, no call started since then returns a mapping to a caller whose oid
denotes `u`, and the table has no row for `u` but the revoked one. -/
theorem revocation_sticky {db : Database} (hdb : Canonical db) {u : Uuid}
    {P₀ P : Portal.Pool} (h₀ : portal.Reaches ⟨db, []⟩ P₀)
    (hrevoked : Revoked u P₀.store) (h : (portal.within (Revoked u)).Reaches P₀ P) :
    (∀ (i : ℕ) (t : Portal.Thread) (oid : String) (m : Mapping), P₀.threads.length ≤ i →
      P.threads[i]? = some t → t.call.mappingOid = some oid → Denotes oid u →
      ¬ t.Returned (.mapping (some m))) ∧
    ∃ m ∈ P.store.mappings, (m.enabled = false ∨ m.verified = false) ∧
      ∀ m' ∈ P.store.mappings, (∃ text, m'.entra_oid = some text ∧ Denotes text u) → m' = m := by
  let period : Database → Prop := fun s => Revoked u s ∧ Canonical s
  obtain ⟨hperiod, hreaches, hrevoked'⟩ := System.within_and (q := Canonical) h hrevoked
    fun Q hQ => canonical_of_reaches hdb (h₀.trans hQ)
  have hcanonical : Canonical P.store := canonical_of_reaches hdb (h₀.trans hreaches)
  constructor
  · -- the calls that were running already may do what they like within the period
    let post : ℕ → Call → Post Exc Reply Database Session := fun i c r _ l =>
      P₀.threads.length ≤ i → ∀ reply, r = .ok reply → Outcome (.anyone period) c reply l
    have hP₀ : Pool.Safe (.anyone period) (portal.within period) post P₀ := by
      refine ⟨⟨hrevoked, canonical_of_reaches hdb h₀⟩, fun i t ht hcut => ?_⟩
      have hi := (List.getElem?_eq_some_iff.mp ht).1
      refine (Safe.trivial id (fun o s l r s' l' _ hsem => ⟨hsem.2, trivial⟩) t.prog _ _).mono
        fun _ _ _ _ hle => absurd hi (Nat.not_lt.mpr hle)
    have hP := System.safe_of_reaches (S := portal.within period) (Q := post) (fun _ _ h => h)
      (fun _ _ _ _ _ _ h _ _ => h)
      (fun _ _ _ henv => ⟨henv.2, trivial⟩)
      (fun i c s _ _ => (body_safe (conforms_within period c) (commits_within period c) c s).mono
        fun _ _ _ houtcome _ => houtcome)
      hperiod hP₀
    intro i t oid m hi ht hoid hu hret
    have houtcome := System.post_of_returned hP ht hret hi _ rfl
    obtain ⟨hgranted, howns⟩ := Outcome.granted houtcome hoid
    exact not_granted_of_revoked hu hgranted howns
  · obtain ⟨m, hm, hoid, hinactive⟩ := hrevoked'
    refine ⟨m, hm, hinactive, fun m' hm' ⟨text, htext, hu⟩ => ?_⟩
    have hoid' := Owns.entra_oid hcanonical hm' hu (Or.inl htext)
    exact P.store.schema.eq_of_oid hm' hm hoid' hoid

end Revocation

section Example

open scoped Ascii

/-- The same oid in capitals. -/
def exampleUserInCapitals : AuthenticatedUser :=
  { exampleUser with oid := "00000000-0000-0000-0000-00000000000A" }

/-- The only mapping is disabled by an administrator. -/
def disable (P : Portal.Pool) : Portal.Pool :=
  { P with store := P.store.setFlags firstId true false }

/-- After the row was disabled, a second sign-in: D365 still confirms the user, and the
conflict query meets the row. -/
def signInDisabled (P : Portal.Pool) : Option Portal.Pool :=
  Portal.runLater (Revoked exampleUuid) (.provision exampleUserInCapitals)
    [.run 1 .go, .run 1 (exampleAnswer exampleUser.oid "000123" "usmf"), .run 1 .go] (disable P)

/-- A first sign-in, and after the row was disabled a second one: D365 still
confirms the user, but the disabled row is in the way. -/
theorem revocation_sticky_disabled :
    ∃ (P₀ P : Portal.Pool) (t : Portal.Thread), Revoked exampleUuid P₀.store ∧
      (portal.within (Revoked exampleUuid)).Reaches P₀ P ∧ P.threads[1]? = some t ∧
      t.Finished ∧ ∀ m, ¬ t.Returned (.mapping (some m)) := by
  obtain ⟨P₁, h₁, hcheck⟩ := Portal.exists_pool ⟨exampleDatabase, []⟩
    (.spawn (.myProfile {} exampleUser) :: exampleCues)
    (fun P => decide (Revoked exampleUuid (disable P).store) && P.threads.length = 1 &&
      (signInDisabled P).any fun P => P.Quiet) (by decide +kernel)
  simp only [Bool.and_eq_true, decide_eq_true_eq] at hcheck
  obtain ⟨⟨hrevoked, hlength⟩, hplay⟩ := hcheck
  obtain ⟨P, hP, hquiet⟩ := (Option.any_eq_true _ _).mp hplay
  obtain ⟨h, t, ht, hcall⟩ := Portal.runLater_reaches hP
  have hlength' : (disable P₁).threads.length = 1 := hlength
  have h₀ : portal.Reaches ⟨exampleDatabase, []⟩ (disable P₁) :=
    h₁.tail ⟨.env, .env (.setFlags firstId true false)⟩
  rw [hlength'] at ht
  refine ⟨disable P₁, P, t, hrevoked, h, ht,
    of_decide_eq_true hquiet t (List.mem_of_getElem? ht), fun m => ?_⟩
  exact (revocation_sticky (canonical_empty _ _) h₀ hrevoked h).1 1 t _ m
    (le_of_eq hlength') ht (by rw [hcall]; rfl) (by decide +kernel)

end Example

end EmployeePortal
