import EmployeePortal.Portal.Revocation

/-!
# Resolving an identity again

`find_verified` looks for the text of the token's oid, `provision` stores the canonical
text of the UUID. A row that carries the token's text is found again by every later call,
with one select and nothing else; any other row is not, and the call goes on to D365.
-/

namespace EmployeePortal

open EmployeePortal.Python EmployeePortal.Framework EmployeePortal.Employees
  EmployeePortal.Tools EmployeePortal.Audit EmployeePortal.D365

/-! ## One select -/

/-- An active row is all that `find_verified` finds under its oid. -/
theorem filter_verifiedRow {s : Database} {m : Mapping} {oid : String} (hm : m ∈ s.mappings)
    (hoid : m.entra_oid = some oid) (henabled : m.enabled = true) (hverified : m.verified = true) :
    s.mappings.filter (verifiedRow oid).holds = [m] := by
  have hmem : m ∈ s.mappings.filter (verifiedRow oid).holds :=
    List.mem_filter.mpr ⟨hm, verifiedRow_holds.mpr ⟨hoid, henabled, hverified⟩⟩
  have hunique : ∀ m' ∈ s.mappings.filter (verifiedRow oid).holds, m' = m := by
    intro m' hm'
    obtain ⟨hstored, hholds⟩ := List.mem_filter.mp hm'
    exact s.schema.eq_of_oid hstored hm (verifiedRow_holds.mp hholds).1 hoid
  have hnodup : (s.mappings.filter (verifiedRow oid).holds).Nodup :=
    (List.Nodup.of_map _ s.schema.id_unique).filter _
  generalize s.mappings.filter (verifiedRow oid).holds = rows at hmem hunique hnodup
  match rows with
  | [] => cases hmem
  | [m'] => rw [hunique m' List.mem_cons_self]
  | m₁ :: m₂ :: rows =>
    have hsame : m₁ = m₂ := (hunique m₁ List.mem_cons_self).trans
      (hunique m₂ (List.mem_cons_of_mem _ List.mem_cons_self)).symm
    exact absurd (hsame ▸ List.mem_cons_self) (List.nodup_cons.mp hnodup).1

section Idempotence

variable [UnicodeData]

/-- `resolve_identity` starts with the select of `find_verified`, and ends with it where
it finds a row or fails. -/
theorem body_resolveIdentity (request : Request) (user : AuthenticatedUser) (required : Bool) :
    ∃ k, Call.body (.resolveIdentity request user required) =
        .op (.scalars (verifiedRow user.oid)) k ∧
      (∀ m, k (.ok [m]) = .ret (.mapping (some m))) ∧ ∀ e, k (.error e) = .raise e :=
  ⟨_, rfl, fun _ => rfl, fun _ => rfl⟩

/-- The call selected the row and returned it, is about to, or failed to. It did not ask
D365 and it added nothing. -/
inductive LooksUp (m : Mapping) (t : Portal.Thread) : Prop where
  | waiting (hprog : t.prog = t.call.body) (hsess : t.sess = {})
  | found (hprog : t.prog = .ret (.mapping (some m))) (s : Database)
      (hsess : t.sess = ({} : Session).select s [m])
  | failed (hprog : t.prog = .raise .databaseError) (hsess : t.sess = {})

/-- One operation of a call that looks up an active row of its caller's oid. -/
theorem LooksUp.step {m : Mapping} {t : Portal.Thread} {request : Request}
    {user : AuthenticatedUser} {required : Bool} {o : Op}
    {k : Except Exc o.Answer → Coroutine Reply} {s s' : Database} {l' : Session}
    {r : Except Exc o.Answer} (h : LooksUp m t)
    (hcall : t.call = .resolveIdentity request user required) (hm : m ∈ s.mappings)
    (hoid : m.entra_oid = some user.oid) (henabled : m.enabled = true)
    (hverified : m.verified = true) (hop : t.prog = .op o k) (hsem : Sem o s t.sess r s' l') :
    LooksUp m { t with sess := l', prog := k r } := by
  cases h with
  | found hprog s₀ hsess =>
    rw [hprog] at hop
    cases hop
  | failed hprog hsess =>
    rw [hprog] at hop
    cases hop
  | waiting hprog hsess =>
    obtain ⟨k₀, hbody, hone, hfail⟩ := body_resolveIdentity request user required
    rw [hprog, hcall, hbody] at hop
    cases hop
    rw [hsess] at hsem
    cases hsem with
    | selected hperm =>
      rw [filter_verifiedRow hm hoid henabled hverified] at hperm
      obtain rfl := List.perm_singleton.mp hperm
      exact .found (hone m) s rfl
    | selectFailed => exact .failed (hfail _) rfl

/-! ## Later calls -/

/-- From the pool `P` on, as long as nobody changes the row: every `resolve_identity` started
later for a user with this oid looks up the row, and does nothing else. -/
def ResolvedAgain (P : Portal.Pool) (oid : String) (m : Mapping) : Prop :=
  ∀ P', (portal.within fun s => m ∈ s.mappings).Reaches P P' →
    ∀ i t, P.threads.length ≤ i → P'.threads[i]? = some t →
      ∀ request user required, t.call = .resolveIdentity request user required →
        user.oid = oid → LooksUp m t

theorem resolvedAgain_of_text {P : Portal.Pool} {oid : String} {m : Mapping}
    (hm : m ∈ P.store.mappings) (hoid : m.entra_oid = some oid) (henabled : m.enabled = true)
    (hverified : m.verified = true) : ResolvedAgain P oid m := by
  intro P' h i t hle ht request user required hcall huser
  let T : ℕ → Portal.Thread → Prop := fun i t => P.threads.length ≤ i →
    ∀ request user required, t.call = .resolveIdentity request user required →
      user.oid = oid → LooksUp m t
  have hrun : ∀ (i : ℕ) (t : Portal.Thread) (o : Op) (k : Except Exc o.Answer → Coroutine Reply)
      (s : Database) (r : Except Exc o.Answer) (s' : Database) (l' : Session), m ∈ s.mappings →
      T i t → t.cut = false → t.prog = .op o k → Sem o s t.sess r s' l' ∧ m ∈ s'.mappings →
      m ∈ s'.mappings ∧ T i { t with sess := l', prog := k r } := by
    rintro i t o k s r s' l' hs ht - hop ⟨hsem, hs'⟩
    refine ⟨hs', fun hle request user required hcall huser => ?_⟩
    have hlooks := ht hle request user required hcall huser
    exact hlooks.step hcall hs (huser ▸ hoid) henabled hverified hop hsem
  have hcut : ∀ (i : ℕ) (t : Portal.Thread), T i t → T i { t with cut := true } := by
    intro i t ht hle request user required hcall huser
    cases ht hle request user required hcall huser with
    | waiting hprog hsess => exact .waiting hprog hsess
    | found hprog s hsess => exact .found hprog s hsess
    | failed hprog hsess => exact .failed hprog hsess
  have hbefore : ∀ (i : ℕ) (t : Portal.Thread), P.threads[i]? = some t → T i t := by
    intro i t ht hle
    exact absurd (List.getElem?_eq_some_iff.mp ht).1 (Nat.not_lt.mpr hle)
  have hthreads := System.thread_of_reaches (S := portal.within fun s => m ∈ s.mappings) _ T
    (fun _ _ _ _ _ _ _ _ _ => .waiting rfl rfl) hrun hcut (fun _ _ _ henv => henv.2) h hm hbefore
  exact hthreads.2 i t ht hle request user required hcall huser

/-- The first select of a later call does not find a row of another text. -/
theorem text_of_resolvedAgain {P : Portal.Pool} {m : Mapping} (hm : m ∈ P.store.mappings)
    {user : AuthenticatedUser} (h : ResolvedAgain P user.oid m) :
    m.entra_oid = some user.oid := by
  obtain ⟨s, ts⟩ := P
  obtain ⟨k, hbody, -⟩ := body_resolveIdentity {} user true
  let c : Call := .resolveIdentity {} user true
  let rows := s.mappings.filter (verifiedRow user.oid).holds
  have hstart : (ts ++ [⟨c, {}, c.body, false⟩])[ts.length]? = some ⟨c, {}, c.body, false⟩ := by
    simp
  have hreaches : (portal.within fun s => m ∈ s.mappings).Reaches ⟨s, ts⟩ _ :=
    .tail (.single ⟨.spawn c, .spawn c trivial⟩)
      ⟨.run ts.length, .run hstart rfl hbody ⟨.selected (List.Perm.refl rows), hm⟩⟩
  have hlooks := h _ hreaches ts.length _ (Nat.le_refl _)
    (List.getElem?_set_self (List.getElem?_eq_some_iff.mp hstart).1) {} user true rfl rfl
  have hseen : s.mappings ≠ [] := List.ne_nil_of_mem hm
  cases hlooks with
  | waiting hprog hsess => exact absurd (congrArg Session.seen hsess) hseen
  | failed hprog hsess => exact absurd (congrArg Session.seen hsess) hseen
  | found hprog s₀ hsess =>
    have hrows : rows = [m] := congrArg Session.read hsess
    have hmem : m ∈ rows := hrows ▸ List.mem_singleton_self m
    exact (verifiedRow_holds.mp (List.mem_filter.mp hmem).2).1

/-! ## The row of the first call -/

/-- The row was found under the token's text, or under the text of the UUID it denotes. -/
def FoundUnder (oid : String) (m : Mapping) : Prop :=
  m.entra_oid = some oid ∨ ∃ u, Denotes oid u ∧ m.entra_oid = some u.toText

theorem provision_foundUnder {sem : OpSem Op Op.Answer Exc Database Session}
    (hK : Conforms unconstrained sem) (user : AuthenticatedUser) {s : Database} {l : Session}
    (hl : l.pending = []) :
    Safe unconstrained sem (provision user)
      (fun r _ l' => l'.pending = [] ∧ ∀ m, r = .ok (some m) → FoundUnder user.oid m) s l := by
  refine provision_safe hK user ?_
    (fun _ _ hidle => ⟨hidle.pending.trans hl, fun _ h => by cases h⟩)
    fun _ _ _ hidle => ⟨hidle.pending.trans hl, fun _ h => by cases h⟩
  intro s₁ l₁ w u hidle hu hoid
  have hl₁ : l₁.pending = [] := hidle.pending.trans hl
  refine settle_safe hK user w hl₁ ?_ ?_ fun _ _ _ hpending _ => ⟨hpending, fun _ h => by cases h⟩
  · intro s₂ seen m _ _ hsame _
    refine ⟨hl₁, fun m' h => ?_⟩
    obtain rfl := Option.some.inj (Except.ok.inj h)
    exact Or.inr ⟨u, hu, hoid ▸ (isSameMapping_iff.mp hsame).1⟩
  · rintro s₂ s₃ s₄ id l₂ l₃ - - - - - rfl - -
    refine ⟨trivial, trivial, hl₁, fun m h => ?_⟩
    obtain rfl := Option.some.inj (Except.ok.inj h)
    exact Or.inr ⟨u, hu, congrArg some hoid⟩

theorem resolveIdentity_foundUnder {sem : OpSem Op Op.Answer Exc Database Session}
    (hK : Conforms unconstrained sem) (request : Request) (user : AuthenticatedUser)
    (required : Bool) {s : Database} {l : Session} (hl : l.pending = []) :
    Safe unconstrained sem (resolveIdentity request user required)
      (fun r _ _ => ∀ m, r = .ok (some m) → FoundUnder user.oid m) s l := by
  refine resolveIdentity_safe hK request user required hl ?_ ?_ fun _ _ _ _ _ _ h => by cases h
  · intro s₁ m _ _ _ hoid _ _ m' h
    obtain rfl := Option.some.inj (Except.ok.inj h)
    exact Or.inl hoid
  · intro s₁ seen _
    unfold provisionAudited
    refine Safe.bind (provision_foundUnder hK user hl) ?_ fun _ _ _ _ _ h => by cases h
    rintro (_ | m) s₂ l₂ ⟨hpending, hfound⟩
    · cases required <;> exact fun _ h => by cases h
    · refine Safe.bind (R := fun _ _ _ => True) ?_ ?_ fun _ _ _ _ _ h => by cases h
      · exact recordAudit_safe hK hpending (fun _ _ _ _ _ _ _ _ => ⟨trivial, trivial, trivial⟩)
          fun _ _ _ _ => trivial
      · intro _ s₃ l₃ _ m' h
        obtain rfl := Option.some.inj (Except.ok.inj h)
        exact hfound m rfl

variable {db : Database} {P : Portal.Pool} {t : Portal.Thread} {request : Request}
  {user : AuthenticatedUser} {required : Bool} {m : Mapping}

theorem foundUnder_of_reaches (h : portal.Reaches ⟨db, []⟩ P) (ht : t ∈ P.threads)
    (hcall : t.call = .resolveIdentity request user required)
    (hret : t.Returned (.mapping (some m))) : FoundUnder user.oid m := by
  obtain ⟨i, hi⟩ := List.getElem?_of_mem ht
  let post : ℕ → Call → Post Exc Reply Database Session := fun _ c r _ _ =>
    ∀ request user required m, c = .resolveIdentity request user required →
      r = .ok (.mapping (some m)) → FoundUnder user.oid m
  have hsafe := System.safe_of_reaches (S := portal) (K := unconstrained) (Q := post)
    (fun _ _ h => h) (fun _ _ _ _ _ _ h _ _ => h) (fun _ _ _ _ => ⟨trivial, trivial⟩)
    (fun _ c s _ _ => ?_) h (System.safe_nil _ _ _ trivial)
  · exact System.post_of_returned hsafe hi hret request user required m hcall rfl
  · cases c with
    | resolveIdentity request' user' required' =>
      refine Safe.bind (resolveIdentity_foundUnder conforms_unconstrained request' user' required'
        rfl) ?_ fun _ _ _ _ _ _ _ _ _ h => by cases h
      rintro mapping s₁ l₁ hfound request₁ user₁ required₁ m₁ hc hr
      cases hc
      cases hr
      exact hfound m₁ rfl
    | _ =>
      refine (Safe.trivial id (fun _ _ _ _ _ _ _ _ => ⟨trivial, trivial⟩) _ _ _).mono ?_
      intro _ _ _ _ _ _ _ _ hc
      cases hc

/-- **Resolving an identity again.** In every run from any database: once a `resolve_identity`
call returned a mapping that is stored, all later calls for the user return this row after
one select, whatever D365 and the others do as long as nobody changes the row, if and only
if the row carries the very text of the token's oid. It does where that text is canonical. -/
theorem resolvedAgain_iff (h : portal.Reaches ⟨db, []⟩ P) (ht : t ∈ P.threads)
    (hcall : t.call = .resolveIdentity request user required)
    (hret : t.Returned (.mapping (some m))) (hm : m ∈ P.store.mappings) :
    (ResolvedAgain P user.oid m ↔ m.entra_oid = some user.oid) ∧
      ((∀ u, Denotes user.oid u → u.toText = user.oid) → m.entra_oid = some user.oid) := by
  have houtcome := outcome_of_reaches h ht hret
  rw [hcall] at houtcome
  obtain ⟨hgranted, -⟩ := houtcome
  refine ⟨⟨text_of_resolvedAgain hm, fun hoid =>
    resolvedAgain_of_text hm hoid hgranted.enabled hgranted.verified⟩, fun hcanonical => ?_⟩
  rcases foundUnder_of_reaches h ht hcall hret with hoid | ⟨u, hu, hoid⟩
  · exact hoid
  · rw [hoid, hcanonical u hu]

end Idempotence

/-! ### The oid in capitals -/

section Example

open scoped Ascii

/-- The mapping of a reply. -/
def Reply.mapping? : Reply → Option Mapping
  | .mapping m => m
  | _ => none

/-- What call 0 resolved to, where it is stored. -/
def resolvedRow (P : Portal.Pool) : Option Mapping :=
  ((Portal.reply P 0).bind Reply.mapping?).filter (· ∈ P.store.mappings)

/-- The user's first call, on an empty table; D365 confirms the user. -/
def firstResolution (user : AuthenticatedUser) : Option Portal.Pool :=
  Portal.runCall exampleDatabase (.resolveIdentity {} user true)
    (firstSignIn 0 (exampleAnswer exampleUser.oid "000123" "usmf") firstId)

/-- A later call of the user, while nobody changes the row and D365 is down. -/
def laterResolution (user : AuthenticatedUser) (m : Mapping) : Portal.Pool → Option Portal.Pool :=
  Portal.runLater (fun s => m ∈ s.mappings) (.resolveIdentity {} user true)
    [.run 1 .go, .run 1 .go,
      .run 1 (.raise (.d365 .unavailable "D365 is temporarily unavailable"))]

/-- The later call ended in the error for a D365 that cannot be asked. -/
def laterUnavailable (user : AuthenticatedUser) (P : Portal.Pool) (m : Mapping) : Bool :=
  (laterResolution user m P).any fun P' =>
    Portal.raised P' P.threads.length = some provisioningUnavailable

theorem exists_resolvedRow (user : AuthenticatedUser) (check : Portal.Pool → Mapping → Bool)
    (h : (firstResolution user).any (fun P => (resolvedRow P).any (check P)) = true) :
    ∃ (P : Portal.Pool) (t : Portal.Thread) (m : Mapping),
      portal.Reaches ⟨exampleDatabase, []⟩ P ∧ t ∈ P.threads ∧
      t.call = .resolveIdentity {} user true ∧ t.Returned (.mapping (some m)) ∧
      m ∈ P.store.mappings ∧ check P m = true := by
  obtain ⟨P, hplay, hP⟩ := (Option.any_eq_true _ _).mp h
  obtain ⟨m, hm, hcheck⟩ := (Option.any_eq_true _ _).mp hP
  obtain ⟨hresolved, hstored⟩ := Option.filter_eq_some_iff.mp hm
  obtain ⟨reply, hreply, hmapping⟩ := Option.bind_eq_some_iff.mp hresolved
  obtain ⟨hreaches, hcall⟩ := Portal.runCall_reaches hplay
  obtain ⟨t, ht, hret⟩ := Portal.returned_of_reply hreply
  refine ⟨P, t, m, hreaches, List.mem_of_getElem? ht, hcall t ht, ?_,
    of_decide_eq_true hstored, hcheck⟩
  cases reply with
  | mapping found =>
    obtain rfl : found = some m := hmapping
    exact hret
  | _ => cases hmapping

/-- The token spells the oid in capitals, and D365 is down at the second call: it ends in
an error, although the row of the first call is there. -/
theorem not_resolvedAgain :
    ¬ ∀ (db : Database) (P : Portal.Pool) (t : Portal.Thread) (request : Request)
      (user : AuthenticatedUser) (required : Bool) (m : Mapping),
      portal.Reaches ⟨db, []⟩ P → t ∈ P.threads →
      t.call = .resolveIdentity request user required → t.Returned (.mapping (some m)) →
      m ∈ P.store.mappings → ResolvedAgain P user.oid m := by
  intro hall
  obtain ⟨P, t, m, hreaches, ht, hcall, hret, hm, hcheck⟩ := exists_resolvedRow
    exampleUserInCapitals (laterUnavailable exampleUserInCapitals) (by decide +kernel)
  obtain ⟨P', hplay, hraised⟩ := (Option.any_eq_true _ _).mp hcheck
  obtain ⟨hlater, t', ht', hcall'⟩ := Portal.runLater_reaches hplay
  obtain ⟨t'', ht'', hraise⟩ := Portal.raise_of_raised (of_decide_eq_true hraised)
  obtain rfl := Option.some.inj (ht'.symm.trans ht'')
  have hlooks := hall _ P t _ _ _ m hreaches ht hcall hret hm P' hlater _ t' (Nat.le_refl _) ht'
    _ _ _ hcall' rfl
  cases hlooks with
  | waiting hprog hsess =>
    obtain ⟨k, hbody, -⟩ := body_resolveIdentity {} exampleUserInCapitals true
    rw [hraise, hcall', hbody] at hprog
    cases hprog
  | found hprog s hsess =>
    rw [hraise] at hprog
    cases hprog
  | failed hprog hsess =>
    rw [hraise] at hprog
    cases hprog

/-- The token spells the oid in the canonical form. -/
theorem resolvedAgain_canonical : ∃ (P : Portal.Pool) (m : Mapping),
    ResolvedAgain P exampleUser.oid m := by
  obtain ⟨P, t, m, hreaches, ht, hcall, hret, hm, hcheck⟩ := exists_resolvedRow
    exampleUser (fun _ m => decide (m.entra_oid = some exampleUser.oid)) (by decide +kernel)
  exact ⟨P, m, (resolvedAgain_iff hreaches ht hcall hret hm).1.mpr (of_decide_eq_true hcheck)⟩

end Example

end EmployeePortal
