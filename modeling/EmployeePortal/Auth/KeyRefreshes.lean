import EmployeePortal.Auth.FreshKeys

/-!
# Refreshes that coalesce

A call that needs a key decides before the lock why it refreshes. One that found the cache
expired looks again once the lock is its own, and is content with what another call has
fetched meanwhile; one that missed its key id fetches whatever it finds there.
-/

namespace EmployeePortal.Auth.EntraTokenValidator

open EmployeePortal.Python EmployeePortal.Framework

section Calls

variable {κ : Type} [Jwt κ] [UnicodeData] [UrlData] {settings : Settings} {token kid : String}

/-! ## A call between its awaits -/

/-- The end of `_refresh_keys`, with `fetch` still to come. -/
def storing (settings : Settings) (fetch : AuthTask κ (Dict κ)) : AuthTask κ Unit := do
  let keys ← tryCatchThe Exc fetch fun e =>
    if refreshCatches e then throw identityProviderUnavailable else throw e
  Prog.tell (AuthOp.setKeys keys)
  let now ← Prog.perform AuthOp.monotonic
  Prog.tell (AuthOp.setExpiresAt (expiry settings now))

/-- The call from its lock on, once `enter` has got it; inside, `refresh` is to come. -/
def locked (settings : Settings) (token kid : String) (enter refresh : AuthTask κ Unit) :
    AuthTask κ (κ ⊕ AuthenticatedUser) := do
  let user ← (do
    let key ← (do
      let _ ← (do
        let _ ← enter
        let result ← refresh.attempt
        Prog.tell AuthOp.lockRelease
        Prog.ofExcept result)
      lookUp kid)
    let now ← Prog.perform AuthOp.time
    Prog.ofExcept (checkToken settings token key now))
  return .inr user

/-- The call before the lock. -/
def waiting (settings : Settings) (token kid : String) (force : Bool) :
    AuthTask κ (κ ⊕ AuthenticatedUser) :=
  .op .lockAcquire fun r => locked settings token kid (.ofExcept r) (refreshLocked settings force)

/-- The call with its requests under way. -/
def fetching (settings : Settings) (token kid : String) (fetch : AuthTask κ (Dict κ)) :
    AuthTask κ (κ ⊕ AuthenticatedUser) :=
  locked settings token kid (.ret ()) (storing settings fetch)

omit [UrlData] in
theorem fetching_op (url : String) (k : Except Exc HttpResponse → AuthTask κ (Dict κ)) :
    fetching settings token kid (.op (.get url) k) =
      .op (.get url) fun r => fetching settings token kid (k r) := rfl

variable (settings) in
/-- A call that needs a key goes to the lock. -/
theorem runOn_validate_needy (hheader : readHeader κ token = .ok kid) {s : KeyCache κ}
    (hneeds : s.expires_at ≤ Extended.ofRat s.now ∨ s.keys.get? kid = none) (l : KeySession) :
    runOn statements ((authLoop κ settings).body (.validate token)) s l =
      (waiting settings token kid (!decide (s.expires_at ≤ Extended.ofRat s.now)),
        { s with ticks := s.ticks + 1 },
        { l with checked := s.now, latest := s.refreshes.getLast? }) := by
  change runOn statements (validate settings token >>= fun user => Prog.ret (Sum.inr user)) s l = _
  have hneeds' :
      (decide (s.expires_at ≤ Extended.ofRat s.now) || (s.keys.get? kid).isNone) = true := by
    simpa using hneeds
  have hforce : (!decide (s.expires_at ≤ Extended.ofRat s.now) && (s.keys.get? kid).isNone) =
      !decide (s.expires_at ≤ Extended.ofRat s.now) := by
    by_cases hexpired : s.expires_at ≤ Extended.ofRat s.now
    · simp [hexpired]
    · simp [hexpired, hneeds.resolve_left hexpired]
  rw [validate, hheader]
  simp only [Prog.liftM_eq, Prog.ofExcept_ok, Prog.ret_bind, getKey_eq, Prog.perform,
    Prog.op_bind, runOn, statements]
  rw [if_pos hneeds', hforce]
  rfl

variable (settings) in
theorem runOn_validate_served (hheader : readHeader κ token = .ok kid) {s : KeyCache κ}
    (hserved : ¬ (s.expires_at ≤ Extended.ofRat s.now ∨ s.keys.get? kid = none)) (l : KeySession) :
    (runOn statements ((authLoop κ settings).body (.validate token)) s l).1.result.isSome =
      true := by
  change (runOn statements (validate settings token >>= fun user => Prog.ret (Sum.inr user))
    s l).1.result.isSome = true
  have hserved' :
      ¬ (decide (s.expires_at ≤ Extended.ofRat s.now) || (s.keys.get? kid).isNone) = true := by
    simpa using hserved
  obtain ⟨key, hkey⟩ := Option.ne_none_iff_exists'.mp (not_or.mp hserved).2
  have hfind : findKey s.keys kid = .ok key := by rw [findKey, hkey]
  rw [validate, hheader]
  simp only [Prog.liftM_eq, Prog.ofExcept_ok, Prog.ret_bind, getKey_eq, Prog.perform,
    Prog.op_bind, runOn, statements]
  rw [if_neg hserved']
  simp only [lookUp, Prog.perform, Prog.op_bind, runOn, statements, Prog.ofExcept_ok,
    Prog.ret_bind, hfind]
  cases checkToken settings token key (s.wall (s.ticks + 1)) <;> rfl

theorem runOn_entered_forced (s : KeyCache κ) (l : KeySession) :
    runOn statements (locked settings token kid (.ret ()) (refreshLocked settings true)) s l =
      (fetching settings token kid (fetchKeys settings), s, l) := rfl

/-- The cache is as it was, and the lock is free. -/
structure Left (s s' : KeyCache κ) : Prop where
  free : s'.locked = false
  expires_at : s'.expires_at = s.expires_at
  refreshes : s'.refreshes = s.refreshes

omit [Jwt κ] [UnicodeData] [UrlData] in
theorem result_ofExcept {α : Type} (x : Except Exc α) :
    (Prog.ofExcept x : AuthTask κ α).result.isSome = true := by
  cases x <;> rfl

variable (settings token kid) in
omit [UrlData] in
/-- The end of a call: the lock is left, and the key is looked up. -/
theorem runOn_leaving (refresh : Except Exc Unit) (s : KeyCache κ) (l : KeySession) :
    ∃ r s' l', runOn statements (locked settings token kid (.ret ()) (.ofExcept refresh)) s l =
      (.ofExcept r, s', l') ∧ Left s s' := by
  cases refresh with
  | error e => exact ⟨.error e, _, _, rfl, rfl, rfl, rfl⟩
  | ok _ =>
    cases hfind : findKey s.keys kid with
    | error e =>
      refine ⟨.error e, { s with locked := false }, { l with latest := s.refreshes.getLast? }, ?_,
        rfl, rfl, rfl⟩
      simp only [locked, lookUp, Prog.ofExcept_ok, Prog.ret_bind, Prog.attempt_ret, Prog.tell_bind,
        Prog.perform, Prog.op_bind, runOn, statements, hfind]
      rfl
    | ok key =>
      refine ⟨(checkToken settings token key (s.wall s.ticks)).map Sum.inr,
        { s with ticks := s.ticks + 1, locked := false },
        { l with latest := s.refreshes.getLast?, decoded := some (s.wall s.ticks) }, ?_,
        rfl, rfl, rfl⟩
      simp only [locked, lookUp, Prog.ofExcept_ok, Prog.ret_bind, Prog.attempt_ret, Prog.tell_bind,
        Prog.perform, Prog.op_bind, runOn, statements, hfind]
      cases checkToken settings token key (s.wall s.ticks) <;> rfl

variable (settings token kid) in
/-- A call that looks again inside the lock is content with keys that have not expired. -/
theorem runOn_entered_cached {s : KeyCache κ} (hunexpired : Extended.ofRat s.now < s.expires_at)
    (hkeys : s.keys ≠ []) (l : KeySession) :
    ∃ r s' l', runOn statements
        (locked settings token kid (.ret ()) (refreshLocked settings false)) s l =
      (.ofExcept r, s', l') ∧ Left s s' := by
  have hvalid : (decide (Extended.ofRat s.now < s.expires_at) && !s.keys.isEmpty) = true := by
    simpa [hunexpired] using hkeys
  have hlook : runOn statements
      (locked settings token kid (.ret ()) (refreshLocked settings false)) s l =
      runOn statements (locked settings token kid (.ret ()) (.ofExcept (.ok ())))
        { s with ticks := s.ticks + 1 }
        { l with checked := s.now, latest := s.refreshes.getLast? } := by
    rw [refreshLocked_eq, if_neg Bool.false_ne_true]
    simp only [locked, Prog.perform, Prog.op_bind, Prog.attempt_op, runOn, statements,
      Prog.ofExcept_ok, Prog.ret_bind]
    rw [if_pos hvalid]
    rfl
  obtain ⟨r, s', l', hrun, hleft⟩ := runOn_leaving settings token kid (.ok ())
    { s with ticks := s.ticks + 1 }
    { l with checked := s.now, latest := s.refreshes.getLast? }
  exact ⟨r, s', l', hlook.trans hrun, hleft.free, hleft.expires_at, hleft.refreshes⟩

theorem runOn_entered_stale {s : KeyCache κ}
    (hstale : s.expires_at ≤ Extended.ofRat s.now ∨ s.keys = []) (l : KeySession) :
    runOn statements (locked settings token kid (.ret ()) (refreshLocked settings false)) s l =
      (fetching settings token kid (fetchKeys settings), { s with ticks := s.ticks + 1 },
        { l with checked := s.now, latest := s.refreshes.getLast? }) := by
  have hvalid : ¬ (decide (Extended.ofRat s.now < s.expires_at) && !s.keys.isEmpty) = true := by
    simpa [imp_iff_not_or, or_comm] using hstale
  rw [refreshLocked_eq, if_neg Bool.false_ne_true]
  simp only [locked, Prog.perform, Prog.op_bind, Prog.attempt_op, runOn, statements,
    Prog.ofExcept_ok, Prog.ret_bind]
  rw [if_neg hvalid]
  rfl

variable (settings token kid) in
omit [UrlData] in
/-- Keys that have been fetched are stored. -/
theorem runOn_fetching_ok (keys : Dict κ) (s : KeyCache κ) (l : KeySession) :
    ∃ r s' l', runOn statements (fetching settings token kid (.ret keys)) s l =
      (.ofExcept r, s', l') ∧ s'.locked = false ∧
      s'.refreshes = s.refreshes ++ [⟨l.exchanges, s.now⟩] := by
  obtain ⟨r, s', l', hrun, hleft⟩ := runOn_leaving settings token kid (.ok ())
    { s with
      keys := keys
      ticks := s.ticks + 1
      expires_at := expiry settings s.now
      refreshes := s.refreshes ++ [⟨l.exchanges, s.now⟩] }
    { l with checked := s.now, completed := some ⟨l.exchanges, s.now⟩ }
  exact ⟨r, s', l', hrun, hleft.free, hleft.refreshes⟩

variable (settings token kid) in
omit [UrlData] in
theorem runOn_fetching_error (e : Exc) (s : KeyCache κ) (l : KeySession) :
    ∃ r s' l', runOn statements (fetching settings token kid (.raise e)) s l =
      (.ofExcept r, s', l') ∧ Left s s' := by
  have hraised : storing settings (.raise e : AuthTask κ (Dict κ)) = .raise (refreshRaises e) := by
    unfold storing refreshRaises
    change (if refreshCatches e then _ else _) >>= _ = _
    split <;> rfl
  rw [fetching, hraised]
  exact runOn_leaving settings token kid (.error (refreshRaises e)) s l

/-! ## What a call does once it has entered the lock -/

theorem fetchKeys_only : (fetchKeys settings : AuthTask κ (Dict κ)).Only
    fun o => ∃ url, o = .get url := by
  rw [fetchKeys_eq]
  refine Prog.Only.bind (Prog.Only.perform ⟨_, rfl⟩) fun _ => ?_
  refine Prog.Only.bind (Prog.Only.ofExcept _) fun _ => ?_
  exact Prog.Only.bind (Prog.Only.perform ⟨_, rfl⟩) fun _ => Prog.Only.ofExcept _

/-- A call with requests to make. -/
structure Fetches (settings : Settings) (token kid : String)
    (p : AuthTask κ (κ ⊕ AuthenticatedUser)) (fetch : AuthTask κ (Dict κ)) : Prop where
  prog : p = fetching settings token kid fetch
  gets : fetch.Only fun o => ∃ url, o = .get url
  busy : fetch.result = none

omit [UrlData] in
theorem Fetches.get {p : AuthTask κ (κ ⊕ AuthenticatedUser)} {fetch : AuthTask κ (Dict κ)}
    (h : Fetches settings token kid p fetch) : ∃ url k, p = .op (.get url) k := by
  obtain ⟨rfl, hgets, hbusy⟩ := h
  cases fetch with
  | ret keys => cases hbusy
  | raise e => cases hbusy
  | op o k =>
    obtain ⟨url, rfl⟩ := hgets.1
    exact ⟨url, _, fetching_op url k⟩

omit [UrlData] in
/-- An answer leads to the next request, or to the end. -/
theorem Fetches.turn {p p' : AuthTask κ (κ ⊕ AuthenticatedUser)} {fetch : AuthTask κ (Dict κ)}
    (h : Fetches settings token kid p fetch) {o : AuthOp κ}
    {k : Except Exc o.Answer → AuthTask κ (κ ⊕ AuthenticatedUser)} (hop : p = .op o k)
    {s s₁ s' : KeyCache κ} {l l₁ l' : KeySession} {r : Except Exc o.Answer}
    (hsem : Awaited o s l r s₁ l₁) (hrun : runOn statements (k r) s₁ l₁ = (p', s', l')) :
    l₁.exchanges ≠ [] ∧
    (((∃ fetch', Fetches settings token kid p' fetch') ∧ s' = s) ∨
      (p'.result.isSome = true ∧ s'.locked = false ∧
        (s'.refreshes = s.refreshes ∧ s'.expires_at = s.expires_at ∨
          ∃ exchanges, s'.refreshes = s.refreshes ++ [⟨exchanges, s.now⟩]))) := by
  obtain ⟨rfl, hgets, hbusy⟩ := h
  cases fetch with
  | ret keys => cases hbusy
  | raise e => cases hbusy
  | op o' k' =>
    obtain ⟨⟨url, rfl⟩, hrest⟩ := hgets
    rw [fetching_op] at hop
    cases hop
    cases hsem with
    | get r =>
      refine ⟨by simp, ?_⟩
      have hgets := hrest r
      dsimp only at hrun
      cases hnext : k' r with
      | ret keys =>
        rw [hnext] at hrun
        obtain ⟨x, s₂, l₂, hstored, hfree, hrefreshes⟩ := runOn_fetching_ok settings token kid keys
          s { l with exchanges := l.exchanges ++ [⟨url, r⟩] }
        obtain ⟨rfl, rfl, rfl⟩ := by simpa using hstored.symm.trans hrun
        exact Or.inr ⟨result_ofExcept x, hfree, Or.inr ⟨_, hrefreshes⟩⟩
      | raise e =>
        rw [hnext] at hrun
        obtain ⟨x, s₂, l₂, hfailed, hleft⟩ := runOn_fetching_error settings token kid e s
          { l with exchanges := l.exchanges ++ [⟨url, r⟩] }
        obtain ⟨rfl, rfl, rfl⟩ := by simpa using hfailed.symm.trans hrun
        exact Or.inr ⟨result_ofExcept x, hleft.free, Or.inl ⟨hleft.refreshes, hleft.expires_at⟩⟩
      | op o'' k'' =>
        rw [hnext] at hgets hrun
        obtain ⟨url', rfl⟩ := hgets.1
        rw [fetching_op] at hrun
        obtain ⟨rfl, rfl, rfl⟩ := by simpa [runOn, statements] using hrun
        exact Or.inl ⟨⟨.op (.get url') k'', rfl, hgets, rfl⟩, rfl⟩

theorem fetches_fetchKeys :
    Fetches settings token kid (fetching settings token kid (fetchKeys settings))
      (fetchKeys settings : AuthTask κ (Dict κ)) :=
  ⟨rfl, fetchKeys_only, rfl⟩

/-- What a call does that has just got the lock. -/
theorem entered {force : Bool} {s s' : KeyCache κ} {l l' : KeySession}
    {p : AuthTask κ (κ ⊕ AuthenticatedUser)}
    (hrun : runOn statements (locked settings token kid (.ret ()) (refreshLocked settings force))
      s l = (p, s', l')) :
    ((force = false ∧ Extended.ofRat s.now < s.expires_at ∧ s.keys ≠ []) ∧
      p.result.isSome = true ∧ Left s s') ∨
    ((force = true ∨ s.expires_at ≤ Extended.ofRat s.now ∨ s.keys = []) ∧
      Fetches settings token kid p (fetchKeys settings) ∧ s'.locked = s.locked ∧
      s'.refreshes = s.refreshes ∧ s'.expires_at = s.expires_at) := by
  cases force with
  | true =>
    rw [runOn_entered_forced] at hrun
    obtain ⟨rfl, rfl, rfl⟩ := by simpa using hrun
    exact Or.inr ⟨Or.inl rfl, fetches_fetchKeys, rfl, rfl, rfl⟩
  | false =>
    by_cases hstale : s.expires_at ≤ Extended.ofRat s.now ∨ s.keys = []
    · rw [runOn_entered_stale hstale] at hrun
      obtain ⟨rfl, rfl, rfl⟩ := by simpa using hrun
      exact Or.inr ⟨Or.inr hstale, fetches_fetchKeys, rfl, rfl, rfl⟩
    · obtain ⟨hunexpired, hkeys⟩ := not_or.mp hstale
      obtain ⟨x, s₂, l₂, hcached, hleft⟩ := runOn_entered_cached settings token kid
        (not_le.mp hunexpired) hkeys l
      obtain ⟨rfl, rfl, rfl⟩ := by simpa using hcached.symm.trans hrun
      exact Or.inl ⟨⟨rfl, not_le.mp hunexpired, hkeys⟩, result_ofExcept x, hleft⟩

/-! ## One call at the lock -/

abbrev KeyPool (κ : Type) : Type :=
  Pool (AuthOp κ) AuthOp.Answer Exc (κ ⊕ AuthenticatedUser) (KeyCache κ) KeySession AuthCall

/-- A call with this token that was made at `P₀` waits for the lock at `P` and gets it. -/
structure Enters (settings : Settings) (token kid : String) (P₀ P P' : KeyPool κ) : Prop where
  header : readHeader κ token = .ok kid
  called : ∃ P₁, (authLoop κ settings).Turn P₀ (.spawn (.validate token)) P₁ ∧
    (authLoop κ settings).Reaches P₁ P
  waits : ∃ t k, P.threads[P₀.threads.length]? = some t ∧ t.prog = .op .lockAcquire k
  enters : (authLoop κ settings).Turn P (.run P₀.threads.length) P'

/-- The call never makes a request, however the run goes on. -/
def Silent (settings : Settings) (i : ℕ) (P : KeyPool κ) : Prop :=
  ∀ P' t, (authLoop κ settings).Reaches P P' → P'.threads[i]? = some t → t.sess.exchanges = []

/-- Some answer to a request comes. -/
theorem Fetches.not_silent {P : KeyPool κ} {i : ℕ} {t} {fetch : AuthTask κ (Dict κ)}
    (ht : P.threads[i]? = some t) (h : Fetches settings token kid t.prog fetch) :
    ¬ Silent settings i P := by
  intro hsilent
  obtain ⟨url, k, hget⟩ := h.get
  have hi := (List.getElem?_eq_some_iff.mp ht).1
  obtain ⟨p, s', l', hrun⟩ : ∃ p s' l', runOn statements (k (.error .typeError)) P.store
      { t.sess with exchanges := t.sess.exchanges ++ [⟨url, .error .typeError⟩] } = (p, s', l') :=
    ⟨_, _, _, rfl⟩
  have hturn : (authLoop κ settings).Turn P (.run i)
      ⟨s', P.threads.set i { t with sess := l', prog := p }⟩ := .run ht hget (.get _) hrun
  have hmade := hsilent _ _ (.single ⟨_, hturn⟩) (List.getElem?_set_self hi)
  have htied := (tied_runOn hrun).exchanges
  change l'.exchanges = [] at hmade
  rw [hmade] at htied
  simp at htied

/-- A call on its way: before the lock, with requests to make, or over. -/
inductive OnItsWay (settings : Settings) (token kid : String) (force : Bool) :
    Thread (AuthOp κ) AuthOp.Answer Exc (κ ⊕ AuthenticatedUser) KeySession AuthCall → Prop
  | queued {t} (hprog : t.prog = waiting settings token kid force) (hnew : t.sess.exchanges = []) :
      OnItsWay settings token kid force t
  | busy {t fetch} (hfetches : Fetches settings token kid t.prog fetch) :
      OnItsWay settings token kid force t
  | ended {t} (hresult : t.prog.result.isSome = true) : OnItsWay settings token kid force t

theorem OnItsWay.turn {force : Bool} {t} (h : OnItsWay settings token kid force t)
    {o : AuthOp κ} {k : Except Exc o.Answer → AuthTask κ (κ ⊕ AuthenticatedUser)}
    {r : Except Exc o.Answer} {s s₁ s' : KeyCache κ} {l₁ l' : KeySession}
    {p : AuthTask κ (κ ⊕ AuthenticatedUser)} (hop : t.prog = .op o k)
    (hsem : Awaited o s t.sess r s₁ l₁) (hrun : runOn statements (k r) s₁ l₁ = (p, s', l')) :
    OnItsWay settings token kid force { t with sess := l', prog := p } := by
  cases h with
  | queued hprog hnew =>
    rw [hprog, waiting] at hop
    cases hop
    cases hsem with
    | lockAcquire hfree =>
      rcases entered hrun with ⟨-, hover, -⟩ | ⟨-, hfetches, -⟩
      · exact .ended hover
      · exact .busy hfetches
  | busy hfetches =>
    rcases (hfetches.turn hop hsem hrun).2 with ⟨⟨fetch', hnext⟩, -⟩ | ⟨hover, -⟩
    · exact .busy hnext
    · exact .ended hover
  | ended hresult =>
    rw [hop] at hresult
    cases hresult

/-- Why the call refreshes is what it found when it was made. -/
theorem Enters.queued {P₀ P P' : KeyPool κ} (h : Enters settings token kid P₀ P P') :
    ∃ t, P.threads[P₀.threads.length]? = some t ∧ t.sess.exchanges = [] ∧
      t.prog = waiting settings token kid
        (!decide (P₀.store.expires_at ≤ Extended.ofRat P₀.store.now)) := by
  obtain ⟨P₁, hspawn, hreach⟩ := h.called
  obtain ⟨t, k, ht, hwaits⟩ := h.waits
  cases hspawn with
  | @spawn s ts p s' l' c hc hrun =>
    change runOn statements ((authLoop κ settings).body (.validate token)) s {} = _ at hrun
    have hstart : OnItsWay settings token kid (!decide (s.expires_at ≤ Extended.ofRat s.now))
        ⟨.validate token, l', p, false⟩ := by
      by_cases hneeds : s.expires_at ≤ Extended.ofRat s.now ∨ s.keys.get? kid = none
      · have hneedy := runOn_validate_needy settings h.header hneeds {}
        obtain ⟨rfl, rfl, rfl⟩ := by simpa using hneedy.symm.trans hrun
        exact .queued rfl rfl
      · have hserved := runOn_validate_served settings h.header hneeds {}
        rw [hrun] at hserved
        exact .ended hserved
    obtain ⟨t', ht', hway⟩ := Loop.thread_of_reaches
      (fun t o k r s s₁ l₁ p s' l' hway hop hsem hrun => hway.turn hop hsem hrun) hreach
      (List.getElem?_concat_length ..) hstart
    obtain rfl := Option.some.inj (ht'.symm.trans ht)
    refine ⟨t', ht, ?_⟩
    cases hway with
    | queued hprog hnew => exact ⟨hnew, hprog⟩
    | busy hfetches =>
      obtain ⟨url, k', hget⟩ := hfetches.get
      rw [hget] at hwaits
      cases hwaits
    | ended hresult =>
      rw [hwaits] at hresult
      cases hresult

/-- A call that enters the lock when the cache holds its key makes no request if and only if
it queued because the cache had expired. -/
theorem Enters.silent_iff {P₀ P P' : KeyPool κ} (h : Enters settings token kid P₀ P P')
    (hunexpired : Extended.ofRat P.store.now < P.store.expires_at) {key : κ}
    (hknown : P.store.keys.get? kid = some key) :
    Silent settings P₀.threads.length P' ↔ P₀.store.expires_at ≤ Extended.ofRat P₀.store.now := by
  obtain ⟨t, ht, hnew, hprog⟩ := h.queued
  obtain ⟨hheader, -, -, henters⟩ := h
  have hkeys : P.store.keys ≠ [] := by
    intro hnil
    rw [hnil] at hknown
    cases hknown
  generalize P₀.threads.length = i at *
  cases henters with
  | @run s ts _ t' o k r s₁ l₁ p s' l' ht' hop hsem hrun =>
    obtain rfl : t' = t := Option.some.inj (ht'.symm.trans ht)
    have hi := (List.getElem?_eq_some_iff.mp ht').1
    rw [hprog, waiting] at hop
    cases hop
    cases hsem with
    | lockAcquire hfree =>
      have hnow : P₀.store.expires_at ≤ Extended.ofRat P₀.store.now ↔
          (!decide (P₀.store.expires_at ≤ Extended.ofRat P₀.store.now)) = false := by simp
      rw [hnow]
      rcases entered hrun with ⟨⟨hforce, -⟩, hover, -⟩ | ⟨hstale, hfetches, -⟩
      · refine iff_of_true ?_ hforce
        intro P'' u hreach hu
        have hsame := Loop.over_of_reaches hreach (List.getElem?_set_self hi) hover
        obtain rfl := Option.some.inj (hsame.symm.trans hu)
        exact (tied_runOn hrun).exchanges.trans hnew
      · have hforce : (!decide (P₀.store.expires_at ≤ Extended.ofRat P₀.store.now)) = true := by
          rcases hstale with hforce | hexpired | hnil
          · exact hforce
          · exact absurd hexpired (not_le.mpr hunexpired)
          · exact absurd hnil hkeys
        rw [hforce]
        exact iff_of_false (hfetches.not_silent (List.getElem?_set_self hi)) (by decide)

/-! ## Calls on an expired cache -/

/-- A turn of a run in which every call is made while the cache is expired. -/
def ExpiredTurn (settings : Settings) (P P' : KeyPool κ) : Prop :=
  ∃ m, (authLoop κ settings).Turn P m P' ∧ ∀ c, m = .spawn c →
    (∃ token, c = .validate token) ∧ P.store.expires_at ≤ Extended.ofRat P.store.now

/-- Refreshes a lifetime apart, in the sum of floats that the code makes. -/
def Spaced (settings : Settings) (refreshes : List Refresh) : Prop :=
  refreshes.IsChain fun (refresh refresh' : Refresh) =>
    expiry settings refresh.completed ≤ Extended.ofRat refresh'.completed

/-- Before the lock, or over. -/
def Outside (settings : Settings)
    (t : Thread (AuthOp κ) AuthOp.Answer Exc (κ ⊕ AuthenticatedUser) KeySession AuthCall) : Prop :=
  (∃ token kid, t.prog = waiting settings token kid false) ∨ t.prog.result.isSome = true

/-- Call `i` is in the lock, and what it found there was out of date. -/
structure Held (settings : Settings) (i : ℕ) (P : KeyPool κ) : Prop where
  locked : P.store.locked = true
  due : P.store.refreshes = [] ∨ P.store.expires_at ≤ Extended.ofRat P.store.now
  holder : ∃ t token kid fetch, P.threads[i]? = some t ∧
    Fetches settings token kid t.prog fetch
  others : ∀ j t, j ≠ i → P.threads[j]? = some t → Outside settings t

structure Free (settings : Settings) (P : KeyPool κ) : Prop where
  free : P.store.locked = false
  all : ∀ t ∈ P.threads, Outside settings t

/-- One call at a time is in the lock, and the refreshes are a lifetime apart. -/
structure Exclusive (settings : Settings) (P : KeyPool κ) : Prop where
  spaced : Spaced settings P.store.refreshes
  phase : Free settings P ∨ ∃ i, Held settings i P

theorem Coherent.refreshes_nil {s : KeyCache κ} (h : Coherent settings s) (hnil : s.keys = []) :
    s.refreshes = [] := by
  cases hlast : s.refreshes.getLast? with
  | none => exact List.getLast?_eq_none_iff.mp hlast
  | some refresh =>
    obtain ⟨document, -, hread⟩ := (h.latest refresh hlast).1.fetched rfl
    obtain ⟨raw_keys, -, hread⟩ := bind_eq_ok.mp hread
    obtain ⟨keys, -, hread⟩ := bind_eq_ok.mp hread
    rw [hnil] at hread
    split at hread
    · cases hread
    · rename_i hkeys
      rw [Except.ok.inj hread] at hkeys
      exact absurd rfl hkeys

/-- A refresh of a cache that is out of date keeps the distance. -/
theorem Spaced.concat {s : KeyCache κ} (h : Spaced settings s.refreshes)
    (hcoherent : Coherent settings s)
    (hdue : s.refreshes = [] ∨ s.expires_at ≤ Extended.ofRat s.now) (exchanges : List Exchange) :
    Spaced settings (s.refreshes ++ [⟨exchanges, s.now⟩]) := by
  refine List.isChain_append.mpr ⟨h, List.isChain_singleton _, ?_⟩
  intro refresh hlast refresh' hhead
  obtain rfl := Option.some.inj hhead
  rcases hdue with hnil | hexpired
  · rw [hnil] at hlast
    cases hlast
  · exact (hcoherent.latest refresh hlast).2 ▸ hexpired

theorem spawn_outside {s s' : KeyCache κ} {token : String}
    {p : AuthTask κ (κ ⊕ AuthenticatedUser)} {l' : KeySession}
    (hexpired : s.expires_at ≤ Extended.ofRat s.now)
    (hrun : runOn statements ((authLoop κ settings).body (.validate token)) s {} = (p, s', l')) :
    Outside settings ⟨.validate token, l', p, false⟩ ∧ s'.locked = s.locked ∧
      s'.refreshes = s.refreshes ∧ s'.expires_at = s.expires_at := by
  cases hheader : readHeader κ token with
  | error e =>
    have hraise : (authLoop κ settings).body (.validate token) = .raise e := by
      change (validate settings token >>= fun user => Prog.ret (Sum.inr user)) = _
      rw [validate, hheader]
      rfl
    rw [hraise] at hrun
    obtain ⟨rfl, rfl, rfl⟩ := by simpa [runOn] using hrun
    exact ⟨Or.inr rfl, rfl, rfl, rfl⟩
  | ok kid =>
    have hneedy := runOn_validate_needy settings hheader (Or.inl hexpired) {}
    obtain ⟨rfl, rfl, rfl⟩ := by simpa using hneedy.symm.trans hrun
    refine ⟨Or.inl ⟨token, kid, ?_⟩, rfl, rfl, rfl⟩
    rw [decide_eq_true hexpired]
    rfl

/-! What a new call leaves of the two phases. -/

theorem Free.spawn {P : KeyPool κ} (h : Free settings P) {s' : KeyCache κ} {t}
    (hlocked : s'.locked = P.store.locked) (hnew : Outside settings t) :
    Free settings ⟨s', P.threads ++ [t]⟩ := by
  refine ⟨hlocked.trans h.free, fun u hu => ?_⟩
  rcases List.mem_append.mp hu with hold | hlast
  · exact h.all u hold
  · rwa [List.mem_singleton.mp hlast]

theorem Held.spawn {P : KeyPool κ} {i : ℕ} (h : Held settings i P) {s' : KeyCache κ} {t}
    (hlocked : s'.locked = P.store.locked) (hexpired : s'.expires_at ≤ Extended.ofRat s'.now)
    (hnew : Outside settings t) : Held settings i ⟨s', P.threads ++ [t]⟩ := by
  obtain ⟨holder, token, kid, fetch, hholder, hfetches⟩ := h.holder
  have hi : i < P.threads.length := (List.getElem?_eq_some_iff.mp hholder).1
  refine ⟨hlocked.trans h.locked, Or.inr hexpired, ⟨holder, token, kid, fetch, ?_, hfetches⟩, ?_⟩
  · exact (List.getElem?_append_left hi).trans hholder
  · intro j u hj hu
    rcases getElem?_concat_cases hu with hold | ⟨-, rfl⟩
    · exact h.others j u hj hold
    · exact hnew

section Turn

variable {P : KeyPool κ} {i : ℕ}
  {t : Thread (AuthOp κ) AuthOp.Answer Exc (κ ⊕ AuthenticatedUser) KeySession AuthCall}
  {o : AuthOp κ} {k : Except Exc o.Answer → AuthTask κ (κ ⊕ AuthenticatedUser)}
  {r : Except Exc o.Answer} {s₁ s' : KeyCache κ} {l₁ l' : KeySession}
  {p : AuthTask κ (κ ⊕ AuthenticatedUser)}

/-- The lock is free, and somebody gets it. -/
theorem Free.enter (h : Free settings P) (hspaced : Spaced settings P.store.refreshes)
    (hcoherent : Coherent settings P.store) (hlater : P.store.now ≤ s'.now)
    (ht : P.threads[i]? = some t) (hop : t.prog = .op o k)
    (hsem : Awaited o P.store t.sess r s₁ l₁) (hrun : runOn statements (k r) s₁ l₁ = (p, s', l')) :
    Exclusive settings ⟨s', P.threads.set i { t with sess := l', prog := p }⟩ := by
  have hi := (List.getElem?_eq_some_iff.mp ht).1
  rcases h.all t (List.mem_of_getElem? ht) with ⟨token, kid, hprog⟩ | hover
  · rw [hprog, waiting] at hop
    cases hop
    cases hsem with
    | lockAcquire _ =>
      rcases entered hrun with ⟨-, hover, hleft⟩ | ⟨hstale, hfetches, hlocked, hsame, hexpires⟩
      · refine ⟨hleft.refreshes ▸ hspaced, Or.inl ⟨hleft.free, fun u hu => ?_⟩⟩
        rcases List.mem_or_eq_of_mem_set hu with hold | rfl
        · exact h.all u hold
        · exact Or.inr hover
      · refine ⟨hsame ▸ hspaced, Or.inr ⟨i, hlocked, ?_, ⟨_, token, kid, _,
          List.getElem?_set_self hi, hfetches⟩, fun j u hj hu => ?_⟩⟩
        · rcases hstale with hforce | hexpired | hnil
          · cases hforce
          · exact Or.inr (hexpires.le.trans (hexpired.trans (Extended.ofRat_le.mpr hlater)))
          · exact Or.inl (hsame.trans (hcoherent.refreshes_nil hnil))
        · rcases getElem?_set_cases hu with ⟨hji, -⟩ | ⟨-, hold⟩
          · exact absurd hji hj
          · exact h.all u (List.mem_of_getElem? hold)
  · rw [hop] at hover
    cases hover

/-- The call in the lock goes on with its requests, or leaves the lock. -/
theorem Held.proceed (h : Held settings i P) (hspaced : Spaced settings P.store.refreshes)
    (hcoherent : Coherent settings P.store) (ht : P.threads[i]? = some t) (hop : t.prog = .op o k)
    (hsem : Awaited o P.store t.sess r s₁ l₁) (hrun : runOn statements (k r) s₁ l₁ = (p, s', l')) :
    Exclusive settings ⟨s', P.threads.set i { t with sess := l', prog := p }⟩ := by
  have hi := (List.getElem?_eq_some_iff.mp ht).1
  obtain ⟨t', token, kid, fetch, ht', hfetches⟩ := h.holder
  obtain rfl : t' = t := Option.some.inj (ht'.symm.trans ht)
  have hothers : ∀ j u, j ≠ i →
      (P.threads.set i { t' with sess := l', prog := p })[j]? = some u → Outside settings u := by
    intro j u hj hu
    rcases getElem?_set_cases hu with ⟨hji, -⟩ | ⟨-, hold⟩
    · exact absurd hji hj
    · exact h.others j u hj hold
  rcases (hfetches.turn hop hsem hrun).2 with ⟨⟨fetch', hnext⟩, rfl⟩ | ⟨hover, hfree, hstored⟩
  · exact ⟨hspaced, Or.inr ⟨i, h.locked, h.due, ⟨_, token, kid, fetch',
      List.getElem?_set_self hi, hnext⟩, hothers⟩⟩
  · refine ⟨?_, Or.inl ⟨hfree, fun u hu => ?_⟩⟩
    · rcases hstored with ⟨hsame, -⟩ | ⟨exchanges, hnew⟩
      · exact hsame ▸ hspaced
      · exact hnew ▸ hspaced.concat hcoherent h.due exchanges
    · obtain ⟨j, hj⟩ := List.getElem?_of_mem hu
      rcases getElem?_set_cases hj with ⟨-, rfl⟩ | ⟨hji, -⟩
      · exact Or.inr hover
      · exact hothers j u hji hj

/-- Anybody else waits for the lock, which is taken. -/
theorem Held.waits {n : ℕ} (h : Held settings n P) (hin : i ≠ n) (ht : P.threads[i]? = some t)
    (hop : t.prog = .op o k) : ¬ Awaited o P.store t.sess r s₁ l₁ := by
  intro hsem
  rcases h.others i t hin ht with ⟨token, kid, hprog⟩ | hover
  · rw [hprog, waiting] at hop
    cases hop
    cases hsem with
    | lockAcquire hfree =>
      rw [h.locked] at hfree
      cases hfree
  · rw [hop] at hover
    cases hover

end Turn

theorem Exclusive.turn {P P' : KeyPool κ} (h : Exclusive settings P)
    (hcoherent : Coherent settings P.store) (hlater : P.store.now ≤ P'.store.now)
    (hturn : ExpiredTurn settings P P') : Exclusive settings P' := by
  obtain ⟨m, hturn, hspawn⟩ := hturn
  cases hturn with
  | @spawn s ts p s' l' c hc hrun =>
    obtain ⟨⟨token, rfl⟩, hexpired⟩ := hspawn c rfl
    obtain ⟨hnew, hlocked, hrefreshes, hexpires⟩ := spawn_outside hexpired hrun
    have hstill : s'.expires_at ≤ Extended.ofRat s'.now :=
      hexpires.le.trans (hexpired.trans (Extended.ofRat_le.mpr hlater))
    refine ⟨hrefreshes ▸ h.spaced, ?_⟩
    rcases h.phase with hfree | ⟨i, hheld⟩
    · exact Or.inl (hfree.spawn hlocked hnew)
    · exact Or.inr ⟨i, hheld.spawn hlocked hstill hnew⟩
  | @run s ts i t o k r s₁ l₁ p s' l' ht hop hsem hrun =>
    rcases h.phase with hfree | ⟨n, hheld⟩
    · exact hfree.enter h.spaced hcoherent hlater ht hop hsem hrun
    · by_cases hin : i = n
      · subst hin
        exact hheld.proceed h.spaced hcoherent ht hop hsem hrun
      · exact absurd hsem (hheld.waits hin ht hop)
  | env henv => exact False.elim henv

/-- In a run whose calls are all made on an expired cache, the refreshes are a lifetime
apart. -/
theorem exclusive_of_expired {clock : Clock} {wall : ℕ → ℚ} (hclock : Monotone clock)
    {P : KeyPool κ}
    (h : Relation.ReflTransGen (ExpiredTurn settings) ⟨KeyCache.start clock wall, []⟩ P) :
    Exclusive settings P := by
  induction h with
  | refl => exact ⟨List.isChain_nil, Or.inl ⟨rfl, by simp⟩⟩
  | @tail P P' hrun hturn ih =>
    have hsub : ∀ P P' : KeyPool κ, ExpiredTurn settings P P' →
        ∃ m, (authLoop κ settings).Turn P m P' := fun _ _ ⟨m, hm, _⟩ => ⟨m, hm⟩
    have hreach : (authLoop κ settings).Reaches ⟨KeyCache.start clock wall, []⟩ P :=
      Relation.ReflTransGen.mono hsub _ _ hrun
    have hkept := authLoop_kept hclock hreach
    obtain ⟨m, hm, hspawn⟩ := hturn
    have hlater : Later P.store P'.store := Loop.rely_turn (fun _ _ hguar => hguar)
      (fun _ _ _ henv => False.elim henv) (fun c s _ hinv => authLoop_keeps c s hinv) hm hkept
    refine ih.turn hkept.1 ?_ ⟨m, hm, hspawn⟩
    rw [KeyCache.now, KeyCache.now, hlater.clock]
    exact hkept.1.clock hlater.ticks

/-- **Refreshes that coalesce.** Whatever the identity provider answers and in whichever
order the calls take their turns: a call that enters the lock when the cache is unexpired
and holds its key makes no request if and only if it queued because the cache had expired.
And where all calls are made on an expired cache, the refreshes are a lifetime apart. -/
theorem refreshes_coalesce_iff {clock : Clock} {wall : ℕ → ℚ} (hclock : Monotone clock) :
    (∀ (P₀ P P' : KeyPool κ) (token kid : String) (key : κ),
      (authLoop κ settings).Reaches ⟨KeyCache.start clock wall, []⟩ P₀ →
      Enters settings token kid P₀ P P' → Extended.ofRat P.store.now < P.store.expires_at →
      P.store.keys.get? kid = some key →
      (Silent settings P₀.threads.length P' ↔ P₀.store.expires_at ≤ Extended.ofRat P₀.store.now)) ∧
    ∀ P : KeyPool κ,
      Relation.ReflTransGen (ExpiredTurn settings) ⟨KeyCache.start clock wall, []⟩ P →
      Spaced settings P.store.refreshes := by
  refine ⟨fun P₀ P P' token kid key _ henters hunexpired hknown => ?_, fun P hrun => ?_⟩
  · exact henters.silent_iff hunexpired hknown
  · exact (exclusive_of_expired hclock hrun).spaced

end Calls

/-! ## Two tokens under a new key -/

section Example

open Ascii RsaKeys

/-- A key document that does not list the key of the token yet. -/
def olderKeysResponse : Except Exc HttpResponse := .ok ⟨200, .ok (.obj [("keys", .arr [.obj [
  ("kty", .str "RSA"), ("n", .str "AQAB"), ("e", .str "AQAB"),
  ("kid", .str "older-key"), ("use", .str "sig"), ("alg", .str "RS256")]])])⟩

abbrev RsaPool : Type := KeyPool (String × String)

/-- One cue of a run of the validator. -/
def actRsa (P : RsaPool) (cue : Loop.Cue (Except Exc HttpResponse) AuthCall) : Option RsaPool :=
  Loop.act (authLoop (String × String) testSettings) answer (fun _ _ => none) P cue

def playRsa (cues : List (Loop.Cue (Except Exc HttpResponse) AuthCall)) (P : RsaPool) :
    Option RsaPool :=
  Loop.play (authLoop (String × String) testSettings) answer (fun _ _ => none) cues P

theorem actRsa_turn {P P' : RsaPool} {cue : Loop.Cue (Except Exc HttpResponse) AuthCall}
    (h : actRsa P cue = some P') :
    (authLoop (String × String) testSettings).Turn P cue.move P' :=
  Loop.act_move answer_awaited (fun _ _ _ h => by cases h) h

theorem playRsa_reaches {P P' : RsaPool}
    {cues : List (Loop.Cue (Except Exc HttpResponse) AuthCall)} (h : playRsa cues P = some P') :
    (authLoop (String × String) testSettings).Reaches P P' :=
  Loop.play_reaches answer_awaited (fun _ _ _ h => by cases h) h

def rsaStart : RsaPool := ⟨KeyCache.start Clock.ticking (fun _ => 0), []⟩

theorem header_signedToken : readHeader (String × String) signedToken = .ok "unit-test-key" := by
  decide +kernel

def atLock : AuthTask (String × String) ((String × String) ⊕ AuthenticatedUser) → Bool
  | .op .lockAcquire _ => true
  | _ => false

theorem atLock_iff {p : AuthTask (String × String) ((String × String) ⊕ AuthenticatedUser)}
    (h : atLock p = true) : ∃ k, p = .op .lockAcquire k := by
  unfold atLock at h
  split at h
  · exact ⟨_, rfl⟩
  · cases h

/-- A call is made after the cues `before`, and gets the lock after the cues `between`: the
cache is then unexpired and has the key of the token. -/
def entry (before between : List (Loop.Cue (Except Exc HttpResponse) AuthCall))
    (expired : Bool) : Bool :=
  (playRsa before rsaStart).any fun P₀ =>
    (actRsa P₀ (.spawn (.validate signedToken))).any fun P₁ =>
      (playRsa between P₁).any fun P =>
        (actRsa P (.run P₀.threads.length keysResponse)).isSome ∧
          (P.threads[P₀.threads.length]?).any (fun t => atLock t.prog) ∧
          (decide (P₀.store.expires_at ≤ Extended.ofRat P₀.store.now)) = expired ∧
          Extended.ofRat P.store.now < P.store.expires_at ∧
          (P.store.keys.get? "unit-test-key").isSome

/-- What `entry` says of the run. -/
theorem entry_enters {before between : List (Loop.Cue (Except Exc HttpResponse) AuthCall)}
    {expired : Bool} (h : entry before between expired = true) :
    ∃ (P₀ P P' : RsaPool) (key : String × String),
      (authLoop (String × String) testSettings).Reaches rsaStart P₀ ∧
      Enters testSettings signedToken "unit-test-key" P₀ P P' ∧
      Extended.ofRat P.store.now < P.store.expires_at ∧
      P.store.keys.get? "unit-test-key" = some key ∧
      decide (P₀.store.expires_at ≤ Extended.ofRat P₀.store.now) = expired := by
  obtain ⟨P₀, hbefore, h⟩ := (Option.any_eq_true _ _).mp h
  obtain ⟨P₁, hspawn, h⟩ := (Option.any_eq_true _ _).mp h
  obtain ⟨P, hbetween, h⟩ := (Option.any_eq_true _ _).mp h
  obtain ⟨henters, hlock, hexpired, hunexpired, hknown⟩ := of_decide_eq_true h
  obtain ⟨P', henters⟩ := Option.isSome_iff_exists.mp henters
  obtain ⟨t, ht, hlock⟩ := (Option.any_eq_true _ _).mp hlock
  obtain ⟨k, hwaits⟩ := atLock_iff hlock
  obtain ⟨key, hkey⟩ := Option.isSome_iff_exists.mp hknown
  exact ⟨P₀, P, P', key, playRsa_reaches hbefore, ⟨header_signedToken,
    ⟨P₁, actRsa_turn hspawn, playRsa_reaches hbetween⟩, ⟨t, k, ht, hwaits⟩, actRsa_turn henters⟩,
    hunexpired, hkey, hexpired⟩

/-- Two calls miss the key of their tokens; the second one fetches what the first one has
just stored. -/
theorem not_refreshes_coalesce :
    ¬ ∀ (P₀ P P' : RsaPool) (token kid : String) (key : String × String),
      (authLoop (String × String) testSettings).Reaches rsaStart P₀ →
      Enters testSettings token kid P₀ P P' → Extended.ofRat P.store.now < P.store.expires_at →
      P.store.keys.get? kid = some key → Silent testSettings P₀.threads.length P' := by
  intro hall
  have hrun : entry [.spawn (.getKey "older-key"), .run 0 keysResponse, .run 0 discoveryResponse,
      .run 0 olderKeysResponse, .spawn (.validate signedToken)]
      [.run 1 keysResponse, .run 1 discoveryResponse, .run 1 keysResponse] false = true := by
    decide +kernel
  obtain ⟨P₀, P, P', key, hreach, henters, hunexpired, hknown, hexpired⟩ := entry_enters hrun
  have hsilent := hall P₀ P P' _ _ key hreach henters hunexpired hknown
  exact absurd ((henters.silent_iff hunexpired hknown).mp hsilent) (of_decide_eq_false hexpired)

/-- Two calls find the cache expired; the second one makes no request. -/
theorem refreshes_coalesce_two :
    ∃ (P₀ P P' : RsaPool), Enters testSettings signedToken "unit-test-key" P₀ P P' ∧
      Silent testSettings P₀.threads.length P' := by
  have hrun : entry [.spawn (.validate signedToken)]
      [.run 0 keysResponse, .run 0 discoveryResponse, .run 0 keysResponse] true = true := by
    decide +kernel
  obtain ⟨P₀, P, P', key, hreach, henters, hunexpired, hknown, hexpired⟩ := entry_enters hrun
  have hcoalesce := (refreshes_coalesce_iff Clock.ticking_monotone).1 P₀ P P' _ _ key hreach
    henters hunexpired hknown
  exact ⟨P₀, P, P', henters, hcoalesce.mpr (of_decide_eq_true hexpired)⟩

end Example

end EmployeePortal.Auth.EntraTokenValidator
