import EmployeePortal.Auth.SigningKeys

/-!
# The key cache on its loop

Calls of one process share the validator's keys, their expiry and the lock. Each call
leaves a session from which one can tell what it asked, what it was answered and which
refresh its key comes from; `KeyResult` says all that a `_get_key` can do.
-/

namespace EmployeePortal.Auth.EntraTokenValidator

open EmployeePortal.Python EmployeePortal.Framework

/-! ## What the calls share -/

/-- One GET and what became of it. -/
structure Exchange where
  url : String
  answer : Except Exc HttpResponse

/-- A refresh that stored its keys: its exchanges, and when it was over. -/
structure Refresh where
  exchanges : List Exchange
  completed : ℚ

/-- `clock` and `wall` hold the readings to come from reading `ticks` on; `refreshes`
is a record of the successful refreshes, the latest one last. -/
structure KeyCache (κ : Type) where
  clock : Clock
  wall : ℕ → ℚ
  ticks : ℕ := 0
  keys : Dict κ := []
  expires_at : Extended := .ofRat 0
  locked : Bool := false
  refreshes : List Refresh := []

def KeyCache.now {κ : Type} (s : KeyCache κ) : ℚ := s.clock s.ticks

/-- What is known about one call: its last reading of the clock, its exchanges, the
refresh it completed, the latest refresh when it last looked at the keys, and the
time at which it decoded its token. -/
structure KeySession where
  checked : ℚ := 0
  exchanges : List Exchange := []
  completed : Option Refresh := none
  latest : Option Refresh := none
  decoded : Option ℚ := none

section Ops

variable {κ : Type}

/-- What happens at once. -/
def statements : Statements (AuthOp κ) AuthOp.Answer Exc (KeyCache κ) KeySession
  | .monotonic => some fun s l =>
      (.ok s.now, { s with ticks := s.ticks + 1 }, { l with checked := s.now })
  | .time => some fun s l =>
      (.ok (s.wall s.ticks), { s with ticks := s.ticks + 1 },
        { l with decoded := some (s.wall s.ticks) })
  | .keys => some fun s l => (.ok s.keys, s, { l with latest := s.refreshes.getLast? })
  | .expiresAt => some fun s l => (.ok s.expires_at, s, l)
  | .setKeys keys => some fun s l => (.ok (), { s with keys := keys }, l)
  | .setExpiresAt time => some fun s l =>
      (.ok (), { s with
        expires_at := time
        refreshes := s.refreshes ++ [⟨l.exchanges, l.checked⟩] },
        { l with completed := some ⟨l.exchanges, l.checked⟩ })
  | .lockRelease => some fun s l => (.ok (), { s with locked := false }, l)
  | _ => none

/-- What is awaited: the lock, handed to one call at a time, and the identity provider,
which may answer anything. -/
inductive Awaited : (o : AuthOp κ) → KeyCache κ → KeySession → Except Exc o.Answer →
    KeyCache κ → KeySession → Prop
  | lockAcquire {s l} (h : s.locked = false) :
      Awaited .lockAcquire s l (.ok ()) { s with locked := true } l
  | get {s l url} (r : Except Exc HttpResponse) :
      Awaited (.get url) s l r s { l with exchanges := l.exchanges ++ [⟨url, r⟩] }

/-! ## One rule for each operation -/

section Rules

variable {α : Type} {K : Contract (KeyCache κ)}
  {Q : Except Exc α → KeyCache κ → KeyCache κ → KeySession → Prop}
  {s₀ s : KeyCache κ} {l : KeySession}

theorem keeps_monotonic {f : ℚ → AuthTask κ α} :
    Keeps K statements Awaited Q (Prog.perform AuthOp.monotonic >>= f) s₀ s l ↔
      Keeps K statements Awaited Q (f s.now) s₀ { s with ticks := s.ticks + 1 }
        { l with checked := s.now } := by
  rw [Keeps.bind_iff, Keeps.perform_sync rfl]
  rfl

theorem keeps_time {f : ℚ → AuthTask κ α} :
    Keeps K statements Awaited Q (Prog.perform AuthOp.time >>= f) s₀ s l ↔
      Keeps K statements Awaited Q (f (s.wall s.ticks)) s₀ { s with ticks := s.ticks + 1 }
        { l with decoded := some (s.wall s.ticks) } := by
  rw [Keeps.bind_iff, Keeps.perform_sync rfl]
  rfl

theorem keeps_keys {f : Dict κ → AuthTask κ α} :
    Keeps K statements Awaited Q (Prog.perform AuthOp.keys >>= f) s₀ s l ↔
      Keeps K statements Awaited Q (f s.keys) s₀ s
        { l with latest := s.refreshes.getLast? } := by
  rw [Keeps.bind_iff, Keeps.perform_sync rfl]
  rfl

theorem keeps_expiresAt {f : Extended → AuthTask κ α} :
    Keeps K statements Awaited Q (Prog.perform AuthOp.expiresAt >>= f) s₀ s l ↔
      Keeps K statements Awaited Q (f s.expires_at) s₀ s l := by
  rw [Keeps.bind_iff, Keeps.perform_sync rfl]
  rfl

theorem keeps_setKeys {keys : Dict κ} {f : Unit → AuthTask κ α} :
    Keeps K statements Awaited Q (Prog.tell (AuthOp.setKeys keys) >>= f) s₀ s l ↔
      Keeps K statements Awaited Q (f ()) s₀ { s with keys := keys } l := by
  rw [Prog.tell_bind, Keeps.op_sync rfl]

theorem keeps_setExpiresAt {time : Extended}
    {Q : Except Exc Unit → KeyCache κ → KeyCache κ → KeySession → Prop} :
    Keeps K statements Awaited Q (Prog.tell (AuthOp.setExpiresAt time)) s₀ s l ↔
      Q (.ok ()) s₀ { s with
        expires_at := time
        refreshes := s.refreshes ++ [⟨l.exchanges, l.checked⟩] }
        { l with completed := some ⟨l.exchanges, l.checked⟩ } := by
  rw [Prog.tell, Keeps.op_sync rfl]
  rfl

theorem keeps_lockRelease {f : Unit → AuthTask κ α} :
    Keeps K statements Awaited Q (Prog.tell AuthOp.lockRelease >>= f) s₀ s l ↔
      Keeps K statements Awaited Q (f ()) s₀ { s with locked := false } l := by
  rw [Prog.tell_bind, Keeps.op_sync rfl]

theorem keeps_lockAcquire {f : Unit → AuthTask κ α} (hinv : K.inv s) (hguar : K.guar s₀ s)
    (h : ∀ s₁, K.rely s s₁ → K.inv s₁ →
      Keeps K statements Awaited Q (f ()) s₁ { s₁ with locked := true } l) :
    Keeps K statements Awaited Q (Prog.perform AuthOp.lockAcquire >>= f) s₀ s l := by
  rw [Keeps.bind_iff, Keeps.perform_await rfl]
  refine ⟨hinv, hguar, ?_⟩
  intro s₁ hrely hinv₁ r s₂ l₂ hanswer
  cases hanswer with
  | lockAcquire _ => exact h s₁ hrely hinv₁

theorem keeps_get {url : String} {f : HttpResponse → AuthTask κ α} (hinv : K.inv s)
    (hguar : K.guar s₀ s)
    (h : ∀ s₁, K.rely s s₁ → K.inv s₁ → ∀ r, Keeps.andThen K statements Awaited f Q r s₁ s₁
      { l with exchanges := l.exchanges ++ [⟨url, r⟩] }) :
    Keeps K statements Awaited Q (Prog.perform (AuthOp.get url) >>= f) s₀ s l := by
  rw [Keeps.bind_iff, Keeps.perform_await rfl]
  refine ⟨hinv, hguar, ?_⟩
  intro s₁ hrely hinv₁ r s₂ l₂ hanswer
  cases hanswer with
  | get r => exact h s₁ hrely hinv₁ r

end Rules

end Ops

/-! ## Time -/

section Time

variable {κ : Type}

/-- Time passes, and keys and expiry stay as they are until a refresh is complete. -/
structure Later (s s' : KeyCache κ) : Prop where
  clock : s'.clock = s.clock
  ticks : s.ticks ≤ s'.ticks
  refreshes : s.refreshes <+: s'.refreshes
  unchanged : s'.refreshes = s.refreshes → s'.keys = s.keys ∧ s'.expires_at = s.expires_at

theorem Later.refl (s : KeyCache κ) : Later s s :=
  ⟨rfl, le_rfl, List.prefix_rfl, fun _ => ⟨rfl, rfl⟩⟩

theorem Later.trans {s t u : KeyCache κ} (h : Later s t) (h' : Later t u) : Later s u where
  clock := h'.clock.trans h.clock
  ticks := h.ticks.trans h'.ticks
  refreshes := h.refreshes.trans h'.refreshes
  unchanged := by
    intro hsame
    -- nothing was added on the way either
    have hmiddle : t.refreshes = s.refreshes := by
      have hback : t.refreshes <+: s.refreshes := hsame ▸ h'.refreshes
      exact hback.eq_of_length (le_antisymm hback.length_le h.refreshes.length_le)
    obtain ⟨hkeys, hexpires⟩ := h.unchanged hmiddle
    obtain ⟨hkeys', hexpires'⟩ := h'.unchanged (hsame.trans hmiddle.symm)
    exact ⟨hkeys'.trans hkeys, hexpires'.trans hexpires⟩

variable {s₀ s s' : KeyCache κ}

/-- What counts stays as it is. -/
theorem Later.of_eq (hclock : s'.clock = s.clock) (hticks : s.ticks ≤ s'.ticks)
    (hkeys : s'.keys = s.keys) (hexpires : s'.expires_at = s.expires_at)
    (hrefreshes : s'.refreshes = s.refreshes) : Later s s' :=
  ⟨hclock, hticks, hrefreshes ▸ List.prefix_rfl, fun _ => ⟨hkeys, hexpires⟩⟩

/-- A refresh that is complete. -/
theorem Later.store (h : Later s₀ s) (exchanges : List Exchange)
    (keys : Dict κ) (time : Extended) :
    Later s₀ { s with
      keys := keys
      ticks := s.ticks + 1
      expires_at := time
      refreshes := s.refreshes ++ [⟨exchanges, s.now⟩] } where
  clock := h.clock
  ticks := h.ticks.trans (Nat.le_succ _)
  refreshes := h.refreshes.trans (List.prefix_append _ _)
  unchanged := by
    intro hsame
    have hlength := congrArg List.length hsame
    have hprefix := h.refreshes.length_le
    rw [List.length_append, List.length_singleton] at hlength
    omega

end Time

/-! ## Refreshes -/

section Refreshes

variable {κ : Type} [Jwt κ] [UnicodeData] [UrlData]

/-- What `_refresh_keys` tries comes to `r` in these exchanges. -/
inductive Fetch (settings : Settings) : List Exchange → Except Exc (Dict κ) → Prop
  | unanswered (e : Exc) : Fetch settings [⟨settings.entraDiscoveryUrl, .error e⟩] (.error e)
  | discovery {response : HttpResponse} {e : Exc}
      (h : (readBody response >>= readDiscovery settings) = .error e) :
      Fetch settings [⟨settings.entraDiscoveryUrl, .ok response⟩] (.error e)
  | keysUnanswered {response : HttpResponse} {jwks_uri : String} (e : Exc)
      (h : (readBody response >>= readDiscovery settings) = .ok jwks_uri) :
      Fetch settings [⟨settings.entraDiscoveryUrl, .ok response⟩, ⟨jwks_uri, .error e⟩] (.error e)
  | keys {response keys_response : HttpResponse} {jwks_uri : String}
      (h : (readBody response >>= readDiscovery settings) = .ok jwks_uri) :
      Fetch settings [⟨settings.entraDiscoveryUrl, .ok response⟩, ⟨jwks_uri, .ok keys_response⟩]
        (readBody keys_response >>= readKeys)

/-- The clock does not go back, and the keys and their expiry are those of the latest
refresh. -/
structure Coherent (settings : Settings) (s : KeyCache κ) : Prop where
  clock : Monotone s.clock
  past : ∀ refresh ∈ s.refreshes, refresh.completed ≤ s.now
  fetched : ∀ refresh ∈ s.refreshes, ∃ keys : Dict κ, Fetch settings refresh.exchanges (.ok keys)
  empty : s.refreshes.getLast? = none → s.keys = []
  latest : ∀ refresh, s.refreshes.getLast? = some refresh →
    Fetch settings refresh.exchanges (.ok s.keys) ∧
      s.expires_at = expiry settings refresh.completed

/-- Every call keeps the cache coherent. -/
def cacheContract (settings : Settings) : Contract (KeyCache κ) :=
  Contract.along (Coherent settings) Later Later.refl Later.trans

section Store

variable {settings : Settings} {s s' : KeyCache κ}

/-- Reading a clock and moving the lock change nothing that counts. -/
theorem Coherent.congr (h : Coherent settings s) (hclock : s'.clock = s.clock)
    (hticks : s.ticks ≤ s'.ticks) (hkeys : s'.keys = s.keys)
    (hexpires : s'.expires_at = s.expires_at) (hrefreshes : s'.refreshes = s.refreshes) :
    Coherent settings s' where
  clock := hclock ▸ h.clock
  past := by
    intro refresh hmem
    rw [hrefreshes] at hmem
    refine (h.past refresh hmem).trans ?_
    rw [KeyCache.now, KeyCache.now, hclock]
    exact h.clock hticks
  fetched := hrefreshes ▸ h.fetched
  empty := by
    rw [hrefreshes, hkeys]
    exact h.empty
  latest := by
    rw [hrefreshes, hkeys, hexpires]
    exact h.latest

theorem Coherent.tick (h : Coherent settings s) :
    Coherent settings { s with ticks := s.ticks + 1 } :=
  h.congr rfl (Nat.le_succ _) rfl rfl rfl

/-- What a refresh stores is coherent. -/
theorem Coherent.store (h : Coherent settings s) {exchanges : List Exchange} {keys : Dict κ}
    (hfetch : Fetch settings exchanges (.ok keys)) :
    Coherent settings { s with
      keys := keys
      ticks := s.ticks + 1
      expires_at := expiry settings s.now
      refreshes := s.refreshes ++ [⟨exchanges, s.now⟩] } where
  clock := h.clock
  past := by
    intro refresh hmem
    have hnow : s.now ≤ s.clock (s.ticks + 1) := h.clock (Nat.le_succ _)
    rcases List.mem_append.mp hmem with hold | hnew
    · exact (h.past refresh hold).trans hnow
    · obtain rfl := List.mem_singleton.mp hnew
      exact hnow
  fetched := by
    intro refresh hmem
    rcases List.mem_append.mp hmem with hold | hnew
    · exact h.fetched refresh hold
    · obtain rfl := List.mem_singleton.mp hnew
      exact ⟨keys, hfetch⟩
  empty := by simp
  latest := by
    intro refresh hlast
    obtain rfl : ⟨exchanges, s.now⟩ = refresh := by simpa using hlast
    exact ⟨hfetch, rfl⟩

end Store

/-! ## What a refresh does -/

variable {settings : Settings} {s₀ s : KeyCache κ} {l : KeySession}

theorem fetchKeys_eq : (fetchKeys settings : AuthTask κ (Dict κ)) = (do
    let response ← Prog.perform (AuthOp.get settings.entraDiscoveryUrl)
    let jwks_uri ← Prog.ofExcept (readBody response >>= readDiscovery settings)
    let keys_response ← Prog.perform (AuthOp.get jwks_uri)
    Prog.ofExcept (readBody keys_response >>= readKeys)) := by
  simp only [fetchKeys, Prog.liftM_eq, Prog.ofExcept_bind, bind_assoc]

/-- The store is as the others leave it, and the session holds the exchanges. -/
theorem fetchKeys_keeps {Q : Except Exc (Dict κ) → KeyCache κ → KeyCache κ → KeySession → Prop}
    (h : Coherent settings s) (hlater : Later s₀ s) (hnone : l.exchanges = [])
    (hQ : ∀ s₁ exchanges r, Coherent settings s₁ → Fetch settings exchanges r →
      Q r s₁ s₁ { l with exchanges := exchanges }) :
    Keeps (cacheContract settings) statements Awaited Q (fetchKeys settings) s₀ s l := by
  rw [fetchKeys_eq]
  refine keeps_get h hlater ?_
  intro s₁ _ hinv₁ r
  rw [hnone, List.nil_append]
  cases r with
  | error e => exact hQ s₁ _ _ hinv₁ (.unanswered e)
  | ok response =>
    change Keeps _ _ _ _ (_ >>= _) _ _ _
    cases hdiscovery : readBody response >>= readDiscovery settings with
    | error e => exact hQ s₁ _ _ hinv₁ (.discovery hdiscovery)
    | ok jwks_uri =>
      rw [Prog.ofExcept_ok, Prog.ret_bind]
      refine keeps_get hinv₁ (Later.refl s₁) ?_
      intro s₂ _ hinv₂ r
      cases r with
      | error e => exact hQ s₂ _ _ hinv₂ (.keysUnanswered e hdiscovery)
      | ok keys_response =>
        change Keeps _ _ _ _ _ _ _ _
        rw [Keeps.ofExcept_iff]
        exact hQ s₂ _ _ hinv₂ (.keys hdiscovery)

/-- At `checked`, the refresh had been over for less than the lifetime of its keys. -/
structure Recent (settings : Settings) (refresh : Refresh) (checked : ℚ) : Prop where
  past : refresh.completed ≤ checked
  fresh : checked < refresh.completed + settings.ENTRA_METADATA_CACHE_SECONDS

omit [UnicodeData] [UrlData] in
/-- What is before the rounded sum is before the exact one. -/
theorem lt_of_lt_expiry {completed now : ℚ} (hfloat : IsFloat now)
    (h : Extended.ofRat now < expiry settings completed) :
    now < completed + settings.ENTRA_METADATA_CACHE_SECONDS := by
  by_contra hnot
  have hround := Extended.round_mono (not_lt.mp hnot)
  rw [Extended.round_of_isFloat hfloat] at hround
  exact absurd h (not_lt.mpr hround)

theorem Coherent.recent (h : Coherent settings s) (hkeys : s.keys ≠ [])
    (hunexpired : Extended.ofRat s.now < s.expires_at) :
    ∃ refresh, s.refreshes.getLast? = some refresh ∧ Recent settings refresh s.now := by
  cases hlast : s.refreshes.getLast? with
  | none => exact absurd (h.empty hlast) hkeys
  | some refresh =>
    obtain ⟨-, hexpires⟩ := h.latest refresh hlast
    rw [hexpires] at hunexpired
    exact ⟨refresh, rfl, h.past refresh (List.mem_of_getLast? hlast),
      lt_of_lt_expiry (s.clock.isFloat _) hunexpired⟩

/-- What becomes of an exception inside the `try`. -/
def refreshRaises (e : Exc) : Exc := if refreshCatches e then identityProviderUnavailable else e

/-- How `_refresh_keys` can end: the cache turns out to be recent, the call stores what
it fetched, or a step of its own refresh failed and nothing is stored. -/
inductive Refreshed (settings : Settings) : Post Exc Unit (KeyCache κ) KeySession
  | cached {s : KeyCache κ} {l : KeySession} {refresh : Refresh} (hexchanges : l.exchanges = [])
      (hcompleted : l.completed = none) (hlast : s.refreshes.getLast? = some refresh)
      (hrecent : Recent settings refresh l.checked) : Refreshed settings (.ok ()) s l
  | stored {s : KeyCache κ} {l : KeySession} {refresh : Refresh}
      (hexchanges : refresh.exchanges = l.exchanges) (hcompleted : l.completed = some refresh)
      (hlast : s.refreshes.getLast? = some refresh) : Refreshed settings (.ok ()) s l
  | failed {s : KeyCache κ} {l : KeySession} {e : Exc} (hcompleted : l.completed = none)
      (hfetch : Fetch settings l.exchanges (.error e : Except Exc (Dict κ))) :
      Refreshed settings (.error (refreshRaises e)) s l

/-- A session in which nothing has been asked, stored or decoded. -/
structure Untouched (l : KeySession) : Prop where
  exchanges : l.exchanges = []
  completed : l.completed = none
  decoded : l.decoded = none

/-- `Refreshed`, of a call that has not decoded its token yet. -/
def refreshEnds (settings : Settings) :
    Except Exc Unit → KeyCache κ → KeyCache κ → KeySession → Prop :=
  ends (cacheContract settings) fun r s l => Refreshed settings r s l ∧ l.decoded = none

/-- The part of `_refresh_keys` after the check inside the lock. -/
def fetchAndStore (settings : Settings) : AuthTask κ Unit := do
  let keys ← tryCatchThe Exc (fetchKeys settings) fun e =>
    if refreshCatches e then throw identityProviderUnavailable else throw e
  Prog.tell (AuthOp.setKeys keys)
  let now ← Prog.perform AuthOp.monotonic
  Prog.tell (AuthOp.setExpiresAt (expiry settings now))

theorem fetchAndStore_keeps (h : Coherent settings s) (hlater : Later s₀ s)
    (hnew : Untouched l) :
    Keeps (cacheContract settings) statements Awaited (refreshEnds settings)
      (fetchAndStore settings) s₀ s l := by
  unfold fetchAndStore
  rw [Keeps.bind_iff, Keeps.tryCatch_iff]
  refine fetchKeys_keeps h hlater hnew.exchanges ?_
  intro s₁ exchanges r hinv₁ hfetch
  cases r with
  | error e =>
    have hraised : (if refreshCatches e then throw identityProviderUnavailable else throw e :
        AuthTask κ (Dict κ)) = throw (refreshRaises e) := by
      unfold refreshRaises
      split <;> rfl
    change Keeps _ _ _ _ (if refreshCatches e then _ else _) _ _ _
    rw [hraised]
    exact ⟨hinv₁, Later.refl s₁, .failed hnew.completed hfetch, hnew.decoded⟩
  | ok keys =>
    change Keeps _ _ _ _ (_ >>= _) _ _ _
    rw [keeps_setKeys, keeps_monotonic, keeps_setExpiresAt]
    exact ⟨hinv₁.store hfetch, (Later.refl s₁).store exchanges keys _,
      .stored rfl rfl (List.getLast?_concat ..), hnew.decoded⟩

theorem refreshLocked_eq (force : Bool) : (refreshLocked settings force : AuthTask κ Unit) =
    if force then fetchAndStore settings
    else (do
      let now ← Prog.perform AuthOp.monotonic
      let expires_at ← Prog.perform AuthOp.expiresAt
      let keys ← Prog.perform AuthOp.keys
      if (decide (Extended.ofRat now < expires_at) && !keys.isEmpty : Bool) then return ()
      else fetchAndStore settings) := by
  cases force with
  | true => rfl
  | false =>
    simp only [refreshLocked, Bool.false_eq_true, if_false, bind_assoc, pure_bind]
    rfl

theorem refreshLocked_keeps (force : Bool) (h : Coherent settings s) (hlater : Later s₀ s)
    (hnew : Untouched l) :
    Keeps (cacheContract settings) statements Awaited (refreshEnds settings)
      (refreshLocked settings force) s₀ s l := by
  rw [refreshLocked_eq]
  cases force with
  | true => exact fetchAndStore_keeps h hlater hnew
  | false =>
    rw [if_neg Bool.false_ne_true, keeps_monotonic, keeps_expiresAt, keeps_keys]
    by_cases hvalid : (decide (Extended.ofRat s.now < s.expires_at) && !s.keys.isEmpty) = true
    · rw [if_pos hvalid]
      obtain ⟨hunexpired, hkeys⟩ := by simpa using hvalid
      obtain ⟨refresh, hlast, hrecent⟩ := h.recent hkeys hunexpired
      exact ⟨h.tick, hlater.trans (Later.of_eq rfl (Nat.le_succ _) rfl rfl rfl),
        .cached hnew.exchanges hnew.completed hlast hrecent, hnew.decoded⟩
    · rw [if_neg hvalid]
      exact fetchAndStore_keeps h.tick
        (hlater.trans (Later.of_eq rfl (Nat.le_succ _) rfl rfl rfl))
        ⟨hnew.exchanges, hnew.completed, hnew.decoded⟩

theorem refreshKeys_keeps (force : Bool) (h : Coherent settings s) (hlater : Later s₀ s)
    (hnew : Untouched l) :
    Keeps (cacheContract settings) statements Awaited (refreshEnds settings)
      (refreshKeys settings force) s₀ s l := by
  unfold refreshKeys
  rw [Prog.inside]
  refine keeps_lockAcquire h hlater ?_
  intro s₁ _ hinv₁
  rw [Keeps.bind_iff, Keeps.attempt_iff]
  have hlocked : Coherent settings { s₁ with locked := true } :=
    hinv₁.congr rfl le_rfl rfl rfl rfl
  have hentered : Later s₁ { s₁ with locked := true } := Later.of_eq rfl le_rfl rfl rfl rfl
  refine (refreshLocked_keeps force hlocked hentered hnew).mono ?_
  rintro r s₂ s₃ l₃ ⟨hinv₃, hlater₃, hend, hdecoded⟩
  -- leaving the lock
  change Keeps _ _ _ _ (_ >>= _) _ _ _
  rw [keeps_lockRelease, Keeps.ofExcept_iff]
  refine ⟨hinv₃.congr rfl le_rfl rfl rfl rfl,
    Later.trans hlater₃ (Later.of_eq rfl le_rfl rfl rfl rfl), ?_, hdecoded⟩
  cases hend with
  | cached hexchanges hcompleted hlast hrecent =>
    exact .cached hexchanges hcompleted hlast hrecent
  | stored hexchanges hcompleted hlast => exact .stored hexchanges hcompleted hlast
  | failed hcompleted hfetch => exact .failed hcompleted hfetch

/-! ## What a call does -/

/-- The key under `kid`, or the error for a key id that is unknown. -/
def findKey (keys : Dict κ) (kid : String) : Except Exc κ :=
  match keys.get? kid with
  | some key => .ok key
  | none => .error invalid

/-- How `_get_key` can end: it looks into keys that are recent, into the keys of its own
refresh, or its own refresh failed. -/
inductive KeyResult (settings : Settings) (kid : String) (l : KeySession) : Except Exc κ → Prop
  | cached {refresh : Refresh} {keys : Dict κ} (hexchanges : l.exchanges = [])
      (hcompleted : l.completed = none) (hlatest : l.latest = some refresh)
      (hrecent : Recent settings refresh l.checked)
      (hfetch : Fetch settings refresh.exchanges (.ok keys)) :
      KeyResult settings kid l (findKey keys kid)
  | stored {refresh : Refresh} {keys : Dict κ} (hexchanges : refresh.exchanges = l.exchanges)
      (hcompleted : l.completed = some refresh) (hlatest : l.latest = some refresh)
      (hfetch : Fetch settings l.exchanges (.ok keys)) :
      KeyResult settings kid l (findKey keys kid)
  | failed {e : Exc} (hcompleted : l.completed = none)
      (hfetch : Fetch settings l.exchanges (.error e : Except Exc (Dict κ))) :
      KeyResult settings kid l (.error (refreshRaises e))

/-- Whether and when the token is decoded says nothing about the key. -/
theorem KeyResult.decode {kid : String} {r : Except Exc κ} (h : KeyResult settings kid l r)
    (time : ℚ) : KeyResult settings kid { l with decoded := some time } r := by
  cases h with
  | cached hexchanges hcompleted hlatest hrecent hfetch =>
    exact .cached hexchanges hcompleted hlatest hrecent hfetch
  | stored hexchanges hcompleted hlatest hfetch =>
    exact .stored hexchanges hcompleted hlatest hfetch
  | failed hcompleted hfetch => exact .failed hcompleted hfetch

/-- The end of `_get_key`: a look into the keys. -/
def lookUp (kid : String) : AuthTask κ κ := do
  let keys ← Prog.perform AuthOp.keys
  Prog.ofExcept (findKey keys kid)

theorem getKey_eq (kid : String) : (getKey settings kid : AuthTask κ κ) = (do
    let now ← Prog.perform AuthOp.monotonic
    let expires_at ← Prog.perform AuthOp.expiresAt
    let keys ← Prog.perform AuthOp.keys
    if (decide (expires_at ≤ Extended.ofRat now) || (keys.get? kid).isNone : Bool) then
      refreshKeys settings (!decide (expires_at ≤ Extended.ofRat now) && (keys.get? kid).isNone) >>=
        fun _ => lookUp kid
    else lookUp kid) := by
  have hlook : (do
      let keys ← Prog.perform AuthOp.keys
      match keys.get? kid with
      | some key => return key
      | none => throw invalid : AuthTask κ κ) = lookUp kid := by
    refine bind_congr fun keys => ?_
    unfold findKey
    cases Dict.get? keys kid <;> rfl
  rw [← hlook]
  rfl

theorem getKey_keeps (kid : String) (h : Coherent settings s) (hlater : Later s₀ s) :
    Keeps (cacheContract settings) statements Awaited
      (ends (cacheContract settings) fun r _ l => KeyResult settings kid l r ∧ l.decoded = none)
      (getKey settings kid) s₀ s {} := by
  rw [getKey_eq, keeps_monotonic, keeps_expiresAt, keeps_keys]
  have htick : Later s₀ { s with ticks := s.ticks + 1 } :=
    hlater.trans (Later.of_eq rfl (Nat.le_succ _) rfl rfl rfl)
  by_cases hrefresh :
      (decide (s.expires_at ≤ Extended.ofRat s.now) || (s.keys.get? kid).isNone) = true
  · rw [if_pos hrefresh, Keeps.bind_iff]
    refine (refreshKeys_keeps _ h.tick htick ⟨rfl, rfl, rfl⟩).mono ?_
    rintro r s₁ s₂ l₂ ⟨hinv₂, hlater₂, hend, hdecoded⟩
    cases hend with
    | cached hexchanges hcompleted hlast hrecent =>
      refine keeps_keys.mpr ?_
      rw [Keeps.ofExcept_iff]
      exact ⟨hinv₂, hlater₂,
        .cached hexchanges hcompleted hlast hrecent (hinv₂.latest _ hlast).1, hdecoded⟩
    | stored hexchanges hcompleted hlast =>
      refine keeps_keys.mpr ?_
      rw [Keeps.ofExcept_iff]
      have hfetch := (hinv₂.latest _ hlast).1
      rw [hexchanges] at hfetch
      exact ⟨hinv₂, hlater₂, .stored hexchanges hcompleted hlast hfetch, hdecoded⟩
    | failed hcompleted hfetch => exact ⟨hinv₂, hlater₂, .failed hcompleted hfetch, hdecoded⟩
  · rw [if_neg hrefresh, lookUp, keeps_keys, Keeps.ofExcept_iff]
    obtain ⟨hunexpired, hknown⟩ : Extended.ofRat s.now < s.expires_at ∧ s.keys.get? kid ≠ none := by
      simpa using hrefresh
    have hkeys : s.keys ≠ [] := by
      intro hnil
      rw [hnil] at hknown
      exact hknown rfl
    obtain ⟨refresh, hlast, hrecent⟩ := h.recent hkeys hunexpired
    exact ⟨h.tick, htick, .cached rfl rfl hlast hrecent (h.latest _ hlast).1, rfl⟩

/-- How `validate` can end: at the header, at the key, or with what the token says. -/
inductive Validated (settings : Settings) (token : String) (l : KeySession) :
    Except Exc AuthenticatedUser → Prop
  | header {e : Exc} (hheader : readHeader κ token = .error e) (hnew : l = {}) :
      Validated settings token l (.error e)
  | keyless {kid : String} {e : Exc} (hheader : readHeader κ token = .ok kid)
      (hkey : KeyResult settings kid l (.error e : Except Exc κ)) (hdecoded : l.decoded = none) :
      Validated settings token l (.error e)
  | checked {kid : String} {key : κ} {time : ℚ} (hheader : readHeader κ token = .ok kid)
      (hkey : KeyResult settings kid l (.ok key)) (hdecoded : l.decoded = some time) :
      Validated settings token l (checkToken settings token key time)

theorem validate_keeps (token : String) (h : Coherent settings s) (hlater : Later s₀ s) :
    Keeps (cacheContract settings) statements Awaited
      (ends (cacheContract settings) fun r _ l => Validated (κ := κ) settings token l r)
      (validate settings token) s₀ s {} := by
  unfold validate
  cases hheader : readHeader κ token with
  | error e => exact ⟨h, hlater, .header hheader rfl⟩
  | ok kid =>
    rw [Prog.liftM_eq, Prog.ofExcept_ok, Prog.ret_bind, Keeps.bind_iff]
    refine (getKey_keeps kid h hlater).mono ?_
    rintro (e | key) s₁ s₂ l₂ ⟨hinv₂, hlater₂, hkey, hdecoded⟩
    · exact ⟨hinv₂, hlater₂, .keyless hheader hkey hdecoded⟩
    · refine keeps_time.mpr ?_
      rw [Prog.liftM_eq, Keeps.ofExcept_iff]
      exact ⟨hinv₂.tick, hlater₂.trans (Later.of_eq rfl (Nat.le_succ _) rfl rfl rfl),
        .checked hheader (hkey.decode _) rfl⟩

/-! ## The loop -/

/-- Calls of the validator. `_get_key` is called by `validate` only; on its own, its
result can be looked at. -/
inductive AuthCall where
  | getKey (kid : String)
  | validate (token : String)
deriving DecidableEq

/-- Calls sharing one validator. -/
def authLoop (κ : Type) [Jwt κ] (settings : Settings) :
    Loop (AuthOp κ) AuthOp.Answer Exc (κ ⊕ AuthenticatedUser) (KeyCache κ) KeySession AuthCall where
  body := fun
    | .getKey kid => do return .inl (← getKey settings kid)
    | .validate token => do return .inr (← validate settings token)
  start := {}
  sem := fun _ => Awaited
  sync := statements

instance (settings : Settings) : DecidablePred (authLoop κ settings).admits :=
  fun _ => .isTrue trivial

/-- How a call can end. -/
def Ended (settings : Settings) :
    AuthCall → Post Exc (κ ⊕ AuthenticatedUser) (KeyCache κ) KeySession
  | .getKey kid, r, _, l => ∃ x : Except Exc κ, r = x.map Sum.inl ∧ KeyResult settings kid l x
  | .validate token, r, _, l =>
      ∃ x, r = x.map Sum.inr ∧ Validated (κ := κ) settings token l x

theorem authLoop_keeps (c : AuthCall) (s : KeyCache κ) (h : Coherent settings s) :
    Keeps (cacheContract settings) (authLoop κ settings).sync ((authLoop κ settings).sem c)
      (ends (cacheContract settings) (Ended settings c)) ((authLoop κ settings).body c) s s {} := by
  cases c with
  | getKey kid =>
    refine Keeps.bind_iff.mpr ?_
    refine (getKey_keeps kid h (Later.refl s)).mono ?_
    rintro (e | key) s₁ s₂ l ⟨hinv, hlater, hkey, -⟩
    · exact ⟨hinv, hlater, .error e, rfl, hkey⟩
    · exact ⟨hinv, hlater, .ok key, rfl, hkey⟩
  | validate token =>
    refine Keeps.bind_iff.mpr ?_
    refine (validate_keeps token h (Later.refl s)).mono ?_
    rintro (e | user) s₁ s₂ l ⟨hinv, hlater, hvalidated⟩
    · exact ⟨hinv, hlater, .error e, rfl, hvalidated⟩
    · exact ⟨hinv, hlater, .ok user, rfl, hvalidated⟩

theorem Ended.stable (c : AuthCall) :
    Stable (cacheContract (κ := κ) settings) (Ended settings c) := by
  cases c with
  | getKey kid => exact fun _ _ _ _ hended _ _ => hended
  | validate token => exact fun _ _ _ _ hended _ _ => hended

/-- A validator as it is built. -/
def KeyCache.start (clock : Clock) (wall : ℕ → ℚ) : KeyCache κ := { clock, wall }

theorem Coherent.start {clock : Clock} {wall : ℕ → ℚ} (hclock : Monotone clock) :
    Coherent settings (KeyCache.start clock wall : KeyCache κ) where
  clock := hclock
  past := by simp [KeyCache.start]
  fetched := by simp [KeyCache.start]
  empty := fun _ => rfl
  latest := by simp [KeyCache.start]

/-- Every reachable pool keeps the contract. -/
theorem authLoop_kept {clock : Clock} {wall : ℕ → ℚ} (hclock : Monotone clock) {P}
    (h : (authLoop κ settings).Reaches ⟨KeyCache.start clock wall, []⟩ P) :
    (authLoop κ settings).Kept (cacheContract settings) (Ended settings) P :=
  Loop.kept_of_reaches (fun _ _ hguar => hguar) Ended.stable
    (fun _ _ _ henv => False.elim henv) (fun c s _ hinv => authLoop_keeps c s hinv) h
    (Loop.kept_nil _ _ _ (Coherent.start hclock))

/-! ## Playing the loop -/

/-- What an awaited operation answers and leaves; the cue holds the answer of the
identity provider. -/
def answer (_ : AuthCall) : (o : AuthOp κ) → KeyCache κ → KeySession → Except Exc HttpResponse →
    Option (Except Exc o.Answer × KeyCache κ × KeySession)
  | .lockAcquire, s, l, _ => if s.locked then none else some (.ok (), { s with locked := true }, l)
  | .get url, s, l, r => some (r, s, { l with exchanges := l.exchanges ++ [⟨url, r⟩] })
  | _, _, _, _ => none

omit [Jwt κ] [UnicodeData] [UrlData] in
theorem answer_awaited (c : AuthCall) (o : AuthOp κ) (s : KeyCache κ) (l : KeySession)
    (hint : Except Exc HttpResponse) (r : Except Exc o.Answer) (s' : KeyCache κ) (l' : KeySession)
    (h : answer c o s l hint = some (r, s', l')) : Awaited o s l r s' l' := by
  cases o with
  | lockAcquire =>
    cases hlocked : s.locked with
    | true => simp [answer, hlocked] at h
    | false =>
      obtain ⟨rfl, rfl, rfl⟩ := by simpa [answer, hlocked] using h
      exact .lockAcquire hlocked
  | get url =>
    obtain ⟨rfl, rfl, rfl⟩ := by simpa [answer] using h
    exact .get _
  | _ => cases h

end Refreshes

end EmployeePortal.Auth.EntraTokenValidator
