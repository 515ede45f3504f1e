import EmployeePortal.D365.TokenService

/-!
# Does a forced refresh replace the token?

`force_refresh` passes by the service's own token, and `invalidate` drops it. But
the acquisition that follows goes through MSAL, which answers from the token cache
the service gave it as long as an entry has enough lifetime left. So the request
after a 401 may carry the rejected token again; it does not where the cache has
nothing usable from before the 401.
-/

namespace EmployeePortal.D365.D365TokenService

open EmployeePortal.Python EmployeePortal.Framework

/-! ## MSAL -/

structure CacheEntry where
  token : String
  expires_on : ℚ

/-- The token cache, and what the identity provider has issued so far. -/
structure Msal where
  entries : List CacheEntry := []
  issued : List String := []

/-- The answer carries this token. -/
def Carries (result : Dict Json) (token : String) : Prop :=
  result.get? "access_token" = some (.str token)

/-- `acquire_token_for_client`: an entry with enough lifetime left is answered from the
cache; only where there is none the identity provider is asked, which issues a new
token or none. -/
inductive Msal.Answers (usable : CacheEntry → ℚ → Prop) :
    Msal → ℚ → Except Exc (Dict Json) → Msal → Prop
  | cached {p now e result} (he : e ∈ p.entries) (h : usable e now)
      (htoken : Carries result e.token) : Answers usable p now (.ok result) p
  | issued {p now token expires_on result} (hnone : ∀ e ∈ p.entries, ¬ usable e now)
      (hnew : token ∉ p.issued) (htoken : Carries result token) :
      Answers usable p now (.ok result)
        ⟨⟨token, expires_on⟩ :: p.entries, token :: p.issued⟩
  | refused {p now r} (hnone : ∀ e ∈ p.entries, ¬ usable e now)
      (h : ∀ result token, r = .ok result → ¬ Carries result token) : Answers usable p now r p

/-- Every request that follows a first 401 carries a token that was issued after that
401, so not the rejected one. -/
def Renewed (s : Service Msal) : Prop :=
  ∀ x ∈ s.requests, ∀ rejection, x.rejected = some rejection →
    x.token ∈ s.provider.issued ∧ x.token ∉ rejection.provider.issued ∧
      x.token ≠ rejection.token

/-- When a call acquires a token after a 401, nothing usable in MSAL's cache was issued
before that 401. -/
def NothingOld (usable : CacheEntry → ℚ → Prop) (_ : ClientCall) :
    (o : ServiceOp) → Service Msal → TokenSession Msal → Except Exc o.Answer → Prop
  | .acquireTokenForClient, s, l, _ => ∀ rejection started, l.rejected = some rejection →
      l.started = some started → ∀ e ∈ s.provider.entries, usable e started →
        e.token ∉ rejection.provider.issued
  | _, _, _, _ => True

/-! ## The invariant -/

/-- Whatever is in a cache was issued, and the requests so far are renewed. -/
structure Sound (s : Service Msal) : Prop where
  entries : ∀ e ∈ s.provider.entries, e.token ∈ s.provider.issued
  cached : ∀ token, s.token = some token → token.value ∈ s.provider.issued
  renewed : Renewed s

/-- Nothing issued is taken back. -/
def Grows (s s' : Service Msal) : Prop := s.provider.issued ⊆ s'.provider.issued

def issuedContract : Contract (Service Msal) :=
  Contract.along Sound Grows (fun _ => List.Subset.refl _) fun h h' => List.Subset.trans h h'

/-- The rejection a call still has to answer for: its token was issued before. -/
def Heard (s : Service Msal) (l : TokenSession Msal) : Prop :=
  ∀ rejection, l.rejected = some rejection →
    rejection.token ∈ rejection.provider.issued ∧
      rejection.provider.issued ⊆ s.provider.issued

theorem Heard.mono {s s' : Service Msal} {l : TokenSession Msal} (h : Heard s l)
    (hgrows : Grows s s') : Heard s' l := by
  intro rejection hrejection
  obtain ⟨hissued, hsub⟩ := h rejection hrejection
  exact ⟨hissued, List.Subset.trans hsub hgrows⟩

namespace Sound

variable {s : Service Msal}

/-- Only the provider, the token and the requests matter. -/
theorem congr {s' : Service Msal} (h : Sound s) (hprovider : s'.provider = s.provider)
    (htoken : s'.token = s.token ∨ s'.token = none) (hrequests : s'.requests = s.requests) :
    Sound s' where
  entries := by
    rw [hprovider]
    exact h.entries
  cached := by
    intro token hsome
    rw [hprovider]
    rcases htoken with hsame | hnone
    · exact h.cached token (hsame ▸ hsome)
    · rw [hnone] at hsome
      cases hsome
  renewed := by
    intro x hx
    rw [hprovider]
    exact h.renewed x (hrequests ▸ hx)

theorem store (h : Sound s) {token : AccessToken} (hissued : token.value ∈ s.provider.issued) :
    Sound { s with token := some token } where
  entries := h.entries
  cached := by
    intro token' hsome
    obtain rfl := Option.some.inj hsome
    exact hissued
  renewed := h.renewed

/-- A token that is served was issued. -/
theorem serve (h : Sound s) {force_refresh : Bool} {now : ℚ} {value : String}
    (hserve : serve force_refresh now s.token = some value) : value ∈ s.provider.issued := by
  cases htoken : s.token with
  | none =>
    rw [htoken] at hserve
    cases hserve
  | some token =>
    rw [htoken, D365TokenService.serve] at hserve
    obtain ⟨-, rfl⟩ := by simpa using hserve
    exact h.cached token htoken

/-- An acquisition keeps the invariant, and its token was issued. -/
theorem answer {usable : CacheEntry → ℚ → Prop} {started : ℚ} {r : Except Exc (Dict Json)}
    {p : Msal} (h : Sound s) (hanswer : Msal.Answers usable s.provider started r p) :
    Sound { s with provider := p } ∧ Grows s { s with provider := p } ∧
      ∀ result token, r = .ok result → Carries result token → token ∈ p.issued := by
  cases hanswer with
  | @cached e result he husable hcarries =>
    refine ⟨⟨h.entries, h.cached, h.renewed⟩, List.Subset.refl _, ?_⟩
    intro result' token hr htoken
    obtain rfl := Except.ok.inj hr
    obtain rfl : e.token = token := by simpa [Carries] using hcarries.symm.trans htoken
    exact h.entries e he
  | @issued token expires_on result hnone hnew hcarries =>
    have hgrows : Grows s { s with
        provider := ⟨⟨token, expires_on⟩ :: s.provider.entries, token :: s.provider.issued⟩ } :=
      List.subset_cons_self _ _
    refine ⟨⟨?_, ?_, ?_⟩, hgrows, ?_⟩
    · intro e he
      rcases List.mem_cons.mp he with rfl | hold
      · exact List.mem_cons_self
      · exact hgrows (h.entries e hold)
    · intro token' hsome
      exact hgrows (h.cached token' hsome)
    · intro x hx rejection hrejection
      obtain ⟨hissued, hrest⟩ := h.renewed x hx rejection hrejection
      exact ⟨hgrows hissued, hrest⟩
    · intro result' token' hr htoken
      obtain rfl := Except.ok.inj hr
      obtain rfl : token = token' := by simpa [Carries] using hcarries.symm.trans htoken
      exact List.mem_cons_self
  | refused hnone hno =>
    refine ⟨⟨h.entries, h.cached, h.renewed⟩, List.Subset.refl _, ?_⟩
    intro result token hr htoken
    exact absurd htoken (hno result token hr)

end Sound

/-! ## The calls -/

/-- How a call of `get_access_token` ends: its token was issued, and after a 401 also
not before it. -/
structure Obtained (force_refresh refreshed : Bool) (rejected : Option (Rejection Msal))
    (r : Except Exc String) (s₀ s : Service Msal) (l : TokenSession Msal) : Prop where
  sound : Sound s
  grows : Grows s₀ s
  refreshed_eq : l.refreshed = refreshed
  rejected_eq : l.rejected = rejected
  issued : ∀ value, r = .ok value → value ∈ s.provider.issued
  renewed : ∀ value, r = .ok value → force_refresh = true →
    ∀ rejection, rejected = some rejection → value ∉ rejection.provider.issued

theorem Obtained.failed {force_refresh : Bool} {l : TokenSession Msal} {e : Exc}
    {s₀ s : Service Msal} (hsound : Sound s) (hgrows : Grows s₀ s) :
    Obtained force_refresh l.refreshed l.rejected (.error e) s₀ s l := by
  refine ⟨hsound, hgrows, rfl, rfl, ?_, ?_⟩
  · intro value hv
    cases hv
  · intro value hv
    cases hv

/-- A forced call is never served from the service's own token. -/
theorem Obtained.served {force_refresh : Bool} {l : TokenSession Msal} {value : String}
    {s₀ s : Service Msal} (h : Sound s) (hgrows : Grows s₀ s)
    (hserve : serve force_refresh s.now s.token = some value) :
    Obtained force_refresh l.refreshed l.rejected (.ok value) s₀ { s with ticks := s.ticks + 1 }
      { l with checked := s.now } := by
  refine ⟨h.congr rfl (Or.inl rfl) rfl, hgrows, rfl, rfl, ?_, ?_⟩
  · intro v hv
    cases hv
    exact h.serve hserve
  · intro v _ hforce
    rw [hforce] at hserve
    cases htoken : s.token with
    | none =>
      rw [htoken] at hserve
      cases hserve
    | some token =>
      rw [htoken, serve] at hserve
      simp at hserve

/-- The next attempt of `_get` with a token just obtained. -/
theorem send_sound {f b : Bool} {l l₂ : TokenSession Msal} {s s₁ s₂ : Service Msal}
    {request : GetRequest} (hheard : Heard s l)
    (hforced : ∀ rejection, l.rejected = some rejection → f = true)
    (hobtained : Obtained f b l.rejected (.ok request.token) s₁ s₂ l₂) :
    Sound { s₂ with requests := s₂.requests ++ [⟨request.token, l₂.rejected⟩] } where
  entries := hobtained.sound.entries
  cached := hobtained.sound.cached
  renewed := by
    intro x hx rejection hrejection
    rcases List.mem_append.mp hx with hold | hnew
    · exact hobtained.sound.renewed x hold rejection hrejection
    · obtain rfl := List.mem_singleton.mp hnew
      have hsame : l.rejected = some rejection := hobtained.rejected_eq ▸ hrejection
      have hnot := hobtained.renewed _ rfl (hforced rejection hsame) rejection hsame
      refine ⟨hobtained.issued _ rfl, hnot, ?_⟩
      intro heq
      change request.token = rejection.token at heq
      exact hnot (heq ▸ (hheard rejection hsame).1)

section Calls

variable [UnicodeData] [FloatData] {usable : CacheEntry → ℚ → Prop} {c : ClientCall}
  {sem : OpSem ServiceOp ServiceOp.Answer Exc (Service Msal) (TokenSession Msal)}
  (hsem : ∀ o s l r s' l', sem o s l r s' l' → Awaited (Msal.Answers usable) o s l r s' l' ∧
    NothingOld usable c o s l r)

theorem readAnswer_carries {result : Dict Json} {token : String} {lifetime : ℤ}
    (h : readAnswer result = .ok (token, lifetime)) : Carries result token := by
  unfold readAnswer at h
  split at h
  · rename_i value hvalue
    obtain ⟨n, hn, h⟩ := bind_eq_ok.mp h
    obtain ⟨rfl, -⟩ := Prod.mk.inj (Except.ok.inj h)
    exact hvalue
  · cases h

section Keeps

variable {s₀ s : Service Msal} {l : TokenSession Msal}

include hsem

theorem acquire_obtains (force_refresh : Bool) (now : ℚ) (h : Sound s) (hgrows : Grows s₀ s)
    (hheard : Heard s l) :
    Keeps issuedContract statements sem (Obtained force_refresh l.refreshed l.rejected)
      (acquire now) s₀ s l := by
  unfold acquire
  refine keeps_acquireTokenForClient (fun o s l r s' l' h => (hsem o s l r s' l' h).1) h hgrows ?_
  intro s₁ hrely hinv started r p hstarted hanswer hstep
  obtain ⟨hsound, hgrown, hissued⟩ := hinv.answer hanswer
  -- nothing from before the 401 is usable, and what is new was not there then
  have hnew : ∀ result token, r = .ok result → Carries result token →
      ∀ rejection, l.rejected = some rejection → token ∉ rejection.provider.issued := by
    intro result token hr hcarries rejection hrejection
    have hold := (hsem _ _ _ _ _ _ hstep).2 rejection started hrejection hstarted
    cases hanswer with
    | @cached e result' he husable htoken =>
      obtain rfl := Except.ok.inj hr
      obtain rfl : e.token = token := by simpa [Carries] using htoken.symm.trans hcarries
      exact hold e he husable
    | @issued token' expires_on result' hnone hnot htoken =>
      obtain rfl := Except.ok.inj hr
      obtain rfl : token' = token := by simpa [Carries] using htoken.symm.trans hcarries
      intro hmem
      exact hnot (hrely ((hheard rejection hrejection).2 hmem))
    | refused hnone hno => exact absurd hcarries (hno result token hr)
  cases r with
  | error e =>
    exact .failed hsound hgrown
  | ok result =>
    change Keeps _ _ _ _ (_ >>= _) _ _ _
    cases hread : newToken now result with
    | error e =>
      exact .failed hsound hgrown
    | ok token =>
      obtain ⟨lifetime, seconds, hanswer', -, -⟩ := newToken_ok hread
      have hcarries := readAnswer_carries hanswer'
      simp only [Prog.liftM_eq, Prog.ofExcept_ok, Prog.ret_bind]
      rw [keeps_setToken]
      refine ⟨hsound.store (hissued result token.value rfl hcarries), hgrown, rfl, rfl, ?_, ?_⟩
      · intro value hv
        obtain rfl := Except.ok.inj hv
        exact hissued result token.value rfl hcarries
      · intro value hv _
        obtain rfl := Except.ok.inj hv
        exact hnew result token.value rfl hcarries

theorem refresh_obtains (force_refresh : Bool) (h : Sound s) (hgrows : Grows s₀ s)
    (hheard : Heard s l) :
    Keeps issuedContract statements sem (Obtained force_refresh l.refreshed l.rejected)
      (refresh force_refresh) s₀ s l := by
  unfold refresh
  rw [keeps_time, keeps_token]
  cases hserve : serve force_refresh s.now s.token with
  | some value =>
    exact .served h hgrows hserve
  | none =>
    dsimp only
    rw [keeps_toThread]
    exact acquire_obtains hsem force_refresh s.now (h.congr rfl (Or.inl rfl) rfl) hgrows hheard

theorem getAccessToken_obtains (force_refresh : Bool) (h : Sound s) (hgrows : Grows s₀ s)
    (hheard : Heard s l) :
    Keeps issuedContract statements sem (Obtained force_refresh l.refreshed l.rejected)
      (getAccessToken force_refresh) s₀ s l := by
  unfold getAccessToken
  rw [keeps_time, keeps_token]
  cases hserve : serve force_refresh s.now s.token with
  | some value =>
    exact .served h hgrows hserve
  | none =>
    dsimp only
    rw [Prog.inside]
    refine keeps_lockAcquire (fun o s l r s' l' h => (hsem o s l r s' l' h).1)
      (h.congr rfl (Or.inl rfl) rfl) hgrows ?_
    intro s₁ hrely hinv hfree
    rw [Keeps.bind_iff, Keeps.attempt_iff]
    have hlocked : Sound { s₁ with locked := true } := hinv.congr rfl (Or.inl rfl) rfl
    have hentered : Grows s₁ { s₁ with locked := true } := List.Subset.refl _
    have hstill : Heard { s₁ with locked := true } { l with checked := s.now } :=
      hheard.mono hrely
    refine (refresh_obtains hsem force_refresh hlocked hentered hstill).mono ?_
    rintro r s₂ s₃ l₃ hobtained
    -- leaving the lock
    change Keeps _ _ _ _ (_ >>= _) _ _ _
    rw [keeps_lockRelease, Keeps.ofExcept_iff]
    exact ⟨hobtained.sound.congr rfl (Or.inl rfl) rfl, hobtained.grows, hobtained.refreshed_eq,
      hobtained.rejected_eq, hobtained.issued, hobtained.renewed⟩

/-- The loop of `_get`, between two attempts: while there is a rejection to answer for,
the next token is forced. -/
theorem attempts_renew {max_retries : ℤ} {request : String → GetRequest}
    (htoken : ∀ token, (request token).token = token) (rest : List ℕ) (b f : Bool)
    (h : Sound s) (hgrows : Grows s₀ s) (hheard : Heard s l) (hrefreshed : l.refreshed = b)
    (hforced : ∀ rejection, l.rejected = some rejection → f = true) :
    Keeps issuedContract statements sem (ends issuedContract fun _ _ _ => True)
      (D365Client.attempts wire max_retries request rest b f) s₀ s l := by
  induction rest generalizing s₀ s l b f with
  | nil => exact ⟨h, hgrows, trivial⟩
  | cons attempt rest ih =>
    rw [D365Client.attempts, Keeps.bind_iff]
    refine (getAccessToken_obtains hsem f h hgrows hheard).mono ?_
    rintro (e | token) s₁ s₂ l₂ hobtained
    · exact ⟨hobtained.sound, hobtained.grows, trivial⟩
    generalize hsent : request token = sent
    obtain rfl : sent.token = token := by rw [← hsent, htoken]
    change Keeps _ _ _ _ (_ >>= _) _ _ _
    rw [Keeps.bind_iff, Keeps.attempt_iff, hsent]
    change Keeps _ _ _ _ (Prog.tell (ServiceOp.send sent) >>= _) _ _ _
    rw [keeps_send]
    refine keeps_response (fun o s l r s' l' h => (hsem o s l r s' l' h).1)
      (send_sound hheard hforced hobtained) hobtained.grows ?_
    intro s₃ hrely hinv outcome
    dsimp only [Keeps.andThen]
    cases hverdict : D365Client.verdict max_retries attempt b outcome with
    | done result =>
      rw [Keeps.ofExcept_iff]
      exact ⟨hinv, List.Subset.refl _, trivial⟩
    | wait delay =>
      -- the rejection was answered for by the request just sent
      rw [heard_of_not_unauthorized _ _ (D365Client.verdict_wait hverdict).1]
      refine keeps_sleep (fun o s l r s' l' h => (hsem o s l r s' l' h).1) hinv
        (List.Subset.refl _) ?_
      rintro s₄ hrely₄ hinv₄ (e | _)
      · exact ⟨hinv₄, List.Subset.refl _, trivial⟩
      · exact ih b false hinv₄ (List.Subset.refl _) (fun _ h => by cases h)
          (hobtained.refreshed_eq.trans hrefreshed) (fun _ h => by cases h)
    | renew =>
      obtain ⟨h401, hb⟩ := D365Client.verdict_renew hverdict
      have hfirst : l₂.refreshed = false := (hobtained.refreshed_eq.trans hrefreshed).trans hb
      rw [heard_of_unauthorized (l := { l₂ with sent := some sent.token, rejected := none }) _
        h401 hfirst]
      refine keeps_setToken.mpr (ih true true (hinv.congr rfl (Or.inr rfl) rfl)
        (List.Subset.refl _) ?_ rfl fun _ _ => rfl)
      intro rejection hrejection
      obtain rfl := Option.some.inj hrejection
      exact ⟨hrely (hobtained.issued _ rfl), List.Subset.refl _⟩

end Keeps

variable {P : Pool ServiceOp ServiceOp.Answer Exc Response (Service Msal) (TokenSession Msal)
  ClientCall}

/-- **When a forced refresh renews the token.** In every run in which, at each
acquisition after a 401, nothing usable in MSAL's cache is from before that 401, the
next request carries a token issued after it. -/
theorem forced_refresh_renews (max_retries : ℤ) {s : Service Msal} (htoken : s.token = none)
    (hentries : s.provider.entries = []) (hrequests : s.requests = [])
    (h : ((clientLoop max_retries (Msal.Answers usable)).given (NothingOld usable)).Reaches
      ⟨s, []⟩ P) : Renewed P.store := by
  have hsound : Sound s := by
    refine ⟨?_, ?_, ?_⟩
    · rw [hentries]
      exact fun _ he => by cases he
    · rw [htoken]
      exact fun _ hsome => by cases hsome
    · intro x hx
      rw [hrequests] at hx
      cases hx
  have hkept := Loop.kept_of_reaches
    (L := (clientLoop max_retries (Msal.Answers usable)).given (NothingOld usable))
    (K := issuedContract) (Q := fun _ _ _ _ => True) (fun _ _ hguar => hguar)
    (fun _ _ _ _ _ _ _ _ => trivial) (fun _ _ _ henv => False.elim henv) ?_ h
    (Loop.kept_nil _ _ _ hsound)
  · exact hkept.1.renewed
  · intro c s _ hinv
    have hsem : ∀ o s l r s' l',
        (Awaited (Msal.Answers usable) o s l r s' l' ∧ NothingOld usable c o s l r) →
        Awaited (Msal.Answers usable) o s l r s' l' ∧ NothingOld usable c o s l r :=
      fun _ _ _ _ _ _ h => h
    exact attempts_renew hsem (fun _ => rfl) _ false false hinv (List.Subset.refl _)
      (fun _ h => by cases h) rfl (fun _ h => by cases h)

end Calls

/-! ## Two runs -/

section Example

open Ascii

/-- MSAL passes over a token that expires within five minutes. -/
def FiveMinutesLeft (e : CacheEntry) (now : ℚ) : Prop := now + 300 ≤ e.expires_on

instance (e : CacheEntry) (now : ℚ) : Decidable (FiveMinutesLeft e now) :=
  inferInstanceAs (Decidable (now + 300 ≤ e.expires_on))

/-- A provider whose tokens are numbered and live for `lifetime` seconds. -/
def Msal.provide (lifetime : ℤ) (p : Msal) (now : ℚ) : Option (Except Exc (Dict Json) × Msal) :=
  match p.entries.find? fun e => FiveMinutesLeft e now with
  | some e => some (.ok [("access_token", .str e.token), ("expires_in", .int lifetime)], p)
  | none =>
      let token := "token " ++ toString p.issued.length
      if token ∈ p.issued then none
      else some (.ok [("access_token", .str token), ("expires_in", .int lifetime)],
        ⟨⟨token, now + lifetime⟩ :: p.entries, token :: p.issued⟩)

theorem Msal.provide_answers {lifetime : ℤ} (p : Msal) (now : ℚ) (r : Except Exc (Dict Json))
    (p' : Msal) (h : Msal.provide lifetime p now = some (r, p')) :
    Msal.Answers FiveMinutesLeft p now r p' := by
  unfold Msal.provide at h
  split at h
  · rename_i e he
    obtain ⟨rfl, rfl⟩ := Prod.mk.inj (Option.some.inj h)
    exact .cached (List.mem_of_find?_eq_some he)
      (of_decide_eq_true (List.find?_some (p := fun e => decide (FiveMinutesLeft e now)) he)) rfl
  · rename_i hnone
    have hunusable : ∀ e ∈ p.entries, ¬ FiveMinutesLeft e now := by
      intro e he
      simpa using List.find?_eq_none.mp hnone e he
    by_cases hissued : "token " ++ toString p.issued.length ∈ p.issued
    · rw [if_pos hissued] at h
      cases h
    · rw [if_neg hissued] at h
      obtain ⟨rfl, rfl⟩ := Prod.mk.inj (Option.some.inj h)
      exact .issued hunusable hissued rfl

instance (c : ClientCall) (o : ServiceOp) (s : Service Msal) (l : TokenSession Msal)
    (r : Except Exc o.Answer) : Decidable (NothingOld FiveMinutesLeft c o s l r) :=
  match o, r with
  | .acquireTokenForClient, _ =>
      match hrejected : l.rejected, hstarted : l.started with
      | some rejection, some started =>
          decidable_of_iff (∀ e ∈ s.provider.entries, FiveMinutesLeft e started →
            e.token ∉ rejection.provider.issued) (by simp [NothingOld, hrejected, hstarted])
      | none, _ => .isTrue fun _ _ h => by rw [hrejected] at h; cases h
      | some _, none => .isTrue fun _ _ _ h => by rw [hstarted] at h; cases h
  | .time, _ | .token, _ | .setToken _, _ | .lockAcquire, _ | .lockRelease, _ | .toThread, _
  | .send _, _ | .response, _ | .sleep _, _ => .isTrue trivial

/-- A request that is answered 401, and the one that follows it. -/
def rejectedOnce : List (Loop.Cue (Except Exc Response) ClientCall) :=
  [.spawn ⟨"$metadata", none, none⟩, .run 0 (.error .typeError), .run 0 (.error .typeError),
    .run 0 (.ok { status_code := 401 }), .run 0 (.error .typeError), .run 0 (.error .typeError)]

/-- With an hour left, MSAL answers the forced refresh with the rejected token. -/
theorem not_renewed : ¬ ∀ P, (clientLoop 3 (Msal.Answers FiveMinutesLeft)).Reaches
    ⟨{ clock := Clock.ticking, provider := {} }, []⟩ P → Renewed P.store := by
  intro hall
  have hrun : (Loop.play (clientLoop 3 (Msal.Answers FiveMinutesLeft))
      (answer (Msal.provide 3600)) (fun _ _ => none) rejectedOnce
      ⟨{ clock := Clock.ticking, provider := {} }, []⟩).any (fun P =>
        P.store.requests.any fun x => x.rejected.any fun rejection =>
          x.token = rejection.token) = true := by
    decide +kernel
  obtain ⟨P, hplay, hP⟩ := (Option.any_eq_true _ _).mp hrun
  obtain ⟨x, hx, hrejected⟩ := List.any_eq_true.mp hP
  obtain ⟨rejection, hrejection, hsame⟩ := (Option.any_eq_true _ _).mp hrejected
  have hreaches := Loop.play_reaches (L := clientLoop 3 (Msal.Answers FiveMinutesLeft))
    (answer_awaited Msal.provide_answers) (fun _ _ _ h => by cases h) hplay
  exact (hall P hreaches x hx rejection hrejection).2.2 (of_decide_eq_true hsame)

/-- With a minute left, the identity provider is asked. -/
theorem forced_refresh_renews_short :
    ∃ P : Pool ServiceOp ServiceOp.Answer Exc Response (Service Msal) (TokenSession Msal)
      ClientCall, P.store.requests.length = 2 ∧ Renewed P.store := by
  have hrun : (Loop.play
      ((clientLoop 3 (Msal.Answers FiveMinutesLeft)).given (NothingOld FiveMinutesLeft))
      (System.heed (answer (Msal.provide 60)) (NothingOld FiveMinutesLeft))
      (fun _ _ => none) rejectedOnce ⟨{ clock := Clock.ticking, provider := {} }, []⟩).any
        (fun P => P.store.requests.length = 2) = true := by
    decide +kernel
  obtain ⟨P, hplay, hP⟩ := (Option.any_eq_true _ _).mp hrun
  have hreaches := Loop.play_reaches
    (L := (clientLoop 3 (Msal.Answers FiveMinutesLeft)).given (NothingOld FiveMinutesLeft))
    (System.heed_sem
      (S := (clientLoop 3 (Msal.Answers FiveMinutesLeft)).toSystem)
      (answer_awaited Msal.provide_answers) (NothingOld FiveMinutesLeft))
      (fun _ _ _ h => by cases h) hplay
  exact ⟨P, of_decide_eq_true hP, forced_refresh_renews 3 rfl rfl rfl hreaches⟩

end Example

end EmployeePortal.D365.D365TokenService
