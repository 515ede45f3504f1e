import EmployeePortal.D365.TokenCache

/-!
# One acquisition for all

Calls without `force_refresh` that find the cache empty or stale queue at the lock.
The run goes through three phases: nobody holds the lock; one call holds it and its
acquisition is under way; its token is in the cache and is served to the others as
they come to the lock.
-/

namespace EmployeePortal.D365.D365TokenService

open EmployeePortal.Python EmployeePortal.Framework

section Calls

variable [UnicodeData] [FloatData] {π : Type} {answers : Provider π}

/-! ## A call between its awaits -/

/-- The call once the lock is its own. -/
def admitted (r : Except Exc Unit) : Task (Option String) := do
  let value ← (do
    let _ ← Prog.ofExcept r
    let result ← (refresh false).attempt
    Prog.tell ServiceOp.lockRelease
    Prog.ofExcept result)
  return some value

/-- The call before the lock. -/
def waiting : Task (Option String) := .op .lockAcquire admitted

/-- The call once its acquisition, started after a check at `now`, is answered. -/
def answered (now : ℚ) (r : Except Exc (Dict Json)) : Task (Option String) := do
  let value ← (do
    let result ← Prog.attempt (do
      let result ← Prog.ofExcept r
      let token ← newToken now result
      Prog.tell (ServiceOp.setToken (some token))
      return token.value)
    Prog.tell ServiceOp.lockRelease
    Prog.ofExcept result)
  return some value

/-- The call with its acquisition under way. -/
def asking (now : ℚ) : Task (Option String) := .op .acquireTokenForClient (answered now)

/-- A call that starts is served at once or waits at the lock. -/
theorem runOn_body (s : Service π) (l : TokenSession π) :
    runOn statements ((tokenLoop answers).body (.getAccessToken false)) s l =
      match serve false s.now s.token with
      | some value =>
          (.ret (some value), { s with ticks := s.ticks + 1 }, { l with checked := s.now })
      | none => (waiting, { s with ticks := s.ticks + 1 }, { l with checked := s.now }) := by
  change runOn statements (getAccessToken false >>= fun value => .ret (some value)) s l = _
  simp only [getAccessToken, Prog.perform, Prog.op_bind, runOn, statements, Prog.ofExcept_ok,
    Prog.ret_bind]
  cases serve false s.now s.token with
  | some value => rfl
  | none => rfl

/-- A call that comes to the lock is served or starts an acquisition. -/
theorem runOn_admitted (s : Service π) (l : TokenSession π) :
    runOn statements (admitted (.ok ())) s l =
      match serve false s.now s.token with
      | some value => (.ret (some value), { s with ticks := s.ticks + 1, locked := false },
          { l with checked := s.now })
      | none => (asking s.now,
          { s with ticks := s.ticks + 2, acquisitions := s.acquisitions ++ [s.now] },
          { l with checked := s.now, started := some (s.clock (s.ticks + 1)) }) := by
  simp only [admitted, refresh, Prog.perform, Prog.op_bind, Prog.attempt_op, runOn, statements,
    Prog.ofExcept_ok, Prog.ret_bind]
  cases serve false s.now s.token with
  | some value => rfl
  | none => rfl

/-- The end of a successful acquisition: the token is stored and the lock is free. -/
theorem runOn_answered (now : ℚ) (s : Service π) (l : TokenSession π) {result : Dict Json}
    {token : AccessToken} (hread : newToken now result = .ok token) :
    runOn statements (answered now (.ok result)) s l = (.ret (some token.value),
      { s with token := some token, locked := false }, l) := by
  simp only [answered, Prog.ofExcept_ok, Prog.ret_bind, hread]
  rfl

/-! ## Calls that neither force nor invalidate -/

/-- The answer of the identity provider grants this token for this long. -/
structure Grants (result : Dict Json) (token : String) (lifetime : ℤ) : Prop where
  token : result.get? "access_token" = some (.str token)
  lifetime : (result.getD "expires_in" (.int 3600)).toInt = .ok lifetime

theorem Grants.readAnswer {result : Dict Json} {token : String} {lifetime : ℤ}
    (h : Grants result token lifetime) :
    D365TokenService.readAnswer result = .ok (token, max lifetime 60) := by
  rw [D365TokenService.readAnswer, h.token]
  change (_ >>= _) = _
  rw [h.lifetime]
  rfl

/-- The token that is stored lasts as long as it was granted for, or a minute. -/
theorem Grants.newToken {result : Dict Json} {token : String} {lifetime : ℤ}
    (h : Grants result token lifetime) {seconds : ℚ}
    (hseconds : PyFloat.ofInt lifetime = .ok seconds) (now : ℚ) :
    ∃ expires_at, D365TokenService.newToken now result = .ok ⟨token, expires_at⟩ ∧
      ((PyFloat.ofRat now).plus seconds).le expires_at = true := by
  -- the float of what is stored
  obtain ⟨stored, hstored, hle⟩ : ∃ stored, PyFloat.ofInt (max lifetime 60) = .ok stored ∧
      seconds ≤ stored := by
    rcases le_total lifetime 60 with hshort | hlong
    · refine ⟨60, by rw [max_eq_right hshort, ofInt_minute], ?_⟩
      rw [PyFloat.ofInt_ok hseconds, PyFloat.ofInt_ok ofInt_minute]
      exact rounded_mono (Int.cast_le.mpr hshort)
    · exact ⟨seconds, by rw [max_eq_left hlong, hseconds], le_rfl⟩
  refine ⟨(PyFloat.ofRat now).plus stored, ?_, PyFloat.plus_le_plus ?_ hle⟩
  · rw [D365TokenService.newToken, h.readAnswer]
    change (PyFloat.ofInt (max lifetime 60) >>= _) = _
    rw [hstored]
    rfl
  · rw [PyFloat.le_ofRat]
    exact decide_eq_true le_rfl

/-- The first acquisition grants `token` for `lifetime` seconds. -/
def FirstGrants (token : String) (lifetime : ℤ) (_ : TokenCall) :
    (o : ServiceOp) → Service π → TokenSession π → Except Exc o.Answer → Prop
  | .acquireTokenForClient, s, _, r => s.acquisitions.length = 1 →
      ∃ result, r = .ok result ∧ Grants result token lifetime
  | _, _, _, _ => True

/-- Calls that neither force nor invalidate, with a first acquisition that succeeds. -/
def calmLoop (answers : Provider π) (token : String) (lifetime : ℤ) :
    Loop ServiceOp ServiceOp.Answer Exc (Option String) (Service π) (TokenSession π) TokenCall :=
  Loop.given { tokenLoop answers with admits := fun c => c = .getAccessToken false }
    (FirstGrants token lifetime)

/-! ## Three phases -/

abbrev TokenPool (π : Type) : Type :=
  Pool ServiceOp ServiceOp.Answer Exc (Option String) (Service π) (TokenSession π) TokenCall

/-- What is in the cache will not be served any more. -/
def Stale (s : Service π) : Prop :=
  ∀ token, s.token = some token → fresh token.expires_at s.now = false

structure Idle (P : TokenPool π) : Prop where
  acquisitions : P.store.acquisitions = []
  free : P.store.locked = false
  stale : Stale P.store
  queue : ∀ t ∈ P.threads, t.prog = waiting

/-- Call `i` holds the lock; the check that led it to its acquisition was at `D`. -/
structure Asking (i : ℕ) (D : ℚ) (P : TokenPool π) : Prop where
  acquisitions : P.store.acquisitions = [D]
  locked : P.store.locked = true
  stale : Stale P.store
  asker : ∃ t, P.threads[i]? = some t ∧ t.prog = asking D ∧ t.sess.started.isSome = true
  queue : ∀ j t, j ≠ i → P.threads[j]? = some t → t.prog = waiting

/-- The token has landed. -/
structure Landed (token : String) (seconds : ℚ) (D : ℚ) (P : TokenPool π) : Prop where
  acquisitions : P.store.acquisitions = [D]
  free : P.store.locked = false
  cached : ∃ expires_at, P.store.token = some ⟨token, expires_at⟩ ∧
    ((PyFloat.ofRat D).plus seconds).le expires_at = true
  queue : ∀ t ∈ P.threads, t.prog = waiting ∨ t.prog = .ret (some token)

/-- Some check came when the token of the first acquisition was about to expire. -/
def Overdue (seconds : ℚ) (P : TokenPool π) : Prop :=
  ∃ t ∈ P.threads, ∃ D, P.store.acquisitions.head? = some D ∧
    fresh ((PyFloat.ofRat D).plus seconds) t.sess.checked = false

structure Flight (token : String) (seconds : ℚ) (P : TokenPool π) : Prop where
  clock : Monotone P.store.clock
  checked : ∀ t ∈ P.threads, t.sess.checked ≤ P.store.now
  uncut : ∀ t ∈ P.threads, t.cut = false
  phase : Idle P ∨ (∃ i D, Asking i D P) ∨ (∃ D, Landed token seconds D P) ∨ Overdue seconds P

/-! ## From phase to phase -/

omit [UnicodeData] [FloatData] in
theorem Stale.serve {s : Service π} (h : Stale s) : serve false s.now s.token = none := by
  cases htoken : s.token with
  | none => rfl
  | some token =>
    have hlate := h token htoken
    rw [D365TokenService.serve, if_neg]
    rintro ⟨-, hfresh⟩
    rw [hlate] at hfresh
    cases hfresh

omit [UnicodeData] [FloatData] in
theorem Stale.later {s s' : Service π} (h : Stale s) (htoken : s'.token = s.token)
    (hnow : s.now ≤ s'.now) : Stale s' := by
  intro token hsome
  exact not_fresh_later (h token (htoken ▸ hsome)) hnow

section Turns

variable {token : String} {lifetime : ℤ} {seconds : ℚ} {P P' : TokenPool π}
  {m : Move TokenCall}

/-- A token that has landed is what a check serves, if anything. -/
theorem Landed.serve {D : ℚ} {value : String} (h : Landed token seconds D P)
    (hserve : serve false P.store.now P.store.token = some value) : value = token := by
  obtain ⟨expires_at, hcached, -⟩ := h.cached
  rw [hcached, D365TokenService.serve] at hserve
  obtain ⟨-, rfl⟩ := by simpa using hserve
  rfl

/-- A check that the landed token does not pass comes late. -/
theorem Landed.late {D : ℚ} (h : Landed token seconds D P)
    (hserve : D365TokenService.serve false P.store.now P.store.token = none) :
    fresh ((PyFloat.ofRat D).plus seconds) P.store.now = false := by
  obtain ⟨expires_at, hcached, hle⟩ := h.cached
  rw [hcached, D365TokenService.serve] at hserve
  by_contra hfresh
  have hstored : fresh expires_at P.store.now = true :=
    PyFloat.lt_of_lt_of_le (Bool.eq_true_of_not_eq_false hfresh)
      (PyFloat.plus_le_plus hle le_rfl)
  rw [if_pos ⟨rfl, hstored⟩] at hserve
  cases hserve

/-- Whatever the check of a new call says, the store differs in its clock only. -/
theorem body_run (answers : Provider π) {s s' : Service π} {p : Task (Option String)}
    {l' : TokenSession π}
    (hrun : runOn statements ((tokenLoop answers).body (.getAccessToken false)) s {} =
      (p, s', l')) :
    s' = { s with ticks := s.ticks + 1 } ∧ l' = { checked := s.now } ∧
      ((∃ value, serve false s.now s.token = some value ∧ p = .ret (some value)) ∨
        p = waiting) := by
  rw [runOn_body] at hrun
  cases hserve : serve false s.now s.token with
  | some value =>
    rw [hserve] at hrun
    obtain ⟨rfl, rfl, rfl⟩ := by simpa using hrun
    exact ⟨rfl, rfl, Or.inl ⟨value, rfl, rfl⟩⟩
  | none =>
    rw [hserve] at hrun
    obtain ⟨rfl, rfl, rfl⟩ := by simpa using hrun
    exact ⟨rfl, rfl, Or.inr rfl⟩

/-- A new call is served, or queues. -/
theorem flight_spawn (answers : Provider π) {s s' : Service π} {ts : List _} {c : TokenCall}
    {p : Task (Option String)} {l' : TokenSession π} (hc : c = .getAccessToken false)
    (hrun : runOn statements ((tokenLoop answers).body c) s {} = (p, s', l'))
    (h : Flight token seconds ⟨s, ts⟩) :
    Flight token seconds ⟨s', ts ++ [⟨c, l', p, false⟩]⟩ := by
  subst hc
  have htick : s.now ≤ s.clock (s.ticks + 1) := h.clock (Nat.le_succ _)
  obtain ⟨rfl, rfl, hp⟩ := body_run answers hrun
  have hwaits : Stale s → p = waiting := by
    intro hstale
    rcases hp with ⟨value, hserve, -⟩ | hp
    · rw [hstale.serve] at hserve
      cases hserve
    · exact hp
  refine ⟨h.clock, ?_, ?_, ?_⟩
  · intro t ht
    rcases List.mem_append.mp ht with hold | hnew
    · exact (h.checked t hold).trans htick
    · obtain rfl := List.mem_singleton.mp hnew
      exact htick
  · intro t ht
    rcases List.mem_append.mp ht with hold | hnew
    · exact h.uncut t hold
    · obtain rfl := List.mem_singleton.mp hnew
      rfl
  · rcases h.phase with hidle | ⟨i, D, hasking⟩ | ⟨D, hlanded⟩ | ⟨t, ht, hlate⟩
    · refine Or.inl ⟨hidle.acquisitions, hidle.free, hidle.stale.later rfl htick, ?_⟩
      intro t ht
      rcases List.mem_append.mp ht with hold | hnew
      · exact hidle.queue t hold
      · obtain rfl := List.mem_singleton.mp hnew
        exact hwaits hidle.stale
    · obtain ⟨t, ht, hprog, hstarted⟩ := hasking.asker
      have hi : i < ts.length := (List.getElem?_eq_some_iff.mp ht).1
      refine Or.inr (Or.inl ⟨i, D, hasking.acquisitions, hasking.locked,
        hasking.stale.later rfl htick, ⟨t, ?_, hprog, hstarted⟩, ?_⟩)
      · rw [List.getElem?_append_left hi]
        exact ht
      · intro j u hj hu
        rcases getElem?_concat_cases hu with hold | ⟨-, rfl⟩
        · exact hasking.queue j u hj hold
        · exact hwaits hasking.stale
    · refine Or.inr (Or.inr (Or.inl ⟨D, hlanded.acquisitions, hlanded.free, hlanded.cached, ?_⟩))
      intro t ht
      rcases List.mem_append.mp ht with hold | hnew
      · exact hlanded.queue t hold
      · obtain rfl := List.mem_singleton.mp hnew
        rcases hp with ⟨value, hserve, rfl⟩ | rfl
        · rw [hlanded.serve hserve]
          exact Or.inr rfl
        · exact Or.inl rfl
    · exact Or.inr (Or.inr (Or.inr ⟨t, List.mem_append_left _ ht, hlate⟩))

section Run

variable {s s₁ s' : Service π} {ts : List (Thread ServiceOp ServiceOp.Answer Exc (Option String)
    (TokenSession π) TokenCall)} {i : ℕ}
  {t : Thread ServiceOp ServiceOp.Answer Exc (Option String) (TokenSession π) TokenCall}
  {o : ServiceOp} {k : Except Exc o.Answer → Task (Option String)} {r : Except Exc o.Answer}
  {l₁ l' : TokenSession π} {p : Task (Option String)}
  (ht : ts[i]? = some t) (hop : t.prog = .op o k) (hsem : Awaited answers o s t.sess r s₁ l₁)
  (hrun : runOn statements (k r) s₁ l₁ = (p, s', l'))

include ht hop hsem hrun

/-- The first call to get the lock finds nothing to serve and asks for a token. -/
theorem idle_run (h : Idle ⟨s, ts⟩) (hclock : Monotone s.clock) :
    Asking i s.now ⟨s', ts.set i { t with sess := l', prog := p }⟩ := by
  have hi : i < ts.length := (List.getElem?_eq_some_iff.mp ht).1
  rw [h.queue t (List.mem_of_getElem? ht), waiting] at hop
  cases hop
  cases hsem with
  | lockAcquire hfree =>
    have hstale : serve false s.now s.token = none := h.stale.serve
    rw [runOn_admitted] at hrun
    change (match serve false s.now s.token with | some _ => _ | none => _) = _ at hrun
    rw [hstale] at hrun
    obtain ⟨rfl, rfl, rfl⟩ := by simpa using hrun
    have hacquisitions : s.acquisitions = [] := h.acquisitions
    refine ⟨?_, rfl, h.stale.later rfl (hclock (Nat.le_add_right _ 2)), ⟨_,
      List.getElem?_set_self hi, rfl, rfl⟩, ?_⟩
    · change s.acquisitions ++ [s.now] = [s.now]
      rw [hacquisitions, List.nil_append]
    · intro j u hj hu
      rcases getElem?_set_cases hu with ⟨hji, -⟩ | ⟨-, hold⟩
      · exact absurd hji hj
      · exact h.queue u (List.mem_of_getElem? hold)

/-- Only the holder of the lock can go on, and its token lands. -/
theorem asking_run {token : String} {lifetime : ℤ} {seconds : ℚ} {n : ℕ} {D : ℚ}
    (h : Asking n D ⟨s, ts⟩) (hfirst : FirstGrants token lifetime t.call o s t.sess r)
    (hseconds : PyFloat.ofInt lifetime = .ok seconds) :
    Landed token seconds D ⟨s', ts.set i { t with sess := l', prog := p }⟩ := by
  obtain ⟨t₀, ht₀, hprog, -⟩ := h.asker
  by_cases hin : i = n
  · subst hin
    obtain rfl : t = t₀ := Option.some.inj (ht.symm.trans ht₀)
    rw [hprog, asking] at hop
    cases hop
    have hacquisitions : s.acquisitions = [D] := h.acquisitions
    obtain ⟨result, rfl, hgrants⟩ := hfirst (by rw [hacquisitions]; rfl)
    cases hsem with
    | acquireTokenForClient hstarted hanswer =>
      obtain ⟨expires_at, hnew, hle⟩ := hgrants.newToken hseconds D
      rw [runOn_answered D _ _ hnew] at hrun
      obtain ⟨rfl, hrest⟩ := Prod.mk.inj hrun
      obtain ⟨rfl, rfl⟩ := Prod.mk.inj hrest
      refine ⟨hacquisitions, rfl, ⟨expires_at, rfl, hle⟩, ?_⟩
      intro u hu
      obtain ⟨j, hj⟩ := List.getElem?_of_mem hu
      rcases getElem?_set_cases hj with ⟨-, rfl⟩ | ⟨hji, hold⟩
      · exact Or.inr rfl
      · exact Or.inl (h.queue j u hji hold)
  · -- anybody else waits for the lock, which is taken
    rw [h.queue i t hin ht, waiting] at hop
    cases hop
    cases hsem with
    | lockAcquire hfree =>
      have hlocked : s.locked = true := h.locked
      rw [hlocked] at hfree
      cases hfree

/-- Once the token has landed it is served, unless a check comes late. -/
theorem landed_run {token : String} {seconds : ℚ} {D : ℚ}
    (h : Landed token seconds D ⟨s, ts⟩) :
    Landed token seconds D ⟨s', ts.set i { t with sess := l', prog := p }⟩ ∨
      Overdue seconds ⟨s', ts.set i { t with sess := l', prog := p }⟩ := by
  have hi : i < ts.length := (List.getElem?_eq_some_iff.mp ht).1
  have hwaiting : t.prog = waiting := by
    rcases h.queue t (List.mem_of_getElem? ht) with hprog | hprog
    · exact hprog
    · rw [hop] at hprog
      cases hprog
  rw [hwaiting, waiting] at hop
  cases hop
  cases hsem with
  | lockAcquire hfree =>
    rw [runOn_admitted] at hrun
    change (match serve false s.now s.token with | some _ => _ | none => _) = _ at hrun
    cases hserve : serve false s.now s.token with
    | some value =>
      rw [hserve] at hrun
      obtain ⟨rfl, rfl, rfl⟩ := by simpa using hrun
      left
      refine ⟨h.acquisitions, rfl, h.cached, ?_⟩
      intro u hu
      rcases List.mem_or_eq_of_mem_set hu with hold | rfl
      · exact h.queue u hold
      · rw [h.serve hserve]
        exact Or.inr rfl
    | none =>
      rw [hserve] at hrun
      obtain ⟨rfl, rfl, rfl⟩ := by simpa using hrun
      right
      refine ⟨_, List.mem_set hi _, D, ?_, h.late hserve⟩
      change (s.acquisitions ++ [s.now]).head? = some D
      rw [h.acquisitions]
      rfl

omit [UnicodeData] [FloatData] hop in
/-- A late check stays one. -/
theorem overdue_run {seconds : ℚ} (hclock : Monotone s.clock)
    (hchecked : ∀ t ∈ ts, t.sess.checked ≤ s.now) (h : Overdue seconds ⟨s, ts⟩) :
    Overdue seconds ⟨s', ts.set i { t with sess := l', prog := p }⟩ := by
  have hi : i < ts.length := (List.getElem?_eq_some_iff.mp ht).1
  have hmoves := moves_turn hsem hrun
  obtain ⟨u, hu, D, hhead, hlate⟩ := h
  have hhead' : s'.acquisitions.head? = some D := by
    obtain ⟨more, hmore⟩ := hmoves.acquisitions
    change s.acquisitions ++ more = s'.acquisitions at hmore
    change s.acquisitions.head? = some D at hhead
    rw [← hmore, List.head?_append, hhead]
    rfl
  obtain ⟨j, hj⟩ := List.getElem?_of_mem hu
  by_cases hij : i = j
  · subst hij
    obtain rfl : t = u := Option.some.inj (ht.symm.trans hj)
    have hmore := (hmoves.checked hclock (hchecked t hu)).1
    exact ⟨_, List.mem_set hi _, D, hhead', not_fresh_later hlate hmore⟩
  · refine ⟨u, List.mem_of_getElem? (i := j) ?_, D, hhead', hlate⟩
    rw [List.getElem?_set_ne hij]
    exact hj

theorem flight_run {token : String} {lifetime : ℤ}
    (hfirst : FirstGrants token lifetime t.call o s t.sess r)
    (hseconds : PyFloat.ofInt lifetime = .ok seconds) (h : Flight token seconds ⟨s, ts⟩) :
    Flight token seconds ⟨s', ts.set i { t with sess := l', prog := p }⟩ := by
  have hmem : t ∈ ts := List.mem_of_getElem? ht
  have hmoves := moves_turn hsem hrun
  have hclock : s'.clock = s.clock := hmoves.clock
  have hnow : s.now ≤ s'.now := by
    rw [Service.now, Service.now, hclock]
    exact h.clock hmoves.ticks
  refine ⟨hclock ▸ h.clock, ?_, ?_, ?_⟩
  · intro u hu
    rcases List.mem_or_eq_of_mem_set hu with hold | rfl
    · exact (h.checked u hold).trans hnow
    · exact (hmoves.checked h.clock (h.checked t hmem)).2
  · intro u hu
    rcases List.mem_or_eq_of_mem_set hu with hold | rfl
    · exact h.uncut u hold
    · exact h.uncut t hmem
  · rcases h.phase with hidle | ⟨n, D, hasking⟩ | ⟨D, hlanded⟩ | hoverdue
    · exact Or.inr (Or.inl ⟨i, s.now, idle_run ht hop hsem hrun hidle h.clock⟩)
    · exact Or.inr (Or.inr (Or.inl ⟨D, asking_run ht hop hsem hrun hasking hfirst
        hseconds⟩))
    · rcases landed_run ht hop hsem hrun hlanded with hlanded' | hoverdue
      · exact Or.inr (Or.inr (Or.inl ⟨D, hlanded'⟩))
      · exact Or.inr (Or.inr (Or.inr hoverdue))
    · exact Or.inr (Or.inr (Or.inr (overdue_run ht hsem hrun h.clock h.checked hoverdue)))

end Run

theorem flight_turn (hseconds : PyFloat.ofInt lifetime = .ok seconds)
    (hturn : (calmLoop answers token lifetime).Turn P m P') (h : Flight token seconds P) :
    Flight token seconds P' := by
  cases hturn with
  | spawn c hc hrun => exact flight_spawn answers hc hrun h
  | run ht hop hsem hrun => exact flight_run ht hop hsem.1 hrun hsem.2 hseconds h
  | env henv => exact False.elim henv

theorem flight_of_reaches (hseconds : PyFloat.ofInt lifetime = .ok seconds) {s : Service π}
    (hclock : Monotone s.clock) (hfree : s.locked = false) (hnone : s.acquisitions = [])
    (hstale : Stale s) (h : (calmLoop answers token lifetime).Reaches ⟨s, []⟩ P) :
    Flight token seconds P := by
  induction h with
  | refl => exact ⟨hclock, by simp, by simp, Or.inl ⟨hnone, hfree, hstale, by simp⟩⟩
  | tail _ hturn ih =>
    obtain ⟨m, hm⟩ := hturn
    exact flight_turn hseconds hm ih

/-- At the checks made so far the first token has more than five minutes, counted as the
service counts. -/
def InTime (seconds : ℚ) (P : TokenPool π) : Prop :=
  ∀ D ∈ P.store.acquisitions.head?, ∀ t ∈ P.threads,
    fresh ((PyFloat.ofRat D).plus seconds) t.sess.checked = true

omit [UnicodeData] [FloatData] in
theorem InTime.not_overdue (h : InTime seconds P) : ¬ Overdue seconds P := by
  rintro ⟨t, ht, D, hD, hlate⟩
  rw [h D hD t ht] at hlate
  cases hlate

/-- Whoever is not done, somebody can go on. -/
theorem flight_progress
    (hanswers : ∀ p started, ∃ result p', answers p started (.ok result) p' ∧
      Grants result token lifetime)
    (h : Flight token seconds P) (hintime : InTime seconds P) (hrunning : ¬ P.Quiet) :
    ∃ i P', (calmLoop answers token lifetime).Turn P (.run i) P' := by
  obtain ⟨t, ht, hnot⟩ : ∃ t ∈ P.threads, ¬ t.Finished := by
    simpa [Pool.Quiet] using hrunning
  -- whoever waits gets the lock when it is free
  have henter : ∀ u ∈ P.threads, u.prog = waiting → P.store.locked = false →
      ∃ i P', (calmLoop answers token lifetime).Turn P (.run i) P' := by
    intro u hu hprog hfree
    obtain ⟨i, hi⟩ := List.getElem?_of_mem hu
    exact ⟨i, Loop.exists_turn hi hprog ⟨.lockAcquire hfree, trivial⟩⟩
  rcases h.phase with hidle | ⟨i, D, hasking⟩ | ⟨D, hlanded⟩ | hoverdue
  · exact henter t ht (hidle.queue t ht) hidle.free
  · obtain ⟨u, hu, hprog, hstarted⟩ := hasking.asker
    obtain ⟨started, hstart⟩ := Option.isSome_iff_exists.mp hstarted
    obtain ⟨result, p', hanswer, hgrants⟩ := hanswers P.store.provider started
    exact ⟨i, Loop.exists_turn hu hprog
      ⟨.acquireTokenForClient hstart hanswer, fun _ => ⟨result, rfl, hgrants⟩⟩⟩
  · rcases hlanded.queue t ht with hprog | hprog
    · exact henter t ht hprog hlanded.free
    · exact absurd (Or.inr (Or.inl ⟨_, hprog⟩)) hnot
  · exact absurd hoverdue hintime.not_overdue

/-- **One acquisition serves everybody.** Any number of calls without force or
invalidation, on a service with nothing to serve, with a first acquisition that
succeeds for long enough: wherever their turns have got to, at most one acquisition
was sent, somebody can go on until all are done, and without new calls there is an
end to it. Then exactly one was sent, and every call has returned its token. -/
theorem single_flight (hseconds : PyFloat.ofInt lifetime = .ok seconds) {s : Service π}
    (hclock : Monotone s.clock) (hfree : s.locked = false) (hnone : s.acquisitions = [])
    (hstale : Stale s)
    (hanswers : ∀ p started, ∃ result p', answers p started (.ok result) p' ∧
      Grants result token lifetime)
    (h : (calmLoop answers token lifetime).Reaches ⟨s, []⟩ P) (hintime : InTime seconds P) :
    P.store.acquisitions.length ≤ 1 ∧
    (¬ P.Quiet → ∃ i P', (calmLoop answers token lifetime).Turn P (.run i) P') ∧
    Acc (fun P₂ P₁ => ∃ i, (calmLoop answers token lifetime).Turn P₁ (.run i) P₂) P ∧
    (P.Quiet → P.threads ≠ [] → P.store.acquisitions.length = 1 ∧
      ∀ t ∈ P.threads, t.Returned (some token)) := by
  have hflight := flight_of_reaches hseconds hclock hfree hnone hstale h
  refine ⟨?_, flight_progress hanswers hflight hintime,
    (Loop.run_wellFounded (calmLoop answers token lifetime)).apply P, ?_⟩
  · rcases hflight.phase with hidle | ⟨i, D, hasking⟩ | ⟨D, hlanded⟩ | hoverdue
    · rw [hidle.acquisitions]
      exact Nat.zero_le _
    · rw [hasking.acquisitions]
      rfl
    · rw [hlanded.acquisitions]
      rfl
    · exact absurd hoverdue hintime.not_overdue
  · intro hquiet hne
    -- in a quiet pool nobody waits at an operation, so only the landed phase is left
    have hover : ∀ t ∈ P.threads, ∀ o k, t.prog ≠ .op o k := by
      intro t ht o k hop
      rcases hquiet t ht with hcut | ⟨a, ha⟩ | ⟨e, he⟩
      · rw [hflight.uncut t ht] at hcut
        cases hcut
      · rw [ha] at hop
        cases hop
      · rw [he] at hop
        cases hop
    obtain ⟨t₀, ht₀⟩ := List.exists_mem_of_ne_nil _ hne
    rcases hflight.phase with hidle | ⟨i, D, hasking⟩ | ⟨D, hlanded⟩ | hoverdue
    · exact absurd (hidle.queue t₀ ht₀) (hover t₀ ht₀ _ _)
    · obtain ⟨u, hu, hprog, -⟩ := hasking.asker
      exact absurd hprog (hover u (List.mem_of_getElem? hu) _ _)
    · refine ⟨by rw [hlanded.acquisitions]; rfl, ?_⟩
      intro t ht
      rcases hlanded.queue t ht with hprog | hprog
      · exact absurd hprog (hover t ht _ _)
      · exact ⟨hflight.uncut t ht, hprog⟩
    · exact absurd hoverdue hintime.not_overdue

end Turns

end Calls

/-! ## Two calls -/

section Example

open Ascii

/-- Both calls find the cache empty; the second is served when it gets the lock. -/
def twoCalls : List (Loop.Cue (Except Exc Response) TokenCall) :=
  [.spawn (.getAccessToken false), .spawn (.getAccessToken false), .run 0 (.error .typeError),
    .run 0 (.error .typeError), .run 1 (.error .typeError)]

instance [UnicodeData] [FloatData] {π : Type} (answers : Provider π) (token : String)
    (lifetime : ℤ) : DecidablePred (calmLoop answers token lifetime).admits :=
  fun c => inferInstanceAs (Decidable (c = .getAccessToken false))

/-- Calls that are answered with a token for an hour. -/
abbrev hourlyLoop : Loop ServiceOp ServiceOp.Answer Exc (Option String) (Service Unit)
    (TokenSession Unit) TokenCall :=
  calmLoop (fun _ _ r _ => r = hourly) "token" 3600

theorem hourlyLoop_reaches {cues : List (Loop.Cue (Except Exc Response) TokenCall)}
    {P₀ P : TokenPool Unit} (h : Loop.play hourlyLoop (answer fun _ _ => some (hourly, ()))
      (fun _ _ => none) cues P₀ = some P) : hourlyLoop.Reaches P₀ P := by
  refine Loop.play_reaches (fun c o s l hint r s' l' h => ?_) (fun _ _ _ h => by cases h) h
  refine ⟨answer_awaited (by simp) c o s l hint r s' l' h, ?_⟩
  cases o with
  | acquireTokenForClient =>
    intro _
    obtain ⟨started, -, hsome⟩ := Option.bind_eq_some_iff.mp h
    obtain ⟨rfl, -⟩ := by simpa using hsome
    exact ⟨_, rfl, rfl, rfl⟩
  | _ => trivial

theorem single_flight_two :
    ∃ P : TokenPool Unit, P.threads.length = 2 ∧ P.store.acquisitions.length = 1 ∧
      ∀ t ∈ P.threads, t.Returned (some "token") := by
  have hrun : (Loop.play hourlyLoop (answer fun _ _ => some (hourly, ())) (fun _ _ => none)
      twoCalls ⟨{ clock := Clock.ticking, provider := () }, []⟩).any (fun P =>
        P.threads.length = 2 ∧ P.store.acquisitions = [(2 : ℚ)] ∧ ∀ t ∈ P.threads,
          t.prog.result.isSome = true ∧
            fresh ((PyFloat.ofRat 2).plus 3600) t.sess.checked = true) = true := by
    decide +kernel
  obtain ⟨P, hplay, hP⟩ := (Option.any_eq_true _ _).mp hrun
  obtain ⟨hlength, hacquisitions, hthreads⟩ := of_decide_eq_true hP
  have hseconds : PyFloat.ofInt 3600 = .ok 3600 := by
    exact_mod_cast PyFloat.ofInt_of_isFloat (n := 3600) (isFloat_natCast (n := 3600) (by norm_num))
  have hintime : InTime 3600 P := by
    intro D hD t ht
    rw [hacquisitions] at hD
    obtain rfl := Option.mem_some.mp hD
    exact (hthreads t ht).2
  have hquiet : P.Quiet := by
    intro t ht
    obtain ⟨x, hx⟩ := Option.isSome_iff_exists.mp (hthreads t ht).1
    cases hprog : t.prog with
    | ret a => exact Or.inr (Or.inl ⟨a, hprog⟩)
    | raise e => exact Or.inr (Or.inr ⟨e, hprog⟩)
    | op o k =>
      rw [hprog] at hx
      cases hx
  obtain ⟨-, -, -, hdone⟩ := single_flight hseconds
    (s := { clock := Clock.ticking, provider := () }) Clock.ticking_monotone rfl rfl
    (fun _ h => by cases h) (fun _ _ => ⟨_, (), rfl, rfl, rfl⟩) (hourlyLoop_reaches hplay) hintime
  obtain ⟨hone, hall⟩ := hdone hquiet (by
    intro hnil
    rw [hnil] at hlength
    cases hlength)
  exact ⟨P, hlength, hone, hall⟩

/-- A moment whose sum with an hour has a digit too many, and rounds down. -/
def roundedAt : ℚ := 2147480148 + 1 / 4194304

theorem isFloat_roundedAt : IsFloat roundedAt :=
  isFloat_of_digits (2147480148 * 4194304 + 1) (-22) (by norm_num) (by norm_num) (by norm_num) (by
    rw [powerOfTwo_eq, roundedAt]
    norm_num)

/-- Five minutes before the sum, as rounded. -/
theorem isFloat_expiring : IsFloat ((2147483448 : ℕ) : ℚ) := isFloat_natCast (by norm_num)

def roundedDown : Service Unit where
  clock := Clock.leap 3 isFloat_roundedAt isFloat_expiring
  provider := ()

/-- The token of the first call has more than five minutes at the check of the second one,
which acquires another all the same. -/
theorem not_single_flight : ¬ ∀ s : Service Unit, Monotone s.clock → s.locked = false →
    s.acquisitions = [] → Stale s → ∀ P, hourlyLoop.Reaches ⟨s, []⟩ P →
    (∀ D ∈ P.store.acquisitions.head?, ∀ t ∈ P.threads, t.sess.checked + 300 < D + 3600) →
      P.store.acquisitions.length ≤ 1 := by
  intro hall
  have hrun : (Loop.play hourlyLoop (answer fun _ _ => some (hourly, ())) (fun _ _ => none)
      [.spawn (.getAccessToken false), .run 0 (.error .typeError), .run 0 (.error .typeError),
        .spawn (.getAccessToken false), .run 1 (.error .typeError)] ⟨roundedDown, []⟩).any
      (fun P => P.store.acquisitions.length = 2 ∧ ∀ D ∈ P.store.acquisitions.head?,
        ∀ t ∈ P.threads, t.sess.checked + 300 < D + 3600) = true := by
    decide +kernel
  obtain ⟨P, hplay, hP⟩ := (Option.any_eq_true _ _).mp hrun
  obtain ⟨htwo, hearly⟩ := of_decide_eq_true hP
  have hclock : Monotone roundedDown.clock :=
    Clock.leap_monotone 3 isFloat_roundedAt isFloat_expiring (by norm_num [roundedAt])
  have hone := hall roundedDown hclock rfl rfl (fun _ h => by cases h) P
    (hourlyLoop_reaches hplay) hearly
  omega

end Example

end EmployeePortal.D365.D365TokenService
