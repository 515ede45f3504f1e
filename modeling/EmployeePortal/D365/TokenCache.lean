import EmployeePortal.D365.TokenService
import Mathlib.Order.Monotone.Basic
import Mathlib.Tactic.Linarith

/-!
# What the token cache serves

The stored expiry is counted from a check made before the acquisition started, so it is
never past the real one, unless it was clamped to a minute; and the check asks for five
minutes more. All three sums are rounded: the lifetime to a float, the expiry and what
remains when the five minutes are taken off. Rounding keeps their order, so a token that
is served has its five minutes in floats, and in fact up to what was rounded off.
-/

namespace EmployeePortal.D365.D365TokenService

open EmployeePortal.Python EmployeePortal.Framework

variable {π : Type}

/-- An acquisition was answered with this token, which is valid until `expires_in` seconds
after `issued`, and that not before the acquisition started. -/
def Issued (answers : Provider π) (validUntil : String → ℚ) (token : String) (issued : ℚ)
    (expires_in : ℤ) : Prop :=
  ∃ p started result p', answers p started (.ok result) p' ∧
    result.get? "access_token" = some (.str token) ∧
    result.get? "expires_in" = some (.int expires_in) ∧ started ≤ issued ∧
    validUntil token = issued + expires_in

/-- The provider tells the truth about lifetimes: a token it answers is valid until
`expires_in` seconds after some moment not before the acquisition started. -/
def Honest (answers : Provider π) (validUntil : String → ℚ) : Prop :=
  ∀ p started result p' token, answers p started (.ok result) p' →
    result.get? "access_token" = some (.str token) →
    ∃ (expires_in : ℤ) (issued : ℚ), result.get? "expires_in" = some (.int expires_in) ∧
      started ≤ issued ∧ validUntil token = issued + expires_in

/-- At `checked`, a token issued for `expires_in` seconds has more than five minutes: so
it is in sums of floats, and in fact up to what they round off. -/
structure HasMinutes (checked issued : ℚ) (expires_in : ℤ) : Prop where
  counted : ∃ seconds, PyFloat.ofInt expires_in = .ok seconds ∧
    fresh ((PyFloat.ofRat issued).plus seconds) checked = true
  inFact : checked + 300 < issued + expires_in + (|issued| + expires_in + 300) / 2 ^ 51

/-! ## What the sums round off -/

theorem rounded_le (q : ℚ) : |rounded q - q| ≤ |q| / 2 ^ 53 + 1 / 2 ^ 60 := by
  have htiny : powerOfTwo (-1075) ≤ powerOfTwo (-60) := powerOfTwo_le (by norm_num)
  have hsmall : powerOfTwo (-60) = 1 / 2 ^ 60 := by
    rw [powerOfTwo_eq]
    norm_num
  linarith [rounded_error q]

theorem counted_inFact {checked issued : ℚ} {expires_in : ℤ} (hin : 0 ≤ expires_in)
    (hchecked : checked < powerOfTwo 1024) {seconds : ℚ}
    (hseconds : PyFloat.ofInt expires_in = .ok seconds)
    (hfresh : fresh ((PyFloat.ofRat issued).plus seconds) checked = true) :
    checked + 300 < issued + expires_in + (|issued| + expires_in + 300) / 2 ^ 51 := by
  obtain rfl := PyFloat.ofInt_ok hseconds
  have hlifetime : (0 : ℚ) ≤ expires_in := by exact_mod_cast hin
  generalize (expires_in : ℚ) = lifetime at hlifetime hfresh ⊢
  rw [fresh, PyFloat.ofRat, PyFloat.ofRat, PyFloat.plus_some, PyFloat.plus_some,
    PyFloat.lt_some, Extended.plus_ofRat] at hfresh
  set expiry := issued + rounded lifetime with hexpiry
  obtain ⟨-, h₁⟩ := abs_le.mp (rounded_le lifetime)
  obtain ⟨-, h₂⟩ := abs_le.mp (rounded_le expiry)
  rw [abs_of_nonneg hlifetime] at h₁
  -- how great the numbers are from which the roundings take their share
  have hsize₁ : |rounded lifetime| ≤ lifetime + (lifetime / 2 ^ 53 + 1 / 2 ^ 60) := by
    have h := (abs_sub_abs_le_abs_sub (rounded lifetime) lifetime).trans (rounded_le lifetime)
    rw [abs_of_nonneg hlifetime] at h
    linarith
  have hsize₂ : |expiry| ≤ |issued| + |rounded lifetime| := abs_add_le _ _
  have hissued := abs_nonneg issued
  rcases Extended.lt_rounded_plus hchecked hfresh with hover | hbefore
  · have hhuge : 2 ^ 64 ≤ powerOfTwo 1024 := by
      calc (2 : ℚ) ^ 64 = powerOfTwo 64 := by
            rw [powerOfTwo_eq]
            norm_num
        _ ≤ powerOfTwo 1024 := powerOfTwo_le (by norm_num)
    have hself := le_abs_self expiry
    linarith
  · obtain ⟨-, h₃⟩ := abs_le.mp (rounded_le (rounded expiry + -300))
    have hsize₃ : |rounded expiry + -300| ≤ |rounded expiry| + 300 := by
      have h := abs_add_le (rounded expiry) (-300)
      rwa [abs_neg, abs_of_pos (by norm_num : (0 : ℚ) < 300)] at h
    have hsize₄ := (abs_sub_abs_le_abs_sub (rounded expiry) expiry).trans (rounded_le expiry)
    linarith

/-! ## The invariant -/

theorem ofInt_minute : PyFloat.ofInt 60 = .ok 60 := by
  exact_mod_cast PyFloat.ofInt_of_isFloat (n := 60) (isFloat_natCast (n := 60) (by norm_num))

/-- A stored expiry that is not past the real one, which is counted likewise. -/
def Counted (answers : Provider π) (validUntil : String → ℚ) (token : AccessToken) : Prop :=
  ∃ issued expires_in seconds, Issued answers validUntil token.value issued expires_in ∧
    0 ≤ expires_in ∧ PyFloat.ofInt expires_in = .ok seconds ∧
    token.expires_at.le ((PyFloat.ofRat issued).plus seconds) = true

/-- The clock does not go back, and the stored expiry is not past the real one unless it
will not be served any more. -/
structure Coherent (answers : Provider π) (validUntil : String → ℚ) (s : Service π) : Prop where
  clock : Monotone s.clock
  token : ∀ token, s.token = some token →
    Counted answers validUntil token ∨ fresh token.expires_at s.now = false

/-- What is not fresh will not be later. -/
theorem not_fresh_later {expires_at : PyFloat} {now later : ℚ} (h : fresh expires_at now = false)
    (hlater : now ≤ later) : fresh expires_at later = false := by
  by_contra hfresh
  have hle : (PyFloat.ofRat now).le (PyFloat.ofRat later) = true := by
    rw [PyFloat.le_ofRat]
    exact decide_eq_true hlater
  rw [fresh, PyFloat.lt_of_le_of_lt hle (Bool.eq_true_of_not_eq_false hfresh)] at h
  cases h

/-- A minute from a reading of the clock is not fresh, however the sum is rounded: no sum
is farther from the exact one than the reading itself. -/
theorem minute_not_fresh {now : ℚ} (h : IsFloat now) :
    fresh ((PyFloat.ofRat now).plus 60) now = false := by
  have hnear := (abs_le.mp (rounded_nearest h.digits (now + 60))).2
  rw [show now - (now + 60) = -60 by ring, abs_neg, abs_of_pos (by norm_num)] at hnear
  have hgap : 2 ^ 64 ≤ powerOfTwo 971 := by
    calc (2 : ℚ) ^ 64 = powerOfTwo 64 := by
          rw [powerOfTwo_eq]
          norm_num
      _ ≤ powerOfTwo 971 := powerOfTwo_le (by norm_num)
  have hgreatest := h.le_greatest
  rw [← Bool.not_eq_true]
  intro hfresh
  rw [fresh, PyFloat.ofRat, PyFloat.plus_some, PyFloat.plus_some, PyFloat.lt_some,
    Extended.plus_ofRat] at hfresh
  rcases Extended.lt_rounded_plus h.lt hfresh with hover | hbefore
  · linarith
  -- what is left without the five minutes is before the reading, which is a float
  · have hback : rounded (rounded (now + 60) + -300) ≤ rounded now :=
      rounded_mono (by linarith)
    rw [rounded_of_isBinary h.digits] at hback
    exact absurd hbefore (not_lt.mpr hback)

/-- Time has passed. -/
structure Later (s s' : Service π) : Prop where
  clock : s'.clock = s.clock
  ticks : s.ticks ≤ s'.ticks

theorem Later.refl (s : Service π) : Later s s := ⟨rfl, le_rfl⟩

theorem Later.trans {s t u : Service π} (h : Later s t) (h' : Later t u) : Later s u :=
  ⟨h'.clock.trans h.clock, h.ticks.trans h'.ticks⟩

/-- A reading of the clock. -/
theorem Later.tick {s s' : Service π} (h : Later s s') :
    Later s { s' with ticks := s'.ticks + 1 } := ⟨h.clock, h.ticks.trans (Nat.le_succ _)⟩

/-- Every call keeps the service coherent while time passes. -/
def cacheContract (answers : Provider π) (validUntil : String → ℚ) : Contract (Service π) :=
  Contract.along (Coherent answers validUntil) Later Later.refl Later.trans

/-- The token that is served has its five minutes at this check. -/
def ServedInTime (answers : Provider π) (validUntil : String → ℚ) (token : String) (checked : ℚ) :
    Prop :=
  ∃ issued expires_in, Issued answers validUntil token issued expires_in ∧
    HasMinutes checked issued expires_in

namespace Coherent

variable {answers : Provider π} {validUntil : String → ℚ} {s : Service π}

theorem tick (h : Coherent answers validUntil s) :
    Coherent answers validUntil { s with ticks := s.ticks + 1 } where
  clock := h.clock
  token := by
    intro token htoken
    rcases h.token token htoken with hcounted | hstale
    · exact Or.inl hcounted
    · exact Or.inr (not_fresh_later hstale (h.clock (Nat.le_succ _)))

/-- Whatever else changes, only the clock and the token matter. -/
theorem congr {s' : Service π} (h : Coherent answers validUntil s) (hclock : s'.clock = s.clock)
    (hticks : s'.ticks = s.ticks) (htoken : s'.token = s.token ∨ s'.token = none) :
    Coherent answers validUntil s' where
  clock := hclock ▸ h.clock
  token := by
    intro token hsome
    rw [Service.now, hclock, hticks]
    rcases htoken with hsame | hnone
    · exact h.token token (hsame ▸ hsome)
    · rw [hnone] at hsome
      cases hsome

/-- A token that is served has more than five minutes. -/
theorem serve (h : Coherent answers validUntil s) {force_refresh : Bool} {value : String}
    (hserve : serve force_refresh s.now s.token = some value) :
    ServedInTime answers validUntil value s.now := by
  cases htoken : s.token with
  | none =>
    rw [htoken] at hserve
    cases hserve
  | some token =>
    rw [htoken, D365TokenService.serve] at hserve
    obtain ⟨⟨-, hfresh⟩, rfl⟩ := by simpa using hserve
    rcases h.token token htoken with ⟨issued, expires_in, seconds, hissued, hin, hseconds, hle⟩
      | hstale
    · have hcounted : fresh ((PyFloat.ofRat issued).plus seconds) s.now = true :=
        PyFloat.lt_of_lt_of_le hfresh (PyFloat.plus_le_plus hle le_rfl)
      exact ⟨issued, expires_in, hissued, ⟨seconds, hseconds, hcounted⟩,
        counted_inFact hin (s.clock.isFloat _).lt hseconds hcounted⟩
    -- a clamped expiry is never five minutes away
    · rw [hstale] at hfresh
      cases hfresh

end Coherent

section Calls

variable [UnicodeData] [FloatData] {validUntil : String → ℚ} {answers : Provider π}

/-- What an answer says about the token in it. -/
theorem readAnswer_ok {result : Dict Json} {token : String} {lifetime : ℤ}
    (h : readAnswer result = .ok (token, lifetime)) :
    result.get? "access_token" = some (.str token) ∧
      ∀ expires_in : ℤ, result.get? "expires_in" = some (.int expires_in) →
        lifetime = max expires_in 60 := by
  unfold readAnswer at h
  split at h
  · rename_i value hvalue
    obtain ⟨n, hn, h⟩ := bind_eq_ok.mp h
    obtain ⟨rfl, rfl⟩ := Prod.mk.inj (Except.ok.inj h)
    refine ⟨hvalue, ?_⟩
    intro expires_in hexpires
    rw [Dict.getD, hexpires] at hn
    obtain rfl := Except.ok.inj hn
    rfl
  · cases h

/-- Storing an acquired token keeps the service coherent. -/
theorem Coherent.store (hhonest : Honest answers validUntil) {s' : Service π} {p : π}
    (h : Coherent answers validUntil s') {now started : ℚ} (hfloat : IsFloat now)
    (hnow : now ≤ started) (hpast : started ≤ s'.now) {result : Dict Json} {p₀ : π}
    (hanswer : answers p₀ started (.ok result) p) {token : AccessToken}
    (hread : newToken now result = .ok token) :
    Coherent answers validUntil { s' with provider := p, token := some token } where
  clock := h.clock
  token := by
    intro stored hstored
    obtain rfl := Option.some.inj hstored
    obtain ⟨lifetime, seconds, hread, hseconds, hexpires_at⟩ := newToken_ok hread
    obtain ⟨htoken, hlifetime⟩ := readAnswer_ok hread
    obtain ⟨expires_in, issued, hexpires, hissued, hvalid⟩ :=
      hhonest _ _ _ _ token.value hanswer htoken
    rw [hlifetime expires_in hexpires] at hseconds
    rcases le_total expires_in 60 with hshort | hlong
    · right
      rw [max_eq_right hshort, ofInt_minute] at hseconds
      obtain rfl := Except.ok.inj hseconds
      rw [hexpires_at]
      exact not_fresh_later (minute_not_fresh hfloat) (hnow.trans hpast)
    · left
      rw [max_eq_left hlong] at hseconds
      refine ⟨issued, expires_in, seconds, ⟨p₀, started, result, p, hanswer, htoken, hexpires,
        hissued, hvalid⟩, by omega, hseconds, ?_⟩
      rw [hexpires_at]
      refine PyFloat.plus_le_plus ?_ le_rfl
      rw [PyFloat.le_ofRat]
      exact decide_eq_true (hnow.trans hissued)

/-- A call that got its token without an acquisition of its own was served one with more
than five minutes from its check. -/
def Served (answers : Provider π) (validUntil : String → ℚ) :
    Post Exc String (Service π) (TokenSession π) :=
  fun r _ l => ∀ value, r = .ok value → l.started = none →
    ServedInTime answers validUntil value l.checked

section Keeps

variable (hhonest : Honest answers validUntil) {s₀ s : Service π}

include hhonest

theorem refresh_keeps (force_refresh : Bool) (l : TokenSession π)
    (h : Coherent answers validUntil s) (hlater : Later s₀ s) :
    Keeps (cacheContract answers validUntil) statements (Awaited answers)
      (ends (cacheContract answers validUntil) (Served answers validUntil)) (refresh force_refresh)
      s₀ s l := by
  unfold refresh
  rw [keeps_time, keeps_token]
  cases hserve : serve force_refresh s.now s.token with
  | some value =>
    refine ⟨h.tick, hlater.tick, ?_⟩
    intro v hv _
    cases hv
    exact h.serve hserve
  | none =>
    dsimp only
    rw [keeps_toThread, acquire]
    refine keeps_acquireTokenForClient (fun _ _ _ _ _ _ h => h)
      (h.tick.tick.congr rfl rfl (Or.inl rfl)) ⟨hlater.clock, hlater.tick.tick.ticks⟩ ?_
    intro s₁ hrely hinv started r p hstarted hanswer _
    obtain rfl := Option.some.inj hstarted
    have hpast : Later s₁ { s₁ with provider := p } := ⟨rfl, le_rfl⟩
    have hinv' : Coherent answers validUntil { s₁ with provider := p } :=
      hinv.congr rfl rfl (Or.inl rfl)
    cases r with
    | error e => exact ⟨hinv', hpast, fun _ hv => by cases hv⟩
    | ok result =>
      change Keeps _ _ _ _ (_ >>= _) _ _ _
      cases hread : newToken s.now result with
      | error e => exact ⟨hinv', hpast, fun _ hv => by cases hv⟩
      | ok token =>
        simp only [Prog.liftM_eq, Prog.ofExcept_ok, Prog.ret_bind]
        rw [keeps_setToken]
        refine ⟨?_, ⟨rfl, le_rfl⟩, fun _ _ hnone => by cases hnone⟩
        -- the check came before the start, and the start before the answer
        have hstart : s.now ≤ s.clock (s.ticks + 1) := h.clock (Nat.le_succ _)
        have hanswered : s.clock (s.ticks + 1) ≤ s₁.now := by
          rw [Service.now, hrely.clock]
          exact h.clock ((Nat.le_succ _).trans hrely.ticks)
        exact hinv.store hhonest (s.clock.isFloat _) hstart hanswered hanswer hread

theorem getAccessToken_keeps (force_refresh : Bool) (l : TokenSession π)
    (h : Coherent answers validUntil s) (hlater : Later s₀ s) :
    Keeps (cacheContract answers validUntil) statements (Awaited answers)
      (ends (cacheContract answers validUntil) (Served answers validUntil))
      (getAccessToken force_refresh) s₀ s l := by
  unfold getAccessToken
  rw [keeps_time, keeps_token]
  cases hserve : serve force_refresh s.now s.token with
  | some value =>
    refine ⟨h.tick, hlater.tick, ?_⟩
    intro v hv _
    cases hv
    exact h.serve hserve
  | none =>
    dsimp only
    rw [Prog.inside]
    refine keeps_lockAcquire (fun _ _ _ _ _ _ h => h) h.tick hlater.tick ?_
    intro s₁ hrely hinv hfree
    rw [Keeps.bind_iff, Keeps.attempt_iff]
    have hlocked : Coherent answers validUntil { s₁ with locked := true } :=
      hinv.congr rfl rfl (Or.inl rfl)
    have hentered : Later s₁ { s₁ with locked := true } := ⟨rfl, le_rfl⟩
    refine (refresh_keeps hhonest force_refresh { l with checked := s.now } hlocked
      hentered).mono ?_
    rintro r s₂ s₃ l₃ ⟨hinv₃, hlater₃, hserved⟩
    -- leaving the lock
    change Keeps _ _ _ _ (_ >>= _) _ _ _
    rw [keeps_lockRelease, Keeps.ofExcept_iff]
    exact ⟨hinv₃.congr rfl rfl (Or.inl rfl), ⟨hlater₃.clock, hlater₃.ticks⟩, hserved⟩

end Keeps

/-- The same of a call as the loop runs it. -/
def CallServed (answers : Provider π) (validUntil : String → ℚ) (_ : TokenCall) :
    Post Exc (Option String) (Service π) (TokenSession π) :=
  fun r _ l => ∀ value, r = .ok (some value) → l.started = none →
    ServedInTime answers validUntil value l.checked

theorem tokenLoop_keeps (hhonest : Honest answers validUntil) (c : TokenCall) (s : Service π)
    (h : Coherent answers validUntil s) :
    Keeps (cacheContract answers validUntil) (tokenLoop answers).sync ((tokenLoop answers).sem c)
      (ends (cacheContract answers validUntil) (CallServed answers validUntil c))
      ((tokenLoop answers).body c) s s {} := by
  cases c with
  | getAccessToken force_refresh =>
    refine Keeps.bind_iff.mpr ?_
    refine (getAccessToken_keeps hhonest force_refresh {} h (Later.refl s)).mono ?_
    rintro (e | token) s₁ s₂ l ⟨hinv, hlater, hserved⟩
    · exact ⟨hinv, hlater, fun _ hv => by cases hv⟩
    · refine ⟨hinv, hlater, ?_⟩
      intro value hv
      obtain rfl := Option.some.inj (Except.ok.inj hv)
      exact hserved token rfl
  | invalidate =>
    refine (keeps_setToken (f := fun _ => return none)).mpr ?_
    refine ⟨h.congr rfl rfl (Or.inr rfl), ⟨rfl, le_rfl⟩, ?_⟩
    intro value hv
    cases hv

/-- **No token is served close to its end.** In every order of turns, a call that
returns a token without an acquisition of its own returns one that is valid for more
than five minutes from that call's check, as far as sums of floats can tell. -/
theorem served_from_cache (hhonest : Honest answers validUntil) {s : Service π}
    (hclock : Monotone s.clock) (hempty : s.token = none) {P}
    (h : (tokenLoop answers).Reaches ⟨s, []⟩ P) :
    ∀ t ∈ P.threads, ∀ value, t.prog = .ret (some value) → t.sess.started = none →
      ServedInTime answers validUntil value t.sess.checked := by
  have hcoherent : Coherent answers validUntil s :=
    ⟨hclock, fun token htoken => by rw [hempty] at htoken; cases htoken⟩
  have hkept := Loop.kept_of_reaches (L := tokenLoop answers)
    (K := cacheContract answers validUntil) (Q := CallServed answers validUntil)
    (fun _ _ hguar => hguar) (fun _ _ _ _ _ hQ _ _ => hQ) (fun _ _ _ henv => False.elim henv)
    (fun c s _ hinv => tokenLoop_keeps hhonest c s hinv) h (Loop.kept_nil _ _ _ hcoherent)
  intro t ht value hret hstarted
  exact Loop.post_of_ret hkept ht hret value rfl hstarted

end Calls

/-! ## A run -/

section Example

open Ascii

/-- A token for an hour. -/
def hourly : Except Exc (Dict Json) :=
  .ok [("access_token", .str "token"), ("expires_in", .int 3600)]

/-- Who asks at this moment gets a token for an hour. -/
abbrev hourlyFrom (moment : ℚ) : Provider Unit :=
  fun _ started r _ => started = moment ∧ r = hourly

theorem hourlyFrom_honest (moment : ℚ) : Honest (hourlyFrom moment) fun _ => moment + 3600 := by
  rintro p started result p' token ⟨rfl, hr⟩ htoken
  cases hr
  exact ⟨3600, started, rfl, le_rfl, by norm_num⟩

theorem hourlyFrom_reaches {moment : ℚ} {cues : List (Loop.Cue (Except Exc Response) TokenCall)}
    {P₀ P} (h : Loop.play (tokenLoop (hourlyFrom moment))
      (answer fun _ started => if started = moment then some (hourly, ()) else none)
      (fun _ _ => none) cues P₀ = some P) : (tokenLoop (hourlyFrom moment)).Reaches P₀ P := by
  refine Loop.play_reaches (answer_awaited ?_) (fun _ _ _ h => by cases h) h
  intro p started r p' hanswer
  obtain ⟨hstart, rfl, -⟩ := by simpa using hanswer
  exact ⟨hstart, rfl⟩

/-- The first call acquires the token, asked for at reading 2; the second is served
from the cache. -/
theorem served_from_cache_second :
    ∃ P, (tokenLoop fun _ started r (_ : Unit) => started = 2 ∧ r = hourly).Reaches
        ⟨{ clock := Clock.ticking, provider := () }, []⟩ P ∧
      ∃ t ∈ P.threads, t.prog = .ret (some "token") ∧ t.sess.started = none ∧
        ServedInTime (fun _ started r (_ : Unit) => started = 2 ∧ r = hourly) (fun _ => 3602)
          "token" t.sess.checked := by
  have hrun : (Loop.play (tokenLoop (hourlyFrom 2))
      (answer fun _ started => if started = 2 then some (hourly, ()) else none)
      (fun _ _ => none) [.spawn (.getAccessToken false), .run 0 (.error .typeError),
        .run 0 (.error .typeError), .spawn (.getAccessToken false)]
      ⟨{ clock := Clock.ticking, provider := () }, []⟩).any (fun P =>
        P.threads.any fun t => t.prog.result = some (.ok (some "token")) ∧
          t.sess.started = none) = true := by
    decide +kernel
  obtain ⟨P, hplay, hP⟩ := (Option.any_eq_true _ _).mp hrun
  obtain ⟨t, ht, hresult⟩ := List.any_eq_true.mp hP
  obtain ⟨hret, hstarted⟩ := of_decide_eq_true hresult
  have hreaches := hourlyFrom_reaches hplay
  have hhonest : Honest (hourlyFrom 2) fun _ => 3602 := by
    have hend : (2 : ℚ) + 3600 = 3602 := by norm_num
    rw [← hend]
    exact hourlyFrom_honest 2
  have hserved := served_from_cache hhonest (s := { clock := Clock.ticking, provider := () })
    Clock.ticking_monotone rfl hreaches t ht "token" (Prog.result_eq_ok.mp hret)
    hstarted
  exact ⟨P, hreaches, t, ht, Prog.result_eq_ok.mp hret, hstarted, hserved⟩

/-- A moment whose sum with an hour has a digit too many, and rounds up. -/
def acquiredAt : ℚ := 2147480148 + 3 / 4194304

theorem isFloat_acquiredAt : IsFloat acquiredAt :=
  isFloat_of_digits (2147480148 * 4194304 + 3) (-22) (by norm_num) (by norm_num) (by norm_num) (by
    rw [powerOfTwo_eq, acquiredAt]
    norm_num)

/-- The token has five minutes. -/
theorem isFloat_servedAt : IsFloat (acquiredAt + 3300) :=
  isFloat_of_digits (2147483448 * 4194304 + 3) (-22) (by norm_num) (by norm_num) (by norm_num) (by
    rw [powerOfTwo_eq, acquiredAt]
    norm_num)

def roundedUp : Service Unit where
  clock := Clock.leap 3 isFloat_acquiredAt isFloat_servedAt
  provider := ()

/-- A token for an hour is served when it has five minutes left and not more. -/
theorem not_served_early : ¬ ∀ (answers : Provider Unit) (validUntil : String → ℚ),
    Honest answers validUntil → ∀ s : Service Unit, Monotone s.clock → s.token = none →
    ∀ P, (tokenLoop answers).Reaches ⟨s, []⟩ P →
    ∀ t ∈ P.threads, ∀ value, t.prog = .ret (some value) → t.sess.started = none →
      t.sess.checked + 300 < validUntil value := by
  intro hall
  have hrun : (Loop.play (tokenLoop (hourlyFrom acquiredAt)) (answer fun _ started =>
      if started = acquiredAt then some (hourly, ()) else none)
      (fun _ _ => none) [.spawn (.getAccessToken false), .run 0 (.error .typeError),
        .run 0 (.error .typeError), .spawn (.getAccessToken false)] ⟨roundedUp, []⟩).any (fun P =>
        P.threads.any fun t => t.prog.result = some (.ok (some "token")) ∧
          t.sess.started = none ∧ t.sess.checked = acquiredAt + 3300) = true := by
    decide +kernel
  obtain ⟨P, hplay, hP⟩ := (Option.any_eq_true _ _).mp hrun
  obtain ⟨t, ht, hresult⟩ := List.any_eq_true.mp hP
  obtain ⟨hret, hstarted, hchecked⟩ := of_decide_eq_true hresult
  have hclock : Monotone roundedUp.clock :=
    Clock.leap_monotone 3 isFloat_acquiredAt isFloat_servedAt (by norm_num)
  have hearly := hall _ _ (hourlyFrom_honest acquiredAt) roundedUp hclock rfl P
    (hourlyFrom_reaches hplay) t ht "token" (Prog.result_eq_ok.mp hret) hstarted
  rw [hchecked] at hearly
  linarith

end Example

end EmployeePortal.D365.D365TokenService
