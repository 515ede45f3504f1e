import EmployeePortal.D365.Retry

/-!
# The retry protocol

One `_get` as a trace of the calls it makes, answered in any way at all: how many
GETs and waits there are, which token request is forced, and when the token is
dropped.
-/

namespace EmployeePortal.D365

open EmployeePortal.Python EmployeePortal.Framework

namespace D365Client

/-! ## What one call asks for -/

inductive ClientOp where
  | getAccessToken (force_refresh : Bool)
  | invalidate
  | get (request : GetRequest)
  | sleep (delay : Delay)

abbrev ClientOp.Answer : ClientOp → Type
  | .getAccessToken _ => String
  | .invalidate => Unit
  | .get _ => Response
  | .sleep _ => Unit

inductive CallKind where
  | token
  | invalidate
  | get
  | sleep
deriving DecidableEq

namespace ClientOp

def kind : ClientOp → CallKind
  | getAccessToken _ => .token
  | invalidate => .invalidate
  | get _ => .get
  | sleep _ => .sleep

@[simp] theorem kind_getAccessToken (force_refresh : Bool) :
    (getAccessToken force_refresh).kind = .token := rfl

@[simp] theorem kind_invalidate : invalidate.kind = .invalidate := rfl

@[simp] theorem kind_get (request : GetRequest) : (get request).kind = .get := rfl

@[simp] theorem kind_sleep (delay : Delay) : (sleep delay).kind = .sleep := rfl

end ClientOp

abbrev Call : Type := Event ClientOp ClientOp.Answer Exc

/-- Collaborators that may answer anything; `invalidate` cannot fail. -/
def calls : Wire ClientOp ClientOp.Answer where
  getAccessToken := fun force_refresh => Prog.perform (ClientOp.getAccessToken force_refresh)
  invalidate := Prog.tell ClientOp.invalidate
  get := fun request => Prog.perform (ClientOp.get request)
  sleep := fun delay => Prog.perform (ClientOp.sleep delay)

/-- A GET that D365 answered with 401. -/
def Call.rejected : Call → Bool
  | ⟨.get _, outcome⟩ => unauthorized outcome
  | _ => false

/-- The trace ends with its first 401. -/
def FirstRejection (past : List Call) : Prop :=
  ∃ pre c, past = pre ++ [c] ∧ c.rejected = true ∧ ∀ c' ∈ pre, c'.rejected = false

/-- The trace ends with its first 401 and the `invalidate` after it. -/
def Renewing (past : List Call) : Prop :=
  ∃ pre answer, past = pre ++ [⟨.invalidate, answer⟩] ∧ FirstRejection pre

/-- The next call is a GET with this token. -/
def SendsNext (token : String) (future : List Call) : Prop :=
  ∃ request outcome rest, future = ⟨.get request, outcome⟩ :: rest ∧ request.token = token

/-- What may stand at a position of a trace, by what is before and after it. -/
def Lawful (past : List Call) (c : Call) (future : List Call) : Prop :=
  (c.1.kind = .invalidate ↔ FirstRejection past) ∧
  match c with
  | ⟨.getAccessToken force_refresh, answer⟩ =>
      (force_refresh = true ↔ Renewing past) ∧ ∀ token, answer = .ok token → SendsNext token future
  | ⟨.get request, _⟩ =>
      ∃ pre force_refresh, past = pre ++ [⟨.getAccessToken force_refresh, .ok request.token⟩]
  | ⟨.invalidate, _⟩ => True
  | ⟨.sleep _, answer⟩ =>
      (∃ pre request outcome, past = pre ++ [⟨.get request, outcome⟩] ∧
        unauthorized outcome = false) ∧
      (answer = .ok () → (∃ c' ∈ future, c'.1.kind = .get) ∨
        ∃ force_refresh e, future = [⟨.getAccessToken force_refresh, .error e⟩])

/-- The retry protocol with a budget of `n` retries. -/
structure Protocol (n : ℕ) (trace : List Call) : Prop where
  gets : trace.countP (·.1.kind = .get) ≤ n + 1
  sleeps : trace.countP (·.1.kind = .sleep) ≤ n
  invalidations : trace.countP (·.1.kind = .invalidate) ≤ 1
  /-- A first 401 is not the end: the token is dropped. -/
  heeded : ¬ FirstRejection trace
  lawful : ∀ past c future, trace = past ++ c :: future → Lawful past c future

/-! ## Round by round -/

/-- The traces of the loop with `k` attempts and these two flags left, by the rounds
they are made of. -/
inductive Rounds : (k : ℕ) → (refreshed forced : Bool) → List Call → Prop where
  | spent {b f} : Rounds 0 b f []
  | refused {k b f e} : Rounds (k + 1) b f [⟨.getAccessToken f, .error e⟩]
  | last {k b f request outcome} (hend : ¬ (unauthorized outcome = true ∧ b = false)) :
      Rounds (k + 1) b f [⟨.getAccessToken f, .ok request.token⟩, ⟨.get request, outcome⟩]
  | broken {k b f request outcome delay e} (hok : unauthorized outcome = false) :
      Rounds (k + 2) b f [⟨.getAccessToken f, .ok request.token⟩, ⟨.get request, outcome⟩,
        ⟨.sleep delay, .error e⟩]
  | slept {k b f request outcome delay es} (hok : unauthorized outcome = false)
      (hrest : Rounds (k + 1) b false es) :
      Rounds (k + 2) b f (⟨.getAccessToken f, .ok request.token⟩ :: ⟨.get request, outcome⟩ ::
        ⟨.sleep delay, .ok ()⟩ :: es)
  | renewed {k f request outcome answer es} (h401 : unauthorized outcome = true)
      (hrest : Rounds k true true es) :
      Rounds (k + 1) false f (⟨.getAccessToken f, .ok request.token⟩ ::
        ⟨.get request, outcome⟩ :: ⟨.invalidate, answer⟩ :: es)

/-- What a trace of the loop says of its first attempt: its token request, its GET, and what
the verdict on that GET calls for. -/
theorem attempts_run_cons {max_retries : ℤ} {request : String → GetRequest} {i : ℕ} {is : List ℕ}
    {b f : Bool} {es : List Call} {x : Except Exc Response}
    (h : (attempts calls max_retries request (i :: is) b f).Run es x) :
    (∃ e, es = [⟨.getAccessToken f, .error e⟩]) ∨
    ∃ token outcome es', es = ⟨.getAccessToken f, .ok token⟩ ::
        ⟨.get (request token), outcome⟩ :: es' ∧
      match verdict max_retries i b outcome with
      | .done _ => es' = []
      | .wait delay =>
          (∃ es'', es' = ⟨.sleep delay, .ok ()⟩ :: es'' ∧
            (attempts calls max_retries request is b false).Run es'' x) ∨
          ∃ e, es' = [⟨.sleep delay, .error e⟩]
      | .renew => ∃ answer es'', es' = ⟨.invalidate, answer⟩ :: es'' ∧
          (attempts calls max_retries request is true true).Run es'' x := by
  rw [attempts] at h
  rcases Prog.run_perform_bind.mp h with ⟨token, es₁, rfl, hget⟩ | ⟨e, rfl, -⟩
  swap
  · exact Or.inl ⟨e, rfl⟩
  obtain ⟨outcome, es₂, rfl, hnext⟩ := Prog.run_attempt_bind.mp hget
  refine Or.inr ⟨token, outcome, es₂, rfl, ?_⟩
  cases hv : verdict max_retries i b outcome with
  | done result =>
    simp only [hv] at hnext
    exact (Prog.run_ofExcept.mp hnext).1
  | wait delay =>
    simp only [hv] at hnext
    rcases Prog.run_perform_bind.mp hnext with ⟨_, es₃, rfl, hrest⟩ | ⟨e, rfl, -⟩
    · exact Or.inl ⟨es₃, rfl, hrest⟩
    · exact Or.inr ⟨e, rfl⟩
  | renew =>
    simp only [hv] at hnext
    obtain ⟨answer, es₃, rfl, hrest⟩ := Prog.run_tell_bind.mp hnext
    exact ⟨answer, es₃, rfl, hrest⟩

/-- Every trace of the loop is made of rounds. -/
theorem attempts_rounds {n : ℕ} {request : String → GetRequest}
    (htoken : ∀ token, (request token).token = token) {k i : ℕ} (hk : i + k = n + 1)
    {b f : Bool} {es : List Call} {x : Except Exc Response}
    (h : (attempts calls n request (List.range' i k) b f).Run es x) : Rounds k b f es := by
  induction k generalizing i b f es with
  | zero =>
    obtain ⟨rfl, -⟩ := h
    exact .spent
  | succ k ih =>
    rw [List.range'_succ] at h
    rcases attempts_run_cons h with ⟨e, rfl⟩ | ⟨token, outcome, es', rfl, hnext⟩
    · exact .refused
    generalize hsent : request token = sent
    obtain rfl : sent.token = token := by rw [← hsent, htoken]
    cases hv : verdict n i b outcome with
    | done result =>
      rw [hv] at hnext
      obtain rfl := hnext
      exact .last (verdict_done hv)
    | wait delay =>
      rw [hv] at hnext
      obtain ⟨hok, hlt⟩ := verdict_wait hv
      -- the attempt is not the last one
      obtain ⟨k, rfl⟩ : ∃ k', k = k' + 1 := ⟨n - 1 - i, by omega⟩
      rcases hnext with ⟨es'', rfl, hrest⟩ | ⟨e, rfl⟩
      · exact .slept hok (ih (by omega) hrest)
      · exact .broken hok
    | renew =>
      rw [hv] at hnext
      obtain ⟨h401, rfl⟩ := verdict_renew hv
      obtain ⟨answer, es'', rfl, hrest⟩ := hnext
      exact .renewed h401 (ih (by omega) hrest)

/-! ## What the rounds keep to -/

section Rounds

variable {k : ℕ} {b f : Bool} {past es : List Call} {c : Call}

theorem firstRejection_snoc :
    FirstRejection (past ++ [c]) ↔ c.rejected = true ∧ ∀ c' ∈ past, c'.rejected = false := by
  constructor
  · rintro ⟨pre, c', heq, hc, hpre⟩
    obtain ⟨rfl, hlast⟩ := List.append_inj' heq rfl
    obtain rfl : c = c' := by simpa using hlast
    exact ⟨hc, hpre⟩
  · rintro ⟨hc, hpast⟩
    exact ⟨past, c, rfl, hc, hpast⟩

theorem renewing_snoc :
    Renewing (past ++ [c]) ↔ c.1.kind = .invalidate ∧ FirstRejection past := by
  constructor
  · rintro ⟨pre, answer, heq, hpre⟩
    obtain ⟨rfl, hlast⟩ := List.append_inj' heq rfl
    obtain rfl : c = _ := by simpa using hlast
    exact ⟨rfl, hpre⟩
  · rintro ⟨hc, hpast⟩
    obtain ⟨o, answer⟩ := c
    cases o with
    | invalidate => exact ⟨past, answer, rfl, hpast⟩
    | _ => cases hc

/-- What the flags of the loop say about the calls made so far. -/
structure Before (b f : Bool) (past : List Call) : Prop where
  clean : b = false → ∀ c ∈ past, c.rejected = false
  dirty : b = true → ∃ c ∈ past, c.rejected = true
  heeded : ¬ FirstRejection past
  forced : f = true ↔ Renewing past

theorem before_nil : Before false false [] where
  clean := by simp
  dirty := by simp
  heeded := by simp [FirstRejection]
  forced := by simp [Renewing]

/-- A call that is neither a first 401 nor the `invalidate` after it. -/
theorem Before.snoc (h : Before b f past) (hc : c.rejected = true → b = true)
    (hinvalidate : c.1.kind ≠ .invalidate) : Before b false (past ++ [c]) where
  clean := by
    intro hb c' hc'
    rcases List.mem_append.mp hc' with hpast | hlast
    · exact h.clean hb c' hpast
    · obtain rfl := List.mem_singleton.mp hlast
      rw [← Bool.not_eq_true]
      intro hrejected
      rw [hc hrejected] at hb
      cases hb
  dirty := by
    intro hb
    obtain ⟨c', hmem, hrejected⟩ := h.dirty hb
    exact ⟨c', List.mem_append_left _ hmem, hrejected⟩
  heeded := by
    rw [firstRejection_snoc]
    rintro ⟨hrejected, hclean⟩
    obtain ⟨c', hmem, hc'⟩ := h.dirty (hc hrejected)
    rw [hclean c' hmem] at hc'
    cases hc'
  forced := by
    rw [renewing_snoc]
    simp [hinvalidate]

/-- A first 401 and the `invalidate` after it. -/
theorem Before.renew (h : Before false f past) {c' : Call} (hc : c.rejected = true)
    (hc' : c'.1.kind = .invalidate) : Before true true (past ++ [c] ++ [c']) where
  clean := by intro hb; cases hb
  dirty := fun _ => ⟨c, by simp, hc⟩
  heeded := by
    rw [firstRejection_snoc]
    rintro ⟨-, hclean⟩
    have hno := hclean c (by simp)
    rw [hc] at hno
    cases hno
  forced := by
    rw [renewing_snoc, firstRejection_snoc]
    exact ⟨fun _ => ⟨hc', hc, h.clean rfl⟩, fun _ => rfl⟩

/-- After a round that ends with a wait. -/
theorem Before.slept (h : Before b f past) {request : GetRequest}
    {outcome : Except Exc Response} {delay : Delay} {answer : Except Exc Unit}
    (hok : unauthorized outcome = false) :
    Before b false (past ++ [⟨.getAccessToken f, .ok request.token⟩] ++ [⟨.get request, outcome⟩] ++
      [⟨.sleep delay, answer⟩]) := by
  have hnot : ∀ c : Call, c.rejected = false → c.rejected = true → b = true := by
    intro c hfalse htrue
    rw [hfalse] at htrue
    cases htrue
  have htoken := h.snoc (c := ⟨.getAccessToken f, .ok request.token⟩) (hnot _ rfl) (by simp)
  have hget := htoken.snoc (c := ⟨.get request, outcome⟩) (hnot _ hok) (by simp)
  exact hget.snoc (hnot _ rfl) (by simp)

/-- After the round of the first 401. -/
theorem Before.renewed (h : Before false f past) {request : GetRequest}
    {outcome : Except Exc Response} {answer : Except Exc Unit}
    (h401 : unauthorized outcome = true) :
    Before true true (past ++ [⟨.getAccessToken f, .ok request.token⟩] ++
      [⟨.get request, outcome⟩] ++ [⟨.invalidate, answer⟩]) := by
  have htoken := h.snoc (c := ⟨.getAccessToken f, .ok request.token⟩) (fun hc => by cases hc)
    (by simp)
  exact htoken.renew h401 rfl

/-- A token request that the loop makes, answered or not. -/
theorem Before.lawful_token (h : Before b f past) {answer : Except Exc String}
    {future : List Call} (hanswer : ∀ token, answer = .ok token → SendsNext token future) :
    Lawful past ⟨.getAccessToken f, answer⟩ future := by
  refine ⟨?_, h.forced, hanswer⟩
  constructor
  · intro hc
    cases hc
  · intro hfirst
    exact absurd hfirst h.heeded

/-- The GET with the token just obtained. -/
theorem lawful_get {request : GetRequest} {outcome : Except Exc Response} {future : List Call} :
    Lawful (past ++ [⟨.getAccessToken f, .ok request.token⟩]) ⟨.get request, outcome⟩ future := by
  refine ⟨?_, past, f, rfl⟩
  constructor
  · intro hc
    cases hc
  · intro hfirst
    have hno := (firstRejection_snoc.mp hfirst).1
    cases hno

/-- The wait after an outcome that is not a 401. -/
theorem lawful_sleep {request : GetRequest} {outcome : Except Exc Response} {delay : Delay}
    {answer : Except Exc Unit} {future : List Call} (hok : unauthorized outcome = false)
    (hnext : answer = .ok () → (∃ c' ∈ future, c'.1.kind = .get) ∨
      ∃ force_refresh e, future = [⟨.getAccessToken force_refresh, .error e⟩]) :
    Lawful (past ++ [⟨.get request, outcome⟩]) ⟨.sleep delay, answer⟩ future := by
  refine ⟨?_, ⟨past, request, outcome, rfl, hok⟩, hnext⟩
  constructor
  · intro hc
    cases hc
  · intro hfirst
    have hrejected : unauthorized outcome = true := (firstRejection_snoc.mp hfirst).1
    rw [hok] at hrejected
    cases hrejected

/-- Rounds that are left start with a token request. -/
theorem rounds_next (h : Rounds (k + 1) b f es) : (∃ c ∈ es, c.1.kind = .get) ∨
    ∃ force_refresh e, es = [⟨.getAccessToken force_refresh, .error e⟩] := by
  cases h with
  | refused => exact Or.inr ⟨_, _, rfl⟩
  | last => exact Or.inl ⟨_, List.mem_cons_of_mem _ List.mem_cons_self, rfl⟩
  | broken => exact Or.inl ⟨_, List.mem_cons_of_mem _ List.mem_cons_self, rfl⟩
  | slept => exact Or.inl ⟨_, List.mem_cons_of_mem _ List.mem_cons_self, rfl⟩
  | renewed => exact Or.inl ⟨_, List.mem_cons_of_mem _ List.mem_cons_self, rfl⟩

/-- Every call of a round keeps the law, whatever was before. -/
theorem rounds_lawful (h : Rounds k b f es) (hbefore : Before b f past) :
    Along Lawful past es := by
  -- `Before` carries what the past allows from each round to the next
  induction h generalizing past with
  | spent => trivial
  | refused =>
    refine ⟨hbefore.lawful_token ?_, trivial⟩
    intro token h
    cases h
  | @last k b f request outcome hend =>
    refine ⟨hbefore.lawful_token ?_, lawful_get, trivial⟩
    intro token h
    cases h
    exact ⟨request, outcome, _, rfl, rfl⟩
  | @broken k b f request outcome delay e hok =>
    refine ⟨hbefore.lawful_token ?_, lawful_get, lawful_sleep hok ?_, trivial⟩
    · intro token h
      cases h
      exact ⟨request, outcome, _, rfl, rfl⟩
    · intro h
      cases h
  | @slept k b f request outcome delay es hok hrest ih =>
    refine ⟨hbefore.lawful_token ?_, lawful_get,
      lawful_sleep hok fun _ => rounds_next hrest, ih (hbefore.slept hok)⟩
    intro token h
    cases h
    exact ⟨request, outcome, _, rfl, rfl⟩
  | @renewed k f request outcome answer es h401 hrest ih =>
    refine ⟨hbefore.lawful_token ?_, lawful_get, ⟨?_, trivial⟩,
      ih (hbefore.renewed h401)⟩
    · intro token h
      cases h
      exact ⟨request, outcome, _, rfl, rfl⟩
    · constructor
      · intro _
        refine firstRejection_snoc.mpr ⟨h401, ?_⟩
        intro c hc
        rcases List.mem_append.mp hc with hpast | hlast
        · exact hbefore.clean rfl c hpast
        · rw [List.mem_singleton.mp hlast]
          rfl
      · intro _
        rfl

/-- No trace of rounds ends with a first 401. -/
theorem rounds_heeded (h : Rounds k b f es) (hbefore : Before b f past) :
    ¬ FirstRejection (past ++ es) := by
  induction h generalizing past with
  | spent =>
    rw [List.append_nil]
    exact hbefore.heeded
  | refused =>
    rw [firstRejection_snoc]
    rintro ⟨hrejected, -⟩
    cases hrejected
  | @last k b f request outcome hend =>
    rw [List.append_cons, firstRejection_snoc]
    rintro ⟨hrejected, hclean⟩
    cases b with
    | false => exact hend ⟨hrejected, rfl⟩
    | true =>
      obtain ⟨c, hmem, hc⟩ := hbefore.dirty rfl
      rw [hclean c (List.mem_append_left _ hmem)] at hc
      cases hc
  | broken hok =>
    rw [List.append_cons, List.append_cons, firstRejection_snoc]
    rintro ⟨hrejected, -⟩
    cases hrejected
  | slept hok hrest ih =>
    rw [List.append_cons, List.append_cons, List.append_cons]
    exact ih (hbefore.slept hok)
  | renewed h401 hrest ih =>
    rw [List.append_cons, List.append_cons, List.append_cons]
    exact ih (hbefore.renewed h401)

theorem rounds_gets (h : Rounds k b f es) : es.countP (·.1.kind = .get) ≤ k := by
  induction h with
  | spent => exact le_rfl
  | refused => simp
  | last => simp
  | broken => simp
  | slept hok hrest ih => simp; omega
  | renewed h401 hrest ih => simp; omega

/-- The last attempt never waits. -/
theorem rounds_sleeps (h : Rounds k b f es) : es.countP (·.1.kind = .sleep) ≤ k - 1 := by
  induction h with
  | spent => exact le_rfl
  | refused => simp
  | last => simp
  | broken => simp
  | slept hok hrest ih => simp; omega
  | renewed h401 hrest ih => simp; omega

theorem rounds_invalidations (h : Rounds k b f es) :
    es.countP (·.1.kind = .invalidate) ≤ if b then 0 else 1 := by
  induction h with
  | spent => exact Nat.zero_le _
  | refused => simp
  | last => simp
  | broken => simp
  | slept hok hrest ih => simpa using ih
  | renewed h401 hrest ih => simpa using ih

end Rounds

/-- **The retry protocol.** Whatever the token service, D365 and the waits answer,
and in whatever order, one `_get` with a budget of `n` retries keeps to it. -/
theorem get_protocol (n : ℕ) (path : String) (params : Option (Dict String))
    (accept : Option String) {trace : List Call} {x : Except Exc Response}
    (h : (get calls n path params accept).Run trace x) : Protocol n trace := by
  have hattempts : ((n : ℤ) + 1).toNat = n + 1 := by omega
  rw [get, hattempts, List.range_eq_range'] at h
  have hrounds : Rounds (n + 1) false false trace :=
    attempts_rounds (fun _ => rfl) (Nat.zero_add _) h
  exact
    { gets := rounds_gets hrounds
      sleeps := rounds_sleeps hrounds
      invalidations := rounds_invalidations hrounds
      heeded := by
        have h := rounds_heeded hrounds before_nil
        exact h
      lawful := along_iff.mp (rounds_lawful hrounds before_nil) }

/-- Token requests and waits succeed; the GETs end as told. -/
def answerGets : (o : ClientOp) → Except Exc Response → Option (Except Exc o.Answer)
  | .getAccessToken _, _ => some (.ok "t")
  | .invalidate, _ => some (.ok ())
  | .get _, outcome => some outcome
  | .sleep _, _ => some (.ok ())

/-- A 401, a lost connection and an answer, with three retries. -/
theorem get_protocol_three :
    Protocol 3
      [⟨.getAccessToken false, .ok "t"⟩,
        ⟨.get ⟨"$metadata", none, "t", none⟩, .ok ⟨401, none, .ok .null⟩⟩,
        ⟨.invalidate, .ok ()⟩,
        ⟨.getAccessToken true, .ok "t"⟩,
        ⟨.get ⟨"$metadata", none, "t", none⟩, .error (.httpx .network)⟩,
        ⟨.sleep (.backoff 1), .ok ()⟩,
        ⟨.getAccessToken false, .ok "t"⟩,
        ⟨.get ⟨"$metadata", none, "t", none⟩, .ok ⟨200, none, .ok .null⟩⟩] := by
  have hdrive : Prog.drive answerGets (get calls (3 : ℕ) "$metadata" none none)
      (List.replicate 3 (.ok ⟨401, none, .ok .null⟩) ++
        List.replicate 3 (.error (.httpx .network)) ++
        List.replicate 2 (.ok ⟨200, none, .ok .null⟩)) = some _ := rfl
  have hrun := Prog.drive_run hdrive
  exact get_protocol 3 _ _ _ hrun

end D365Client

end EmployeePortal.D365
