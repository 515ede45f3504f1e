import EmployeePortal.D365.RetryOutcomes

/-!
# What becomes of a failing transport

A GET may raise any `httpx.RequestError`. The loop catches two branches of that hierarchy;
the others, and what its own steps raise besides, leave the client as they are.
-/

namespace EmployeePortal.D365

open EmployeePortal.Python EmployeePortal.Framework

namespace D365Client

section Calls

variable [HeaderData] (t : Transport) (n : ℕ)

def getMetadataOn : Except Exc Response := (Prog.consult t.answer (getMetadata calls n) 0).2

def getEntityOn [UnicodeData] (entity : String) (query : ODataQuery) : Except Exc (Dict Json) :=
  (Prog.consult t.answer (fetchEntity calls n entity query) 0).2

/-! ## Attempts that escape -/

/-- The call gets to its `i`-th GET. -/
def Attempts (i : ℕ) : Prop := (∃ token, t.tokens i = .ok token) ∧ ∀ j < i, GoesOn t j

/-- A `RequestError` that is neither a timeout nor a network error. -/
def Outcome.isUncaught : Outcome → Bool
  | .ok _ => false
  | .error kind => !isLost (.error kind)

/-- The `i`-th GET, or the wait after it, raises what nobody catches. -/
def Escapes (i : ℕ) : Prop :=
  (t.outcomes i).isUncaught = true ∨
    (t.outcomes i).isPassing = true ∧ i < n ∧ ¬ Workable ((t.outcomes i).delay i)

variable {t n} {i : ℕ}

/-! ## What it ends in -/

omit [HeaderData] in
/-- What is worth another attempt has been caught. -/
theorem isUncaught_of_retryable (h : Retryable t.outcomes i) :
    (t.outcomes i).isUncaught = false := by
  cases ho : t.outcomes i with
  | ok response => rfl
  | error kind =>
    rw [Retryable, ho] at h
    rcases h with hlost | ⟨hrejected, -⟩
    · exact congrArg not hlost
    · cases hrejected

theorem not_goesOn_of_escapes (h : Escapes t n i) : ¬ GoesOn t i := by
  intro hon
  rcases h with huncaught | ⟨hpassing, -, hwait⟩
  · rw [isUncaught_of_retryable hon.retryable] at huncaught
    cases huncaught
  · exact hwait (hon.workable hpassing)

/-- A call does not get past its end. -/
theorem EndsAt.not_goesOn {r : Except Exc Response} (h : EndsAt t n i r) (hi : i < n) :
    ¬ GoesOn t i := by
  intro hon
  cases h with
  | refused hrefused =>
    obtain ⟨token, htoken⟩ := hon.token
    rw [hrefused] at htoken
    cases htoken
  | decided htoken hdecided => exact hdecided hon.retryable
  | failed htoken hpassing _ hwait => exact not_workable_of_error hwait (hon.workable hpassing)
  | exhausted => exact absurd hi (lt_irrefl _)

omit [HeaderData] in
theorem isD365_conclusion_iff {o : Outcome} (hpassing : o.isPassing = false) :
    (∀ e, o.conclusion = .error e → e.IsD365) ↔ o.isUncaught = false := by
  cases o with
  | error kind =>
    refine iff_of_false (fun hall => ?_) ?_
    · obtain ⟨kind', message, heq⟩ := hall _ rfl
      cases heq
    · have hlost : Outcome.isLost (.error kind) = false := hpassing
      rw [Outcome.isUncaught, hlost]
      exact Bool.noConfusion
  | ok response =>
    refine iff_of_true (fun e he => ?_) rfl
    rw [Outcome.conclusion] at he
    split_ifs at he <;> exact ⟨_, _, (Except.error.inj he).symm⟩

omit [HeaderData] in
theorem isD365_exhaustion (o : Outcome) : o.exhaustion.IsD365 := by
  cases o with
  | error kind => exact ⟨_, _, rfl⟩
  | ok response =>
    rw [Outcome.exhaustion]
    split_ifs <;> exact ⟨_, _, rfl⟩

/-- What the call ends in is translated unless its last attempt escapes. -/
theorem EndsAt.isD365_iff {r : Except Exc Response} (h : EndsAt t n i r) :
    (∀ e, r = .error e → e.IsD365) ↔ ((∃ token, t.tokens i = .ok token) → ¬ Escapes t n i) := by
  cases h with
  | refused hrefused =>
    refine iff_of_true (fun e he => ⟨_, _, (Except.error.inj he).symm⟩) ?_
    rintro ⟨token, htoken⟩
    rw [hrefused] at htoken
    cases htoken
  | decided htoken hdecided =>
    have hpassing : (t.outcomes i).isPassing = false :=
      Bool.eq_false_iff.mpr fun hpassing => hdecided (Or.inl hpassing)
    rw [isD365_conclusion_iff hpassing, forall_prop_of_true ⟨_, htoken⟩, Escapes, hpassing]
    simp
  | failed htoken hpassing hi hwait =>
    refine iff_of_false (fun hall => secondsOf_foreign hwait (hall _ rfl)) fun hnot => ?_
    exact hnot ⟨_, htoken⟩ (Or.inr ⟨hpassing, hi, not_workable_of_error hwait⟩)
  | exhausted htoken hretryable =>
    refine iff_of_true ?_ fun _ hescapes => ?_
    · rintro e he
      obtain rfl := Except.error.inj he
      exact isD365_exhaustion _
    · rcases hescapes with huncaught | ⟨-, hlt, -⟩
      · rw [isUncaught_of_retryable hretryable] at huncaught
        cases huncaught
      · exact lt_irrefl _ hlt

/-- Of all attempts the call gets to, only its last one may be the one that escapes. -/
theorem EndsAt.forall_iff {r : Except Exc Response} (h : EndsAt t n i r) (hi : i ≤ n)
    (hpast : ∀ m < i, GoesOn t m) {p : ℕ → Prop} (hp : ∀ j < i, p j) :
    (∀ j ≤ n, Attempts t j → p j) ↔ ((∃ token, t.tokens i = .ok token) → p i) := by
  constructor
  · intro hall htoken
    exact hall i hi ⟨htoken, hpast⟩
  · intro hlast j hj hattempts
    rcases lt_trichotomy j i with hlt | rfl | hgt
    · exact hp j hlt
    · exact hlast hattempts.1
    · exact absurd (hattempts.2 i hgt) (h.not_goesOn (lt_of_lt_of_le hgt hj))

theorem getOn_isD365_iff (path : String) (params : Option (Dict String))
    (accept : Option String) :
    (∀ e, getOn t n path params accept = .error e → e.IsD365) ↔
      ∀ i ≤ n, Attempts t i → ¬ Escapes t n i := by
  obtain ⟨i, hi, hpast, hends⟩ := getOn_endsAt (t := t) (n := n) path params accept
  have hp : ∀ j < i, ¬ Escapes t n j := fun j hj h => not_goesOn_of_escapes h (hpast j hj)
  rw [hends.isD365_iff, hends.forall_iff hi hpast hp]

theorem EndsAt.eq_ok_iff {r : Except Exc Response} (h : EndsAt t n i r) {response : Response} :
    r = .ok response ↔ (∃ token, t.tokens i = .ok token) ∧ t.outcomes i = .ok response ∧
      200 ≤ response.status_code ∧ response.status_code < 300 := by
  cases h with
  | refused hrefused => simp [hrefused]
  | decided htoken hdecided =>
    have hsome : ∃ token, t.tokens i = .ok token := ⟨_, htoken⟩
    rw [conclusion_eq_ok, and_iff_right hsome]
  | failed htoken hpassing hi hwait =>
    refine iff_of_false nofun ?_
    rintro ⟨-, hanswer, hok⟩
    exact not_retryable_of_ok hanswer hok (Or.inl hpassing)
  | exhausted htoken hretryable =>
    refine iff_of_false nofun ?_
    rintro ⟨-, hanswer, hok⟩
    exact not_retryable_of_ok hanswer hok hretryable

/-- The response a call returns is the 2xx answer it gets to. -/
theorem getOn_ok_iff (path : String) (params : Option (Dict String)) (accept : Option String)
    (p : Response → Prop) :
    (∀ response, getOn t n path params accept = .ok response → p response) ↔
      ∀ i ≤ n, Attempts t i → ∀ response, t.outcomes i = .ok response →
        200 ≤ response.status_code → response.status_code < 300 → p response := by
  obtain ⟨i, hi, hpast, hends⟩ := getOn_endsAt (t := t) (n := n) path params accept
  have hp : ∀ j < i, ∀ response, t.outcomes j = .ok response →
      200 ≤ response.status_code → response.status_code < 300 → p response := by
    intro j hj response hanswer hlow hhigh
    exact absurd (hpast j hj).retryable (not_retryable_of_ok hanswer ⟨hlow, hhigh⟩)
  rw [hends.forall_iff hi hpast hp]
  simp only [hends.eq_ok_iff]
  constructor
  · intro hall htoken response hanswer hlow hhigh
    exact hall response ⟨htoken, hanswer, hlow, hhigh⟩
  · rintro hall response ⟨htoken, hanswer, hlow, hhigh⟩
    exact hall htoken response hanswer hlow hhigh

/-! ## `get_entity` -/

/-- The body is JSON, or fails to be with a `ValueError`. -/
def Legible (response : Response) : Prop :=
  ∀ e, response.json = .error e → e.IsD365 ∨ ∃ message, e = .valueError message

omit [HeaderData] in
theorem isD365_readPayload_iff {response : Response} :
    (∀ e, readPayload response = .error e → e.IsD365) ↔ Legible response := by
  unfold readPayload Legible
  split
  · rename_i message hjson
    rw [hjson]
    refine iff_of_true ?_ fun e he => Or.inr ⟨message, (Except.error.inj he).symm⟩
    exact fun e he => ⟨_, _, (Except.error.inj he).symm⟩
  · rename_i e hnot hjson
    rw [hjson]
    have hvalue : ¬ ∃ message, e = .valueError message := fun ⟨message, heq⟩ => hnot message heq
    constructor
    · intro hall e' he'
      exact Or.inl (hall e' (congrArg _ (Except.error.inj he')))
    · intro hall e' he'
      obtain rfl := Except.error.inj he'
      exact (hall e rfl).resolve_right hvalue
  · rename_i payload hjson
    rw [hjson]
    exact iff_of_true nofun nofun
  · rename_i value hnot hjson
    rw [hjson]
    exact iff_of_true (fun e he => ⟨_, _, (Except.error.inj he).symm⟩) nofun

omit [HeaderData] in
theorem validateIdentifier_raises [UnicodeData] (value : String) :
    Raises (fun e => ∃ message, e = .valueError message) (validateIdentifier value) := by
  unfold validateIdentifier
  split
  · exact .ok _
  · exact .error ⟨_, rfl⟩

omit [HeaderData] in
theorem joinIdentifiers_raises [UnicodeData] (key : String) (names : List String) :
    Raises (fun e => ∃ message, e = .valueError message) (joinIdentifiers key names) := by
  unfold joinIdentifiers
  split
  · exact .ok _
  · refine Raises.bind (fun e he => ?_) fun _ _ => .ok _
    obtain ⟨name, -, hname⟩ := exists_of_mapM_error he
    exact validateIdentifier_raises name e hname

omit [HeaderData] in
theorem toParams_raises [UnicodeData] (query : ODataQuery) :
    Raises (fun e => ∃ message, e = .valueError message) query.toParams := by
  unfold ODataQuery.toParams
  refine Raises.bind (joinIdentifiers_raises _ _) fun select _ => ?_
  refine Raises.bind (joinIdentifiers_raises _ _) fun expand _ => ?_
  refine Raises.bind (joinIdentifiers_raises _ _) fun orderby _ => ?_
  refine Raises.bind ?_ fun top _ => Raises.bind ?_ fun skip _ => .ok _
  · unfold topParam
    split
    · exact .ok _
    · split
      · exact .ok _
      · exact .error ⟨_, rfl⟩
  · unfold skipParam
    split
    · exact .ok _
    · split
      · exact .error ⟨_, rfl⟩
      · exact (intString_raises _).bind fun _ _ => .ok _

/-- A name or a query that is refused ends the call before any request. -/
theorem getEntityOn_eq [UnicodeData] (entity : String) (query : ODataQuery) :
    getEntityOn t n entity query = (do
      let path ← validateIdentifier entity
      let params ← query.toParams
      let response ← getOn t n path (some params) none
      readPayload response) := by
  unfold getEntityOn fetchEntity
  simp only [Prog.liftM_eq]
  cases validateIdentifier entity with
  | error e => rfl
  | ok path =>
    cases query.toParams with
    | error e => rfl
    | ok params =>
      simp only [Prog.ofExcept_ok, Prog.ret_bind]
      exact Prog.consult_bind_ofExcept _ readPayload

omit [HeaderData] in
/-- The exceptions of the GETs, and those of reading the answer. -/
theorem isD365_bind_readPayload_iff (x : Except Exc Response) :
    (∀ e, (x >>= readPayload) = .error e → e.IsD365) ↔
      (∀ e, x = .error e → e.IsD365) ∧ ∀ response, x = .ok response → Legible response := by
  cases x with
  | error e => simp [error_bind]
  | ok response => simp [ok_bind, isD365_readPayload_iff]

theorem getEntityOn_isD365_iff [UnicodeData] (entity : String) (query : ODataQuery) :
    (∀ e, getEntityOn t n entity query = .error e → e.IsD365) ↔
      isIdentifier entity = true ∧ (∃ params, query.toParams = .ok params) ∧
        ∀ i ≤ n, Attempts t i → ¬ Escapes t n i ∧ ∀ response, t.outcomes i = .ok response →
          200 ≤ response.status_code → response.status_code < 300 → Legible response := by
  have hvalue : ∀ e : Exc, (∃ message, e = .valueError message) → ¬ e.IsD365 := by
    rintro e ⟨message, rfl⟩ ⟨kind, message', heq⟩
    cases heq
  rw [getEntityOn_eq]
  cases hname : validateIdentifier entity with
  | error e =>
    refine iff_of_false (fun hall => ?_) ?_
    · exact hvalue e (validateIdentifier_raises entity e hname) (hall e rfl)
    · rintro ⟨hentity, -⟩
      rw [validateIdentifier, if_pos hentity] at hname
      cases hname
  | ok path =>
    obtain ⟨hentity, rfl⟩ := validateIdentifier_ok.mp hname
    rw [and_iff_right hentity]
    cases hparams : query.toParams with
    | error e =>
      refine iff_of_false (fun hall => ?_) ?_
      · exact hvalue e (toParams_raises query e hparams) (hall e rfl)
      · rintro ⟨⟨params, hok⟩, -⟩
        cases hok
    | ok params =>
      have hsome : ∃ params', (Except.ok params : Except Exc (Dict String)) = .ok params' :=
        ⟨params, rfl⟩
      rw [and_iff_right hsome]
      simp only [ok_bind]
      rw [isD365_bind_readPayload_iff, getOn_isD365_iff, getOn_ok_iff]
      constructor
      · rintro ⟨hescapes, hlegible⟩ i hi hattempts
        exact ⟨hescapes i hi hattempts, hlegible i hi hattempts⟩
      · intro hall
        exact ⟨fun i hi hattempts => (hall i hi hattempts).1,
          fun i hi hattempts => (hall i hi hattempts).2⟩

/-- **Which failures are translated.** Whatever the budget and however the GETs end:
`get_metadata` returns or raises a `D365Error` if and only if no attempt that is made ends in a
`RequestError` other than a timeout or a network error, or is followed by a wait that cannot be
worked out; `get_entity` if and only if besides that the name and the query are valid and the
answer does not fail to be JSON in another way than with a `ValueError`. -/
theorem translates_iff [UnicodeData] (t : Transport) (n : ℕ) :
    ((∀ e, getMetadataOn t n = .error e → e.IsD365) ↔
      ∀ i ≤ n, Attempts t i → ¬ Escapes t n i) ∧
    ∀ entity query, (∀ e, getEntityOn t n entity query = .error e → e.IsD365) ↔
      isIdentifier entity = true ∧ (∃ params, query.toParams = .ok params) ∧
        ∀ i ≤ n, Attempts t i → ¬ Escapes t n i ∧ ∀ response, t.outcomes i = .ok response →
          200 ≤ response.status_code → response.status_code < 300 → Legible response :=
  ⟨getOn_isD365_iff _ _ _, getEntityOn_isD365_iff⟩

end Calls

/-! ## A server that hangs up -/

section Example

open Ascii

/-- The tokens and the clock are fine; every GET ends in a `RemoteProtocolError`. -/
def hangingUp : Transport where
  tokens := fun _ => .ok "t"
  outcomes := fun _ => .error .protocol
  clock := fun _ => 0

theorem not_translates :
    ¬ ∀ (t : Transport) (n : ℕ), (∀ i kind, t.outcomes i = .error kind → kind.isRequestError) →
      (∀ e, @getMetadataOn noHeaders t n = .error e → e.IsD365) ∧
      ∀ entity query, isIdentifier entity = true → (∃ params, query.toParams = .ok params) →
        ∀ e, @getEntityOn noHeaders t n _ entity query = .error e → e.IsD365 := by
  intro hall
  have hrequest : ∀ i kind, hangingUp.outcomes i = .error kind → kind.isRequestError := by
    rintro i kind h
    obtain rfl := Except.error.inj h
    rfl
  obtain ⟨kind, message, heq⟩ := (hall hangingUp 3 hrequest).1 (.httpx .protocol) rfl
  cases heq

end Example

end D365Client

end EmployeePortal.D365
