import EmployeePortal.Server

/-!
# What D365 was asked

A payload the portal works with is the body of an answer with a good status that D365
gave to a GET which the same request sent, for that entity and with those parameters.
-/

namespace EmployeePortal

open EmployeePortal.Python EmployeePortal.Framework EmployeePortal.D365

/-- The GETs sent, and the GETs answered so far. -/
abbrev Heard : Type := List GetRequest × List (GetRequest × Response)

/-- D365 gave this payload when it was asked for the entity. -/
structure FromD365 (entity : String) (params : Dict String) (payload : Dict Json)
    (request : GetRequest) (response : Response) : Prop where
  path : request.path = entity
  params : request.params = some params
  good : 200 ≤ response.status_code ∧ response.status_code < 300
  payload : D365Client.readPayload response = .ok payload

/-- One of the answers heard gave this payload. -/
def Gave (q : Heard) (entity : String) (params : Dict String) (payload : Dict Json) : Prop :=
  ∃ x ∈ q.2, FromD365 entity params payload x.1 x.2

/-! ## The client -/

/-- The calls to the service may come in any order; what was heard is remembered. -/
def hearing : Protocol ServiceOp ServiceOp.Answer Exc Heard := fun q o r => some (recordGet o r q)

theorem always_hearing {α : Type} (p : D365.Task α) : Always hearing p := by
  induction p with
  | ret a => exact fun _ => trivial
  | raise e => exact fun _ => trivial
  | op o k ih => exact fun q r => ⟨recordGet o r q, rfl, ih r _⟩

section Client

variable {max_retries : ℤ}

/-- Only an answer with a good status ends the loop with a response. -/
theorem verdict_done_ok {attempt : ℕ} {refreshed : Bool} {outcome : Except Exc Response}
    {response : Response}
    (h : D365Client.verdict max_retries attempt refreshed outcome = .done (.ok response)) :
    outcome = .ok response ∧ 200 ≤ response.status_code ∧ response.status_code < 300 := by
  unfold D365Client.verdict at h
  split at h
  · split at h <;> cases h
  · split at h <;> cases h
  · cases h
  · -- every other branch raises, waits or asks for a new token
    rename_i answer
    split_ifs at h with _ _ _ _ _ _ _ hgood <;> cases h
    exact ⟨rfl, hgood⟩

variable [UnicodeData] [FloatData]

/-- After the GET of an attempt. -/
theorem get_hears (request : GetRequest) (q : Heard) :
    Obeys hearing (fun r q' => ∀ response, r = .ok response → (request, response) ∈ q'.2)
      (D365TokenService.wire.get request) q := by
  refine Obeys.tell fun r => ⟨(q.1 ++ [request], q.2), rfl, ?_⟩
  refine Obeys.perform_iff.mpr fun r => ⟨_, rfl, fun response hr => ?_⟩
  subst hr
  refine List.mem_append_right _ ?_
  rw [List.getLast?_concat]
  exact List.mem_singleton_self _

/-- A response of the loop was heard in answer to one of its requests. -/
theorem attempts_hears (request : String → GetRequest) (is : List ℕ) (refreshed forced : Bool)
    (q : Heard) : Obeys hearing (fun r q' => ∀ response, r = .ok response →
        ∃ token, (request token, response) ∈ q'.2 ∧
          200 ≤ response.status_code ∧ response.status_code < 300)
      (D365Client.attempts D365TokenService.wire max_retries request is refreshed forced) q := by
  induction is generalizing refreshed forced q with
  | nil =>
    intro response h
    cases h
  | cons i is ih =>
    rw [D365Client.attempts, Obeys.bind_iff]
    refine (always_hearing _ q).mono ?_
    rintro (e | token) q₁ -
    · intro response h
      cases h
    change Obeys hearing _ (_ >>= _) q₁
    rw [Obeys.bind_iff, Obeys.attempt_iff]
    refine (get_hears (request token) q₁).mono fun outcome q₂ hheard => ?_
    simp only [Obeys.andThen]
    cases hverdict : D365Client.verdict max_retries i refreshed outcome with
    | done result =>
      refine Obeys.ofExcept_iff.mpr fun response hresult => ?_
      subst hresult
      obtain ⟨houtcome, hgood⟩ := verdict_done_ok hverdict
      exact ⟨token, hheard response houtcome, hgood⟩
    | wait delay =>
      refine Obeys.bind_iff.mpr ((always_hearing _ q₂).mono ?_)
      rintro (e | _) q₃ -
      · intro response h
        cases h
      · exact ih _ _ q₃
    | renew =>
      refine Obeys.bind_iff.mpr ((always_hearing _ q₂).mono ?_)
      rintro (e | _) q₃ -
      · intro response h
        cases h
      · exact ih _ _ q₃

/-- A payload was given by D365. -/
theorem askD365_hears (entity : String) (params : Dict String) (q : Heard) :
    Obeys hearing (fun r q' => ∀ payload, r = .ok payload → Gave q' entity params payload)
      (askD365 max_retries entity params) q := by
  rw [askD365, D365Client.get, Obeys.bind_iff]
  refine (attempts_hears _ _ _ _ q).mono ?_
  rintro (e | response) q' hheard
  · intro payload h
    cases h
  · refine Obeys.ofExcept_iff.mpr fun payload hpayload => ?_
    obtain ⟨token, hmem, hgood⟩ := hheard response rfl
    exact ⟨_, hmem, rfl, rfl, hgood, hpayload⟩

end Client

/-! ## In the server -/

variable {κ : Type}

/-- The request is at a question to D365: nothing but the service is called. -/
def fetching : Protocol (ServerOp κ) ServerOp.Answer Exc Heard := fun q o r =>
  match o with
  | .service o => some (recordGet o r q)
  | _ => none

theorem serviceTask_hears {α : Type} {p : D365.Task α} {Q : Except Exc α → Heard → Prop} {q : Heard}
    (h : Obeys hearing Q p q) : Obeys fetching Q (serviceTask p : ServerTask κ α) q := by
  refine (Obeys.fill Eq ?_ h rfl).mono fun r q' ⟨_, hq, hQ⟩ => hq ▸ hQ
  rintro o q₁ _ rfl -
  exact Obeys.perform_iff.mpr fun r => ⟨_, rfl, _, rfl, rfl⟩

end EmployeePortal
