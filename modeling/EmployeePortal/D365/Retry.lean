import EmployeePortal.D365.Query
import EmployeePortal.Framework.Traces

/-!
# `D365Client._get`

The retry loop, over whatever answers its four calls: the token service's
`get_access_token` and `invalidate`, the GET, and the wait between two attempts.
What a wait amounts to in seconds plays no part in the loop; working it out is
part of the call that waits, so that call may raise.
-/

namespace EmployeePortal.D365

open EmployeePortal.Python EmployeePortal.Framework

/-- What D365 answers to a GET. -/
structure Response where
  status_code : ℕ
  /-- `headers.get("Retry-After")`. -/
  retry_after : Option String := none
  /-- `response.json()`, which may not be JSON. -/
  json : Except Exc Json := .error (.valueError "Expecting value")

structure GetRequest where
  path : String
  params : Option (Dict String) := none
  /-- `Authorization: Bearer ..`. -/
  token : String
  accept : Option String := none

/-- The waits between two attempts. -/
inductive Delay where
  /-- `min(0.25 * (2**attempt), 4.0)`. -/
  | backoff (attempt : ℕ)
  /-- `_retry_delay(response, attempt)`. -/
  | retryDelay (retry_after : Option String) (attempt : ℕ)

/-- The calls a client makes to others. -/
structure Wire (O : Type) (A : O → Type) where
  getAccessToken : (force_refresh : Bool) → Prog O A Exc String
  invalidate : Prog O A Exc Unit
  get : GetRequest → Prog O A Exc Response
  sleep : Delay → Prog O A Exc Unit

namespace D365Client

def retriesExhausted : Exc := .d365 .unavailable "D365 request failed after bounded retries"

/-- What the loop makes of one GET. -/
inductive Verdict where
  | done (result : Except Exc Response)
  | wait (delay : Delay)
  /-- Drop the token and ask for a new one. -/
  | renew

/-- The body of the loop after the GET, branch by branch. -/
def verdict (max_retries : ℤ) (attempt : ℕ) (authentication_refreshed : Bool) :
    Except Exc Response → Verdict
  | .error (.httpx .timeout) | .error (.httpx .network) =>
      if max_retries ≤ attempt then .done (.error retriesExhausted) else .wait (.backoff attempt)
  | .error e => .done (.error e)
  | .ok response =>
      if response.status_code = 401 ∧ authentication_refreshed = false then .renew
      else if response.status_code = 401 then
        .done (.error (.d365 .authentication "D365 rejected the application credential"))
      else if response.status_code = 403 then
        .done (.error (.d365 .authorization "D365 denied access to the requested resource"))
      else if response.status_code = 429 then
        if max_retries ≤ attempt then
          .done (.error (.d365 .rateLimit "D365 rate limit retry budget was exhausted"))
        else .wait (.retryDelay response.retry_after attempt)
      else if 500 ≤ response.status_code then
        if max_retries ≤ attempt then
          .done (.error (.d365 .unavailable "D365 service is temporarily unavailable"))
        else .wait (.backoff attempt)
      else if 200 ≤ response.status_code ∧ response.status_code < 300 then .done (.ok response)
      else .done (.error (.d365 .unavailable
        ("D365 request failed with HTTP " ++ toString response.status_code)))

/-- The outcome of a GET is a 401. -/
def unauthorized : Except Exc Response → Bool
  | .ok response => response.status_code = 401
  | .error _ => false

section Verdict

variable {max_retries : ℤ} {attempt : ℕ} {refreshed : Bool} {outcome : Except Exc Response}

/-- A wait follows an outcome other than a 401, and only before the last attempt. -/
theorem verdict_wait {delay : Delay}
    (h : verdict max_retries attempt refreshed outcome = .wait delay) :
    unauthorized outcome = false ∧ attempt < max_retries := by
  unfold verdict at h
  split at h
  · split at h
    · cases h
    · rename_i hlt
      exact ⟨rfl, not_le.mp hlt⟩
  · split at h
    · cases h
    · rename_i hlt
      exact ⟨rfl, not_le.mp hlt⟩
  · cases h
  · rename_i response
    by_cases h401 : response.status_code = 401
    · simp only [h401, true_and, if_true] at h
      split at h <;> cases h
    · refine ⟨by simpa [unauthorized] using h401, ?_⟩
      by_contra hge
      simp only [h401, false_and, if_false, if_pos (not_lt.mp hge)] at h
      split_ifs at h

theorem verdict_renew (h : verdict max_retries attempt refreshed outcome = .renew) :
    unauthorized outcome = true ∧ refreshed = false := by
  unfold verdict at h
  split at h
  · split at h <;> cases h
  · split at h <;> cases h
  · cases h
  · split at h
    · rename_i hfirst
      exact ⟨by simpa [unauthorized] using hfirst.1, hfirst.2⟩
    · split_ifs at h

theorem verdict_done {result : Except Exc Response}
    (h : verdict max_retries attempt refreshed outcome = .done result) :
    ¬ (unauthorized outcome = true ∧ refreshed = false) := by
  rintro ⟨h401, hrefreshed⟩
  cases outcome with
  | error e => cases h401
  | ok response =>
    have hstatus : response.status_code = 401 := by simpa [unauthorized] using h401
    simp [verdict, hstatus, hrefreshed] at h

end Verdict

section Loop

variable {O : Type} {A : O → Type} (w : Wire O A) (max_retries : ℤ)
  (request : String → GetRequest)

/-- The loop, over the attempts that are left. -/
def attempts : List ℕ → (authentication_refreshed force_refresh_next : Bool) →
    Prog O A Exc Response
  | [], _, _ => throw retriesExhausted
  | attempt :: rest, authentication_refreshed, force_refresh_next => do
      let token ← w.getAccessToken force_refresh_next
      let outcome ← (w.get (request token)).attempt
      match verdict max_retries attempt authentication_refreshed outcome with
      | .done result => Prog.ofExcept result
      | .wait delay =>
          w.sleep delay
          attempts rest authentication_refreshed false
      | .renew =>
          w.invalidate
          attempts rest true true

/-- `_get`. -/
def get (path : String) (params : Option (Dict String)) (accept : Option String) :
    Prog O A Exc Response :=
  attempts w max_retries (fun token => ⟨path, params, token, accept⟩)
    (List.range (max_retries + 1).toNat) false false

def getMetadata : Prog O A Exc Response :=
  get w max_retries "$metadata" none (some "application/xml")

/-- The payload of an answer: a JSON object, or the error of `get_entity`. -/
def readPayload (response : Response) : Except Exc (Dict Json) :=
  match response.json with
  | .error (.valueError _) =>
      .error (.d365 .unavailable "D365 returned a malformed JSON response")
  | .error e => .error e
  | .ok (.obj payload) => .ok payload
  | .ok _ => .error (.d365 .unavailable "D365 returned an unexpected response shape")

/-- `get_entity`, down to the transport. -/
def fetchEntity [UnicodeData] (entity : String) (query : ODataQuery) :
    Prog O A Exc (Dict Json) := do
  let path ← validateIdentifier entity
  let params ← query.toParams
  let response ← get w max_retries path (some params) none
  readPayload response

end Loop

end D365Client

end EmployeePortal.D365
