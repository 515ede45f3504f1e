import EmployeePortal.Audit.Service
import EmployeePortal.Python.Documents
import EmployeePortal.Python.Uuid

/-!
# From results to responses

`portal_error_handler` and the two middlewares around every route. What a handler
raises that is no `PortalError` passes them all; Starlette answers it with a plain 500.
-/

namespace EmployeePortal.Core

open EmployeePortal.Python

/-- What the application reads of a request. -/
structure HttpRequest where
  client : Option String := none
  user_agent : Option String := none
  x_request_id : Option String := none
  /-- Scheme and token, as `HTTPBearer` finds them in `Authorization`. -/
  credentials : Option (String × String) := none

/-- What a response says: the answer of a route, or an error. -/
inductive Content (β : Type) where
  | answer (b : β)
  | error (error message requestId : String)

structure HttpReply (β : Type) where
  status_code : ℕ := 200
  headers : Dict String := []
  content : Content β

/-! ## `RequestContextMiddleware` and `SecurityHeadersMiddleware` -/

/-- `request.headers.get("X-Request-ID", str(uuid4()))[:128]`. -/
def requestId (request : HttpRequest) (uuid : Uuid) : String :=
  String.ofList ((request.x_request_id.getD uuid.toText).toList.take 128)

/-- What the handlers find in their request once `request.state.request_id` is set. -/
def stated (request : HttpRequest) (request_id : String) : Audit.Request where
  client := request.client
  user_agent := request.user_agent
  request_id := some request_id

def securityHeaders : Dict String := [
  ("X-Content-Type-Options", "nosniff"),
  ("Referrer-Policy", "strict-origin-when-cross-origin"),
  ("Permissions-Policy", "camera=(), microphone=(), geolocation=()"),
  ("Content-Security-Policy", "default-src 'none'; frame-ancestors 'none'")]

section Replies

variable {β : Type}

def HttpReply.update (reply : HttpReply β) (headers : Dict String) : HttpReply β :=
  { reply with headers := headers.foldl (fun d (k, v) => d.set k v) reply.headers }

def securityHeadersMiddleware (reply : HttpReply β) : HttpReply β := reply.update securityHeaders

def requestContextMiddleware (request_id : String) (reply : HttpReply β) : HttpReply β :=
  reply.update [("X-Request-ID", request_id)]

/-- `portal_error_handler`; it raises whatever is no `PortalError`. -/
def portalErrorHandler (request_id : Option String) : Exc → Except Exc (HttpReply β)
  | .portal e => .ok {
      status_code := e.status_code
      headers := if e.status_code = 401 then [("WWW-Authenticate", "Bearer")] else []
      content := .error e.code e.message (request_id.getD "unavailable") }
  | e => .error e

/-- What becomes of the result of a handler on its way out. -/
def dispatch (request_id : String) (result : Except Exc (HttpReply β)) :
    Except Exc (HttpReply β) := do
  let reply ← match result with
    | .ok reply => .ok reply
    | .error e => portalErrorHandler (some request_id) e
  return requestContextMiddleware request_id (securityHeadersMiddleware reply)

/-! ## What a response carries -/

theorem get?_update (reply : HttpReply β) (headers : Dict String) (k : String) :
    Dict.get? (reply.update headers).headers k =
      (Dict.get? headers.reverse k).or (Dict.get? reply.headers k) := by
  induction headers generalizing reply with
  | nil => rfl
  | cons header headers ih =>
    obtain ⟨name, value⟩ := header
    have hrest := ih { reply with headers := reply.headers.set name value }
    change Dict.get? (headers.foldl _ (reply.headers.set name value)) k = _
    rw [HttpReply.update] at hrest
    rw [hrest, Dict.get?_set, List.reverse_cons]
    unfold Dict.get?
    rw [List.lookup_append]
    by_cases hk : k = name
    · subst hk
      rw [if_pos rfl, List.lookup_cons_self, Option.or_assoc, Option.some_or]
    · rw [if_neg hk, List.lookup_cons, beq_false_of_ne hk]
      simp

/-- A reply is the handler's, or that of the `PortalError` it raised. -/
theorem dispatch_eq_ok {request_id : String} {result : Except Exc (HttpReply β)}
    {reply : HttpReply β} (h : dispatch request_id result = .ok reply) :
    ∃ inner, reply = requestContextMiddleware request_id (securityHeadersMiddleware inner) ∧
      (result = .ok inner ∨ ∃ e, result = .error (.portal e) ∧
        portalErrorHandler (some request_id) (.portal e) = .ok inner) := by
  cases result with
  | ok inner =>
    obtain rfl := Except.ok.inj h
    exact ⟨inner, rfl, Or.inl rfl⟩
  | error e =>
    cases e with
    | portal e =>
      obtain rfl := Except.ok.inj h
      exact ⟨_, rfl, Or.inr ⟨e, rfl, rfl⟩⟩
    | _ => cases h

end Replies

end EmployeePortal.Core
