import EmployeePortal.D365.Retry
import EmployeePortal.Python.Float

/-!
# The wait between two attempts

How long a wait is, and which waits cannot be worked out: a power of two may be too large
for a float, and a date in `Retry-After` out of range.
-/

namespace EmployeePortal

open EmployeePortal.Python

/-- A sanitized integration failure. -/
def Exc.IsD365 (e : Exc) : Prop := ∃ kind message, e = .d365 kind message

namespace D365

/-- A `datetime`: seconds since the epoch on its own clock, and how far that is ahead of
UTC where it has a time zone. -/
structure DateTime where
  wall : ℚ
  tzinfo : Option ℚ := none

/-- What the standard library makes of the text of a header. -/
class HeaderData where
  /-- `float(text)`; `none` is a `ValueError`. -/
  float : String → Option PyFloat
  /-- `email.utils.parsedate_to_datetime(text)`. -/
  parsedateToDatetime : String → Except Exc DateTime
  /-- It does not know the exceptions of the application. -/
  foreign : ∀ text e, parsedateToDatetime text = .error e → ¬ e.IsD365

/-- Headers that no closed run looks into. -/
abbrev noHeaders : HeaderData where
  float := fun _ => none
  parsedateToDatetime := fun _ => .error (.valueError "Invalid date value or format")
  foreign := by
    rintro text e h ⟨kind, message, rfl⟩
    cases h

namespace D365Client

section Example

open scoped Ascii

/-- `float` as it is, and a date whose year does not fit a C int. -/
abbrev exampleHeaders : HeaderData where
  float := PyFloat.parse
  parsedateToDatetime := fun text =>
    if text = "Mon, 01 Jan 99999999999 00:00:00 GMT" then .error (.other "OverflowError")
    else .error (.valueError "Invalid date value or format")
  foreign := by
    rintro text e h ⟨kind, message, rfl⟩
    split at h <;> cases h

end Example

section Delay

variable [HeaderData]

/-- `min(max(seconds, 0.0), 30.0)`. -/
def clamp (seconds : PyFloat) : PyFloat := (seconds.max (.ofRat 0)).min (.ofRat 30)

/-- `(retry_at - datetime.now(UTC)).total_seconds()`, where a date without a time zone is
taken for one in UTC. -/
def secondsUntil (now : ℚ) (retry_at : DateTime) : ℚ := retry_at.wall - retry_at.tzinfo.getD 0 - now

/-- `except (TypeError, ValueError)`. -/
def dateCatches : Exc → Bool
  | .typeError | .valueError _ => true
  | _ => false

/-- `float(min(0.5 * (2**attempt), 4.0))`. -/
def defaultDelay (attempt : ℕ) : Except Exc PyFloat := do
  let seconds ← PyFloat.scaled (1 / 2) attempt
  return seconds.min (.ofRat 4)

/-- `_retry_delay`, from the text of the header on. -/
def retryDelay (now : ℚ) (retry_after : Option String) (attempt : ℕ) : Except Exc PyFloat :=
  match truthy retry_after with
  | none => defaultDelay attempt
  | some value =>
      match HeaderData.float value with
      | some seconds => .ok (clamp seconds)
      | none =>
          match HeaderData.parsedateToDatetime value with
          | .ok retry_at => .ok (clamp (.ofRat (secondsUntil now retry_at)))
          | .error e => if dateCatches e then defaultDelay attempt else .error e

/-- What a wait amounts to in seconds. -/
def secondsOf (now : ℚ) : Delay → Except Exc PyFloat
  | .backoff attempt => do
      let seconds ← PyFloat.scaled (1 / 4) attempt
      return seconds.min (.ofRat 4)
  | .retryDelay retry_after attempt => retryDelay now retry_after attempt

/-! ## Waits that can be worked out -/

/-- The header says when to come back, in seconds or with a date. -/
def Says (value : String) : Prop :=
  (HeaderData.float value).isSome = true ∨
    ∃ retry_at, HeaderData.parsedateToDatetime value = .ok retry_at

/-- The header is taken for no date. -/
def Unreadable (value : String) : Prop :=
  ∃ e, HeaderData.parsedateToDatetime value = .error e ∧ dateCatches e = true

/-- The attempt is early enough for its power of two, or the header makes up for it. -/
def Workable : Delay → Prop
  | .backoff attempt => attempt < 1024
  | .retryDelay retry_after attempt =>
      match truthy retry_after with
      | none => attempt < 1024
      | some value => Says value ∨ Unreadable value ∧ attempt < 1024

omit [HeaderData] in
theorem exists_scaled_iff {factor : ℚ} {attempt : ℕ} {f : PyFloat → PyFloat} :
    (∃ seconds, (do return f (← PyFloat.scaled factor attempt)) = Except.ok (ε := Exc) seconds) ↔
      attempt < 1024 := by
  unfold PyFloat.scaled
  split
  · rename_i hearly
    exact iff_of_true ⟨_, rfl⟩ hearly
  · rename_i hlate
    refine iff_of_false ?_ hlate
    rintro ⟨seconds, h⟩
    cases h

theorem secondsOf_ok_iff (now : ℚ) (delay : Delay) :
    (∃ seconds, secondsOf now delay = .ok seconds) ↔ Workable delay := by
  cases delay with
  | backoff attempt => exact exists_scaled_iff
  | retryDelay retry_after attempt =>
    rw [secondsOf, retryDelay, Workable]
    cases truthy retry_after with
    | none => exact exists_scaled_iff
    | some value =>
      dsimp only
      cases hfloat : HeaderData.float value with
      | some seconds => simp [Says, hfloat]
      | none =>
        cases hdate : HeaderData.parsedateToDatetime value with
        | ok retry_at => simp [Says, hdate]
        | error e =>
          have hnot : ¬ Says value := by simp [Says, hfloat, hdate]
          have hunreadable : Unreadable value ↔ dateCatches e = true := by
            simp [Unreadable, hdate]
          rw [hunreadable, or_iff_right hnot]
          dsimp only
          split
          · rename_i hcaught
            rw [and_iff_right hcaught]
            exact exists_scaled_iff
          · rename_i hescapes
            simp [hescapes]

theorem not_workable_of_error {now : ℚ} {delay : Delay} {e : Exc}
    (h : secondsOf now delay = .error e) : ¬ Workable delay := by
  intro hworkable
  obtain ⟨seconds, hseconds⟩ := (secondsOf_ok_iff now delay).mpr hworkable
  rw [h] at hseconds
  cases hseconds

omit [HeaderData] in
theorem scaled_foreign {factor : ℚ} {attempt : ℕ} {f : PyFloat → PyFloat} {e : Exc}
    (h : (do return f (← PyFloat.scaled factor attempt)) = Except.error e) : ¬ e.IsD365 := by
  unfold PyFloat.scaled at h
  split at h
  · cases h
  · obtain rfl := Except.error.inj h
    rintro ⟨kind, message, heq⟩
    cases heq

/-- A wait that cannot be worked out ends the call with an exception of another kind. -/
theorem secondsOf_foreign {now : ℚ} {delay : Delay} {e : Exc}
    (h : secondsOf now delay = .error e) : ¬ e.IsD365 := by
  cases delay with
  | backoff attempt => exact scaled_foreign h
  | retryDelay retry_after attempt =>
    rw [secondsOf, retryDelay] at h
    split at h
    · exact scaled_foreign h
    · split at h
      · cases h
      · split at h
        · cases h
        · rename_i e' hdate
          split at h
          · exact scaled_foreign h
          · obtain rfl := Except.error.inj h
            exact HeaderData.foreign _ _ hdate

end Delay

end D365Client

end D365

end EmployeePortal
