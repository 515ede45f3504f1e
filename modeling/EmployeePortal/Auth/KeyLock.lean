import EmployeePortal.Auth.FreshKeys
import EmployeePortal.Framework.Locks

/-!
# The lock of the key cache

`_refresh_keys` holds the lock over two requests to the identity provider, each of
which may raise. Whatever the provider answers, the lock is freed, and no call waits
for it in vain.
-/

namespace EmployeePortal.Auth.EntraTokenValidator

open EmployeePortal.Python EmployeePortal.Framework

section Lock

variable {κ : Type} [Jwt κ] [UnicodeData] [UrlData] {settings : Settings}

def AuthOp.acquires : AuthOp κ → Option Unit
  | .lockAcquire => some ()
  | _ => none

def AuthOp.releases : AuthOp κ → Option Unit
  | .lockRelease => some ()
  | _ => none

variable (κ settings) in
def keyLock : Locks (authLoop κ settings) Unit where
  acquires := AuthOp.acquires
  releases := AuthOp.releases
  locked := fun _ => KeyCache.locked
  awaited := by
    intro o i ho
    cases o with
    | lockAcquire => rfl
    | _ => cases ho
  statement := by
    intro o f s l hf i
    cases o with
    | lockAcquire => cases hf
    | get url => cases hf
    | lockRelease =>
      obtain rfl := Option.some.inj hf
      exact (Bool.and_false _).symm
    | _ =>
      obtain rfl := Option.some.inj hf
      exact (Bool.and_true _).symm
  taken := by
    intro c o s l r s' l' i hsem ho
    cases hsem with
    | lockAcquire hfree => exact ⟨hfree, rfl⟩
    | get r => cases ho
  passed := by
    intro c o s l r s' l' i hsem ho
    cases hsem with
    | lockAcquire hfree => exact absurd rfl ho
    | get r => rfl
  unreleased := by
    intro o ho
    cases o with
    | lockRelease => cases ho
    | _ => rfl
  granted := by
    intro o i c s l ho hfree
    cases o with
    | lockAcquire => exact ⟨_, _, _, .lockAcquire hfree⟩
    | _ => cases ho
  answer := fun _ => ⟨.error .typeError⟩
  env := fun henv => False.elim henv

/-! ## The calls -/

theorem refreshLocked_neutral (force : Bool) :
    (refreshLocked settings force : AuthTask κ Unit).Only (keyLock κ settings).Neutral := by
  unfold refreshLocked fetchKeys
  refine Prog.Only.bind ?_ fun valid => ?_
  · split
    · trivial
    · exact .bind (.perform ⟨rfl, rfl⟩) fun now => .bind (.perform ⟨rfl, rfl⟩) fun expires_at =>
        .bind (.perform ⟨rfl, rfl⟩) fun keys => trivial
  split
  · trivial
  refine .bind (.tryCatch ?_ fun e => ?_) fun keys => ?_
  · exact .bind (.perform ⟨rfl, rfl⟩) fun discovery_response => .bind (.ofExcept _) fun discovery =>
      .bind (.ofExcept _) fun jwks_uri => .bind (.perform ⟨rfl, rfl⟩) fun keys_response =>
      .bind (.ofExcept _) fun document => .ofExcept _
  · split <;> trivial
  · exact .bind (.tell ⟨rfl, rfl⟩) fun _ => .bind (.perform ⟨rfl, rfl⟩) fun now =>
      .tell ⟨rfl, rfl⟩

theorem refreshKeys_brackets (force : Bool) :
    (keyLock κ settings).Brackets (refreshKeys settings force : AuthTask κ Unit) none :=
  Locks.brackets_inside (Locks.obeys_acquire rfl) (Locks.obeys_release rfl rfl)
    (refreshLocked_neutral force)

theorem lookUp_neutral (kid : String) :
    (lookUp kid : AuthTask κ κ).Only (keyLock κ settings).Neutral :=
  .bind (.perform ⟨rfl, rfl⟩) fun _ => .ofExcept _

theorem getKey_brackets (kid : String) :
    (keyLock κ settings).Brackets (getKey settings kid : AuthTask κ κ) none := by
  rw [getKey_eq]
  refine Locks.brackets_bind (Locks.brackets_of_only (.perform ⟨rfl, rfl⟩)) fun now => ?_
  refine Locks.brackets_bind (Locks.brackets_of_only (.perform ⟨rfl, rfl⟩)) fun expires_at => ?_
  refine Locks.brackets_bind (Locks.brackets_of_only (.perform ⟨rfl, rfl⟩)) fun keys => ?_
  split
  · exact Locks.brackets_bind (refreshKeys_brackets _) fun _ =>
      Locks.brackets_of_only (lookUp_neutral kid)
  · exact Locks.brackets_of_only (lookUp_neutral kid)

theorem validate_brackets (token : String) :
    (keyLock κ settings).Brackets (validate (κ := κ) settings token) none := by
  unfold validate
  refine Locks.brackets_bind (Locks.brackets_of_only (.ofExcept _)) fun kid => ?_
  refine Locks.brackets_bind (getKey_brackets kid) fun key => ?_
  exact Locks.brackets_of_only (.bind (.perform ⟨rfl, rfl⟩) fun time => .ofExcept _)

theorem authLoop_brackets (c : AuthCall) :
    (keyLock κ settings).Brackets ((authLoop κ settings).body c) none := by
  cases c with
  | getKey kid => exact Locks.brackets_bind (getKey_brackets kid) fun key => rfl
  | validate token => exact Locks.brackets_bind (validate_brackets token) fun user => rfl

/-! ## The loop -/

/-- Apart from the lock, a call awaits the identity provider only. -/
theorem authLoop_answered {s : KeyCache κ} {P} (h : (authLoop κ settings).Reaches ⟨s, []⟩ P) :
    (keyLock κ settings).Answered P := by
  intro t ht o k hop hother
  have hawaits := Loop.awaits_of_reaches h (by simp) t ht o k hop
  cases o with
  | get url => exact ⟨_, _, _, .get (.error .typeError)⟩
  | lockAcquire => cases hother
  | _ => cases hawaits

/-- **The lock of the key cache.** In every order of turns the lock is taken exactly while
one call has it, and whatever the identity provider answers, the calls come to their ends
and leave the lock free. -/
theorem key_lock_settles {s : KeyCache κ} {P} (hfree : s.locked = false)
    (h : (authLoop κ settings).Reaches ⟨s, []⟩ P) :
    (keyLock κ settings).Tidy P ∧ (keyLock κ settings).Settles P :=
  Locks.tidy_settles (fun _ => hfree) (fun c _ => authLoop_brackets c)
    (fun _ h' => authLoop_answered h') h

end Lock

section Example

open Ascii RsaKeys

/-- One call has the lock and asks for the discovery document, another one waits. -/
theorem key_lock_settles_waiting :
    ∃ P, (authLoop (String × String) testSettings).Reaches
        ⟨KeyCache.start Clock.ticking (fun _ => 0), []⟩ P ∧ P.store.locked = true ∧
      (keyLock (String × String) testSettings).Tidy P ∧
      (keyLock (String × String) testSettings).Settles P := by
  have hrun : (Loop.play (authLoop (String × String) testSettings) answer (fun _ _ => none)
      [.spawn (.validate signedToken), .spawn (.getKey "unit-test-key"), .run 0 keysResponse]
      ⟨KeyCache.start Clock.ticking (fun _ => 0), []⟩).any (fun P => P.store.locked) = true := by
    decide +kernel
  obtain ⟨P, hplay, hlocked⟩ := (Option.any_eq_true _ _).mp hrun
  have hreaches := Loop.play_reaches answer_awaited (fun _ _ _ h => by cases h) hplay
  exact ⟨P, hreaches, hlocked, key_lock_settles rfl hreaches⟩

end Example

end EmployeePortal.Auth.EntraTokenValidator
