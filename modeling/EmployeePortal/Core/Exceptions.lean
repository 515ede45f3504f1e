import Mathlib.Data.List.Forall2
import Mathlib.Data.Nat.Notation

/-!
# Exceptions

`PortalError` is the one exception the application turns into a response. The
others are the classes its own `except` clauses tell apart, and `other` for the
rest.
-/

namespace EmployeePortal

structure PortalError where
  code : String
  message : String
  status_code : ℕ := 400
deriving DecidableEq, Repr

/-- The subclasses of `D365Error`. -/
inductive D365Kind where
  | authentication
  | authorization
  | rateLimit
  | unavailable
  | metadata
deriving DecidableEq, Repr

/-- What a request by `httpx` can fail with: the classes under `httpx.HTTPError`,
and `InvalidURL`, which is not one of them. -/
inductive HttpxKind where
  | timeout
  | network
  | protocol
  | proxy
  | unsupportedProtocol
  | decoding
  | tooManyRedirects
  /-- `raise_for_status`. -/
  | status
  | invalidUrl
deriving DecidableEq, Repr

def HttpxKind.isHttpError : HttpxKind → Bool
  | invalidUrl => false
  | _ => true

/-- The classes under `httpx.RequestError`. -/
def HttpxKind.isRequestError : HttpxKind → Bool
  | status | invalidUrl => false
  | _ => true

inductive Exc where
  | portal (e : PortalError)
  | d365 (kind : D365Kind) (message : String)
  | httpx (kind : HttpxKind)
  | valueError (message : String)
  | keyError (key : String)
  | typeError
  | attributeError
  /-- PyJWT does not accept a token. -/
  | invalidTokenError
  /-- PyJWT cannot use a key: `PyJWKError`, `InvalidKeyError`. -/
  | pyJwkError
  /-- A constraint of the schema refused the flush. -/
  | integrityError
  /-- Any other failure of a database operation. -/
  | databaseError
  | assertionError
  /-- A pydantic model refused its arguments. -/
  | validationError
  | systemExit (message : String)
  | other (name : String)
deriving DecidableEq, Repr

/-! ## Calls and comprehensions that may raise -/

section Except

variable {ε α β : Type} {f : α → Except ε β}

theorem bind_eq_ok {x : Except ε α} {b : β} :
    x >>= f = .ok b ↔ ∃ a, x = .ok a ∧ f a = .ok b := by
  cases x with
  | error e => simp [bind, Except.bind]
  | ok a => simp [bind, Except.bind]

theorem ok_bind (a : α) : (Except.ok a : Except ε α) >>= f = f a := rfl

theorem error_bind (e : ε) : (Except.error e : Except ε α) >>= f = .error e := rfl

theorem map_eq_ok {g : α → β} {x : Except ε α} {b : β} :
    g <$> x = .ok b ↔ ∃ a, x = .ok a ∧ g a = b := by
  cases x with
  | error e => simp [Functor.map, Except.map]
  | ok a => simp [Functor.map, Except.map]

/-- Every exception it raises is one of these. -/
def Raises (P : ε → Prop) (x : Except ε α) : Prop := ∀ e, x = .error e → P e

theorem Raises.ok {P : ε → Prop} (a : α) : Raises P (.ok a : Except ε α) := by
  intro e h
  cases h

theorem Raises.error {P : ε → Prop} {e : ε} (h : P e) : Raises P (.error e : Except ε α) := by
  intro e' he
  rwa [← Except.error.inj he]

theorem Raises.mono {P Q : ε → Prop} {x : Except ε α} (h : Raises P x) (hPQ : ∀ e, P e → Q e) :
    Raises Q x :=
  fun e he => hPQ e (h e he)

theorem Raises.bind {P : ε → Prop} {x : Except ε α} (hx : Raises P x)
    (hf : ∀ a, x = .ok a → Raises P (f a)) : Raises P (x >>= f) := by
  cases x with
  | error e => exact .error (hx e rfl)
  | ok a => exact hf a rfl

theorem exists_of_mapM_ok {xs : List α} {ys : List β} (h : xs.mapM f = .ok ys) :
    ∀ y ∈ ys, ∃ x ∈ xs, f x = .ok y := by
  induction xs generalizing ys with
  | nil => cases h; simp
  | cons x xs ih =>
    rw [List.mapM_cons] at h
    obtain ⟨z, hz, h⟩ := bind_eq_ok.mp h
    obtain ⟨zs, hrest, h⟩ := bind_eq_ok.mp h
    obtain rfl := Except.ok.inj h
    intro y hy
    rcases List.mem_cons.mp hy with rfl | hy
    · exact ⟨x, List.mem_cons_self, hz⟩
    · obtain ⟨x', hx', hf⟩ := ih hrest y hy
      exact ⟨x', List.mem_cons_of_mem _ hx', hf⟩

theorem mapM_eq_ok {g : α → β} {xs : List α} (h : ∀ x ∈ xs, f x = .ok (g x)) :
    xs.mapM f = .ok (xs.map g) := by
  induction xs with
  | nil => rfl
  | cons x xs ih =>
    rw [List.mapM_cons, h x List.mem_cons_self, ih fun y hy => h y (List.mem_cons_of_mem _ hy)]
    rfl

/-- A comprehension succeeds item by item. -/
theorem mapM_ok_iff {xs : List α} {ys : List β} :
    xs.mapM f = .ok ys ↔ List.Forall₂ (fun x y => f x = .ok y) xs ys := by
  induction xs generalizing ys with
  | nil =>
    constructor
    · intro h
      obtain rfl := Except.ok.inj h
      exact .nil
    · intro h
      obtain rfl := List.forall₂_nil_left_iff.mp h
      rfl
  | cons x xs ih =>
    rw [List.mapM_cons, bind_eq_ok]
    constructor
    · rintro ⟨y, hy, h⟩
      obtain ⟨rest, hrest, h⟩ := bind_eq_ok.mp h
      obtain rfl := Except.ok.inj h
      exact .cons hy (ih.mp hrest)
    · intro h
      cases h with
      | cons hy hrest => exact ⟨_, hy, bind_eq_ok.mpr ⟨_, ih.mpr hrest, rfl⟩⟩

theorem exists_mem_of_forall₂ {γ δ : Type} {R : γ → δ → Prop} {xs : List γ} {ys : List δ}
    (h : List.Forall₂ R xs ys) {x : γ} (hx : x ∈ xs) : ∃ y ∈ ys, R x y := by
  induction h with
  | nil => cases hx
  | cons hfirst _ ih =>
    rcases List.mem_cons.mp hx with rfl | hx
    · exact ⟨_, List.mem_cons_self, hfirst⟩
    · obtain ⟨y, hy, hxy⟩ := ih hx
      exact ⟨y, List.mem_cons_of_mem _ hy, hxy⟩

theorem exists_mem_of_mapM_ok {xs : List α} {ys : List β} (h : xs.mapM f = .ok ys) {x : α}
    (hx : x ∈ xs) : ∃ y ∈ ys, f x = .ok y :=
  exists_mem_of_forall₂ (mapM_ok_iff.mp h) hx

/-- A loop that ends has done every turn. -/
theorem forM_ok {g : α → Except ε Unit} {xs : List α} (h : xs.forM g = .ok ()) :
    ∀ x ∈ xs, g x = .ok () := by
  induction xs with
  | nil => exact fun _ hx => absurd hx List.not_mem_nil
  | cons x xs ih =>
    change (g x >>= fun _ => xs.forM g) = .ok () at h
    obtain ⟨⟨⟩, hfirst, hrest⟩ := bind_eq_ok.mp h
    exact List.forall_mem_cons.mpr ⟨hfirst, ih hrest⟩

/-- A comprehension fails as one of its items does. -/
theorem exists_of_mapM_error {xs : List α} {e : ε} (h : xs.mapM f = .error e) :
    ∃ x ∈ xs, f x = .error e := by
  induction xs with
  | nil => cases h
  | cons x xs ih =>
    rw [List.mapM_cons] at h
    cases hx : f x with
    | error e' =>
      rw [hx, error_bind] at h
      exact ⟨x, List.mem_cons_self, by rw [hx, Except.error.inj h]⟩
    | ok y =>
      rw [hx, ok_bind] at h
      cases hrest : xs.mapM f with
      | error e' =>
        rw [hrest, error_bind] at h
        obtain ⟨x', hx', hf⟩ := ih (by rw [hrest, Except.error.inj h])
        exact ⟨x', List.mem_cons_of_mem _ hx', hf⟩
      | ok ys =>
        rw [hrest] at h
        cases h

end Except

end EmployeePortal
