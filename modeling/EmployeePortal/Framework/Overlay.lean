import Mathlib.Data.Nat.Notation

/-!
# Patches

Values under keys, and patches that give some of them anew. Of several patches the
last one that has a key decides.
-/

namespace EmployeePortal.Framework

variable {κ β : Type}

/-- The values of a patch over those of a base. -/
def overlay (base : κ → β) (patch : κ → Option β) : κ → β :=
  fun k => (patch k).getD (base k)

/-- The patches one after the other. -/
def overlays (base : κ → β) (patches : List (κ → Option β)) : κ → β :=
  patches.foldl overlay base

theorem overlay_of_none {base : κ → β} {patch : κ → Option β} {k : κ} (h : patch k = none) :
    overlay base patch k = base k := by
  rw [overlay, h, Option.getD_none]

theorem overlay_of_some {base : κ → β} {patch : κ → Option β} {k : κ} {b : β}
    (h : patch k = some b) : overlay base patch k = b := by
  rw [overlay, h, Option.getD_some]

@[simp] theorem overlays_nil (base : κ → β) : overlays base [] = base := rfl

@[simp] theorem overlays_concat (base : κ → β) (patches : List (κ → Option β))
    (patch : κ → Option β) :
    overlays base (patches ++ [patch]) = overlay (overlays base patches) patch := by
  rw [overlays, List.foldl_append]
  rfl

/-- The last patch with the key decides. -/
theorem overlays_eq (base : κ → β) (patches : List (κ → Option β)) (k : κ) :
    overlays base patches k = (patches.reverse.findSome? (· k)).getD (base k) := by
  induction patches generalizing base with
  | nil => rfl
  | cons patch patches ih =>
    have hfold : overlays base (patch :: patches) = overlays (overlay base patch) patches := rfl
    rw [hfold, ih, List.reverse_cons, List.findSome?_append]
    cases patches.reverse.findSome? (· k) with
    | some b => rfl
    | none =>
      rw [Option.none_or, List.findSome?_singleton]
      rfl

end EmployeePortal.Framework
