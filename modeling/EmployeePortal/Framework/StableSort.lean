import Mathlib.Data.List.Basic
import Mathlib.Order.Lattice

/-!
# Stable sorting

`l'` is `l` in the order of a key, and items with one key stay in their order: what
`sorted(l, key=..)` promises.
-/

namespace EmployeePortal.Framework

variable {α κ : Type} [LinearOrder κ] {key : α → κ} {l l' : List α}

structure StableSort (key : α → κ) (l l' : List α) : Prop where
  perm : l'.Perm l
  sorted : l'.Pairwise fun a b => key a ≤ key b
  stable : ∀ k, l'.filter (key · = k) = l.filter (key · = k)

/-- Sorting by a key. -/
def sortBy (key : α → κ) (l : List α) : List α := l.mergeSort fun a b => key a ≤ key b

theorem sortBy_stableSort (key : α → κ) (l : List α) : StableSort key l (sortBy key l) := by
  have htrans : ∀ a b c : α, decide (key a ≤ key b) → decide (key b ≤ key c) →
      decide (key a ≤ key c) := by
    intro a b c hab hbc
    exact decide_eq_true ((of_decide_eq_true hab).trans (of_decide_eq_true hbc))
  have htotal : ∀ a b : α, (decide (key a ≤ key b) || decide (key b ≤ key a)) = true := by
    intro a b
    simpa using le_total (key a) (key b)
  have hperm := List.mergeSort_perm l fun a b => decide (key a ≤ key b)
  refine ⟨hperm, ?_, fun k => ?_⟩
  · exact (List.pairwise_mergeSort htrans htotal l).imp fun h => of_decide_eq_true h
  · -- items with one key are in order already
    have hsame : (l.filter (key · = k)).Pairwise fun a b => decide (key a ≤ key b) = true := by
      refine List.pairwise_of_forall_mem_list fun a ha b hb => ?_
      have hka : key a = k := of_decide_eq_true (List.mem_filter.mp ha).2
      have hkb : key b = k := of_decide_eq_true (List.mem_filter.mp hb).2
      exact decide_eq_true (hka.trans hkb.symm).le
    have hsub := (List.sublist_mergeSort htrans htotal hsame List.filter_sublist).filter (key · = k)
    rw [List.filter_filter] at hsub
    simp only [Bool.and_self] at hsub
    exact (hsub.eq_of_length (hperm.filter _).length_eq.symm).symm

/-- There is only one. -/
theorem StableSort.unique {l₁ l₂ : List α} (h₁ : StableSort key l l₁) (h₂ : StableSort key l l₂) :
    l₁ = l₂ := by
  have hfilter : ∀ k, l₁.filter (key · = k) = l₂.filter (key · = k) :=
    fun k => (h₁.stable k).trans (h₂.stable k).symm
  have hperm : l₁.Perm l₂ := h₁.perm.trans h₂.perm.symm
  have hsorted₁ := h₁.sorted
  have hsorted₂ := h₂.sorted
  clear h₁ h₂
  induction l₁ generalizing l₂ with
  | nil => exact hperm.nil_eq
  | cons a l₁ ih =>
    cases l₂ with
    | nil => exact absurd hperm.symm.nil_eq (List.cons_ne_nil a l₁).symm
    | cons b l₂ =>
      have hab : key a = key b := by
        have hle : ∀ c ∈ b :: l₂, key b ≤ key c :=
          List.forall_mem_cons.mpr ⟨le_rfl, (List.pairwise_cons.mp hsorted₂).1⟩
        have hge : ∀ c ∈ a :: l₁, key a ≤ key c :=
          List.forall_mem_cons.mpr ⟨le_rfl, (List.pairwise_cons.mp hsorted₁).1⟩
        exact le_antisymm (hge b (hperm.mem_iff.mpr List.mem_cons_self))
          (hle a (hperm.mem_iff.mp List.mem_cons_self))
      have hhead := hfilter (key a)
      rw [List.filter_cons_of_pos (by simp), List.filter_cons_of_pos (by simp [hab])] at hhead
      obtain ⟨rfl, -⟩ := List.cons.inj hhead
      have hrest : ∀ k, l₁.filter (key · = k) = l₂.filter (key · = k) := by
        intro k
        have hk := hfilter k
        by_cases ha : key a = k
        · rw [List.filter_cons_of_pos (by simp [ha]), List.filter_cons_of_pos (by simp [ha])] at hk
          exact (List.cons.inj hk).2
        · rwa [List.filter_cons_of_neg (by simp [ha]), List.filter_cons_of_neg (by simp [ha])] at hk
      rw [ih hrest ((List.perm_cons a).mp hperm) (List.pairwise_cons.mp hsorted₁).2
        (List.pairwise_cons.mp hsorted₂).2]

theorem stableSort_iff : StableSort key l l' ↔ l' = sortBy key l := by
  constructor
  · intro h
    exact h.unique (sortBy_stableSort key l)
  · rintro rfl
    exact sortBy_stableSort key l

end EmployeePortal.Framework
