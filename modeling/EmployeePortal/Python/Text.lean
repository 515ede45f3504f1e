import Mathlib.Data.List.DropRight
import Mathlib.Data.Nat.Notation

/-!
# Python text

The methods of `str` the portal calls, over Lean's `String`. Within ASCII they
are defined here. What they do with other characters is read off the Unicode
character database, which comes in as a class: no statement depends on its
contents beyond what it says.
-/

namespace EmployeePortal.Python

/-- The columns of the Unicode character database that `str.casefold`, `int` and
`repr` consult, for characters outside ASCII. -/
class UnicodeData where
  /-- Full case folding. -/
  fold : Char → List Char
  /-- The value of a decimal digit. -/
  decimal : Char → Option (Fin 10)
  printable : Char → Bool

/-- A database that knows no character outside ASCII, for closed runs. -/
abbrev asciiData : UnicodeData where
  fold := fun c => [c]
  decimal := fun _ => none
  printable := fun _ => false

namespace Ascii

scoped instance ascii : UnicodeData := asciiData

end Ascii

def isAscii (c : Char) : Bool := decide (c.toNat < 128)

/-! ## `str.strip` -/

/-- `str.isspace` of one character. -/
def isSpace (c : Char) : Bool :=
  let n := c.toNat
  (9 ≤ n && n ≤ 13) || (28 ≤ n && n ≤ 32) || n == 0x85 || n == 0xa0 || n == 0x1680 ||
    (0x2000 ≤ n && n ≤ 0x200a) || n == 0x2028 || n == 0x2029 || n == 0x202f ||
    n == 0x205f || n == 0x3000

/-- Drop the characters in `p` from both ends. -/
def stripBy (p : Char → Bool) (cs : List Char) : List Char :=
  (cs.dropWhile p).rdropWhile p

def strip (s : String) : String := String.ofList (stripBy isSpace s.toList)

/-- `text.rstrip("/")`. -/
def rstripSlash (s : String) : String := String.ofList (s.toList.rdropWhile (· = '/'))

theorem stripBy_eq_self {p : Char → Bool} {cs : List Char}
    (h : ∀ c ∈ cs, p c = false) : stripBy p cs = cs := by
  have hdrop : cs.dropWhile p = cs := by
    cases cs with
    | nil => rfl
    | cons c cs => simp [h c List.mem_cons_self]
  rw [stripBy, hdrop, List.rdropWhile_eq_self_iff]
  intro hne
  simp [h _ (List.getLast_mem hne)]

/-! ## `str.casefold` -/

section Casefold

variable [UnicodeData]

def foldChar (c : Char) : List Char :=
  if isAscii c then [c.toLower] else UnicodeData.fold c

def casefold (s : String) : String := String.ofList (s.toList.flatMap foldChar)

end Casefold

/-! ## `str.replace` -/

/-- `text.replace(old, new)` for a non-empty `old`; the first argument counts the
characters of a match still to be passed over. -/
def replaceFrom (old new : List Char) : ℕ → List Char → List Char
  | _, [] => []
  | skip + 1, _ :: cs => replaceFrom old new skip cs
  | 0, c :: cs =>
      if old.isPrefixOf (c :: cs) then new ++ replaceFrom old new (old.length - 1) cs
      else c :: replaceFrom old new 0 cs

def replace (old new : String) (cs : List Char) : List Char :=
  replaceFrom old.toList new.toList 0 cs

/-- A text without the first character of `old` has nothing to replace. -/
theorem replaceFrom_eq_self {o : Char} {old new cs : List Char} (h : o ∉ cs) :
    replaceFrom (o :: old) new 0 cs = cs := by
  induction cs with
  | nil => rfl
  | cons c cs ih =>
    have hne : o ≠ c := fun heq => h (heq ▸ List.mem_cons_self)
    have hcs : o ∉ cs := fun hmem => h (List.mem_cons_of_mem _ hmem)
    simp [replaceFrom, List.isPrefixOf, hne, ih hcs]

/-- Replacing one character is a substitution. -/
theorem replaceFrom_char (o : Char) (new cs : List Char) :
    replaceFrom [o] new 0 cs = cs.flatMap (fun c => if c = o then new else [c]) := by
  induction cs with
  | nil => rfl
  | cons c cs ih =>
    by_cases hc : c = o
    · simp [replaceFrom, List.isPrefixOf, hc, ih]
    · simp [replaceFrom, List.isPrefixOf, hc, Ne.symm hc, ih]

/-! ## Truth and dictionaries -/

/-- `x if x else None` for a `str | None`. -/
def truthy : Option String → Option String
  | some s => if s = "" then none else some s
  | none => none

/-- A `dict` with text keys, in insertion order. -/
abbrev Dict (β : Type) : Type := List (String × β)

/-- `d.get(k)`. -/
def Dict.get? {β : Type} (d : Dict β) (k : String) : Option β := List.lookup k d

/-- `d.get(k, default)`. -/
def Dict.getD {β : Type} (d : Dict β) (k : String) (default : β) : β :=
  (Dict.get? d k).getD default

/-- Looking up a key after mapping the values. -/
theorem Dict.get?_map {β γ : Type} (f : β → γ) (d : Dict β) (k : String) :
    Dict.get? (d.map fun p => (p.1, f p.2)) k = (d.get? k).map f := by
  induction d with
  | nil => rfl
  | cons p d ih =>
    unfold Dict.get? at ih ⊢
    rw [List.map_cons, List.lookup_cons, List.lookup_cons]
    cases k == p.1 with
    | true => rfl
    | false => exact ih

/-- Looking up a key among the pairs a comprehension keeps. -/
theorem Dict.get?_filterMap {β γ : Type} {g : String × β → Option (String × γ)} {d : Dict β}
    (hkeys : (d.map Prod.fst).Nodup) (hg : ∀ p q, g p = some q → q.1 = p.1) (k : String) :
    Dict.get? (d.filterMap g) k = (d.get? k).bind fun x => (g (k, x)).map Prod.snd := by
  induction d with
  | nil => rfl
  | cons p d ih =>
    obtain ⟨k', x⟩ := p
    obtain ⟨hnew, hkeys⟩ := List.nodup_cons.mp hkeys
    have hrest := ih hkeys
    unfold Dict.get? at hrest ⊢
    by_cases hk : k = k'
    · subst hk
      have hnone : List.lookup k d = none := by
        rw [List.lookup_eq_none_iff]
        intro q hq
        have hq1 : k ≠ q.1 := by
          rintro rfl
          exact hnew (List.mem_map.mpr ⟨q, hq, rfl⟩)
        exact bne_iff_ne.mpr hq1
      rw [hnone, Option.bind_none] at hrest
      rw [List.filterMap_cons, List.lookup_cons_self, Option.bind_some]
      cases hp : g (k, x) with
      | none => exact hrest
      | some q =>
        obtain ⟨k', y⟩ := q
        obtain rfl : k' = k := hg _ _ hp
        rw [List.lookup_cons_self]
        rfl
    · rw [List.filterMap_cons, List.lookup_cons, beq_false_of_ne hk]
      cases hp : g (k', x) with
      | none => exact hrest
      | some q =>
        have hq : k ≠ q.1 := by
          rw [hg _ _ hp]
          exact hk
        dsimp only
        rw [List.lookup_cons, beq_false_of_ne hq]
        exact hrest

theorem truthy_eq_some {x : Option String} {s : String} :
    truthy x = some s ↔ x = some s ∧ s ≠ "" := by
  cases x with
  | none => simp [truthy]
  | some t =>
    by_cases ht : t = ""
    · subst ht
      simp only [truthy, if_true, Option.some.injEq]
      constructor
      · intro h; cases h
      · rintro ⟨rfl, hne⟩; exact absurd rfl hne
    · simp only [truthy, if_neg ht, Option.some.injEq]
      constructor
      · rintro rfl; exact ⟨rfl, ht⟩
      · rintro ⟨rfl, -⟩; rfl

end EmployeePortal.Python
