import EmployeePortal.Core.Exceptions
import EmployeePortal.Python.Decimal
import EmployeePortal.Python.Json

/-!
# Untrusted documents

What Python's operations on a decoded JSON value answer or raise when the value
is of any shape: `get`, subscripts, iteration, truth, `==` with a text, and
`int`.
-/

namespace EmployeePortal.Python

/-! ## `d[key] = value` -/

/-- The entry of a key keeps its place; a new key goes to the end. -/
def Dict.set {β : Type} (d : Dict β) (key : String) (value : β) : Dict β :=
  match d with
  | [] => [(key, value)]
  | (k, x) :: rest => if k = key then (k, value) :: rest else (k, x) :: Dict.set rest key value

theorem Dict.get?_set {β : Type} (d : Dict β) (key : String) (value : β) (k : String) :
    Dict.get? (Dict.set d key value) k = if k = key then some value else Dict.get? d k := by
  induction d with
  | nil =>
    by_cases hk : k = key
    · simp [Dict.set, Dict.get?, hk]
    · simp [Dict.set, Dict.get?, List.lookup_cons, hk, beq_false_of_ne hk]
  | cons entry rest ih =>
    obtain ⟨k', x⟩ := entry
    simp only [Dict.get?] at ih ⊢
    rw [Dict.set]
    by_cases hkey : k' = key
    · subst hkey
      by_cases hk : k = k'
      · simp [hk]
      · simp [List.lookup_cons, hk, beq_false_of_ne hk]
    · rw [if_neg hkey]
      by_cases hk : k = k'
      · subst hk
        simp [hkey]
      · simp only [List.lookup_cons, beq_false_of_ne hk]
        exact ih

/-- How `int` truncates a float, which is known by its `repr` only. -/
class FloatData where
  toInt : String → Except Exc ℤ

/-- Floats that no closed run looks into. -/
abbrev noFloats : FloatData where
  toInt := fun _ => .error .typeError

namespace Ascii

scoped instance : FloatData := noFloats

end Ascii

namespace Json

/-! ## Objects -/

/-- `value.get(key, default)`: only a `dict` has the method. -/
def get (value : Json) (key : String) (default : Json := .null) : Except Exc Json :=
  match value with
  | obj fields => .ok (Dict.getD fields key default)
  | _ => .error .attributeError

/-- `value[key]` with a text key. -/
def item (value : Json) (key : String) : Except Exc Json :=
  match value with
  | obj fields =>
      match Dict.get? fields key with
      | some x => .ok x
      | none => .error (.keyError key)
  | _ => .error .typeError

/-- `for x in value`. -/
def iterate : Json → Except Exc (List Json)
  | arr xs => .ok xs
  | obj fields => .ok (fields.map fun field => .str field.1)
  | str s => .ok (s.toList.map fun c => .str c.toString)
  | _ => .error .typeError

/-- `value == text`. -/
def isText (value : Json) (text : String) : Bool :=
  match value with
  | str s => s = text
  | _ => false

/-- `value` where it is a `str`. -/
def asText : Json → Option String
  | str s => some s
  | _ => none

/-- `bool(value)`. -/
def truth : Json → Bool
  | null => false
  | bool b => b
  | int n => n ≠ 0
  | float r => r ≠ "0.0" ∧ r ≠ "-0.0"
  | str s => s ≠ ""
  | arr xs => !xs.isEmpty
  | obj fields => !fields.isEmpty

/-- `a or b`. -/
def orElse (a b : Json) : Json := if a.truth then a else b

@[simp] theorem isText_iff {value : Json} {text : String} :
    value.isText text = true ↔ value = str text := by
  cases value <;> simp [isText]

theorem asText_eq_some {value : Json} {text : String} :
    value.asText = some text ↔ value = str text := by
  cases value <;> simp [asText]

@[simp] theorem get_obj (fields : List (String × Json)) (key : String) (default : Json) :
    (obj fields).get key default = .ok (Dict.getD fields key default) := rfl

theorem get_ok {value : Json} {key : String} {default x : Json}
    (h : value.get key default = .ok x) : ∃ fields, value = obj fields := by
  cases value with
  | obj fields => exact ⟨fields, rfl⟩
  | _ => cases h

theorem item_ok {value : Json} {key : String} {x : Json} (h : value.item key = .ok x) :
    ∃ fields, value = obj fields ∧ Dict.get? fields key = some x := by
  cases value with
  | obj fields =>
    refine ⟨fields, rfl, ?_⟩
    cases hfield : Dict.get? fields key with
    | none =>
      rw [item, hfield] at h
      cases h
    | some y =>
      rw [item, hfield] at h
      rw [Except.ok.inj h]
  | _ => cases h

/-- A field that is a text can be subscripted. -/
theorem item_of_getD {fields : Dict Json} {key text : String}
    (h : fields.getD key .null = .str text) : (obj fields).item key = .ok (.str text) := by
  rw [Dict.getD] at h
  cases hfield : Dict.get? fields key with
  | none =>
    rw [hfield] at h
    cases h
  | some value =>
    rw [hfield] at h
    obtain rfl : value = .str text := h
    rw [item, hfield]

/-- A list, or the characters or field names of something else. -/
theorem iterate_ok {value : Json} {items : List Json} (h : value.iterate = .ok items) :
    value = .arr items ∨ ∀ item ∈ items, ∃ s, item = .str s := by
  cases value with
  | arr xs => exact Or.inl (congrArg arr (Except.ok.inj h))
  | obj fields =>
    obtain rfl := Except.ok.inj h
    right
    intro item hitem
    obtain ⟨field, -, rfl⟩ := List.mem_map.mp hitem
    exact ⟨_, rfl⟩
  | str s =>
    obtain rfl := Except.ok.inj h
    right
    intro item hitem
    obtain ⟨c, -, rfl⟩ := List.mem_map.mp hitem
    exact ⟨_, rfl⟩
  | _ => cases h

theorem iterate_error {value : Json} {e : Exc} (h : value.iterate = .error e) :
    e = .typeError := by
  cases value with
  | arr xs => cases h
  | obj fields => cases h
  | str s => cases h
  | _ => exact (Except.error.inj h).symm

/-! ## `int` -/

section Int

variable [UnicodeData]

/-- `int(text)`: blanks around, a sign, decimal digits of any script and single
underscores between them, at most `maxStrDigits` digits. -/
def intText (text : String) : Option ℤ :=
  (text.toList.mapM Uuid.asciiChar).bind fun cs =>
    let (negative, ds) := Decimal.splitSign (stripBy Uuid.isAsciiSpace cs)
    (Uuid.hexDigits ds).bind fun digits =>
      if digits.all (· < 10) ∧ digits.length ≤ maxStrDigits then
        let n : ℤ := (digits.foldl (fun n d => 10 * n + d) 0 : ℕ)
        some (if negative then -n else n)
      else none

/-- `int(value)`. -/
def toInt [FloatData] : Json → Except Exc ℤ
  | bool b => .ok (if b then 1 else 0)
  | int n => .ok n
  | float r => FloatData.toInt r
  | str s =>
      match intText s with
      | some n => .ok n
      | none => .error (.valueError "invalid literal for int() with base 10")
  | _ => .error .typeError

end Int

/-! ## `==` -/

section Eq

variable [FloatData]

/-- A float with an integer value ends in `.0` or has a positive exponent. -/
def isIntegral (repr : String) : Bool :=
  ".0".toList.isSuffixOf repr.toList || '+' ∈ repr.toList

/-- `True` and `False` are the numbers 1 and 0. -/
def asInt : Json → Option ℤ
  | bool b => some (if b then 1 else 0)
  | int n => some n
  | _ => none

def eqIntFloat (n : ℤ) (repr : String) : Bool :=
  isIntegral repr && match FloatData.toInt repr with
    | .ok m => n = m
    | .error _ => false

/-- Two zeros are equal whatever their signs, and no NaN equals anything. -/
def eqFloat (repr repr' : String) : Bool :=
  (repr = repr' && repr ≠ "nan") || (repr ∈ ["0.0", "-0.0"] && repr' ∈ ["0.0", "-0.0"])

/-- `x == y` unless both are lists or both are objects. -/
def eqAtom : Json → Json → Bool
  | null, null => true
  | str s, str t => s = t
  | float r, float t => eqFloat r t
  | float r, y => y.asInt.any fun n => eqIntFloat n r
  | x, float t => x.asInt.any fun n => eqIntFloat n t
  | x, y => x.asInt.isSome && x.asInt = y.asInt

mutual

/-- `x == y`. -/
def eq : Json → Json → Bool
  | arr xs, arr ys => eqItems xs ys
  | obj fields, obj fields' => fields.length = fields'.length && eqFields fields fields'
  | x, y => eqAtom x y

def eqItems : List Json → List Json → Bool
  | [], [] => true
  | x :: xs, y :: ys => eq x y && eqItems xs ys
  | _, _ => false

/-- Every entry of the first object is in the second one. -/
def eqFields : List (String × Json) → List (String × Json) → Bool
  | [], _ => true
  | (k, x) :: fields, fields' =>
      (match List.lookup k fields' with
        | some y => eq x y
        | none => false) && eqFields fields fields'

end

end Eq

/-! ## `json.dumps` -/

mutual

/-- What `json.dumps` makes of the value is JSON: no infinity and no NaN in it. -/
def isStandard : Json → Bool
  | float r => r ∉ ["nan", "inf", "-inf"]
  | arr xs => areStandard xs
  | obj fields => fieldsStandard fields
  | _ => true

def areStandard : List Json → Bool
  | [] => true
  | x :: xs => isStandard x && areStandard xs

def fieldsStandard : List (String × Json) → Bool
  | [] => true
  | (_, x) :: fields => isStandard x && fieldsStandard fields

end

end Json

end EmployeePortal.Python
