import EmployeePortal.Core.Exceptions
import EmployeePortal.Python.Json
import Mathlib.Algebra.Group.Nat.Defs

/-!
# OData queries

`validate_identifier`, the string literal encoding, the two filter builders and
`ODataQuery.to_params`.
-/

namespace EmployeePortal.D365

open EmployeePortal.Python

/-! ## Identifiers: `^[A-Za-z_][A-Za-z0-9_./]*$` -/

def isIdentifierStart (c : Char) : Bool := c.isAlpha || c == '_'

def isIdentifierChar (c : Char) : Bool := c.isAlphanum || c == '_' || c == '.' || c == '/'

def isIdentifier (value : String) : Bool :=
  match value.toList with
  | [] => false
  | c :: cs => isIdentifierStart c && cs.all isIdentifierChar

theorem isIdentifier_chars {field : String} (h : isIdentifier field = true) :
    ∀ c ∈ field.toList, isIdentifierChar c = true := by
  unfold isIdentifier at h
  split at h
  · cases h
  · rename_i c cs heq
    rw [heq]
    rw [Bool.and_eq_true, List.all_eq_true] at h
    intro x hx
    rcases List.mem_cons.mp hx with rfl | hx
    · have hstart := h.1
      simp only [isIdentifierStart, Bool.or_eq_true] at hstart
      simp only [isIdentifierChar, Bool.or_eq_true, Char.isAlphanum]
      tauto
    · exact h.2 x hx

section Encode

variable [UnicodeData]

def validateIdentifier (value : String) : Except Exc String :=
  if isIdentifier value then .ok value
  else .error (.valueError ("Invalid OData identifier: " ++ reprText value))

theorem validateIdentifier_ok {value v : String} :
    validateIdentifier value = .ok v ↔ isIdentifier value = true ∧ v = value := by
  unfold validateIdentifier
  split
  · rename_i h; simp [h, eq_comm]
  · rename_i h; simp [h]

end Encode

/-! ## Literals and filters -/

/-- NUL, CR or LF occurs in the value. -/
def hasControl (value : String) : Bool :=
  '\x00' ∈ value.toList || '\r' ∈ value.toList || '\n' ∈ value.toList

/-- An OData string literal, by doubling embedded apostrophes. -/
def quoteOdataString (value : String) : Except Exc String :=
  if hasControl value then
    .error (.valueError "OData string values cannot contain control characters")
  else .ok ("'" ++ String.ofList (replace "'" "''" value.toList) ++ "'")

section Encode

variable [UnicodeData]

def equals (field value : String) : Except Exc String := do
  let field ← validateIdentifier field
  let literal ← quoteOdataString value
  return field ++ " eq " ++ literal

def andAll (expressions : List String) : Except Exc String :=
  if expressions = [] ∨ ∃ e ∈ expressions, e = "" then
    .error (.valueError "At least one non-empty OData expression is required")
  else .ok (" and ".intercalate (expressions.map (fun e => "(" ++ e ++ ")")))

/-- `and_all(equals(f1, v1), .., equals(fn, vn))`. -/
def filterOf (pairs : List (String × String)) : Except Exc String := do
  andAll (← pairs.mapM (fun p => equals p.1 p.2))

end Encode

/-! ## Queries -/

structure ODataQuery where
  select : List String := []
  filter_expression : Option String := none
  expand : List String := []
  orderby : List String := []
  top : Option ℤ := none
  skip : Option ℤ := none
  count : Option Bool := none
  cross_company : Option Bool := none

/-- `str(flag).lower()`. -/
def lowerBool (b : Bool) : String := if b then "true" else "false"

/-- `str(n)`. -/
def intString (n : ℤ) : Except Exc String :=
  if (Nat.toDigits 10 n.natAbs).length ≤ maxStrDigits then .ok (toString n)
  else .error (.valueError ("Exceeds the limit (4300 digits) for integer string conversion; " ++
    "use sys.set_int_max_str_digits() to increase the limit"))

theorem intString_ok_iff {n : ℤ} {text : String} :
    intString n = .ok text ↔ n.natAbs < 10 ^ maxStrDigits ∧ text = toString n := by
  have hlength : (Nat.toDigits 10 n.natAbs).length ≤ maxStrDigits ↔
      n.natAbs < 10 ^ maxStrDigits :=
    Nat.length_toDigits_le_iff (by decide) (by decide)
  unfold intString
  split
  · rename_i h
    rw [and_iff_right (hlength.mp h), Except.ok.injEq, eq_comm]
  · rename_i h
    exact iff_of_false (fun hok => by cases hok) fun hok => h (hlength.mpr hok.1)

theorem intString_raises (n : ℤ) :
    Raises (fun e => ∃ message, e = .valueError message) (intString n) := by
  unfold intString
  split
  · exact .ok _
  · exact .error ⟨_, rfl⟩

section Encode

variable [UnicodeData]

/-- `",".join(validate_identifier(v) for v in names)`, left out when empty. -/
def joinIdentifiers (key : String) (names : List String) : Except Exc (Dict String) :=
  if names = [] then .ok []
  else do return [(key, ",".intercalate (← names.mapM validateIdentifier))]

def topParam : Option ℤ → Except Exc (Dict String)
  | none => .ok []
  | some n =>
      if 1 ≤ n ∧ n ≤ 1000 then .ok [("$top", toString n)]
      else .error (.valueError "$top must be between 1 and 1000")

def skipParam : Option ℤ → Except Exc (Dict String)
  | none => .ok []
  | some n =>
      if n < 0 then .error (.valueError "$skip cannot be negative")
      else do return [("$skip", ← intString n)]

/-- A parameter left out when the option is empty. -/
def optionParam {β : Type} (key : String) (show_ : β → String) : Option β → Dict String
  | none => []
  | some b => [(key, show_ b)]

def ODataQuery.toParams (q : ODataQuery) : Except Exc (Dict String) := do
  let select ← joinIdentifiers "$select" q.select
  let filter := optionParam "$filter" id (truthy q.filter_expression)
  let expand ← joinIdentifiers "$expand" q.expand
  let orderby ← joinIdentifiers "$orderby" q.orderby
  let top ← topParam q.top
  let skip ← skipParam q.skip
  let count := optionParam "$count" lowerBool q.count
  let crossCompany := optionParam "cross-company" lowerBool q.cross_company
  return select ++ filter ++ expand ++ orderby ++ top ++ skip ++ count ++ crossCompany

/-! ## Queries that can be sent -/

theorem joinIdentifiers_ok (key : String) {names : List String}
    (h : ∀ n ∈ names, isIdentifier n = true) : ∃ d, joinIdentifiers key names = .ok d := by
  unfold joinIdentifiers
  split
  · exact ⟨_, rfl⟩
  · have hnames := mapM_eq_ok (g := id) fun n hn => validateIdentifier_ok.mpr ⟨h n hn, rfl⟩
    exact ⟨_, bind_eq_ok.mpr ⟨_, hnames, rfl⟩⟩

/-- A query for fields, a filter and a page. -/
theorem toParams_ok {q : ODataQuery} (hselect : ∀ n ∈ q.select, isIdentifier n = true)
    (hexpand : q.expand = []) (horderby : q.orderby = [])
    (htop : ∀ n, q.top = some n → 1 ≤ n ∧ n ≤ 1000) (hskip : q.skip = none) :
    ∃ params, q.toParams = .ok params := by
  obtain ⟨select, hselect⟩ := joinIdentifiers_ok "$select" hselect
  obtain ⟨top, htop⟩ : ∃ top, topParam q.top = .ok top := by
    cases hq : q.top with
    | none => exact ⟨_, rfl⟩
    | some n => exact ⟨_, if_pos (htop n hq)⟩
  unfold ODataQuery.toParams
  rw [hselect, hexpand, horderby, htop, hskip]
  exact ⟨_, rfl⟩

end Encode

end EmployeePortal.D365
