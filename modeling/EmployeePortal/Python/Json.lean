import EmployeePortal.Python.Text

/-!
# JSON as Python decodes it

The values `response.json()` can produce, and `str` of each. A float is only
ever looked at through `str`, so it is carried as its `repr`.
-/

namespace EmployeePortal.Python

inductive Json where
  | null
  | bool (b : Bool)
  | int (n : Int)
  | float (repr : String)
  | str (s : String)
  | arr (xs : List Json)
  | obj (fields : List (String × Json))

/-- The most decimal digits that `int` reads and `str` prints. -/
def maxStrDigits : ℕ := 4300

/-! ## `repr` of a text -/

def hexPad (width n : ℕ) : List Char :=
  let digits := Nat.toDigits 16 n
  List.replicate (width - digits.length) '0' ++ digits

section Str

variable [UnicodeData]

def reprChar (quote c : Char) : List Char :=
  if c = quote ∨ c = '\\' then ['\\', c]
  else if c = '\t' then ['\\', 't']
  else if c = '\n' then ['\\', 'n']
  else if c = '\r' then ['\\', 'r']
  else if c.toNat < 32 ∨ c.toNat = 127 then '\\' :: 'x' :: hexPad 2 c.toNat
  else if c.toNat < 127 ∨ UnicodeData.printable c then [c]
  else if c.toNat ≤ 0xff then '\\' :: 'x' :: hexPad 2 c.toNat
  else if c.toNat ≤ 0xffff then '\\' :: 'u' :: hexPad 4 c.toNat
  else '\\' :: 'U' :: hexPad 8 c.toNat

/-- `repr(s)`: double quotes only around a text with single and no double ones. -/
def reprText (s : String) : String :=
  let quote := if '\'' ∈ s.toList ∧ '"' ∉ s.toList then '"' else '\''
  String.ofList (quote :: s.toList.flatMap (reprChar quote) ++ [quote])

namespace Json

mutual

/-- `repr(value)`. -/
def repr : Json → String
  | null => "None"
  | bool true => "True"
  | bool false => "False"
  | int n => toString n
  | float r => r
  | str s => reprText s
  | arr xs => "[" ++ ", ".intercalate (reprItems xs) ++ "]"
  | obj fields => "\x7b" ++ ", ".intercalate (reprFields fields) ++ "\x7d"

def reprItems : List Json → List String
  | [] => []
  | x :: xs => repr x :: reprItems xs

def reprFields : List (String × Json) → List String
  | [] => []
  | (k, x) :: fields => (reprText k ++ ": " ++ repr x) :: reprFields fields

end

/-- `str(value)`. -/
def text : Json → String
  | str s => s
  | x => repr x

end Json

end Str

end EmployeePortal.Python
