import EmployeePortal.Python.Uuid

/-!
# `decimal.Decimal`

`Decimal(text)`: blanks at the ends and all underscores are dropped, decimal
digits of any script count as ASCII ones, and the rest is a numeral, an
infinity or a NaN. A numeral outside the exponent range is refused like one
that does not parse.
-/

namespace EmployeePortal.Python

inductive Decimal where
  | finite (negative : Bool) (coefficient : ℕ) (exponent : ℤ)
  | infinity (negative : Bool)
  | nan (negative signaling : Bool) (payload : ℕ)
deriving DecidableEq, Repr

namespace Decimal

def isDigit (c : Char) : Bool := 48 ≤ c.toNat && c.toNat ≤ 57

def digitsValue (cs : List Char) : ℕ := cs.foldl (fun n c => 10 * n + (c.toNat - 48)) 0

def splitSign : List Char → Bool × List Char
  | '-' :: cs => (true, cs)
  | '+' :: cs => (false, cs)
  | cs => (false, cs)

/-- `[eE][+-]?[0-9]+` or nothing. -/
def readExponent : List Char → Option ℤ
  | [] => some 0
  | e :: cs =>
      if e = 'e' ∨ e = 'E' then
        let (negative, ds) := splitSign cs
        if ds = [] ∨ ¬ ds.all isDigit then none
        else some (if negative then -(digitsValue ds : ℤ) else digitsValue ds)
      else none

/-- `MAX_EMAX` and the least exponent of a number (`Etiny`). -/
def maxExponent : ℤ := 999999999999999999

def minExponent : ℤ := -1999999999999999997

def inRange (coefficient : ℕ) (exponent : ℤ) : Bool :=
  minExponent ≤ exponent && exponent + (Nat.toDigits 10 coefficient).length - 1 ≤ maxExponent

def readFinite (negative : Bool) (cs : List Char) : Option Decimal :=
  let whole := cs.takeWhile isDigit
  let rest := cs.dropWhile isDigit
  let (frac, rest) := match rest with
    | '.' :: cs => (cs.takeWhile isDigit, cs.dropWhile isDigit)
    | cs => ([], cs)
  if whole = [] ∧ frac = [] then none
  else (readExponent rest).bind fun e =>
    let coefficient := digitsValue (whole ++ frac)
    let exponent := e - frac.length
    if inRange coefficient exponent then some (.finite negative coefficient exponent)
    else none

def readSpecial (negative : Bool) (cs : List Char) : Option Decimal :=
  let cs := cs.map Char.toLower
  if cs = "inf".toList ∨ cs = "infinity".toList then some (.infinity negative)
  else if cs.take 3 = "nan".toList ∧ (cs.drop 3).all isDigit then
    some (.nan negative false (digitsValue (cs.drop 3)))
  else if cs.take 4 = "snan".toList ∧ (cs.drop 4).all isDigit then
    some (.nan negative true (digitsValue (cs.drop 4)))
  else none

/-- `Decimal(text)`; `none` is its `InvalidOperation`. -/
def parse [UnicodeData] (text : String) : Option Decimal :=
  ((stripBy isSpace text.toList).filter (· ≠ '_')).mapM Uuid.asciiChar |>.bind fun cs =>
    let (negative, cs) := splitSign cs
    (readFinite negative cs).or (readSpecial negative cs)

/-- Neither an infinity nor a NaN. -/
def isFinite : Decimal → Bool
  | finite _ _ _ => true
  | _ => false

end Decimal

end EmployeePortal.Python
