import EmployeePortal.Python.Text

/-!
# XML trees

An element as `ElementTree` holds it: its tag `{namespace}local`, its attributes and its
child elements. The text between them is left out.
-/

namespace EmployeePortal.Python

inductive Element where
  | mk (tag : String) (attrib : Dict String) (children : List Element)

namespace Element

def tag : Element → String
  | mk tag _ _ => tag

def attrib : Element → Dict String
  | mk _ attrib _ => attrib

def children : Element → List Element
  | mk _ _ children => children

mutual

/-- `element.iter()`: the element and everything below it, in document order. -/
def iter : Element → List Element
  | mk tag attrib children => mk tag attrib children :: iterAll children

def iterAll : List Element → List Element
  | [] => []
  | e :: es => iter e ++ iterAll es

end

mutual

/-- The elements below an element, in document order, each with the one it is a child of. -/
def offspring : Element → List (Element × Element)
  | mk tag attrib children => offspringOf (mk tag attrib children) children

def offspringOf (parent : Element) : List Element → List (Element × Element)
  | [] => []
  | e :: es => (parent, e) :: (offspring e ++ offspringOf parent es)

end

/-- `tag.rsplit("}", 1)[-1]`. -/
def localName (e : Element) : String := String.ofList (e.tag.toList.rtakeWhile (· ≠ '}'))

end Element

end EmployeePortal.Python
