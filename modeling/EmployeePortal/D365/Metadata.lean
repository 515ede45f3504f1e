import EmployeePortal.Framework.StableSort
import EmployeePortal.Framework.Traces
import EmployeePortal.Python.Documents
import EmployeePortal.Python.Xml
import Mathlib.Data.List.Infix
import Mathlib.Data.String.Basic

/-!
# `D365MetadataService`

`parse` on the tree of a metadata document, and `fetch_xml` and `search` over what Redis
and D365 answer.
-/

namespace EmployeePortal.D365

open EmployeePortal.Python EmployeePortal.Framework

structure EntityDescription where
  entity_set : String
  entity_type : String
  properties : List String
deriving DecidableEq

/-- What the service takes from others: `str.lower`, and the parser of `defusedxml`. -/
class MetadataLibrary where
  lower : String → String
  /-- `ElementTree.fromstring(xml)`. -/
  fromstring : String → Except Exc Element

namespace D365MetadataService

/-! ## `parse` -/

/-- `tuple(item.attrib["Name"] for item in child if ..)`. -/
def propertyNames (child : Element) : List String :=
  child.children.filterMap fun item =>
    if item.localName = "Property" then item.attrib.get? "Name" else none

/-- The body of the loop over the children of a schema. -/
def addEntityType (namespace_ : String) (entity_types : Dict (List String)) (child : Element) :
    Dict (List String) :=
  if child.localName ≠ "EntityType" then entity_types
  else
    let name := child.attrib.getD "Name" ""
    entity_types.set (namespace_ ++ "." ++ name) (propertyNames child)

/-- The body of the loop over the schemas. -/
def addSchema (entity_types : Dict (List String)) (schema : Element) : Dict (List String) :=
  if schema.localName ≠ "Schema" then entity_types
  else
    let namespace_ := schema.attrib.getD "Namespace" ""
    schema.children.foldl (addEntityType namespace_) entity_types

def entityTypes (root : Element) : Dict (List String) := root.iter.foldl addSchema []

def readEntitySet (entity_types : Dict (List String)) (element : Element) :
    Option EntityDescription :=
  if element.localName ≠ "EntitySet" then none
  else
    match truthy (element.attrib.get? "Name"), truthy (element.attrib.get? "EntityType") with
    | some entity_set, some entity_type =>
        some ⟨entity_set, entity_type, entity_types.getD entity_type []⟩
    | _, _ => none

def invalidXml : Exc := .d365 .metadata "D365 returned invalid metadata XML"

/-- `except ElementTree.ParseError`. -/
def parseCatches : Exc → Bool
  | .other name => name = "ParseError"
  | _ => false

section Parse

variable [MetadataLibrary]

/-- `parse`, from the root on. -/
def describe (root : Element) : List EntityDescription :=
  sortBy (fun item => MetadataLibrary.lower item.entity_set)
    (root.iter.filterMap (readEntitySet (entityTypes root)))

def parse (xml : String) : Except Exc (List EntityDescription) :=
  match MetadataLibrary.fromstring xml with
  | .ok root => .ok (describe root)
  | .error e => .error (if parseCatches e then invalidXml else e)

end Parse

/-! ## `fetch_xml` and `search` -/

/-- The answer to a request for the metadata document. -/
structure MetadataResponse where
  /-- `len(response.content)`. -/
  size : ℕ
  text : String
deriving DecidableEq

inductive MetadataOp where
  /-- `redis.get(CACHE_KEY)`. -/
  | get
  /-- `redis.set(CACHE_KEY, xml, ex=..)`. -/
  | set (xml : String) (ex : ℕ)
  | getMetadata

abbrev MetadataOp.Answer : MetadataOp → Type
  | .get => Option String
  | .set _ _ => Unit
  | .getMetadata => MetadataResponse

abbrev MetadataTask (α : Type) : Type := Prog MetadataOp MetadataOp.Answer Exc α

/-- The settings of one service. -/
structure Service where
  /-- `self._redis is not None`. -/
  redis : Bool
  cache_ttl : ℕ := 21600
  max_bytes : ℕ := 268435456

def tooLarge (size max_bytes : ℕ) : Exc :=
  .d365 .metadata ("D365 metadata document exceeds the configured safety limit (" ++
    toString size ++ " bytes received; limit is " ++ toString max_bytes ++ " bytes)")

/-- The cached document; any exception of Redis is logged and passed over. -/
def readCache (service : Service) (refresh : Bool) : MetadataTask (Option String) :=
  if service.redis = true ∧ refresh = false then do
    match ← (Prog.perform MetadataOp.get).attempt with
    | .ok cached => return truthy cached
    | .error _ => return none
  else return none

def writeCache (service : Service) (xml : String) : MetadataTask Unit :=
  if service.redis then do
    let _ ← (Prog.perform (MetadataOp.set xml service.cache_ttl)).attempt
  else return ()

/-- `fetch_xml` once the cache has nothing. -/
def download (service : Service) : MetadataTask String := do
  let response ← Prog.perform MetadataOp.getMetadata
  if response.size > service.max_bytes then throw (tooLarge response.size service.max_bytes)
  else do
    writeCache service response.text
    return response.text

def fetchXml (service : Service) (refresh : Bool) : MetadataTask String := do
  match ← readCache service refresh with
  | some xml => return xml
  | none => download service

section Search

variable [UnicodeData]

/-- `normalized in text.casefold()`. -/
def occursIn (normalized text : String) : Bool :=
  decide (normalized.toList <:+: (casefold text).toList)

def isMatch (normalized : String) (entity : EntityDescription) : Bool :=
  occursIn normalized entity.entity_set || occursIn normalized entity.entity_type ||
    entity.properties.any (occursIn normalized)

def search [MetadataLibrary] (service : Service) (term : String) (refresh : Bool) :
    MetadataTask (List EntityDescription) :=
  let normalized := strip (casefold term)
  if normalized = "" then throw (.valueError "Search term cannot be empty")
  else do
    let xml ← fetchXml service refresh
    let entities ← parse xml
    return entities.filter (isMatch normalized)

end Search

end D365MetadataService

end EmployeePortal.D365
