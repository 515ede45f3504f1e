import EmployeePortal.D365.Metadata
import EmployeePortal.D365.Query
import EmployeePortal.Database.EntityRows
import EmployeePortal.Framework.Overlay

/-!
# `apply_d365_mapping`

The administrator's tool: a configuration file, checked item by item against the
metadata of the environment it names and then merged into `d365_entity_mapping`.
-/

namespace EmployeePortal.Tools.ApplyD365Mapping

open EmployeePortal.Python EmployeePortal.Framework EmployeePortal.D365

/-- What a run finds outside the database. -/
structure Inputs where
  /-- `json.loads(path.read_text(encoding="utf-8"))`. -/
  file : Except Exc Json
  D365_BASE_URL : String
  /-- `metadata_service.parse(await metadata_service.fetch_xml())`. -/
  metadata : Except Exc (List EntityDescription)
  /-- `datetime.now(UTC)` at each item. -/
  now : ℕ → ℚ

/-- What `except (OSError, ValueError, KeyError, json.JSONDecodeError)` catches. -/
def catches : Exc → Bool
  | .valueError _ | .keyError _ => true
  | .other name => name = "OSError"
  | _ => false

/-- The `mappings` of `load_configuration`. -/
def mappingsOf (raw : Json) : Except Exc (List Json) :=
  match raw with
  | .obj fields =>
      match Dict.get? fields "mappings" with
      | some (.arr mappings) => .ok mappings
      | _ => .error (.valueError "Configuration must contain a mappings array")
  | _ => .error (.valueError "Configuration must contain a mappings array")

/-- `value.items()`: only a `dict` has the method. -/
def entriesOf : Json → Except Exc (Dict Json)
  | .obj fields => .ok fields
  | _ => .error .attributeError

/-- `entities.get(entity_name)`: of two entity sets with one name the later one. -/
def propertiesOf (metadata : List EntityDescription) (entity_name : String) :
    Option (List String) :=
  (metadata.reverse.find? (·.entity_set = entity_name)).map (·.properties)

/-- `key.endswith("_field")`. -/
def isFieldKey (key : String) : Bool := "_field".toList.isSuffixOf key.toList

section Tool

variable [UnicodeData]

/-- `configured_fields`. -/
def configuredFields (item : Json) : Except Exc (List String) := do
  let fields ← entriesOf item
  let field_mapping ← entriesOf (fields.getD "field_mapping" (.obj []))
  return (fields.filter fun (key, value) => isFieldKey key && value.truth).map (·.2.text) ++
    field_mapping.map (·.2.text)

/-- `sorted(fields)` of a set, as it is printed. -/
def sortedText (fields : List String) : String :=
  "[" ++ ", ".intercalate ((fields.eraseDups.mergeSort fun s t => !(t < s)).map reprText) ++ "]"

/-- One turn of the first loop. -/
def validateItem (metadata : List EntityDescription) (item : Json) : Except Exc Unit := do
  let entity_name ← validateIdentifier (← item.item "entity_name").text
  match propertiesOf metadata entity_name with
  | none =>
      throw (.valueError
        ("Entity " ++ reprText entity_name ++ " is not present in current metadata"))
  | some available =>
      let configured_fields ← configuredFields item
      let missing := configured_fields.filter (· ∉ available)
      if missing = [] then return ()
      else throw (.valueError
        ("Entity " ++ reprText entity_name ++ " is missing fields: " ++ sortedText missing))

/-- Everything before the database: the mappings of the file. -/
def validate (inputs : Inputs) : Except Exc (List Json) := do
  let configuration ← inputs.file
  let mappings ← mappingsOf configuration
  let expected := rstripSlash (← configuration.get "environment" (.str "")).text
  let actual := rstripSlash inputs.D365_BASE_URL
  if expected ≠ actual then
    throw (.valueError ("Configuration environment " ++ reprText expected ++
      " does not match " ++ reprText actual))
  let metadata ← inputs.metadata
  mappings.forM (validateItem metadata)
  return mappings

/-! ## The database -/

/-- What an item assigns: `if field in item: setattr(model, field, item[field])`. -/
def patch (item : Json) (field : Attribute) : Option Json :=
  match item with
  | .obj fields => Dict.get? fields field.name
  | _ => none

/-- `D365EntityMapping(mapping_key=key, entity_name=..)`, with the default of
`field_mapping`. -/
def newObject (mapping_key entity_name : String) : EntityObject where
  mapping_key := mapping_key
  attributes
    | .entity_name => .str entity_name
    | .field_mapping => .obj []
    | _ => .null
  metadata_confirmed_at := none
  metadata_environment := none

/-- The item merged into an object, which is stamped. -/
def merge (now : ℚ) (environment : String) (item : Json) (model : EntityObject) :
    EntityObject where
  mapping_key := model.mapping_key
  attributes := overlay model.attributes (patch item)
  metadata_confirmed_at := some now
  metadata_environment := some environment

/-- One turn of the second loop. A key selects its row, as the object the session
already has of it; objects that were only added are not found, as nothing is flushed
before the commit. -/
def applyItem (now : ℚ) (environment : String) (table : EntityTable)
    (session : EntitySession) (item : Json) : Except Exc EntitySession := do
  let mapping_key := (← item.item "mapping_key").text
  if '\x00' ∈ mapping_key.toList then throw .databaseError
  match table.find? mapping_key with
  | some row =>
      let model := (session.loaded.get? mapping_key).getD row.load
      return { session with
        loaded := session.loaded.set mapping_key (merge now environment item model) }
  | none =>
      let model := newObject mapping_key (← item.item "entity_name").text
      return { session with added := session.added ++ [merge now environment item model] }

/-- The second loop, from the `n`-th item on. -/
def applyItems (now : ℕ → ℚ) (environment : String) (table : EntityTable) :
    ℕ → EntitySession → List Json → Except Exc EntitySession
  | _, session, [] => .ok session
  | n, session, item :: items => do
      applyItems now environment table (n + 1)
        (← applyItem (now n) environment table session item) items

/-- The body of the `try`. -/
def attempt [FloatData] (inputs : Inputs) (apply : Bool) (table : EntityTable) :
    Except Exc EntityTable := do
  let mappings ← validate inputs
  if apply then
    let session ← applyItems inputs.now (rstripSlash inputs.D365_BASE_URL) table 0 {} mappings
    session.commit table
  else return table

/-- `run`: the exit code or the exception, and the table it leaves. -/
def run [FloatData] (inputs : Inputs) (apply : Bool) (table : EntityTable) :
    Except Exc ℤ × EntityTable :=
  match attempt inputs apply table with
  | .ok table' => (.ok 0, table')
  | .error e => (if catches e then .ok 1 else .error e, table)

end Tool

end EmployeePortal.Tools.ApplyD365Mapping
