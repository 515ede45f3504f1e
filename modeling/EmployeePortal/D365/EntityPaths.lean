import EmployeePortal.D365.TokenDestination
import EmployeePortal.Framework.DotSegments

/-!
# Where an entity name leads

`get_entity` puts the name behind the path of `D365_ODATA_URL`. The characters of an
identifier are all harmless, its `..` segments are not: a name stays below the OData root
exactly when it goes down again through the levels it has gone up.
-/

namespace EmployeePortal.D365.D365Client

open EmployeePortal.Python EmployeePortal.Framework DotSegments

/-! ## Paths -/

/-- The characters of a path. -/
def isPathChar (c : Char) : Bool := c ≠ '?' && c ≠ '#'

/-- The path of a URL with an authority, "/" where it has none. -/
def readPath (url : String) : List Char :=
  let rest := (splitScheme url.toList).2
  let path := (rest.drop (2 + (splitNetloc rest).length)).takeWhile isPathChar
  if path = [] then ['/'] else path

/-- The path of the client's base URL. -/
def basePath (settings : D365Settings) : List Char :=
  removeDotSegments (readPath (baseUrl settings))

/-- The path a relative reference of the client leads to: its path without slashes in
front, behind the base path. -/
def requestPath (settings : D365Settings) (path : String) : List Char :=
  removeDotSegments
    (basePath settings ++ (path.toList.takeWhile isPathChar).dropWhile (· = '/'))

/-- The request goes to the server of `D365_ODATA_URL`, to a path below its own. -/
structure InsideRoot (settings : D365Settings) (path : String) : Prop where
  server : mergeUrl (baseUrl settings) path = readUrl (baseUrl settings)
  path : basePath settings <+: requestPath settings path

section Paths

variable {settings : D365Settings}

theorem readPath_append (url : AnyHttpUrl) {tail : String}
    (htail : tail.toList.head?.all isDelimiter = true) :
    ∃ path, readPath (url.scheme.text ++ "://" ++ url.netloc ++ tail) = '/' :: path := by
  have hdrop : ('/' :: '/' :: (url.netloc.toList ++ tail.toList)).drop
      (2 + url.netloc.toList.length) = tail.toList := by
    rw [Nat.add_comm]
    simp
  rw [readPath, splitScheme_append]
  dsimp only
  rw [splitNetloc_append url.netloc_plain htail, hdrop]
  split
  · exact ⟨[], rfl⟩
  · rename_i hpath
    cases hchars : tail.toList with
    | nil =>
      rw [hchars] at hpath
      exact absurd rfl hpath
    | cons c cs =>
      rw [hchars] at hpath htail
      have hdelimiter : isDelimiter c = true := htail
      cases hc : isPathChar c with
      | false => exact absurd (List.takeWhile_cons_of_neg (by simp [hc])) hpath
      | true =>
        have hslash : c = '/' := by
          simp only [isDelimiter, isPathChar, Bool.or_eq_true, beq_iff_eq, Bool.and_eq_true,
            decide_eq_true_eq] at hdelimiter hc
          tauto
        rw [List.takeWhile_cons_of_pos hc, hslash]
        exact ⟨_, rfl⟩

variable (settings) in
theorem readPath_baseUrl : ∃ path, readPath (baseUrl settings) = '/' :: path := by
  obtain ⟨rest, hrest, htext⟩ := rstripSlash_text settings.D365_ODATA_URL
  rw [baseUrl, htext, String.append_assoc]
  refine readPath_append settings.D365_ODATA_URL ?_
  rw [String.toList_append]
  cases hchars : rest.toList with
  | nil => decide
  | cons c cs =>
    rw [hchars] at hrest
    exact hrest

theorem not_mem_of_isIdentifier {entity : String} (h : isIdentifier entity = true) {c : Char}
    (hc : isIdentifierChar c = false) : c ∉ entity.toList := by
  intro hmem
  rw [isIdentifier_chars h c hmem] at hc
  cases hc

/-- Behind the base path stands the name as it is. -/
theorem requestPath_of_isIdentifier {entity : String} (h : isIdentifier entity = true) :
    requestPath settings entity = removeDotSegments (basePath settings ++ entity.toList) := by
  have hpath : entity.toList.takeWhile isPathChar = entity.toList := by
    refine List.takeWhile_eq_self_iff.mpr fun c hc => ?_
    have hquery : c ≠ '?' := fun heq => not_mem_of_isIdentifier h (by decide) (heq ▸ hc)
    have hfragment : c ≠ '#' := fun heq => not_mem_of_isIdentifier h (by decide) (heq ▸ hc)
    simp [isPathChar, hquery, hfragment]
  have hstart : entity.toList.dropWhile (· = '/') = entity.toList := by
    unfold isIdentifier at h
    split at h
    · cases h
    · rename_i c cs heq
      have hslash : c ≠ '/' := by
        rintro rfl
        rw [Bool.and_eq_true] at h
        exact absurd h.1 (by decide)
      rw [heq]
      exact List.dropWhile_cons_of_neg (by simpa using hslash)
  rw [requestPath, hpath, hstart]

theorem basePath_isBasePath (hslash : (basePath settings).getLast? = some '/') :
    BasePath (basePath settings) := by
  obtain ⟨path, hpath⟩ := readPath_baseUrl settings
  rw [basePath, hpath] at hslash ⊢
  exact BasePath.of_removeDotSegments hslash

theorem insideRoot_iff {entity : String} (hentity : isIdentifier entity = true)
    (hslash : (basePath settings).getLast? = some '/') :
    InsideRoot settings entity ↔
      Returns (directories (basePath settings)) (relative (entity.toList.splitOn '/')) := by
  have hcolon : ':' ∉ entity.toList := not_mem_of_isIdentifier hentity (by decide)
  have hprefix := (basePath_isBasePath hslash).prefix_iff entity.toList
  rw [← requestPath_of_isIdentifier hentity] at hprefix
  exact ⟨fun h => hprefix.mp h.path, fun h => ⟨mergeUrl_path _ hcolon, hprefix.mpr h⟩⟩

end Paths

/-! ## The requests of `get_entity` -/

section Call

variable [UnicodeData] {settings : D365Settings} {entity : String}

/-- **Where an entity name leads.** For every name that `validate_identifier` accepts and
every base path that ends in a slash: all requests of all runs of `get_entity` are for this
name, and they go to a path below the base path if and only if the name goes up no level, or
goes down again through the levels it has gone up and then on. -/
theorem entity_inside_iff (hentity : validateIdentifier entity = .ok entity)
    (hslash : (basePath settings).getLast? = some '/') :
    (∀ query trace result, (requestEntity settings entity query).Run trace result →
      ∀ request outcome, ⟨.get request, outcome⟩ ∈ trace → request.path = entity) ∧
    (InsideRoot settings entity ↔
      Returns (directories (basePath settings)) (relative (entity.toList.splitOn '/'))) := by
  refine ⟨fun query trace result hrun request outcome hmem => ?_, ?_⟩
  · exact requestEntity_only.run hrun _ hmem request rfl
  · exact insideRoot_iff (validateIdentifier_ok.mp hentity).1 hslash

end Call

/-! ### Two levels up -/

section Example

open scoped Ascii

theorem basePath_default : basePath productionSettings = "/data/".toList := by
  have hread : readPath (baseUrl productionSettings) =
      absolute ["data".toList, []] := by
    decide +kernel
  have hplain : ∀ s ∈ ["data".toList, []], '/' ∉ s := by decide +kernel
  rw [basePath, hread, removeDotSegments_absolute hplain]
  decide +kernel

/-- From `/data/` a name leads to `/api/services`. -/
theorem not_entity_inside :
    ¬ ∀ (settings : D365Settings) (entity : String),
      validateIdentifier entity = .ok entity → (basePath settings).getLast? = some '/' →
      InsideRoot settings entity := by
  intro hall
  have hentity : isIdentifier "a/../../api/services" = true := by decide
  have hslash : (basePath productionSettings).getLast? = some '/' := by
    rw [basePath_default]
    decide
  have hinside := hall productionSettings "a/../../api/services"
    (validateIdentifier_ok.mpr ⟨hentity, rfl⟩) hslash
  have hreturns := (insideRoot_iff hentity hslash).mp hinside
  rw [basePath_default] at hreturns
  revert hreturns
  decide +kernel

/-- A name with a `..` segment that stays. -/
theorem entity_inside_workers :
    InsideRoot productionSettings "Workers/../LeaveRequests" := by
  have hentity : isIdentifier "Workers/../LeaveRequests" = true := by decide
  have hslash : (basePath productionSettings).getLast? = some '/' := by
    rw [basePath_default]
    decide
  refine (entity_inside_iff (validateIdentifier_ok.mpr ⟨hentity, rfl⟩) hslash).2.mpr ?_
  rw [basePath_default]
  decide +kernel

end Example

end EmployeePortal.D365.D365Client
