import EmployeePortal.D365.Metadata

/-!
# What the metadata parser finds

`parse` joins two traversals of the tree through a dictionary whose keys overwrite each
other. What comes out is said here without the dictionary: one description for each entity
set, with the properties of the last declaration of its type.
-/

namespace EmployeePortal.D365.D365MetadataService

open EmployeePortal.Python EmployeePortal.Framework

/-! ## The last of several declarations -/

section Last

variable {α β σ : Type} {f : α → Option β} {l : List α}

/-- The value of the last item that has one. -/
def lastSome (f : α → Option β) (l : List α) : Option β := (l.filterMap f).getLast?

theorem lastSome_concat (a : α) : lastSome f (l ++ [a]) = (f a).or (lastSome f l) := by
  unfold lastSome
  cases h : f a with
  | none => simp [h]
  | some b => simp [h]

/-- A loop in which an item overwrites what is looked up, or leaves it. -/
theorem look_foldl (look : σ → Option β) {step : σ → α → σ}
    (h : ∀ s a, look (step s a) = (f a).or (look s)) (s : σ) :
    look (l.foldl step s) = (lastSome f l).or (look s) := by
  induction l using List.reverseRecOn with
  | nil => rfl
  | append_singleton l a ih => rw [List.foldl_concat, h, ih, lastSome_concat, Option.or_assoc]

end Last

/-- The properties a child of a schema declares for the type. -/
def declaredBy (entity_type : String) (schema child : Element) : Option (List String) :=
  if child.localName = "EntityType" ∧
      schema.attrib.getD "Namespace" "" ++ "." ++ child.attrib.getD "Name" "" = entity_type
  then some (propertyNames child) else none

/-- The properties of the last child of a schema that declares the type. -/
def declaredIn (entity_type : String) (schema : Element) : Option (List String) :=
  if schema.localName = "Schema" then lastSome (declaredBy entity_type schema) schema.children
  else none

/-- The properties of the last declaration in the last schema that has one. -/
def propertiesOf (entity_type : String) (root : Element) : List String :=
  (lastSome (declaredIn entity_type) root.iter).getD []

theorem get?_addEntityType (entity_type : String) (schema : Element)
    (entity_types : Dict (List String)) (child : Element) :
    (addEntityType (schema.attrib.getD "Namespace" "") entity_types child).get? entity_type =
      (declaredBy entity_type schema child).or (entity_types.get? entity_type) := by
  unfold addEntityType declaredBy
  by_cases hchild : child.localName = "EntityType"
  · rw [if_neg (not_not.mpr hchild), Dict.get?_set]
    by_cases hname :
        schema.attrib.getD "Namespace" "" ++ "." ++ child.attrib.getD "Name" "" = entity_type
    · rw [if_pos hname.symm, if_pos ⟨hchild, hname⟩]
      rfl
    · rw [if_neg (Ne.symm hname), if_neg fun h => hname h.2]
      rfl
  · rw [if_pos hchild, if_neg fun h => hchild h.1]
    rfl

theorem get?_addSchema (entity_type : String) (entity_types : Dict (List String))
    (schema : Element) :
    (addSchema entity_types schema).get? entity_type =
      (declaredIn entity_type schema).or (entity_types.get? entity_type) := by
  unfold addSchema declaredIn
  by_cases hschema : schema.localName = "Schema"
  · rw [if_neg (not_not.mpr hschema), if_pos hschema]
    exact look_foldl (fun types => Dict.get? types entity_type)
      (get?_addEntityType entity_type schema) entity_types
  · rw [if_pos hschema, if_neg hschema]
    rfl

/-- What the dictionary holds in the end. -/
theorem getD_entityTypes (entity_type : String) (root : Element) :
    (entityTypes root).getD entity_type [] = propertiesOf entity_type root := by
  rw [Dict.getD, entityTypes, propertiesOf]
  have hlook := look_foldl (fun types => Dict.get? types entity_type)
    (get?_addSchema entity_type) (l := root.iter) []
  rw [hlook]
  exact congrArg (Option.getD · []) (Option.or_none ..)

/-! ## One description for each entity set -/

/-- An element `EntitySet` with a non-empty name and type. -/
structure Describes (properties : String → List String) (element : Element)
    (description : EntityDescription) : Prop where
  entity_set : element.attrib.get? "Name" = some description.entity_set
  entity_type : element.attrib.get? "EntityType" = some description.entity_type
  properties_eq : description.properties = properties description.entity_type

def IsEntitySet (element : Element) : Prop :=
  element.localName = "EntitySet" ∧ (truthy (element.attrib.get? "Name")).isSome = true ∧
    (truthy (element.attrib.get? "EntityType")).isSome = true

instance : DecidablePred IsEntitySet := fun _ => inferInstanceAs (Decidable (_ ∧ _))

theorem readEntitySet_spec (entity_types : Dict (List String)) (element : Element) :
    (¬ IsEntitySet element ∧ readEntitySet entity_types element = none) ∨
      IsEntitySet element ∧ ∃ description, readEntitySet entity_types element = some description ∧
        Describes (entity_types.getD · []) element description := by
  unfold readEntitySet
  by_cases hset : element.localName = "EntitySet"
  · rw [if_neg (not_not.mpr hset)]
    cases hname : truthy (element.attrib.get? "Name") with
    | none =>
      refine Or.inl ⟨fun h => ?_, rfl⟩
      rw [IsEntitySet, hname] at h
      exact Bool.false_ne_true h.2.1
    | some entity_set =>
      cases htype : truthy (element.attrib.get? "EntityType") with
      | none =>
        refine Or.inl ⟨fun h => ?_, rfl⟩
        rw [IsEntitySet, htype] at h
        exact Bool.false_ne_true h.2.2
      | some entity_type =>
        refine Or.inr ⟨⟨hset, by rw [hname]; rfl, by rw [htype]; rfl⟩, _, rfl, ?_, ?_, rfl⟩
        · exact (truthy_eq_some.mp hname).1
        · exact (truthy_eq_some.mp htype).1
  · rw [if_pos hset]
    exact Or.inl ⟨fun h => hset h.1, rfl⟩

/-- In document order, each entity set and its description. -/
theorem forall₂_readEntitySet (entity_types : Dict (List String)) (elements : List Element) :
    List.Forall₂ (Describes (entity_types.getD · [])) (elements.filter IsEntitySet)
      (elements.filterMap (readEntitySet entity_types)) := by
  induction elements with
  | nil => exact .nil
  | cons element elements ih =>
    rcases readEntitySet_spec entity_types element with ⟨hnot, hnone⟩ | ⟨hset, d, hsome, hd⟩
    · rw [List.filter_cons_of_neg (by simpa using hnot), List.filterMap_cons_none hnone]
      exact ih
    · rw [List.filter_cons_of_pos (by simpa using hset), List.filterMap_cons_some hsome]
      exact .cons hd ih

/-- The descriptions of all entity sets, in document order. -/
def Found (properties : String → List String) (root : Element)
    (found : List EntityDescription) : Prop :=
  List.Forall₂ (Describes properties) (root.iter.filter IsEntitySet) found

theorem exists_found (root : Element) [MetadataLibrary] :
    ∃ found, Found (propertiesOf · root) root found ∧
      describe root = sortBy (fun item => MetadataLibrary.lower item.entity_set) found := by
  refine ⟨_, ?_, rfl⟩
  have hall := forall₂_readEntitySet (entityTypes root) root.iter
  simp only [getD_entityTypes] at hall
  exact hall

/-! ## The term -/

section Search

variable [UnicodeData]

/-- Folding the case changes no space, and makes none. -/
structure KeepsSpaces : Prop where
  space : ∀ c, isSpace c = true → foldChar c = [c]
  other : ∀ c, isSpace c = false → foldChar c ≠ [] ∧ ∀ d ∈ foldChar c, isSpace d = false

/-- `term` occurs in `text`, ignoring case. -/
def Contains (term text : String) : Prop := (casefold term).toList <:+: (casefold text).toList

def Matches (term : String) (entity : EntityDescription) : Prop :=
  Contains term entity.entity_set ∨ Contains term entity.entity_type ∨
    ∃ field ∈ entity.properties, Contains term field

theorem isMatch_iff {term : String} {entity : EntityDescription} :
    isMatch (casefold term) entity = true ↔ Matches term entity := by
  simp [isMatch, occursIn, Matches, Contains, or_assoc]

instance (term : String) : DecidablePred (Matches term) :=
  fun _ => decidable_of_iff _ isMatch_iff

section Strip

variable {p : Char → Bool} {f : Char → List Char} (hspace : ∀ c, p c = true → f c = [c])
  (hother : ∀ c, p c = false → f c ≠ [] ∧ ∀ d ∈ f c, p d = false)

include hspace hother

omit [UnicodeData] in
theorem dropWhile_flatMap (cs : List Char) :
    (cs.flatMap f).dropWhile p = (cs.dropWhile p).flatMap f := by
  induction cs with
  | nil => rfl
  | cons c cs ih =>
    rw [List.flatMap_cons]
    cases hc : p c with
    | true =>
      rw [hspace c hc, List.dropWhile_cons_of_pos hc, ← ih]
      exact List.dropWhile_cons_of_pos hc
    | false =>
      obtain ⟨hne, hall⟩ := hother c hc
      obtain ⟨d, ds, hcons⟩ := List.exists_cons_of_ne_nil hne
      have hd : ¬ p d = true := by simp [hall d (hcons ▸ List.mem_cons_self)]
      rw [List.dropWhile_cons_of_neg (by simp [hc]), List.flatMap_cons, hcons, List.cons_append,
        List.dropWhile_cons_of_neg hd]

omit [UnicodeData] in
theorem stripBy_flatMap (cs : List Char) : stripBy p (cs.flatMap f) = (stripBy p cs).flatMap f := by
  have hreversed := dropWhile_flatMap (p := p) (f := List.reverse ∘ f)
    (fun c hc => by rw [Function.comp_apply, hspace c hc]; rfl)
    (fun c hc => ⟨by simpa using (hother c hc).1,
      fun d hd => (hother c hc).2 d (List.mem_reverse.mp hd)⟩)
  rw [stripBy, stripBy, dropWhile_flatMap hspace hother, List.rdropWhile, List.reverse_flatMap,
    hreversed, List.rdropWhile, List.flatMap_reverse]

end Strip

theorem strip_casefold (h : KeepsSpaces) (s : String) :
    strip (casefold s) = casefold (strip s) := by
  rw [strip, casefold, String.toList_ofList, stripBy_flatMap h.space h.other, casefold, strip,
    String.toList_ofList]

theorem casefold_eq_empty (h : KeepsSpaces) {s : String} : casefold s = "" ↔ s = "" := by
  have hne : ∀ c, foldChar c ≠ [] := by
    intro c
    cases hc : isSpace c with
    | true =>
      rw [h.space c hc]
      exact List.cons_ne_nil c []
    | false => exact (h.other c hc).1
  constructor
  · intro hempty
    have hnil : s.toList.flatMap foldChar = [] := by
      rw [← String.toList_ofList (l := s.toList.flatMap foldChar)]
      exact congrArg String.toList hempty
    cases hs : s.toList with
    | nil => exact String.toList_eq_nil_iff.mp hs
    | cons c cs =>
      rw [hs, List.flatMap_cons] at hnil
      exact absurd (List.append_eq_nil_iff.mp hnil).1 (hne c)
  · rintro rfl
    rfl

variable [MetadataLibrary]

/-- `search`, with a term that is not blank. -/
theorem search_eq {service : Service} {term : String} {refresh : Bool}
    (hterm : strip (casefold term) ≠ "") :
    search service term refresh = fetchXml service refresh >>= fun xml =>
      Prog.ofExcept ((parse xml).map (List.filter (isMatch (strip (casefold term))))) := by
  unfold search
  dsimp only
  rw [if_neg hterm]
  refine congrArg _ (funext fun xml => ?_)
  cases parse xml <;> rfl

/-- A blank term is refused before anything is fetched. -/
theorem search_cases (service : Service) (term : String) (refresh : Bool) :
    (∃ e, search service term refresh = .raise e) ∨
      search service term refresh = fetchXml service refresh >>= fun xml =>
        Prog.ofExcept ((parse xml).map (List.filter (isMatch (strip (casefold term))))) := by
  by_cases hterm : strip (casefold term) = ""
  · refine Or.inl ⟨.valueError "Search term cannot be empty", ?_⟩
    unfold search
    dsimp only
    rw [if_pos hterm]
    rfl
  · exact Or.inr (search_eq hterm)

/-- A run of `search` is one of `fetch_xml`, and then the descriptions that match. -/
theorem search_run_iff (h : KeepsSpaces) {service : Service} {term : String} {refresh : Bool}
    (hterm : strip term ≠ "") {trace : List (Event MetadataOp MetadataOp.Answer Exc)}
    {result : Except Exc (List EntityDescription)} :
    (search service term refresh).Run trace result ↔
      ∃ xml, (fetchXml service refresh).Run trace xml ∧
        result = xml >>= fun xml => (parse xml).map (List.filter (Matches (strip term))) := by
  have hnormalized : strip (casefold term) ≠ "" := by
    rw [strip_casefold h]
    exact fun hempty => hterm ((casefold_eq_empty h).mp hempty)
  have hfilter : List.filter (isMatch (strip (casefold term))) =
      List.filter (Matches (strip term)) := by
    funext entities
    refine List.filter_congr fun entity _ => ?_
    rw [strip_casefold h, Bool.eq_iff_iff, isMatch_iff, decide_eq_true_eq]
  rw [search_eq hnormalized, hfilter]
  exact Prog.run_bind_ofExcept

/-- **What metadata discovery finds.** For every tree, `parse` returns one description for each
entity set with a name and a type, in the stable order of the lower-cased names, each with the
properties of the last declaration of its type in the last schema that has one; and for every
term that is not blank, `search` returns of these, in their order, the ones in which the term
without the spaces around it occurs, ignoring case. -/
theorem discovers (h : KeepsSpaces) :
    (∀ xml root, MetadataLibrary.fromstring xml = .ok root →
      ∃ found, Found (propertiesOf · root) root found ∧
        ∀ entities, parse xml = .ok entities ↔
          StableSort (fun item => MetadataLibrary.lower item.entity_set) found entities) ∧
    ∀ (service : Service) (term : String) (refresh : Bool)
      (trace : List (Event MetadataOp MetadataOp.Answer Exc))
      (result : Except Exc (List EntityDescription)), strip term ≠ "" →
      ((search service term refresh).Run trace result ↔
        ∃ xml, (fetchXml service refresh).Run trace xml ∧
          result = xml >>= fun xml => (parse xml).map (List.filter (Matches (strip term)))) := by
  constructor
  · intro xml root hxml
    obtain ⟨found, hfound, hdescribe⟩ := exists_found root
    refine ⟨found, hfound, fun entities => ?_⟩
    rw [parse, hxml, stableSort_iff, ← hdescribe, Except.ok.injEq]
    exact eq_comm
  · intro service term refresh trace result hterm
    exact search_run_iff h hterm

end Search

/-! ## A schema inside a schema -/

section Example

open Ascii

theorem isSpace_letter {c : Char} (hlow : 65 ≤ c.toNat) (hhigh : c.toNat ≤ 122) :
    isSpace c = false := by
  simp only [isSpace, Bool.or_eq_false_iff, Bool.and_eq_false_iff, decide_eq_false_iff_not,
    beq_eq_false_iff_ne]
  omega

/-- Only letters change. -/
theorem toLower_cases (c : Char) : c.toLower = c ∨
    (65 ≤ c.toNat ∧ c.toNat ≤ 122) ∧ 65 ≤ c.toLower.toNat ∧ c.toLower.toNat ≤ 122 := by
  unfold Char.toLower
  split
  · rename_i h
    have hlow : 65 ≤ c.val.toNat := h.1
    have hhigh : c.val.toNat ≤ 90 := h.2
    have hdistance : ('a'.val - 'A'.val).toNat = 32 := rfl
    have hsum : (c.val + ('a'.val - 'A'.val)).toNat = c.val.toNat + 32 := by
      rw [UInt32.toNat_add]
      omega
    have hbounds : (65 ≤ c.val.toNat ∧ c.val.toNat ≤ 122) ∧
        65 ≤ (c.val + ('a'.val - 'A'.val)).toNat ∧
        (c.val + ('a'.val - 'A'.val)).toNat ≤ 122 := by omega
    exact Or.inr hbounds
  · exact Or.inl rfl

theorem keepsSpaces_ascii : KeepsSpaces where
  space := by
    intro c hc
    unfold foldChar
    split
    · rcases toLower_cases c with heq | ⟨⟨hlow, hhigh⟩, -⟩
      · rw [heq]
      · rw [isSpace_letter hlow hhigh] at hc
        cases hc
    · rfl
  other := by
    intro c hc
    have hchar : ∀ d ∈ foldChar c, d = c.toLower ∨ d = c := by
      intro d hd
      unfold foldChar at hd
      split at hd
      · exact Or.inl (List.mem_singleton.mp hd)
      · exact Or.inr (List.mem_singleton.mp hd)
    refine ⟨?_, fun d hd => ?_⟩
    · unfold foldChar
      split
      · exact List.cons_ne_nil _ []
      · exact List.cons_ne_nil _ []
    · rcases hchar d hd with rfl | rfl
      · rcases toLower_cases c with heq | ⟨-, hlow, hhigh⟩
        · rw [heq]
          exact hc
        · exact isSpace_letter hlow hhigh
      · exact hc

def nestedXml : String :=
  "<Schema Namespace='N'><EntityType Name='X'><Property Name='A'/></EntityType>" ++
  "<Schema Namespace='N'><EntityType Name='X'><Property Name='B'/></EntityType></Schema>" ++
  "<EntityType Name='X'><Property Name='C'/></EntityType>" ++
  "<EntitySet Name='Xs' EntityType='N.X'/></Schema>"

/-- An entity type `X` with one property. -/
def entityTypeX (property : String) : Element :=
  .mk "EntityType" [("Name", "X")] [.mk "Property" [("Name", property)] []]

/-- The tree of `nestedXml`. -/
def nested : Element :=
  .mk "Schema" [("Namespace", "N")]
    [entityTypeX "A", .mk "Schema" [("Namespace", "N")] [entityTypeX "B"], entityTypeX "C",
      .mk "EntitySet" [("Name", "Xs"), ("EntityType", "N.X")] []]

/-- A parser that knows this document. -/
abbrev nestedLibrary : MetadataLibrary where
  lower := String.map Char.toLower
  fromstring := fun xml => if xml = nestedXml then .ok nested else .error (.other "ParseError")

namespace Nested

scoped instance : MetadataLibrary := nestedLibrary

end Nested

open Nested

/-- What `parse` makes of the entity set. -/
def xs : EntityDescription := ⟨"Xs", "N.X", ["B"]⟩

/-- The properties of the last declaration in document order. -/
def lastInOrder (entity_type : String) (root : Element) : List String :=
  (lastSome (fun pair : Element × Element =>
    if pair.1.localName = "Schema" then declaredBy entity_type pair.1 pair.2 else none)
    root.offspring).getD []

/-- The inner schema comes last, though its declaration does not. -/
theorem describe_nested : describe nested = [xs] := by
  have hfound : nested.iter.filterMap (readEntitySet (entityTypes nested)) = [xs] := by
    decide +kernel
  rw [describe, hfound]
  exact List.mergeSort_singleton _

theorem parse_nestedXml : parse nestedXml = .ok [xs] := by
  have hroot : MetadataLibrary.fromstring nestedXml = .ok nested := if_pos rfl
  rw [parse, hroot]
  exact congrArg Except.ok describe_nested

theorem fetchXml_nested : (fetchXml { redis := false } false).Run
    [⟨.getMetadata, .ok ⟨300, nestedXml⟩⟩] (.ok nestedXml) :=
  ⟨_, _, rfl, rfl, rfl⟩

theorem strip_xs : strip " xs" ≠ "" := by decide +kernel

theorem search_xs : .ok [xs] = (.ok nestedXml : Except Exc String) >>= fun xml =>
    (parse xml).map (List.filter (Matches (strip " xs"))) := by
  have hfilter : [xs] = [xs].filter (Matches (strip " xs")) := by decide +kernel
  rw [ok_bind, parse_nestedXml]
  exact congrArg _ hfilter

/-- In a nested tree the last declaration is not the last one in document order; and a term
with spaces around it finds what does not contain it. -/
theorem not_discovers :
    (¬ ∀ root, ∃ found, Found (lastInOrder · root) root found ∧
      StableSort (fun item => MetadataLibrary.lower item.entity_set) found (describe root)) ∧
    ¬ ∀ (service : Service) (term : String) (refresh : Bool)
      (trace : List (Event MetadataOp MetadataOp.Answer Exc))
      (result : Except Exc (List EntityDescription)), strip term ≠ "" →
      ((search service term refresh).Run trace result ↔
        ∃ xml, (fetchXml service refresh).Run trace xml ∧
          result = xml >>= fun xml => (parse xml).map (List.filter (Matches term))) := by
  constructor
  · intro hall
    obtain ⟨found, hfound, hsorted⟩ := hall nested
    rw [describe_nested] at hsorted
    obtain rfl := List.perm_singleton.mp hsorted.perm.symm
    obtain ⟨element, -, hdescribes, -, -⟩ := List.forall₂_cons_right_iff.mp hfound
    exact absurd hdescribes.properties_eq (by decide +kernel)
  · intro hall
    obtain ⟨xml, -, hresult⟩ := (hall _ _ _ _ _ strip_xs).mp
      ((search_run_iff keepsSpaces_ascii strip_xs).mpr ⟨_, fetchXml_nested, search_xs⟩)
    obtain ⟨text, -, hresult⟩ := bind_eq_ok.mp hresult.symm
    obtain ⟨entities, -, hentities⟩ := map_eq_ok.mp hresult
    have hmem : xs ∈ entities.filter (Matches " xs") := hentities ▸ List.mem_singleton_self xs
    exact absurd (of_decide_eq_true (List.mem_filter.mp hmem).2) (by decide +kernel)

theorem discovers_xs :
    (∃ found, Found (propertiesOf · nested) nested found ∧
      StableSort (fun item => MetadataLibrary.lower item.entity_set) found [xs]) ∧
    (search { redis := false } " xs" false).Run
      [⟨.getMetadata, .ok ⟨300, nestedXml⟩⟩] (.ok [xs]) := by
  obtain ⟨hparse, hsearch⟩ := discovers keepsSpaces_ascii
  obtain ⟨found, hfound, hsorted⟩ := hparse nestedXml nested (if_pos rfl)
  refine ⟨⟨found, hfound, (hsorted [xs]).mp parse_nestedXml⟩, ?_⟩
  exact (hsearch _ _ _ _ _ strip_xs).mpr ⟨_, fetchXml_nested, search_xs⟩

end Example

end EmployeePortal.D365.D365MetadataService
