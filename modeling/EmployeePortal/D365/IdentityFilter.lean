import EmployeePortal.D365.Client

/-!
# Asking for one employee

The filter the profile and the leave service put on a request, and what a
request says about the row it was made for.
-/

namespace EmployeePortal.D365

open EmployeePortal.Python EmployeePortal.Framework

/-- The company comparison, where the configuration names a field and the row
has a company. -/
def companyClause (configuration : EntityMapping) (identity : Mapping) :
    Option (String × String) := do
  return (← truthy configuration.company_field, ← truthy identity.d365_company)

def identityPairs (personnel_field : String) (configuration : EntityMapping)
    (identity : Mapping) : List (String × String) :=
  (personnel_field, identity.d365_personnel_number) ::
    (companyClause configuration identity).toList

theorem companyClause_eq_some {configuration : EntityMapping} {identity : Mapping}
    {field company : String} :
    companyClause configuration identity = some (field, company) ↔
      (configuration.company_field = some field ∧ field ≠ "") ∧
        identity.d365_company = some company ∧ company ≠ "" := by
  simp only [companyClause, Option.bind_eq_bind, Option.bind_eq_some_iff, truthy_eq_some,
    Option.pure_def, Option.some.injEq, Prod.mk.injEq]
  constructor
  · rintro ⟨f, hf, c, hc, rfl, rfl⟩
    exact ⟨hf, hc⟩
  · rintro ⟨hf, hc⟩
    exact ⟨field, hf, company, hc, rfl, rfl⟩

section Filter

variable [UnicodeData]

theorem get?_joinIdentifiers {key : String} {names : List String} {d : Dict String}
    {k : String} (h : joinIdentifiers key names = .ok d) (hk : k ≠ key) :
    List.lookup k d = none := by
  unfold joinIdentifiers at h
  split at h
  · cases h; rfl
  · obtain ⟨vs, -, h⟩ := bind_eq_ok.mp h
    obtain rfl := Except.ok.inj h
    rw [List.lookup_cons, beq_false_of_ne hk]
    rfl

/-- The filter of a query is the `$filter` of its request. -/
theorem get?_filter {q : ODataQuery} {params : Dict String} {f : String}
    (h : q.toParams = .ok params) (hf : truthy q.filter_expression = some f) :
    params.get? "$filter" = some f := by
  obtain ⟨select, hselect, h⟩ := bind_eq_ok.mp h
  obtain ⟨expand, -, h⟩ := bind_eq_ok.mp h
  obtain ⟨orderby, -, h⟩ := bind_eq_ok.mp h
  obtain ⟨top, -, h⟩ := bind_eq_ok.mp h
  obtain ⟨skip, -, h⟩ := bind_eq_ok.mp h
  obtain rfl := Except.ok.inj h
  -- `$select` stands before it and has another key
  have hnone := get?_joinIdentifiers (k := "$filter") hselect (by decide)
  simp [Dict.get?, optionParam, hf, List.lookup_append, hnone]

theorem requiredIdentifier_ok {missing : PortalError} {value : Option String} {field : String}
    (h : requiredIdentifier missing value = .ok field) : value = some field := by
  unfold requiredIdentifier at h
  split at h
  · cases h
  · rename_i v hv
    obtain ⟨-, rfl⟩ := validateIdentifier_ok.mp h
    exact (truthy_eq_some.mp hv).1

theorem filterOf_ne_empty {pairs : List (String × String)} {f : String}
    (h : filterOf pairs = .ok f) : f ≠ "" := by
  obtain ⟨es, -, h⟩ := bind_eq_ok.mp h
  unfold andAll at h
  split at h
  · cases h
  · rename_i hne
    obtain rfl := Except.ok.inj h
    push Not at hne
    cases es with
    | nil => exact absurd rfl hne.1
    | cons e es =>
      -- the text starts with a parenthesis
      intro hempty
      have hlen := congrArg String.toList hempty
      rw [String.toList_intercalate] at hlen
      cases es <;> simp [List.intercalate_cons_cons] at hlen

/-- The request asks for the row's personnel number, and for its company where
the configuration and the row have one. -/
def AskedFor (configuration : EntityMapping) (identity : Mapping) (x : Exchange) : Prop :=
  ∃ personnel_field filter,
    configuration.personnel_number_field = some personnel_field ∧
    filterOf (identityPairs personnel_field configuration identity) = .ok filter ∧
    x.params.get? "$filter" = some filter

theorem askedFor {configuration : EntityMapping} {identity : Mapping} {missing : PortalError}
    {personnel_field f entity : String} {q : ODataQuery} {params : Dict String}
    {payload : Dict Json}
    (hfield : requiredIdentifier missing configuration.personnel_number_field =
      .ok personnel_field)
    (hfilter : filterOf (identityPairs personnel_field configuration identity) = .ok f)
    (hq : q.filter_expression = some f) (hparams : q.toParams = .ok params) :
    AskedFor configuration identity ⟨entity, params, payload⟩ := by
  refine ⟨personnel_field, f, requiredIdentifier_ok hfield, hfilter, ?_⟩
  exact get?_filter hparams (truthy_eq_some.mpr ⟨hq, filterOf_ne_empty hfilter⟩)

end Filter

end EmployeePortal.D365
