import EmployeePortal.D365.Balances
import EmployeePortal.D365.QueryReading

/-!
# The requests of the leave service

`get_balances` as a row of checks, the requests between them, and what is made of their
answers. Nothing is assumed of the configurations.
-/

namespace EmployeePortal.D365

open EmployeePortal.Python EmployeePortal.Framework EmployeePortal.Employees

/-- A request of the service, and what it keeps for reading the answer. -/
structure LeaveRequest where
  fields : Dict String
  personnel_field : String
  params : Dict String

section Leave

variable [UnicodeData]

/-- The query of a configuration for a row. -/
def leaveQuery (configuration : EntityMapping) (identity : Mapping) (fields : Dict String)
    (personnel_field filter : String) : ODataQuery where
  select := (personnel_field :: fields.map Prod.snd ++
    ((companyClause configuration identity).map Prod.fst).toList).eraseDups
  filter_expression := some filter
  top := some 100
  cross_company := some (companyClause configuration identity).isSome

/-- `_records` up to its request. -/
def leaveRequest (configuration : EntityMapping) (identity : Mapping) :
    Except Exc LeaveRequest := do
  let fields ← leaveFields configuration.field_mapping
  let personnel_field ← requiredIdentifier (leaveNotConfigured "Leave identity field is missing.")
    configuration.personnel_number_field
  let filter ← filterOf (identityPairs personnel_field configuration identity)
  let _ ← validateIdentifier configuration.entity_name
  let params ← (leaveQuery configuration identity fields personnel_field filter).toParams
  return ⟨fields, personnel_field, params⟩

/-- `_configuration` behind its query. -/
def usedConfiguration (mapping_key : String) (required : Bool) (found : Option EntityMapping) :
    Except Exc (Option EntityMapping) :=
  match found.filter (·.mapping_key = mapping_key) with
  | none =>
      if required then
        .error (.portal (leaveNotConfigured "Leave balance integration has not been enabled."))
      else .ok none
  | some configuration => do
      let _ ← validateIdentifier configuration.entity_name
      match truthy configuration.company_field with
      | some field =>
          let _ ← validateIdentifier field
          return some configuration
      | none => return some configuration

theorem leaveRecords_eq (configuration : EntityMapping) (identity : Mapping) :
    leaveRecords configuration identity = (do
      let request ← Prog.ofExcept (leaveRequest configuration identity)
      let payload ← await (.getEntity configuration.entity_name request.params)
      let records ← Prog.ofExcept
        (readLeaveAnswer request.personnel_field configuration identity payload)
      return (records, request.fields)) := by
  unfold leaveRecords leaveRequest getEntity
  simp only [Prog.liftM_eq, Prog.ofExcept_bind, bind_assoc]
  congr 1
  funext fields
  congr 1
  funext personnel_field
  congr 1
  funext filter
  cases hentity : validateIdentifier configuration.entity_name with
  | error e => rfl
  | ok entity =>
    obtain ⟨-, rfl⟩ := validateIdentifier_ok.mp hentity
    rfl

theorem leaveConfiguration_eq (mapping_key : String) (required : Bool) :
    leaveConfiguration mapping_key required = (do
      let found ← await (.configuration mapping_key)
      Prog.ofExcept (usedConfiguration mapping_key required found)) := by
  unfold leaveConfiguration usedConfiguration
  congr 1
  funext found
  cases found.filter (·.mapping_key = mapping_key) with
  | none => cases required <;> rfl
  | some configuration =>
    dsimp only
    rw [Prog.ofExcept_bind]
    congr 1
    funext entity
    cases truthy configuration.company_field with
    | none => rfl
    | some field =>
      dsimp only
      rw [Prog.ofExcept_bind]
      rfl

/-! ## What passed the checks -/

variable {configuration : EntityMapping} {identity : Mapping}

/-- A filter that was built reads back as its clauses. -/
theorem readFilter_filterOf {pairs : List (String × String)} {filter : String}
    (h : filterOf pairs = .ok filter) : readFilter filter.toList = some pairs := by
  obtain ⟨hne, hvalid⟩ := filterOf_ok_iff.mp ⟨filter, h⟩
  obtain ⟨filter', hfilter', hlist⟩ := filterOf_ok hne (fun p hp => (hvalid p hp).1)
    fun p hp => (hvalid p hp).2
  obtain rfl := Except.ok.inj (h.symm.trans hfilter')
  rw [hlist]
  exact readFilter_clauses hne fun p hp => (hvalid p hp).1

theorem leaveRequest_ok {request : LeaveRequest}
    (h : leaveRequest configuration identity = .ok request) :
    leaveFields configuration.field_mapping = .ok request.fields ∧
    configuration.personnel_number_field = some request.personnel_field ∧
    ∃ filter, filterOf (identityPairs request.personnel_field configuration identity) =
        .ok filter ∧
      (leaveQuery configuration identity request.fields request.personnel_field filter).toParams =
        .ok request.params := by
  obtain ⟨fields, hfields, h⟩ := bind_eq_ok.mp h
  obtain ⟨personnel_field, hfield, h⟩ := bind_eq_ok.mp h
  obtain ⟨filter, hfilter, h⟩ := bind_eq_ok.mp h
  obtain ⟨entity, -, h⟩ := bind_eq_ok.mp h
  obtain ⟨params, hparams, h⟩ := bind_eq_ok.mp h
  obtain rfl := Except.ok.inj h
  exact ⟨hfields, requiredIdentifier_ok hfield, filter, hfilter, hparams⟩

/-- The columns are those of the row, as `_validated_fields` returns them. -/
theorem columnsOf_leaveFields {fields : Dict String}
    (hdistinct : (configuration.field_mapping.map Prod.fst).Nodup)
    (h : leaveFields configuration.field_mapping = .ok fields) :
    ColumnsOf configuration fields := by
  obtain ⟨rfl, -⟩ := selectFields_eq_ok.mp (selectFields_of_checked h).1
  exact fun key hkey => get?_pickField hdistinct hkey

theorem usedConfiguration_ok {mapping_key : String} {required : Bool}
    {found used : Option EntityMapping}
    (h : usedConfiguration mapping_key required found = .ok used) :
    used = found.filter (·.mapping_key = mapping_key) := by
  unfold usedConfiguration at h
  split at h
  · rename_i hnone
    split at h
    · cases h
    · rw [hnone]
      exact (Except.ok.inj h).symm
  · rename_i c hsome
    rw [hsome]
    obtain ⟨_, -, h⟩ := bind_eq_ok.mp h
    split at h
    · obtain ⟨_, -, h⟩ := bind_eq_ok.mp h
      exact (Except.ok.inj h).symm
    · exact (Except.ok.inj h).symm

/-! ## Calls that go on -/

section Continues

variable {α : Type} {rest : List (Event Op Op.Answer Exc)} {result : Except Exc α}

theorem leaveConfiguration_continues {mapping_key : String} {required : Bool}
    {found used : Option EntityMapping} {f : Option EntityMapping → Coroutine α}
    (h : usedConfiguration mapping_key required found = .ok used)
    (hrest : (f used).Run rest result) :
    (leaveConfiguration mapping_key required >>= f).Run
      (⟨.configuration mapping_key, .ok found⟩ :: rest) result := by
  rw [leaveConfiguration_eq, bind_assoc]
  refine Prog.run_perform_bind.mpr (Or.inl ⟨found, rest, rfl, ?_⟩)
  rw [h]
  exact hrest

theorem leaveRecords_continues {request : LeaveRequest} {payload : Dict Json}
    {records : List (Dict Json)} {f : List (Dict Json) × Dict String → Coroutine α}
    (hrequest : leaveRequest configuration identity = .ok request)
    (hread : readLeaveAnswer request.personnel_field configuration identity payload = .ok records)
    (hrest : (f (records, request.fields)).Run rest result) :
    (leaveRecords configuration identity >>= f).Run
      (⟨.getEntity configuration.entity_name request.params, .ok payload⟩ :: rest) result := by
  rw [leaveRecords_eq, hrequest]
  simp only [Prog.ofExcept_ok, Prog.ret_bind, bind_assoc]
  refine Prog.run_perform_bind.mpr (Or.inl ⟨payload, rest, rfl, ?_⟩)
  rw [hread]
  exact hrest

end Continues

/-! ## Calls that return -/

section Returns

variable {α : Type} {events : List (Event Op Op.Answer Exc)} {response : α}

/-- The call asked for this configuration's records and was answered with these. -/
structure Fetched (configuration : EntityMapping) (identity : Mapping)
    (events : List (Event Op Op.Answer Exc)) (request : LeaveRequest)
    (records : List (Dict Json)) : Prop where
  asked : leaveRequest configuration identity = .ok request
  answered : ∃ payload,
    ⟨.getEntity configuration.entity_name request.params, .ok payload⟩ ∈ events ∧
    readLeaveAnswer request.personnel_field configuration identity payload = .ok records

theorem leaveRecords_returns {f : List (Dict Json) × Dict String → Coroutine α}
    (hrun : (leaveRecords configuration identity >>= f).Run events (.ok response)) :
    ∃ request records rest, Fetched configuration identity events request records ∧
      rest ⊆ events ∧ (f (records, request.fields)).Run rest (.ok response) := by
  rw [leaveRecords_eq] at hrun
  unfold await at hrun
  simp only [bind_assoc, pure_bind] at hrun
  rcases Prog.run_ofExcept_bind.mp hrun with ⟨request, hrequest, hsent⟩ | ⟨e, -, -, he⟩
  swap; · cases he
  rcases Prog.run_perform_bind.mp hsent with ⟨payload, rest, rfl, hanswered⟩ | ⟨e, -, he⟩
  swap; · cases he
  rcases Prog.run_ofExcept_bind.mp hanswered with ⟨records, hrecords, hrest⟩ | ⟨e, -, -, he⟩
  swap; · cases he
  exact ⟨request, records, rest, ⟨hrequest, payload, List.mem_cons_self, hrecords⟩,
    List.subset_cons_self _ _, hrest⟩

theorem leaveConfiguration_returns {mapping_key : String} {required : Bool}
    {f : Option EntityMapping → Coroutine α}
    (hrun : (leaveConfiguration mapping_key required >>= f).Run events (.ok response)) :
    ∃ found rest, ⟨.configuration mapping_key, .ok found⟩ ∈ events ∧ rest ⊆ events ∧
      (f (found.filter (·.mapping_key = mapping_key))).Run rest (.ok response) := by
  rw [leaveConfiguration_eq, bind_assoc] at hrun
  unfold await at hrun
  rcases Prog.run_perform_bind.mp hrun with ⟨found, rest, rfl, hfound⟩ | ⟨e, -, he⟩
  swap; · cases he
  rcases Prog.run_ofExcept_bind.mp hfound with ⟨used, hused, hrest⟩ | ⟨e, -, -, he⟩
  swap; · cases he
  rw [usedConfiguration_ok hused] at hrest
  exact ⟨found, rest, List.mem_cons_self, List.subset_cons_self _ _, hrest⟩

theorem Fetched.mono {events events' : List (Event Op Op.Answer Exc)} {request : LeaveRequest}
    {records : List (Dict Json)} (h : Fetched configuration identity events request records)
    (hsub : events ⊆ events') : Fetched configuration identity events' request records := by
  obtain ⟨payload, hanswer, hrecords⟩ := h.answered
  exact ⟨h.asked, payload, hsub hanswer, hrecords⟩

theorem readBalances_returns {fields : Dict String} {records : List (Dict Json)}
    {events : List (Event Op Op.Answer Exc)} {response : LeaveBalancesResponse}
    (hrun : (do return ⟨← readBalances fields records⟩ : Coroutine LeaveBalancesResponse).Run
      events (.ok response)) : readBalances fields records = .ok response.balances := by
  rcases Prog.run_ofExcept_bind.mp hrun with ⟨balances, hbalances, -, hresponse⟩ | ⟨e, -, -, he⟩
  swap; · cases he
  obtain rfl := Except.ok.inj hresponse
  exact hbalances

/-- A call that returns balances read them from the records of the first configuration, or,
as there were none, from those of the second one where there is one. -/
theorem getBalances_returns {events : List (Event Op Op.Answer Exc)}
    {response : LeaveBalancesResponse} (hrun : (getBalances identity).Run events (.ok response)) :
    ∃ found primary request records, ⟨.configuration "leave_balance", .ok found⟩ ∈ events ∧
      found.filter (·.mapping_key = "leave_balance") = some primary ∧
      Fetched primary identity events request records ∧
      ((records ≠ [] ∧ readBalances request.fields records = .ok response.balances) ∨
      (records = [] ∧ ∃ active, ⟨.configuration "leave_balance_active", .ok active⟩ ∈ events ∧
        ((active.filter (·.mapping_key = "leave_balance_active") = none ∧
          response.balances = []) ∨
        ∃ fallback request' records',
          active.filter (·.mapping_key = "leave_balance_active") = some fallback ∧
          Fetched fallback identity events request' records' ∧
          readBalances request'.fields records' = .ok response.balances))) := by
  unfold getBalances at hrun
  obtain ⟨found, rest, hfound, hsub, hused⟩ := leaveConfiguration_returns hrun
  cases hprimary : found.filter (·.mapping_key = "leave_balance") with
  | none =>
    rw [hprimary] at hused
    cases hused.2
  | some primary =>
    rw [hprimary] at hused
    obtain ⟨request, records, rest', hfetched, hsub', hrest⟩ := leaveRecords_returns hused
    refine ⟨found, primary, request, records, hfound, hprimary, hfetched.mono hsub, ?_⟩
    cases records with
    | cons raw records => exact Or.inl ⟨List.cons_ne_nil _ _, readBalances_returns hrest⟩
    | nil =>
      obtain ⟨active, rest'', hactive, hsub'', hlast⟩ := leaveConfiguration_returns hrest
      refine Or.inr ⟨rfl, active, hsub (hsub' hactive), ?_⟩
      cases hfallback : active.filter (·.mapping_key = "leave_balance_active") with
      | none =>
        rw [hfallback] at hlast
        exact Or.inl ⟨rfl, (Except.ok.inj (readBalances_returns hlast)).symm⟩
      | some fallback =>
        rw [hfallback] at hlast
        obtain ⟨request', records', rest₃, hfetched', -, hread⟩ := leaveRecords_returns hlast
        exact Or.inr ⟨fallback, request', records', rfl,
          hfetched'.mono fun e he => hsub (hsub' (hsub'' he)), readBalances_returns hread⟩

end Returns

end Leave

end EmployeePortal.D365
