import EmployeePortal.D365.LeaveRequests

/-!
# Whether balances are missing

The leave service asks for a page of one hundred rows and never for the next one. Here
D365 is a table for each entity, answering a query with the first rows that satisfy its
filter, and the balances are compared with all rows that do.
-/

namespace EmployeePortal.D365

open EmployeePortal.Python EmployeePortal.Framework EmployeePortal.Employees

/-! ## A server -/

/-- The tables, and how a column is compared with a literal. -/
structure ODataServer where
  table : String → List (Dict Json)
  eq : Json → String → Bool

/-- The clauses of a request; without a filter there are none. -/
def readPairs (params : Dict String) : Option (List (String × String)) :=
  match params.get? "$filter" with
  | some text => readFilter text.toList
  | none => some []

/-- The first rows, where only so many are asked for. -/
def page (top : Option ℕ) (rows : List (Dict Json)) : List (Dict Json) :=
  match top with
  | some n => rows.take n
  | none => rows

namespace ODataServer

/-- The rows that satisfy all clauses. -/
def matching (server : ODataServer) (entity : String) (pairs : List (String × String)) :
    List (Dict Json) :=
  (server.table entity).filter fun row => pairs.all fun p => server.eq (row.getD p.1 .null) p.2

/-- What the server answers: the first `$top` rows that satisfy `$filter`. -/
def Answers (server : ODataServer) (entity : String) (params : Dict String)
    (payload : Dict Json) : Prop :=
  ∃ pairs, readPairs params = some pairs ∧ payload.get? "value" =
    some (.arr ((page (readTop params) (server.matching entity pairs)).map .obj))

/-- The rows of the row's employee. -/
def rowsOf (server : ODataServer) (configuration : EntityMapping) (identity : Mapping) :
    List (Dict Json) :=
  server.matching configuration.entity_name
    (identityPairs (configuration.personnel_number_field.getD "") configuration identity)

/-- The configuration whose entity the balances come from. -/
def source (server : ODataServer) (primary : EntityMapping) (fallback : Option EntityMapping)
    (identity : Mapping) : EntityMapping :=
  if (server.rowsOf primary identity).isEmpty then fallback.getD primary else primary

end ODataServer

section Leave

variable [UnicodeData] {configuration : EntityMapping} {identity : Mapping}
  {server : ODataServer}

/-- The balances are those of the rows that are not hidden, one for each. -/
def OneToOne (configuration : EntityMapping) (rows : List (Dict Json))
    (balances : List LeaveBalance) : Prop :=
  ∃ shown, shown.Perm (rows.filter (isShown configuration)) ∧
    List.Forall₂ (Carries configuration) shown balances

theorem OneToOne.length_eq {rows : List (Dict Json)} {balances : List LeaveBalance}
    (h : OneToOne configuration rows balances) :
    balances.length = (rows.filter (isShown configuration)).length := by
  obtain ⟨shown, hperm, hcarries⟩ := h
  exact hcarries.length_eq.symm.trans hperm.length_eq

/-- Balances of the first rows are those of all rows when the others are hidden. -/
theorem oneToOne_iff {n : ℕ} {rows : List (Dict Json)} {balances : List LeaveBalance}
    (h : List.Forall₂ (Carries configuration) ((rows.take n).filter (isShown configuration))
      balances) :
    OneToOne configuration rows balances ↔
      ∀ row ∈ rows.drop n, isShown configuration row = false := by
  have hsplit : rows.filter (isShown configuration) =
      (rows.take n).filter (isShown configuration) ++
        (rows.drop n).filter (isShown configuration) := by
    rw [← List.filter_append, List.take_append_drop]
  constructor
  · intro hone row hrow
    -- as many balances as rows shown leave none for the rows behind the page
    have hlength : ((rows.drop n).filter (isShown configuration)).length = 0 := by
      have hall := hone.length_eq
      rw [← h.length_eq, hsplit, List.length_append] at hall
      omega
    have hnil := List.eq_nil_of_length_eq_zero hlength
    exact Bool.not_eq_true _ ▸ List.filter_eq_nil_iff.mp hnil row hrow
  · intro hhidden
    have hnil : (rows.drop n).filter (isShown configuration) = [] :=
      List.filter_eq_nil_iff.mpr fun row hrow => Bool.not_eq_true _ ▸ hhidden row hrow
    refine ⟨_, List.Perm.refl _, ?_⟩
    rw [hsplit, hnil, List.append_nil]
    exact h

/-! ## Answers -/

/-- The records of an answer are the first hundred rows of the employee. -/
theorem Fetched.records {events : List (Event Op Op.Answer Exc)} {request : LeaveRequest}
    {records : List (Dict Json)} (h : Fetched configuration identity events request records)
    (hanswers : ∀ entity params payload, ⟨.getEntity entity params, .ok payload⟩ ∈ events →
      server.Answers entity params payload) :
    records = (server.rowsOf configuration identity).take 100 := by
  obtain ⟨payload, hanswer, hrecords⟩ := h.answered
  obtain ⟨hfields, hfield, filter, hfilter, hparams⟩ := leaveRequest_ok h.asked
  obtain ⟨pairs, hpairs, hvalue⟩ := hanswers _ _ _ hanswer
  have htext : request.params.get? "$filter" = some filter :=
    get?_filter hparams (truthy_eq_some.mpr ⟨rfl, filterOf_ne_empty hfilter⟩)
  rw [readPairs, htext] at hpairs
  obtain rfl := Option.some.inj ((readFilter_filterOf hfilter).symm.trans hpairs)
  have htop : readTop request.params = some 100 := readTop_toParams hparams rfl
  have hread : (.ok payload : Except Exc (Dict Json)) >>=
      readLeaveAnswer _ configuration identity = .ok records := hrecords
  have hlists : Lists (.ok payload) (records.map .obj) := (records_ok hfield hread).1
  have hrows :
      Lists (.ok payload) (((server.rowsOf configuration identity).take 100).map .obj) := by
    refine ⟨payload, rfl, ?_⟩
    rw [hvalue, htop, ODataServer.rowsOf, hfield]
    rfl
  have hinjective : Function.Injective Json.obj := fun _ _ => Json.obj.inj
  exact List.map_injective_iff.mpr hinjective (hlists.unique hrows)

/-- The balances of a call are those of the first hundred rows. -/
theorem Fetched.shows {events : List (Event Op Op.Answer Exc)} {request : LeaveRequest}
    {records : List (Dict Json)} {balances : List LeaveBalance}
    (h : Fetched configuration identity events request records)
    (hanswers : ∀ entity params payload, ⟨.getEntity entity params, .ok payload⟩ ∈ events →
      server.Answers entity params payload)
    (husable : Usable configuration) (hread : readBalances request.fields records = .ok balances) :
    List.Forall₂ (Carries configuration)
      (((server.rowsOf configuration identity).take 100).filter (isShown configuration))
      balances := by
  have hcolumns := columnsOf_leaveFields husable.distinct (leaveRequest_ok h.asked).1
  rw [← h.records hanswers]
  exact (readBalances_shows hcolumns husable hread).carries

/-- **Complete balances.** Whatever the tables hold: the balances of a call that succeeds are
those of all rows of the employee that are not hidden, of the first entity or, where that
has none and there is a fallback, of the second, exactly when the rows behind the first
hundred are all hidden. -/
theorem balances_complete_iff {rows : String → Option EntityMapping} {primary : EntityMapping}
    (husable : ∀ mapping_key c, rows mapping_key = some c →
      c.mapping_key = mapping_key ∧ Usable c)
    (hprimary : rows "leave_balance" = some primary)
    {events : List (Event Op Op.Answer Exc)} {response : LeaveBalancesResponse}
    (hrun : (getBalances identity).Run events (.ok response))
    (hrows : ∀ mapping_key r, ⟨.configuration mapping_key, r⟩ ∈ events →
      r = .ok (rows mapping_key))
    (hanswers : ∀ entity params payload, ⟨.getEntity entity params, .ok payload⟩ ∈ events →
      server.Answers entity params payload) :
    let configuration := server.source primary (rows "leave_balance_active") identity
    OneToOne configuration (server.rowsOf configuration identity) response.balances ↔
      ∀ row ∈ (server.rowsOf configuration identity).drop 100,
        isShown configuration row = false := by
  dsimp only
  obtain ⟨found, c, request, records, hfound, hc, hfetched, hrest⟩ := getBalances_returns hrun
  obtain rfl := Except.ok.inj (hrows _ _ hfound)
  rw [hprimary, Option.filter_some_pos (by simpa using (husable _ _ hprimary).1)] at hc
  obtain rfl := Option.some.inj hc
  have husable₁ := (husable _ _ hprimary).2
  have hrecords := hfetched.records hanswers
  rcases hrest with ⟨hne, hread⟩ | ⟨rfl, active, hactive, hlast⟩
  · have hsource : server.source primary (rows "leave_balance_active") identity = primary := by
      refine if_neg ?_
      rw [List.isEmpty_iff]
      intro hnil
      rw [hnil] at hrecords
      exact hne hrecords
    rw [hsource]
    exact oneToOne_iff (hfetched.shows hanswers husable₁ hread)
  have hnil : server.rowsOf primary identity = [] := by
    rcases List.take_eq_nil_iff.mp hrecords.symm with h | h
    · cases h
    · exact h
  have hempty : (server.rowsOf primary identity).isEmpty = true := List.isEmpty_iff.mpr hnil
  obtain rfl := Except.ok.inj (hrows _ _ hactive)
  cases hfallback : rows "leave_balance_active" with
  | none =>
    have hsource : server.source primary none identity = primary := if_pos hempty
    rw [hfallback] at hlast
    rw [hsource, hnil]
    rcases hlast with ⟨-, hbalances⟩ | ⟨fallback, _, _, hsome, -⟩
    · rw [hbalances]
      refine iff_of_true ⟨[], List.Perm.refl _, .nil⟩ fun row hrow => ?_
      exact absurd hrow List.not_mem_nil
    · cases hsome
  | some fallback =>
    obtain ⟨hkey, husable₂⟩ := husable _ _ hfallback
    have hsource : server.source primary (some fallback) identity = fallback := if_pos hempty
    rw [hfallback, Option.filter_some_pos (by simpa using hkey)] at hlast
    rw [hsource]
    rcases hlast with ⟨hnone, -⟩ | ⟨_, request', records', hsome, hfetched', hread⟩
    · cases hnone
    · obtain rfl := Option.some.inj hsome
      exact oneToOne_iff (hfetched'.shows hanswers husable₂ hread)

end Leave

/-! ## Two tables -/

section Example

open scoped Ascii

/-- A balance of the row, on an empty stock. -/
def annualRow : Dict Json :=
  [("PersonnelNumber", .str "6666"), ("dataAreaId", .str "SSSA"), ("LeaveTypeId", .str "ANNUAL"),
    ("BalanceAvailable", .int 0)]

/-- So many balances of the row in the primary entity, and none in the other one. -/
def exampleServer (n : ℕ) : ODataServer where
  table entity := if entity = "EssLeaveBalances" then List.replicate n annualRow else []
  eq
    | .str s, text => s = text
    | _, _ => false

def serverReply (n : ℕ) (o : Op) (_ : Unit) : Option (Except Exc o.Answer) :=
  match o with
  | .configuration mapping_key => some (.ok (exampleRows mapping_key))
  | .getEntity entity params => (readPairs params).map fun pairs => .ok
      [("value", .arr ((page (readTop params)
        ((exampleServer n).matching entity pairs)).map .obj))]
  | _ => none

theorem serverReply_answers {n : ℕ} {hs : List Unit} {events : List (Event Op Op.Answer Exc)}
    {result : Except Exc LeaveBalancesResponse}
    (h : Prog.drive (serverReply n) (getBalances exampleRow) hs = some (events, result)) :
    (∀ mapping_key r, ⟨.configuration mapping_key, r⟩ ∈ events →
      r = .ok (exampleRows mapping_key)) ∧
    ∀ entity params payload, ⟨.getEntity entity params, .ok payload⟩ ∈ events →
      (exampleServer n).Answers entity params payload := by
  constructor
  · intro mapping_key r hmem
    obtain ⟨hint, hreply⟩ := Prog.drive_mem h _ hmem
    exact (Option.some.inj hreply).symm
  · intro entity params payload hmem
    obtain ⟨hint, hreply⟩ := Prog.drive_mem h _ hmem
    obtain ⟨pairs, hpairs, hpayload⟩ := Option.map_eq_some_iff.mp hreply
    obtain rfl := Except.ok.inj hpayload
    exact ⟨pairs, hpairs, rfl⟩

/-- The number of balances returned. -/
def counted (result : Except Exc LeaveBalancesResponse) : Option ℕ :=
  match result with
  | .ok response => some response.balances.length
  | .error _ => none

theorem exists_of_counted {result : Except Exc LeaveBalancesResponse} {n : ℕ}
    (h : counted result = some n) :
    ∃ response, result = .ok response ∧ response.balances.length = n := by
  cases result with
  | ok response => exact ⟨response, rfl, Option.some.inj h⟩
  | error e => cases h

/-- Of one hundred and one balances the last is not returned. -/
theorem balances_truncated : ∃ (server : ODataServer) (events : List (Event Op Op.Answer Exc))
      (response : LeaveBalancesResponse),
    (getBalances exampleRow).Run events (.ok response) ∧
    (∀ mapping_key c, exampleRows mapping_key = some c →
      c.mapping_key = mapping_key ∧ Usable c) ∧
    (∀ mapping_key r, ⟨.configuration mapping_key, r⟩ ∈ events →
      r = .ok (exampleRows mapping_key)) ∧
    (∀ entity params payload, ⟨.getEntity entity params, .ok payload⟩ ∈ events →
      server.Answers entity params payload) ∧
    let configuration := server.source essBalances (exampleRows "leave_balance_active") exampleRow
    ¬ OneToOne configuration (server.rowsOf configuration exampleRow) response.balances := by
  have hrun : (Prog.drive (serverReply 101) (getBalances exampleRow) [(), ()]).any
      (fun x => counted x.2 = some 100) = true := by
    decide +kernel
  obtain ⟨⟨events, result⟩, hdrive, hresult⟩ := (Option.any_eq_true _ _).mp hrun
  obtain ⟨response, rfl, hlength⟩ := exists_of_counted (of_decide_eq_true hresult)
  obtain ⟨hrows, hanswers⟩ := serverReply_answers hdrive
  refine ⟨exampleServer 101, events, response, Prog.drive_run hdrive, exampleRows_usable, hrows,
    hanswers, fun hone => ?_⟩
  have hall := hone.length_eq
  rw [hlength] at hall
  revert hall
  decide +kernel

/-- Two balances are returned both. -/
theorem balances_complete_two : ∃ (events : List (Event Op Op.Answer Exc))
      (response : LeaveBalancesResponse),
    (getBalances exampleRow).Run events (.ok response) ∧
    OneToOne essBalances ((exampleServer 2).rowsOf essBalances exampleRow) response.balances := by
  have hrun : (Prog.drive (serverReply 2) (getBalances exampleRow) [(), ()]).any
      (fun x => counted x.2 = some 2) = true := by
    decide +kernel
  obtain ⟨⟨events, result⟩, hdrive, hresult⟩ := (Option.any_eq_true _ _).mp hrun
  obtain ⟨response, rfl, -⟩ := exists_of_counted (of_decide_eq_true hresult)
  obtain ⟨hrows, hanswers⟩ := serverReply_answers hdrive
  refine ⟨events, response, Prog.drive_run hdrive, ?_⟩
  exact (balances_complete_iff exampleRows_usable rfl (Prog.drive_run hdrive) hrows
    hanswers).mpr (by decide +kernel)

end Example

end EmployeePortal.D365
