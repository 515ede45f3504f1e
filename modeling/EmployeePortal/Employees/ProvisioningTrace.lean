import EmployeePortal.D365.Columns
import EmployeePortal.Employees.ProvisioningService
import EmployeePortal.Framework.Traces

/-!
# What `provision` does, call by call

When D365 confirms a caller, said of the configuration and the answer rather than of the
checks one after the other, and the traces `provision` can have.
-/

namespace EmployeePortal.Employees

open EmployeePortal.Python EmployeePortal.Framework EmployeePortal.D365

/-! ## A caller D365 confirms -/

/-- The record has this value in the column a logical field is mapped to. -/
def Holds (c : EntityMapping) (record : Dict Json) (key : String) (value : Json) : Prop :=
  ∃ field, column c key = some field ∧ record.get? field = some value

/-- The configuration names an entity and a column for each logical field. -/
structure IdentityColumns (c : EntityMapping) : Prop where
  entity_name : isIdentifier c.entity_name = true
  columns : ∀ key ∈ requiredIdentityFields,
    ∃ field, column c key = some field ∧ isIdentifier field = true

theorem ne_of_length_pos {s : String} (h : 1 ≤ s.length) : s ≠ "" := by
  rintro rfl
  cases h

theorem length_pos_of_ne {s : String} (h : s ≠ "") : 1 ≤ s.length := by
  rw [Nat.one_le_iff_ne_zero, ne_eq, String.length_eq_zero_iff]
  exact h

theorem strip_blank : strip "" = "" := rfl

theorem Holds.unique {c : EntityMapping} {record : Dict Json} {key : String} {value value' : Json}
    (h : Holds c record key value) (h' : Holds c record key value') : value = value' := by
  obtain ⟨field, hfield, hget⟩ := h
  obtain ⟨field', hfield', hget'⟩ := h'
  obtain rfl := Option.some.inj (hfield.symm.trans hfield')
  exact Option.some.inj (hget.symm.trans hget')

section Confirm

variable [UnicodeData]

/-- The record is the caller's, and this is what it says about them. -/
structure ConfirmedBy (user : AuthenticatedUser) (c : EntityMapping) (record : Dict Json)
    (w : Worker) : Prop where
  entra_oid : ∃ u value, Uuid.parse user.oid = some u ∧ Holds c record "entraOid" value ∧
    Uuid.parse value.text = some u ∧ w.entra_oid = u.toText
  entra_upn : ∃ value, Holds c record "entraUpn" value ∧
    strip (casefold value.text) = callerUpn user ∧ w.entra_upn = callerUpn user
  personnel_number : ∃ value, Holds c record "personnelNumber" value ∧
    w.personnel_number = strip value.text
  company : ∃ value, Holds c record "company" value ∧ w.company = strip value.text
  personnel_number_length : 1 ≤ w.personnel_number.length ∧ w.personnel_number.length ≤ 64
  company_length : 1 ≤ w.company.length ∧ w.company.length ≤ 32

/-- The caller can be asked for, and the answer is one record that confirms them. -/
structure Vouches (user : AuthenticatedUser) (c : EntityMapping) (payload : Dict Json)
    (w : Worker) : Prop where
  named : callerUpn user ≠ ""
  plain : hasControl (callerUpn user) = false
  columns : IdentityColumns c
  record : ∃ record, payload.get? "value" = some (.arr [.obj record]) ∧
    ConfirmedBy user c record w

/-! ## The checks -/

/-- The columns as `_validated_fields` returns them, or what it raises. -/
theorem identityFields_cases {c : EntityMapping}
    (hdistinct : (c.field_mapping.map Prod.fst).Nodup) :
    (∃ fields, identityFields c.field_mapping = .ok fields ∧
      (∀ key ∈ requiredIdentityFields, fields.get? key = column c key) ∧
      (∀ p ∈ fields, isIdentifier p.2 = true) ∧
      ∀ key ∈ requiredIdentityFields,
        ∃ field, column c key = some field ∧ isIdentifier field = true) ∨
    (∃ e, identityFields c.field_mapping = .error e) ∧
      ¬ ∀ key ∈ requiredIdentityFields,
        ∃ field, column c key = some field ∧ isIdentifier field = true := by
  cases hfields : identityFields c.field_mapping with
  | error e =>
    refine Or.inr ⟨⟨e, rfl⟩, fun hmapped => ?_⟩
    have hselectable : ∃ fields, identityFields c.field_mapping = .ok fields := by
      refine (exists_required (fun _ => Iff.rfl) fun _ h => h).mpr ⟨fun key hkey => ?_, ?_⟩
      · obtain ⟨field, hfield, -⟩ := hmapped key hkey
        exact ⟨field, mem_of_column hfield⟩
      · intro key hkey field hmem
        obtain ⟨field', hfield', hidentifier⟩ := hmapped key hkey
        rwa [Option.some.inj ((column_of_mem hdistinct hmem).symm.trans hfield')]
    obtain ⟨fields, hok⟩ := hselectable
    rw [hfields] at hok
    cases hok
  | ok fields =>
    obtain ⟨hselect, hmapped⟩ := selectFields_of_checked hfields
    obtain ⟨heq, hcolumns⟩ := (selectFields_columns hdistinct).mp hselect
    have hget : ∀ key ∈ requiredIdentityFields, fields.get? key = column c key := by
      intro key hkey
      rw [heq, get?_pickField hdistinct hkey]
    refine Or.inl ⟨fields, rfl, hget, selectFields_ok hselect, fun key hkey => ?_⟩
    obtain ⟨field, hfield⟩ := Option.isSome_iff_exists.mp (hmapped key hkey)
    rw [hget key hkey] at hfield
    exact ⟨field, hfield, hcolumns key hkey field hfield⟩

theorem text_blank : Json.text (.str "") = "" := rfl

theorem strip_casefold_blank : strip (casefold "") = "" := rfl

/-- `None` is no UUID. -/
theorem parse_null : Uuid.parse (Json.text .null) = none := by
  have hnull : Json.text .null = "None" := rfl
  rw [hnull, Uuid.parse]
  exact if_pos (by decide)

theorem toText_injective {u v : Uuid} (h : u.toText = v.toText) : u = v := by
  have hparse := Uuid.parse_toText u
  rw [h, Uuid.parse_toText] at hparse
  exact (Option.some.inj hparse).symm

variable {user : AuthenticatedUser} {c : EntityMapping} {fields : Dict String}
  {record : Dict Json} {w : Worker}

/-- A text that is not the default's is that of a value. -/
theorem holds_of_text_ne {field key : String} (hfield : column c key = some field)
    {default : Json} (h : (record.getD field default).text ≠ default.text) :
    ∃ value, Holds c record key value ∧ (record.getD field default).text = value.text := by
  cases hget : record.get? field with
  | none =>
    rw [Dict.getD, hget] at h
    exact absurd rfl h
  | some value =>
    refine ⟨value, ⟨field, hfield, hget⟩, ?_⟩
    rw [Dict.getD, hget]
    rfl

theorem text_of_holds {field key : String} {value default : Json}
    (hfield : column c key = some field) (h : Holds c record key value) :
    (record.getD field default).text = value.text := by
  obtain ⟨field', hfield', hget⟩ := h
  obtain rfl := Option.some.inj (hfield.symm.trans hfield')
  rw [Dict.getD, hget]
  rfl

/-- `_verify_record`, by the texts it looks at. -/
theorem verifyRecord_eq_ok {oid_field upn_field number_field company_field entra_oid upn : String}
    (hoid : item fields "entraOid" = .ok oid_field) (hupn : item fields "entraUpn" = .ok upn_field)
    (hnumber : item fields "personnelNumber" = .ok number_field)
    (hcompany : item fields "company" = .ok company_field) {personnel_number company : String} :
    verifyRecord record fields entra_oid upn = .ok (personnel_number, company) ↔
      (∃ returned, Uuid.parse (record.getD oid_field .null).text = some returned ∧
        returned.toText = entra_oid) ∧
      strip (casefold (record.getD upn_field (.str "")).text) = upn ∧
      personnel_number = strip (record.getD number_field (.str "")).text ∧
      company = strip (record.getD company_field (.str "")).text ∧
      (personnel_number ≠ "" ∧ personnel_number.length ≤ 64) ∧
      company ≠ "" ∧ company.length ≤ 32 := by
  rw [verifyRecord, hoid, hupn, hnumber, hcompany]
  simp only [ok_bind]
  generalize (record.getD oid_field .null).text = oid_text
  generalize strip (casefold (record.getD upn_field (.str "")).text) = returned_upn
  generalize strip (record.getD number_field (.str "")).text = number_text
  generalize strip (record.getD company_field (.str "")).text = company_text
  -- the four refusals in the order of the source
  cases Uuid.parse oid_text with
  | none => simp [mappingConflict]
  | some returned =>
    dsimp only
    by_cases hsame : returned.toText ≠ entra_oid ∨ returned_upn ≠ upn
    · rw [if_pos hsame]
      refine iff_of_false (fun h => by cases h) ?_
      rintro ⟨⟨returned', hparse, htext⟩, hreturned, -⟩
      obtain rfl := Option.some.inj hparse
      rcases hsame with h | h
      · exact h htext
      · exact h hreturned
    rw [if_neg hsame]
    rw [not_or, not_not, not_not] at hsame
    by_cases hlong : number_text = "" ∨ 64 < number_text.length
    · simp only [if_pos hlong]
      refine iff_of_false (fun h => by cases h) ?_
      rintro ⟨-, -, rfl, -, ⟨hne, hle⟩, -⟩
      rcases hlong with h | h
      · exact hne h
      · exact absurd hle (not_le.mpr h)
    simp only [if_neg hlong]
    rw [not_or, not_lt] at hlong
    by_cases hwide : company_text = "" ∨ 32 < company_text.length
    · simp only [if_pos hwide]
      refine iff_of_false (fun h => by cases h) ?_
      rintro ⟨-, -, -, rfl, -, hne, hle⟩
      rcases hwide with h | h
      · exact hne h
      · exact absurd hle (not_le.mpr h)
    simp only [if_neg hwide]
    rw [not_or, not_lt] at hwide
    constructor
    · intro h
      obtain ⟨rfl, rfl⟩ := Prod.mk.inj (Except.ok.inj h)
      exact ⟨⟨returned, rfl, hsame.1⟩, hsame.2, rfl, rfl, hlong, hwide⟩
    · rintro ⟨-, -, rfl, rfl, -⟩
      rfl

/-- A record passes exactly when it confirms the caller. -/
theorem verifyRecord_iff {u : Uuid}
    (hfields : ∀ key ∈ requiredIdentityFields, fields.get? key = column c key)
    (hcolumns : ∀ key ∈ requiredIdentityFields, ∃ field, column c key = some field)
    (hoid : Uuid.parse user.oid = some u) (hnamed : callerUpn user ≠ "")
    {personnel_number company : String} :
    verifyRecord record fields u.toText (callerUpn user) = .ok (personnel_number, company) ↔
      ConfirmedBy user c record ⟨u.toText, callerUpn user, personnel_number, company⟩ := by
  have hitem : ∀ key ∈ requiredIdentityFields, ∃ field, column c key = some field ∧
      item fields key = .ok field := by
    intro key hkey
    obtain ⟨field, hfield⟩ := hcolumns key hkey
    exact ⟨field, hfield, by rw [item, hfields key hkey, hfield]⟩
  obtain ⟨oid_field, hoid_field, hoid_item⟩ := hitem "entraOid" (by decide)
  obtain ⟨upn_field, hupn_field, hupn_item⟩ := hitem "entraUpn" (by decide)
  obtain ⟨number_field, hnumber_field, hnumber_item⟩ := hitem "personnelNumber" (by decide)
  obtain ⟨company_field, hcompany_field, hcompany_item⟩ := hitem "company" (by decide)
  rw [verifyRecord_eq_ok hoid_item hupn_item hnumber_item hcompany_item]
  constructor
  · rintro ⟨⟨returned, hreturned, htext⟩, hupn, hnumber_eq, hcompany_eq, hnumber, hcompany⟩
    obtain rfl := toText_injective htext
    -- a field that is not there passes none of the checks
    have hoid_ne : (record.getD oid_field .null).text ≠ Json.text .null := by
      intro hnull
      rw [hnull, parse_null] at hreturned
      cases hreturned
    have hupn_ne : (record.getD upn_field (.str "")).text ≠ Json.text (.str "") := by
      intro hempty
      rw [hempty, text_blank, strip_casefold_blank] at hupn
      exact hnamed hupn.symm
    have hnumber_ne : (record.getD number_field (.str "")).text ≠ Json.text (.str "") := by
      intro hempty
      rw [hempty, text_blank, strip_blank] at hnumber_eq
      exact hnumber.1 hnumber_eq
    have hcompany_ne : (record.getD company_field (.str "")).text ≠ Json.text (.str "") := by
      intro hempty
      rw [hempty, text_blank, strip_blank] at hcompany_eq
      exact hcompany.1 hcompany_eq
    obtain ⟨oid_value, hoid_holds, hoid_text⟩ := holds_of_text_ne hoid_field hoid_ne
    obtain ⟨upn_value, hupn_holds, hupn_text⟩ := holds_of_text_ne hupn_field hupn_ne
    obtain ⟨number_value, hnumber_holds, hnumber_text⟩ := holds_of_text_ne hnumber_field hnumber_ne
    obtain ⟨company_value, hcompany_holds, hcompany_text⟩ :=
      holds_of_text_ne hcompany_field hcompany_ne
    rw [hoid_text] at hreturned
    rw [hupn_text] at hupn
    rw [hnumber_text] at hnumber_eq
    rw [hcompany_text] at hcompany_eq
    exact ⟨⟨returned, oid_value, hoid, hoid_holds, hreturned, rfl⟩,
      ⟨upn_value, hupn_holds, hupn, rfl⟩, ⟨number_value, hnumber_holds, hnumber_eq⟩,
      ⟨company_value, hcompany_holds, hcompany_eq⟩,
      ⟨length_pos_of_ne hnumber.1, hnumber.2⟩, length_pos_of_ne hcompany.1, hcompany.2⟩
  · rintro ⟨⟨u', oid_value, hu', hoid_holds, hparse, -⟩, ⟨upn_value, hupn_holds, hupn, -⟩,
      ⟨number_value, hnumber_holds, hnumber_eq⟩, ⟨company_value, hcompany_holds, hcompany_eq⟩,
      hnumber, hcompany⟩
    obtain rfl := Option.some.inj (hoid.symm.trans hu')
    rw [text_of_holds hoid_field hoid_holds, text_of_holds hupn_field hupn_holds,
      text_of_holds hnumber_field hnumber_holds, text_of_holds hcompany_field hcompany_holds]
    exact ⟨⟨u, hparse, rfl⟩, hupn, hnumber_eq, hcompany_eq,
      ⟨ne_of_length_pos hnumber.1, hnumber.2⟩, ne_of_length_pos hcompany.1, hcompany.2⟩

theorem readAnswer_iff {u : Uuid} {payload : Dict Json}
    (hfields : ∀ key ∈ requiredIdentityFields, fields.get? key = column c key)
    (hcolumns : ∀ key ∈ requiredIdentityFields, ∃ field, column c key = some field)
    (hoid : Uuid.parse user.oid = some u) (hnamed : callerUpn user ≠ "") :
    readAnswer payload fields u.toText (callerUpn user) = .ok (some w) ↔
      ∃ record, payload.get? "value" = some (.arr [.obj record]) ∧
        ConfirmedBy user c record w := by
  unfold readAnswer
  constructor
  · intro h
    split at h
    · cases h
    · rename_i record hvalue
      obtain ⟨⟨personnel_number, company⟩, hverify, h⟩ := bind_eq_ok.mp h
      obtain rfl := Option.some.inj (Except.ok.inj h)
      exact ⟨record, hvalue, (verifyRecord_iff hfields hcolumns hoid hnamed).mp hverify⟩
    · cases h
    · cases h
  · rintro ⟨record, hvalue, hconfirmed⟩
    obtain ⟨entra_oid, entra_upn, personnel_number, company⟩ := w
    obtain ⟨u', -, hu', -, -, htext⟩ := hconfirmed.entra_oid
    obtain rfl := Option.some.inj (hoid.symm.trans hu')
    obtain ⟨-, -, -, hupn⟩ := hconfirmed.entra_upn
    dsimp only at htext hupn
    subst htext hupn
    rw [hvalue]
    exact bind_eq_ok.mpr
      ⟨(personnel_number, company), (verifyRecord_iff hfields hcolumns hoid hnamed).mpr hconfirmed,
        rfl⟩

/-! ## The traces of `confirm` -/

variable {events : List (Event Op Op.Answer Exc)}

/-- The caller's name decides whether the request is sent. -/
theorem identityQuery_run {answer : Except Exc (Dict Json)}
    (hfields : ∀ key ∈ requiredIdentityFields, fields.get? key = column c key)
    (hall : ∀ p ∈ fields, isIdentifier p.2 = true) (hcolumns : IdentityColumns c) {upn : String}
    (hrun : (identityQuery c fields upn).Run events answer) :
    (hasControl upn = true ∧ events = [] ∧ ∃ e, answer = .error e) ∨
    hasControl upn = false ∧ ∃ params, events = [⟨.getEntity c.entity_name params, answer⟩] := by
  obtain ⟨upn_field, hupn_field, hidentifier⟩ := hcolumns.columns "entraUpn" (by decide)
  have hitem : item fields "entraUpn" = .ok upn_field := by
    rw [item, hfields "entraUpn" (by decide), hupn_field]
  unfold identityQuery getEntity await at hrun
  rw [hitem] at hrun
  simp only [Prog.liftM_eq, Prog.ofExcept_ok, Prog.ret_bind, equals,
    validateIdentifier_ok.mpr ⟨hidentifier, rfl⟩,
    validateIdentifier_ok.mpr ⟨hcolumns.entity_name, rfl⟩, ok_bind, quoteOdataString] at hrun
  cases hcontrol : hasControl upn with
  | true =>
    rw [hcontrol, if_pos rfl, error_bind, Prog.ofExcept_error, Prog.raise_bind] at hrun
    obtain ⟨hnil, herror⟩ := hrun
    exact Or.inl ⟨rfl, hnil, _, herror⟩
  | false =>
    rw [hcontrol, if_neg Bool.false_ne_true, ok_bind] at hrun
    simp only [pure, Except.pure, Prog.ofExcept_ok, Prog.ret_bind] at hrun
    generalize hq : ODataQuery.toParams _ = encoded at hrun
    obtain ⟨params, rfl⟩ : ∃ params, encoded = .ok params := by
      rw [← hq]
      refine toParams_ok (fun n hn => ?_) rfl rfl (fun n hn => ?_) rfl
      · obtain ⟨p, hp, rfl⟩ := List.mem_map.mp (List.mem_eraseDups.mp hn)
        exact hall p hp
      · obtain rfl := Option.some.inj hn
        decide
    exact Or.inr ⟨rfl, params, Prog.run_perform.mp hrun⟩

/-- How `confirm` may go: where it stops, and what it makes of an answer. -/
inductive Confirming (user : AuthenticatedUser) :
    List (Event Op Op.Answer Exc) → Except Exc (Option Worker) → Prop where
  | refused {r} (h : ∀ c payload w, ¬ Vouches user c payload w) (hr : ∀ w, r ≠ .ok (some w)) :
      Confirming user [] r
  | unconfigured {x e} (h : ∀ c, x ≠ .ok (some c)) :
      Confirming user [⟨.configuration "identity", x⟩] (.error e)
  | unusable {c e} (h : ∀ payload w, ¬ Vouches user c payload w) :
      Confirming user [⟨.configuration "identity", .ok (some c)⟩] (.error e)
  | unanswered {c params e e'} :
      Confirming user [⟨.configuration "identity", .ok (some c)⟩,
        ⟨.getEntity c.entity_name params, .error e⟩] (.error e')
  | answered {c params payload r} (h : ∀ w, r = .ok (some w) ↔ Vouches user c payload w) :
      Confirming user [⟨.configuration "identity", .ok (some c)⟩,
        ⟨.getEntity c.entity_name params, .ok payload⟩] r

/-- The configuration of a trace has distinct keys, as dictionaries do. -/
def DistinctFields (events : List (Event Op Op.Answer Exc)) : Prop :=
  ∀ mapping_key c, ⟨.configuration mapping_key, .ok (some c)⟩ ∈ events →
    (c.field_mapping.map Prod.fst).Nodup

theorem confirm_run {r : Except Exc (Option Worker)} (hrun : (confirm user).Run events r)
    (hdistinct : DistinctFields events) : Confirming user events r := by
  unfold confirm at hrun
  by_cases hnamed : callerUpn user = ""
  · simp only [if_pos hnamed] at hrun
    obtain ⟨rfl, rfl⟩ := hrun
    exact .refused (fun _ _ _ h => h.named hnamed) fun w h => by cases h
  simp only [if_neg hnamed] at hrun
  cases hoid : Uuid.parse user.oid with
  | none =>
    rw [hoid] at hrun
    obtain ⟨rfl, rfl⟩ := hrun
    refine .refused (fun _ _ _ h => ?_) fun w h => by cases h
    obtain ⟨record, -, hconfirmed⟩ := h.record
    obtain ⟨u, -, hu, -⟩ := hconfirmed.entra_oid
    rw [hoid] at hu
    cases hu
  | some u =>
  rw [hoid] at hrun
  unfold requiredConfiguration await at hrun
  simp only [Prog.liftM_eq, bind_assoc] at hrun
  rcases Prog.run_perform_bind.mp hrun with ⟨found, rest, rfl, hrest⟩ | ⟨e, rfl, rfl⟩
  swap
  · exact .unconfigured fun c h => by cases h
  cases found with
  | none =>
    obtain ⟨rfl, rfl⟩ := hrest
    exact .unconfigured fun c h => by cases h
  | some c =>
  simp only [bind_assoc, pure_bind] at hrest
  rcases Prog.run_ofExcept_bind.mp hrest with ⟨name, hname, hrest⟩ | ⟨e, hname, rfl, rfl⟩
  swap
  · refine .unusable fun payload w h => ?_
    rw [validateIdentifier_ok.mpr ⟨h.columns.entity_name, rfl⟩] at hname
    cases hname
  obtain ⟨hentity, -⟩ := validateIdentifier_ok.mp hname
  rcases identityFields_cases (hdistinct "identity" c List.mem_cons_self) with
    ⟨fields, hselected, hfields, hall, hmapped⟩ | ⟨⟨e, herror⟩, hunmapped⟩
  swap
  · rw [herror] at hrest
    obtain ⟨rfl, rfl⟩ := hrest
    exact .unusable fun payload w h => hunmapped h.columns.columns
  rw [hselected, Prog.ofExcept_ok, Prog.ret_bind] at hrest
  have hcolumns : IdentityColumns c := ⟨hentity, hmapped⟩
  rcases Prog.run_bind.mp hrest with ⟨payload, es₁, es₂, rfl, hquery, hread⟩ | ⟨e, rfl, hquery⟩
  · obtain ⟨rfl, rfl⟩ := Prog.run_ofExcept.mp hread
    rcases Prog.run_tryCatch.mp hquery with ⟨a, ha, hask⟩ | ⟨e, es, es', rfl, hask, hraise⟩
    · obtain rfl := Except.ok.inj ha
      rcases identityQuery_run hfields hall hcolumns hask with
        ⟨-, -, e, he⟩ | ⟨hplain, params, rfl⟩
      · cases he
      rw [List.append_nil]
      refine .answered fun w => ?_
      have hmapped' : ∀ key ∈ requiredIdentityFields, ∃ field, column c key = some field :=
        fun key hkey => (hmapped key hkey).imp fun _ h => h.1
      rw [readAnswer_iff hfields hmapped' hoid hnamed]
      exact ⟨fun h => ⟨hnamed, hplain, hcolumns, h⟩, fun h => h.record⟩
    · -- the handler raises, whatever it is given
      have hnever : ∃ e', (Except.ok payload : Except Exc (Dict Json)) = .error e' := by
        cases e <;> exact ⟨_, hraise.2⟩
      obtain ⟨e', he'⟩ := hnever
      cases he'
  · rcases Prog.run_tryCatch.mp hquery with ⟨a, ha, -⟩ | ⟨e', es, es', rfl, hask, hraise⟩
    · cases ha
    have hnil : es' = [] := by
      cases e' <;> exact hraise.1
    subst hnil
    rw [List.append_nil]
    rcases identityQuery_run hfields hall hcolumns hask with
      ⟨hcontrol, rfl, -⟩ | ⟨-, params, rfl⟩
    · refine .unusable fun payload w h => ?_
      rw [h.plain] at hcontrol
      cases hcontrol
    · exact .unanswered

end Confirm

/-! ## The traces of `settle` -/

/-- The configurations a trace loaded, the answers it got and the mappings it added. -/
def loadedIn : List (Event Op Op.Answer Exc) → List EntityMapping
  | [] => []
  | ⟨.configuration _, .ok (some c)⟩ :: events => c :: loadedIn events
  | _ :: events => loadedIn events

def answeredIn : List (Event Op Op.Answer Exc) → List (Dict Json)
  | [] => []
  | ⟨.getEntity _ _, .ok payload⟩ :: events => payload :: answeredIn events
  | _ :: events => answeredIn events

def addedIn : List (Event Op Op.Answer Exc) → List Mapping
  | [] => []
  | ⟨.add (.mapping m), .ok _⟩ :: events => m :: addedIn events
  | _ :: events => addedIn events

theorem mem_answeredIn {events : List (Event Op Op.Answer Exc)} {payload : Dict Json}
    (h : payload ∈ answeredIn events) :
    ∃ entity params, ⟨.getEntity entity params, .ok payload⟩ ∈ events := by
  fun_induction answeredIn events with
  | case1 => cases h
  | case2 entity params payload' events ih =>
    rcases List.mem_cons.mp h with rfl | h
    · exact ⟨entity, params, List.mem_cons_self⟩
    · obtain ⟨entity', params', hmem⟩ := ih h
      exact ⟨entity', params', List.mem_cons_of_mem _ hmem⟩
  | case3 event events _ ih =>
    obtain ⟨entity, params, hmem⟩ := ih h
    exact ⟨entity, params, List.mem_cons_of_mem _ hmem⟩

/-- One of the database's own operations raised. -/
def Broken (events : List (Event Op Op.Answer Exc)) : Prop :=
  ∃ o e, ⟨o, .error e⟩ ∈ events ∧ ∀ entity params, o ≠ .getEntity entity params

theorem Broken.head {o : Op} {e : Exc} {events : List (Event Op Op.Answer Exc)}
    (ho : ∀ entity params, o ≠ .getEntity entity params) : Broken (⟨o, .error e⟩ :: events) :=
  ⟨o, e, List.mem_cons_self, ho⟩

theorem Broken.cons {event : Event Op Op.Answer Exc} {events : List (Event Op Op.Answer Exc)}
    (h : Broken events) : Broken (event :: events) := by
  obtain ⟨o, e, hmem, ho⟩ := h
  exact ⟨o, e, List.mem_cons_of_mem _ hmem, ho⟩

def commitEvent : Event Op Op.Answer Exc := ⟨.commit, .ok ()⟩

/-- The look for rows in the way. -/
def conflictQuery (w : Worker) : Op :=
  .scalars (conflictRow w.entra_oid w.personnel_number w.company)

section Settle

variable [UnicodeData]

/-- How `settle` may go. -/
inductive Settling (user : AuthenticatedUser) (w : Worker) :
    List (Event Op Op.Answer Exc) → Except Exc (Option Mapping) → Prop where
  | looked {rows r} (h : rows ≠ []) : Settling user w [⟨conflictQuery w, .ok rows⟩] r
  | broken {events r} (h : Broken events) (hcommit : commitEvent ∉ events) :
      Settling user w events r
  | inserted {id} : Settling user w [⟨conflictQuery w, .ok []⟩, ⟨.uuid4, .ok id⟩,
      ⟨.add (.mapping (autoMapping id user w)), .ok ()⟩,
      ⟨.add (.history (autoHistory id w)), .ok ()⟩, commitEvent]
      (.ok (some (autoMapping id user w)))

variable {user : AuthenticatedUser} {w : Worker}
  {events : List (Event Op Op.Answer Exc)} {r : Except Exc (Option Mapping)}

theorem sameOrConflict_run {rows : List Mapping} (h : (sameOrConflict w rows).Run events r) :
    events = [] := by
  unfold sameOrConflict at h
  split at h
  · split at h
    · exact h.1
    · exact h.1
  · exact h.1

/-- Looking again commits nothing. -/
theorem reread_run (h : (reread w).Run events r) : commitEvent ∉ events := by
  unfold reread findConflicts await at h
  rcases Prog.run_perform_bind.mp h with ⟨_, rest, rfl, hlook⟩ | ⟨e, rfl, -⟩
  swap
  · simp [commitEvent]
  rcases Prog.run_perform_bind.mp hlook with ⟨rows, rest, rfl, hsame⟩ | ⟨e, rfl, -⟩
  swap
  · simp [commitEvent]
  rw [sameOrConflict_run hsame]
  simp [commitEvent]

theorem insertMapping_run (h : (insertMapping user w).Run events r) :
    (Broken events ∧ commitEvent ∉ events) ∨
    ∃ id, events = [⟨.uuid4, .ok id⟩, ⟨.add (.mapping (autoMapping id user w)), .ok ()⟩,
        ⟨.add (.history (autoHistory id w)), .ok ()⟩, commitEvent] ∧
      r = .ok (some (autoMapping id user w)) := by
  unfold insertMapping await at h
  rcases Prog.run_perform_bind.mp h with ⟨id, rest, rfl, hadd⟩ | ⟨e, rfl, -⟩
  swap
  · exact Or.inl ⟨.head (by simp), by simp [commitEvent]⟩
  rcases Prog.run_perform_bind.mp hadd with ⟨⟨⟩, rest, rfl, hhistory⟩ | ⟨e, rfl, -⟩
  swap
  · exact Or.inl ⟨.cons (.head (by simp)), by simp [commitEvent]⟩
  rcases Prog.run_perform_bind.mp hhistory with ⟨⟨⟩, rest, rfl, hcommit⟩ | ⟨e, rfl, -⟩
  swap
  · exact Or.inl ⟨.cons (.cons (.head (by simp))), by simp [commitEvent]⟩
  rcases Prog.run_tryCatch.mp hcommit with ⟨a, rfl, hdone⟩ | ⟨e, es, es', rfl, hbody, hhandler⟩
  · rcases Prog.run_perform_bind.mp hdone with ⟨⟨⟩, rest, rfl, hret⟩ | ⟨e, -, he⟩
    · obtain ⟨rfl, ha⟩ := hret
      exact Or.inr ⟨id, rfl, ha⟩
    · cases he
  · rcases Prog.run_perform_bind.mp hbody with ⟨⟨⟩, rest, rfl, hret⟩ | ⟨e', rfl, he⟩
    · cases hret.2
    obtain rfl := Except.error.inj he
    have hlater : commitEvent ∉ es' := by
      cases e with
      | integrityError => exact reread_run hhandler
      | _ =>
        rw [hhandler.1]
        exact List.not_mem_nil
    refine Or.inl ⟨.cons (.cons (.cons (.head (by simp)))), ?_⟩
    simpa [commitEvent] using hlater

theorem settle_run (h : (settle user w).Run events r) : Settling user w events r := by
  unfold settle findConflicts await at h
  rcases Prog.run_perform_bind.mp h with ⟨rows, rest, rfl, hrows⟩ | ⟨e, rfl, -⟩
  swap
  · exact .broken (.head (by simp)) (by simp [commitEvent])
  cases rows with
  | cons m rows =>
    obtain rfl := sameOrConflict_run hrows
    exact .looked (List.cons_ne_nil _ _)
  | nil =>
    rcases insertMapping_run hrows with ⟨hbroken, hcommit⟩ | ⟨id, rfl, rfl⟩
    · refine .broken (.cons hbroken) ?_
      simpa [commitEvent] using hcommit
    · exact .inserted

theorem Confirming.not_committed {x : Except Exc (Option Worker)}
    (h : Confirming user events x) : commitEvent ∉ events := by
  cases h <;> simp [commitEvent]

/-- `provision` is `confirm`, and `settle` where that finds the caller. -/
theorem provision_run (h : (provision user).Run events r) (hdistinct : DistinctFields events) :
    (∃ x, Confirming user events x ∧ ∀ w, x ≠ .ok (some w)) ∨
    ∃ w es es', events = es ++ es' ∧ Confirming user es (.ok (some w)) ∧
      Settling user w es' r := by
  unfold provision at h
  rcases Prog.run_bind.mp h with ⟨found, es, es', rfl, hconfirm, hrest⟩ | ⟨e, -, hconfirm⟩
  · have hconfirming := confirm_run hconfirm fun mapping_key c hmem =>
      hdistinct mapping_key c (List.mem_append_left _ hmem)
    cases found with
    | none =>
      obtain ⟨rfl, -⟩ := hrest
      rw [List.append_nil]
      exact Or.inl ⟨_, hconfirming, fun w h => by cases h⟩
    | some w => exact Or.inr ⟨w, es, es', rfl, hconfirming, settle_run hrest⟩
  · exact Or.inl ⟨_, confirm_run hconfirm hdistinct, fun w h => by cases h⟩

end Settle

end EmployeePortal.Employees
