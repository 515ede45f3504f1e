import EmployeePortal.Auth.Service

/-!
# Which keys a document lists

The comprehension of `_refresh_keys` runs over the listed items in order, and a later
key replaces an earlier one under the same id. So the key under an id is the one of
the last item that is a signing key with that id.
-/

namespace EmployeePortal.Auth.EntraTokenValidator

open EmployeePortal.Python EmployeePortal.Framework

/-! ## Signing keys -/

/-- An RSA key for RS256 signatures under this id. -/
structure SigningKeyFor (kid : String) (fields : Dict Json) : Prop where
  kty : fields.getD "kty" .null = .str "RSA"
  use : fields.getD "use" .null = .str "sig"
  alg : fields.getD "alg" (.str "RS256") = .str "RS256"
  kid : fields.getD "kid" .null = .str kid

theorem SigningKeyFor.kid_unique {kid kid' : String} {fields : Dict Json}
    (h : SigningKeyFor kid fields) (h' : SigningKeyFor kid' fields) : kid = kid' :=
  Json.str.inj (h.kid.symm.trans h'.kid)

/-- The condition answers for every object. -/
theorem isSigningKey_obj (fields : Dict Json) :
    ∃ b, isSigningKey (.obj fields) = .ok b ∧ (b = true ↔ ∃ kid, SigningKeyFor kid fields) := by
  unfold isSigningKey
  simp only [Json.get_obj, ok_bind]
  by_cases hkty : (Dict.getD fields "kty" .null).isText "RSA" = true
  · rw [if_neg (not_not.mpr hkty)]
    by_cases huse : (Dict.getD fields "use" .null).isText "sig" = true
    · rw [if_neg (not_not.mpr huse)]
      by_cases halg : (Dict.getD fields "alg" (.str "RS256")).isText "RS256" = true
      · rw [if_neg (not_not.mpr halg)]
        refine ⟨_, rfl, ?_⟩
        rw [Option.isSome_iff_exists]
        constructor
        · rintro ⟨kid, hkid⟩
          exact ⟨kid, Json.isText_iff.mp hkty, Json.isText_iff.mp huse, Json.isText_iff.mp halg,
            Json.asText_eq_some.mp hkid⟩
        · rintro ⟨kid, hkey⟩
          exact ⟨kid, Json.asText_eq_some.mpr hkey.kid⟩
      · refine ⟨false, by rw [if_pos halg]; rfl, by simp, ?_⟩
        rintro ⟨kid, hkey⟩
        exact absurd (Json.isText_iff.mpr hkey.alg) halg
    · refine ⟨false, by rw [if_pos huse]; rfl, by simp, ?_⟩
      rintro ⟨kid, hkey⟩
      exact absurd (Json.isText_iff.mpr hkey.use) huse
  · refine ⟨false, by rw [if_pos hkty]; rfl, by simp, ?_⟩
    rintro ⟨kid, hkey⟩
    exact absurd (Json.isText_iff.mpr hkey.kty) hkty

theorem isSigningKey_of_signingKeyFor {kid : String} {fields : Dict Json}
    (h : SigningKeyFor kid fields) : isSigningKey (.obj fields) = .ok true := by
  obtain ⟨b, hb, hiff⟩ := isSigningKey_obj fields
  rw [hb, hiff.mpr ⟨kid, h⟩]

theorem isSigningKey_of_not {fields : Dict Json} (h : ¬ ∃ kid, SigningKeyFor kid fields) :
    isSigningKey (.obj fields) = .ok false := by
  obtain ⟨b, hb, hiff⟩ := isSigningKey_obj fields
  rw [hb, Bool.eq_false_iff.mpr (fun hb => h (hiff.mp hb))]

/-- Nothing but an object gets past the condition. -/
theorem isSigningKey_ok {item : Json} {b : Bool} (h : isSigningKey item = .ok b) :
    ∃ fields, item = .obj fields := by
  obtain ⟨value, hvalue, -⟩ := bind_eq_ok.mp h
  exact Json.get_ok hvalue

section Keys

variable {κ : Type} [Jwt κ]

/-! ## The last one counts -/

/-- `key` is the one of the last item that is a signing key under `kid`. -/
def Listed (items : List Json) (kid : String) (key : κ) : Prop :=
  ∃ before fields after, items = before ++ .obj fields :: after ∧
    SigningKeyFor kid fields ∧ Jwt.from_dict (.obj fields) = .ok key ∧
    ∀ fields', .obj fields' ∈ after → ¬ SigningKeyFor kid fields'

theorem Listed.cons {items : List Json} {kid : String} {key : κ} (h : Listed items kid key)
    (item : Json) : Listed (item :: items) kid key := by
  obtain ⟨before, fields, after, rfl, hkey⟩ := h
  exact ⟨item :: before, fields, after, rfl, hkey⟩

section Code

variable [UnicodeData]

/-- What one item adds. -/
theorem addKey_obj (keys : Dict κ) (fields : Dict Json) :
    (¬ (∃ kid, SigningKeyFor kid fields) ∧ addKey keys (.obj fields) = .ok keys) ∨
      ∃ kid, SigningKeyFor kid fields ∧
        addKey keys (.obj fields) = (Jwt.from_dict (.obj fields)).map (keys.set kid) := by
  unfold addKey
  by_cases hkey : ∃ kid, SigningKeyFor kid fields
  · obtain ⟨kid, hkid⟩ := hkey
    refine Or.inr ⟨kid, hkid, ?_⟩
    rw [isSigningKey_of_signingKeyFor hkid, ok_bind, if_pos rfl, Json.item_of_getD hkid.kid,
      ok_bind]
    cases (Jwt.from_dict (.obj fields) : Except Exc κ) <;> rfl
  · refine Or.inl ⟨hkey, ?_⟩
    rw [isSigningKey_of_not hkey]
    rfl

theorem addKey_ok {keys keys' : Dict κ} {item : Json} (h : addKey keys item = .ok keys') :
    ∃ fields, item = .obj fields ∧
      ((¬ (∃ kid, SigningKeyFor kid fields) ∧ keys' = keys) ∨
        ∃ kid key, SigningKeyFor kid fields ∧ Jwt.from_dict (.obj fields) = .ok key ∧
          keys' = keys.set kid key) := by
  obtain ⟨b, hb, -⟩ := bind_eq_ok.mp h
  obtain ⟨fields, rfl⟩ := isSigningKey_ok hb
  refine ⟨fields, rfl, ?_⟩
  rcases addKey_obj keys fields with ⟨hnone, hadd⟩ | ⟨kid, hkid, hadd⟩
  · rw [hadd] at h
    exact Or.inl ⟨hnone, (Except.ok.inj h).symm⟩
  · rw [hadd] at h
    cases hdict : (Jwt.from_dict (.obj fields) : Except Exc κ) with
    | error e =>
      rw [hdict] at h
      cases h
    | ok key =>
      rw [hdict] at h
      exact Or.inr ⟨kid, key, hkid, rfl, (Except.ok.inj h).symm⟩

/-- Induction on the items, with the keys so far as they come. -/
theorem foldlM_addKey_listed {items : List Json} {keys keys' : Dict κ} {kid : String} {key : κ}
    (h : items.foldlM addKey keys = .ok keys') (hkey : keys'.get? kid = some key) :
    Listed items kid key ∨
      (keys.get? kid = some key ∧ ∀ fields, .obj fields ∈ items → ¬ SigningKeyFor kid fields) := by
  induction items generalizing keys with
  | nil =>
    obtain rfl := Except.ok.inj h
    exact Or.inr ⟨hkey, by simp⟩
  | cons item items ih =>
    rw [List.foldlM_cons] at h
    obtain ⟨keys₁, hadd, hrest⟩ := bind_eq_ok.mp h
    rcases ih hrest with hlisted | ⟨hfirst, hafter⟩
    · exact Or.inl (hlisted.cons item)
    · obtain ⟨fields, rfl, hitem⟩ := addKey_ok hadd
      rcases hitem with ⟨hnone, rfl⟩ | ⟨kid', key', hkid', hdict, rfl⟩
      · refine Or.inr ⟨hfirst, ?_⟩
        intro fields' hmem hfor
        rcases List.mem_cons.mp hmem with heq | hmem
        · obtain rfl := Json.obj.inj heq
          exact hnone ⟨kid, hfor⟩
        · exact hafter fields' hmem hfor
      · rw [Dict.get?_set] at hfirst
        by_cases hsame : kid = kid'
        · -- this is the last item under the id
          subst hsame
          rw [if_pos rfl] at hfirst
          obtain rfl := Option.some.inj hfirst
          exact Or.inl ⟨[], fields, items, rfl, hkid', hdict, hafter⟩
        · rw [if_neg hsame] at hfirst
          refine Or.inr ⟨hfirst, ?_⟩
          intro fields' hmem hfor
          rcases List.mem_cons.mp hmem with heq | hmem
          · obtain rfl := Json.obj.inj heq
            exact hsame (hfor.kid_unique hkid')
          · exact hafter fields' hmem hfor

end Code

/-! ## Documents -/

/-- The document lists `key` under `kid`. -/
def ListedIn (document : Json) (kid : String) (key : κ) : Prop :=
  ∃ fields items, document = .obj fields ∧ Dict.getD fields "keys" (.arr []) = .arr items ∧
    Listed items kid key

section Documents

variable [UnicodeData]

/-- A text or an object in place of the list holds no key. -/
theorem foldlM_addKey_texts {items : List Json} {keys keys' : Dict κ}
    (htexts : ∀ item ∈ items, ∃ s, item = .str s) (h : items.foldlM addKey keys = .ok keys') :
    keys' = keys := by
  cases items with
  | nil => exact (Except.ok.inj h).symm
  | cons item items =>
    rw [List.foldlM_cons] at h
    obtain ⟨keys₁, hadd, -⟩ := bind_eq_ok.mp h
    obtain ⟨fields, rfl, -⟩ := addKey_ok hadd
    obtain ⟨s, hs⟩ := htexts _ (List.mem_cons_self ..)
    cases hs

/-- The keys of a document are the ones it lists. -/
theorem readKeys_listed [UrlData] {document : Json} {keys : Dict κ}
    (h : readKeys document = .ok keys) {kid : String} {key : κ}
    (hkey : keys.get? kid = some key) : ListedIn document kid key := by
  obtain ⟨raw_keys, hraw, hread⟩ := bind_eq_ok.mp h
  obtain ⟨keys₁, hkeys, hsome⟩ := bind_eq_ok.mp hread
  obtain ⟨fields, rfl⟩ := Json.get_ok hraw
  obtain rfl := Except.ok.inj hraw
  obtain ⟨items, hitems, hfold⟩ := bind_eq_ok.mp hkeys
  by_cases hempty : keys₁.isEmpty = true
  · rw [if_pos hempty] at hsome
    cases hsome
  rw [if_neg hempty] at hsome
  obtain rfl := Except.ok.inj hsome
  refine ⟨fields, items, rfl, ?_, ?_⟩
  · rcases Json.iterate_ok hitems with harr | htexts
    · exact harr
    · rw [foldlM_addKey_texts htexts hfold] at hkey
      cases hkey
  · rcases foldlM_addKey_listed hfold hkey with hlisted | ⟨hnone, -⟩
    · exact hlisted
    · cases hnone

end Documents

end Keys

end EmployeePortal.Auth.EntraTokenValidator
