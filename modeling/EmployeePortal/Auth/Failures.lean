import EmployeePortal.Auth.Claims
import EmployeePortal.Auth.FreshKeys

/-!
# How validation fails

`_refresh_keys` lists the exceptions it turns into a 503. A document that is not an
object or is nested too deeply to be decoded, or a key that PyJWT cannot use, raises
something else: a call fails in a sanitized way exactly when what it was answered is orderly.
-/

namespace EmployeePortal.Auth.EntraTokenValidator

open EmployeePortal.Python EmployeePortal.Framework

/-- A `PortalError` with one of the documented statuses. -/
def Sanitized (e : Exc) : Prop :=
  ∃ error : PortalError, e = .portal error ∧
    (error.status_code = 401 ∨ error.status_code = 403 ∨ error.status_code = 503)

theorem sanitized_invalid : Sanitized invalid := ⟨_, rfl, Or.inl rfl⟩

/-- What PyJWT raises. -/
structure JwtRaises (κ : Type) [Jwt κ] : Prop where
  get_unverified_header : ∀ token e, Jwt.get_unverified_header κ token = .error e →
    e = .invalidTokenError
  from_dict : ∀ item e, (Jwt.from_dict item : Except Exc κ) = .error e → e = .pyJwkError
  decode : ∀ now token (key : κ) audience issuer e,
    Jwt.decode now token key audience issuer = .error e → e = .invalidTokenError

/-! ## Orderly answers -/

def IsObject (value : Json) : Prop := ∃ fields, value = .obj fields

/-- An item the comprehension can use or skip. -/
def Usable (κ : Type) [Jwt κ] (item : Json) : Prop :=
  ∃ fields, item = .obj fields ∧
    ∀ kid, SigningKeyFor kid fields → ∃ key : κ, Jwt.from_dict item = .ok key

/-- A key document the comprehension gets through, or that cannot be iterated. -/
structure Tidy (κ : Type) [Jwt κ] (document : Json) : Prop where
  object : IsObject document
  items : ∀ raw_keys items, document.get "keys" (.arr []) = .ok raw_keys →
    raw_keys.iterate = .ok items → ∀ item ∈ items, Usable κ item

/-- An exception that is listed, as `httpx.HTTPError` and a decoder's `ValueError` are, or that
needs no translation. -/
def Foreseen (e : Exc) : Prop := refreshCatches e = true ∨ Sanitized e

/-- What was asked failed as foreseen or, if the answer is good, decoding its body did, or gave
a value that is as it should be. -/
def Heard (orderly : Json → Prop) : Except Exc HttpResponse → Prop
  | .ok response =>
      (200 ≤ response.status_code → response.status_code < 300 →
        ∀ e, response.json = .error e → Foreseen e) ∧
      ∀ value, Gives response value → orderly value
  | .error e => Foreseen e

/-- The first answer is to the discovery request, the second one holds the keys. -/
structure Orderly (κ : Type) [Jwt κ] (exchanges : List Exchange) : Prop where
  discovery : ∀ exchange, exchanges[0]? = some exchange → Heard IsObject exchange.answer
  keys : ∀ exchange, exchanges[1]? = some exchange → Heard (Tidy κ) exchange.answer

/-! ## Caught or not -/

/-- What comes of an exception in the `try`. -/
theorem sanitized_refreshRaises_iff {e : Exc} : Sanitized (refreshRaises e) ↔ Foreseen e := by
  unfold refreshRaises Foreseen
  cases hcatches : refreshCatches e with
  | true => exact iff_of_true ⟨_, rfl, Or.inr (Or.inr rfl)⟩ (Or.inl rfl)
  | false => simp

theorem not_foreseen_attributeError : ¬ Foreseen .attributeError := by
  rintro (h | ⟨error, h, -⟩)
  · cases h
  · cases h

theorem not_foreseen_pyJwkError : ¬ Foreseen .pyJwkError := by
  rintro (h | ⟨error, h, -⟩)
  · cases h
  · cases h

/-- Either it is orderly and every exception is foreseen, or it is not and another one is
raised. -/
def Splits {β : Type} (orderly : Prop) (r : Except Exc β) : Prop :=
  (orderly ∧ ∀ e, r = .error e → Foreseen e) ∨ (¬ orderly ∧ ∃ e, r = .error e ∧ ¬ Foreseen e)

namespace Splits

variable {β : Type} {orderly : Prop} {e : Exc}

theorem ok (h : orderly) (b : β) : Splits orderly (.ok b : Except Exc β) :=
  Or.inl ⟨h, fun _ he => by cases he⟩

theorem foreseen (h : orderly) (he : Foreseen e) : Splits orderly (.error e : Except Exc β) := by
  refine Or.inl ⟨h, ?_⟩
  intro e' he'
  obtain rfl := Except.error.inj he'
  exact he

theorem caught (h : orderly) (he : refreshCatches e = true) :
    Splits orderly (.error e : Except Exc β) :=
  .foreseen h (.inl he)

theorem escapes (h : ¬ orderly) (he : ¬ Foreseen e) : Splits orderly (.error e : Except Exc β) :=
  Or.inr ⟨h, e, rfl, he⟩

/-- An exception is the same whatever it keeps from being returned. -/
theorem error {γ : Type} (h : Splits orderly (.error e : Except Exc β)) :
    Splits orderly (.error e : Except Exc γ) := by
  rcases h with ⟨horderly, hforeseen⟩ | ⟨hnot, e', he', hescapes⟩
  · exact .foreseen horderly (hforeseen e rfl)
  · obtain rfl := Except.error.inj he'
    exact .escapes hnot hescapes

theorem of_ok {b : β} (h : Splits orderly (.ok b : Except Exc β)) : orderly := by
  rcases h with ⟨horderly, -⟩ | ⟨-, e, he, -⟩
  · exact horderly
  · cases he

theorem congr {orderly' : Prop} {r : Except Exc β} (h : Splits orderly r)
    (hiff : orderly' ↔ orderly) : Splits orderly' r := by
  unfold Splits
  rw [hiff]
  exact h

end Splits

/-! ## The key document -/

section Keys

variable {κ : Type} [Jwt κ] [UnicodeData]

/-- An item that can be used adds its key, if any; what another one raises is not foreseen. -/
theorem addKey_cases (hjwt : JwtRaises κ) (keys : Dict κ) (item : Json) :
    (Usable κ item ∧ ∃ keys', addKey keys item = .ok keys') ∨
      (¬ Usable κ item ∧ ∃ e, addKey keys item = .error e ∧ ¬ Foreseen e) := by
  cases item with
  | obj fields =>
    rcases addKey_obj keys fields with ⟨hnone, hadd⟩ | ⟨kid, hkid, hadd⟩
    · exact Or.inl ⟨⟨fields, rfl, fun kid hkid => absurd ⟨kid, hkid⟩ hnone⟩, keys, hadd⟩
    · rw [hadd]
      cases hdict : (Jwt.from_dict (.obj fields) : Except Exc κ) with
      | ok key => exact Or.inl ⟨⟨fields, rfl, fun _ _ => ⟨key, hdict⟩⟩, _, rfl⟩
      | error e =>
        refine Or.inr ⟨?_, e, rfl, hjwt.from_dict _ _ hdict ▸ not_foreseen_pyJwkError⟩
        rintro ⟨fields', hfields, husable⟩
        obtain rfl := Json.obj.inj hfields
        obtain ⟨key, hkey⟩ := husable kid hkid
        rw [hdict] at hkey
        cases hkey
  | _ =>
    refine Or.inr ⟨?_, .attributeError, rfl, not_foreseen_attributeError⟩
    rintro ⟨fields, hfields, -⟩
    cases hfields

/-- Induction on the items: the first one that cannot be used ends it. -/
theorem foldlM_addKey_splits (hjwt : JwtRaises κ) (items : List Json) (keys : Dict κ) :
    Splits (∀ item ∈ items, Usable κ item) (items.foldlM addKey keys) := by
  induction items generalizing keys with
  | nil => exact .ok (by simp) keys
  | cons item items ih =>
    rw [List.foldlM_cons, List.forall_mem_cons]
    rcases addKey_cases hjwt keys item with ⟨husable, keys₁, hadd⟩ | ⟨hunusable, e, hadd, he⟩
    · rw [hadd, ok_bind]
      exact (ih keys₁).congr (and_iff_right husable)
    · rw [hadd, error_bind]
      exact .escapes (fun h => hunusable h.1) he

/-- A key document is refused in no unforeseen way exactly when it is tidy. -/
theorem readKeys_splits [UrlData] (hjwt : JwtRaises κ) (document : Json) :
    Splits (Tidy κ document) (readKeys document : Except Exc (Dict κ)) := by
  unfold readKeys
  -- a document that is no object has no `get`: that error is not among those caught
  cases hraw : document.get "keys" (.arr []) with
  | error e =>
    cases document with
    | obj fields => cases hraw
    | _ =>
      obtain rfl := Except.error.inj hraw
      refine .escapes ?_ not_foreseen_attributeError
      rintro ⟨⟨fields, hfields⟩, -⟩
      cases hfields
  | ok raw_keys =>
    obtain ⟨fields, rfl⟩ := Json.get_ok hraw
    rw [ok_bind, signingKeys]
    cases hiterate : raw_keys.iterate with
    | error e =>
      have htidy : Tidy κ (.obj fields) := by
        refine ⟨⟨fields, rfl⟩, ?_⟩
        intro raw_keys' items hget hitems
        obtain rfl := Except.ok.inj (hraw.symm.trans hget)
        rw [hiterate] at hitems
        cases hitems
      refine .caught htidy ?_
      rw [Json.iterate_error hiterate]
      rfl
    | ok items =>
      have htidy : Tidy κ (.obj fields) ↔ ∀ item ∈ items, Usable κ item := by
        constructor
        · intro h
          exact h.items raw_keys items hraw hiterate
        · intro h
          refine ⟨⟨fields, rfl⟩, ?_⟩
          intro raw_keys' items' hget hitems
          obtain rfl := Except.ok.inj (hraw.symm.trans hget)
          obtain rfl := Except.ok.inj (hiterate.symm.trans hitems)
          exact h
      refine Splits.congr ?_ htidy
      rw [ok_bind]
      rcases foldlM_addKey_splits hjwt items [] with ⟨hall, hforeseen⟩ | ⟨hnot, e, hfold, he⟩
      · cases hfold : items.foldlM addKey ([] : Dict κ) with
        | error e => exact .foreseen hall (hforeseen e hfold)
        | ok keys =>
          rw [ok_bind]
          by_cases hempty : keys.isEmpty = true
          · rw [if_pos hempty]
            exact .caught hall rfl
          · rw [if_neg hempty]
            exact .ok hall keys
      · rw [hfold, error_bind]
        exact .escapes hnot he

end Keys

/-! ## Bodies and discovery -/

section Discovery

variable {settings : Settings}

/-- A bad status is foreseen. -/
theorem readBody_error {response : HttpResponse} {e : Exc} (h : readBody response = .error e) :
    (∀ value, ¬ Gives response value) ∧ (Foreseen e ↔ (200 ≤ response.status_code →
      response.status_code < 300 → ∀ e, response.json = .error e → Foreseen e)) := by
  unfold readBody HttpResponse.raiseForStatus at h
  by_cases hgood : 200 ≤ response.status_code ∧ response.status_code < 300
  · rw [if_pos hgood] at h
    change response.json = .error e at h
    refine ⟨?_, fun he _ _ e' he' => ?_, fun hall => hall hgood.1 hgood.2 e h⟩
    · rintro value ⟨-, hjson⟩
      rw [h] at hjson
      cases hjson
    · obtain rfl := Except.error.inj (h.symm.trans he')
      exact he
  · rw [if_neg hgood] at h
    obtain rfl := Except.error.inj h
    exact ⟨fun value hgives => hgood hgives.good,
      iff_of_true (Or.inl rfl) fun hlow hhigh => absurd ⟨hlow, hhigh⟩ hgood⟩

/-- An answer is as good as the value in its body. -/
theorem readBody_splits {β : Type} {read : Json → Except Exc β} {orderly : Json → Prop}
    (hread : ∀ value, Splits (orderly value) (read value)) (response : HttpResponse) :
    Splits (Heard orderly (.ok response)) (readBody response >>= read) := by
  cases hbody : readBody response with
  | error e =>
    obtain ⟨hgives, hdecoding⟩ := readBody_error hbody
    have hheard : Heard orderly (.ok response) ↔ Foreseen e := by
      rw [hdecoding]
      exact and_iff_left fun value hvalue => absurd hvalue (hgives value)
    by_cases he : Foreseen e
    · exact .foreseen (hheard.mpr he) he
    · exact .escapes (fun h => he (hheard.mp h)) he
  | ok value =>
    have hvalue := readBody_ok hbody
    rw [ok_bind]
    refine (hread value).congr ⟨fun hheard => hheard.2 value hvalue, fun horderly => ⟨?_, ?_⟩⟩
    · intro _ _ e he
      rw [hvalue.json] at he
      cases he
    · intro value' hvalue'
      have hsame := hvalue.json.symm.trans hvalue'.json
      obtain rfl := Except.ok.inj hsame
      exact horderly

variable [UnicodeData] [UrlData]

theorem readDiscovery_splits (discovery : Json) :
    Splits (IsObject discovery) (readDiscovery settings discovery) := by
  cases discovery with
  | obj fields =>
    have hobject : IsObject (.obj fields) := ⟨fields, rfl⟩
    rw [readDiscovery, Json.get_obj, ok_bind]
    by_cases hexpected : (Dict.getD fields "issuer" .null).isText settings.entraIssuer = true
    · rw [if_neg (not_not.mpr hexpected), Json.item]
      cases Dict.get? fields "jwks_uri" with
      | none => exact .caught hobject rfl
      | some value =>
        change Splits _ (urlparse value.text >>= _)
        cases hparse : urlparse value.text with
        | error e =>
          obtain ⟨message, rfl⟩ := urlparse_error hparse
          exact .caught hobject rfl
        | ok parsed =>
          rw [ok_bind]
          by_cases huntrusted : parsed.scheme ≠ "https" ∨
              parsed.hostname ≠ some "login.microsoftonline.com"
          · rw [if_pos huntrusted]
            exact .caught hobject rfl
          · rw [if_neg huntrusted]
            exact .ok hobject _
    · rw [if_pos hexpected]
      exact .caught hobject rfl
  | _ =>
    refine .escapes ?_ not_foreseen_attributeError
    rintro ⟨fields, hfields⟩
    cases hfields

end Discovery

/-! ## A refresh -/

section Refresh

variable {κ : Type} [Jwt κ]

theorem orderly_one {url : String} {answer : Except Exc HttpResponse} :
    Orderly κ [⟨url, answer⟩] ↔ Heard IsObject answer := by
  constructor
  · exact fun h => h.discovery _ rfl
  · intro h
    refine ⟨?_, ?_⟩
    · intro exchange hfirst
      obtain rfl := Option.some.inj hfirst
      exact h
    · intro exchange hsecond
      cases hsecond

theorem orderly_two {url url' : String} {answer answer' : Except Exc HttpResponse} :
    Orderly κ [⟨url, answer⟩, ⟨url', answer'⟩] ↔
      Heard IsObject answer ∧ Heard (Tidy κ) answer' := by
  constructor
  · exact fun h => ⟨h.discovery _ rfl, h.keys _ rfl⟩
  · rintro ⟨h, h'⟩
    refine ⟨?_, ?_⟩
    · intro exchange hfirst
      obtain rfl := Option.some.inj hfirst
      exact h
    · intro exchange hsecond
      obtain rfl := Option.some.inj hsecond
      exact h'

theorem heard_splits {β : Type} (e : Exc) (orderly : Json → Prop) :
    Splits (Heard orderly (.error e)) (.error e : Except Exc β) := by
  by_cases he : Foreseen e
  · exact .foreseen he he
  · exact .escapes he he

variable [UnicodeData] [UrlData] {settings : Settings}

/-- What a refresh comes to, after its answers. -/
theorem Fetch.splits (hjwt : JwtRaises κ) {exchanges : List Exchange} {r : Except Exc (Dict κ)}
    (h : Fetch settings exchanges r) : Splits (Orderly κ exchanges) r := by
  have hread : ∀ discovery, Splits (IsObject discovery) (readDiscovery settings discovery) :=
    readDiscovery_splits
  cases h with
  | unanswered e =>
    exact (heard_splits e IsObject).congr orderly_one
  | @discovery response e hdiscovery =>
    have hsplits := readBody_splits hread response
    rw [hdiscovery] at hsplits
    exact hsplits.error.congr orderly_one
  | @keysUnanswered response jwks_uri e hdiscovery =>
    have hsplits := readBody_splits hread response
    rw [hdiscovery] at hsplits
    have hkeys : Splits (Heard (Tidy κ) (.error e)) (.error e : Except Exc (Dict κ)) :=
      heard_splits e (Tidy κ)
    exact hkeys.congr (orderly_two.trans (and_iff_right hsplits.of_ok))
  | @keys response keys_response jwks_uri hdiscovery =>
    have hsplits := readBody_splits hread response
    rw [hdiscovery] at hsplits
    have hkeys := readBody_splits (readKeys_splits hjwt) keys_response
    exact hkeys.congr (orderly_two.trans (and_iff_right hsplits.of_ok))

end Refresh

/-! ## A call -/

section Call

variable {κ : Type} [Jwt κ] [UnicodeData] [UrlData] {settings : Settings}

/-- A call is answered in an orderly way and fails in a sanitized way only, or neither. -/
def Sanitizes {β : Type} (orderly : Prop) (r : Except Exc β) : Prop :=
  (orderly ∧ ∀ e, r = .error e → Sanitized e) ∨ (¬ orderly ∧ ∃ e, r = .error e ∧ ¬ Sanitized e)

omit [Jwt κ] [UnicodeData] [UrlData] in
theorem findKey_sanitized {keys : Dict κ} {kid : String} {e : Exc}
    (h : findKey keys kid = .error e) : Sanitized e := by
  unfold findKey at h
  cases hkey : Dict.get? keys kid with
  | none =>
    rw [hkey] at h
    obtain rfl := Except.error.inj h
    exact sanitized_invalid
  | some key =>
    rw [hkey] at h
    cases h

omit [UnicodeData] [UrlData] in
theorem orderly_nil : Orderly κ [] := by
  refine ⟨?_, ?_⟩
  · intro exchange h
    cases h
  · intro exchange h
    cases h

theorem KeyResult.sanitizes (hjwt : JwtRaises κ) {kid : String} {l : KeySession}
    {r : Except Exc κ} (h : KeyResult settings kid l r) :
    Sanitizes (Orderly κ l.exchanges) r := by
  cases h with
  | cached hexchanges hcompleted hlatest hrecent hfetch =>
    rw [hexchanges]
    exact Or.inl ⟨orderly_nil, fun e he => findKey_sanitized he⟩
  | stored hexchanges hcompleted hlatest hfetch =>
    exact Or.inl ⟨(hfetch.splits hjwt).of_ok, fun e he => findKey_sanitized he⟩
  | @failed e hcompleted hfetch =>
    rcases hfetch.splits hjwt with ⟨horderly, hforeseen⟩ | ⟨hnot, e', he', hescapes⟩
    · refine Or.inl ⟨horderly, ?_⟩
      intro e' he'
      obtain rfl := Except.error.inj he'
      exact sanitized_refreshRaises_iff.mpr (hforeseen e rfl)
    · obtain rfl := Except.error.inj he'
      exact Or.inr ⟨hnot, _, rfl, fun h => hescapes (sanitized_refreshRaises_iff.mp h)⟩

omit [Jwt κ] [UrlData] in
theorem readClaims_sanitized {claims : Dict Json} {e : Exc}
    (h : readClaims settings claims = .error e) : Sanitized e := by
  rcases readClaims_cases settings claims with he | he | he | ⟨user, huser, -⟩
  · obtain rfl := Except.error.inj (h.symm.trans he)
    exact sanitized_invalid
  · obtain rfl := Except.error.inj (h.symm.trans he)
    exact ⟨_, rfl, Or.inr (Or.inl rfl)⟩
  · obtain rfl := Except.error.inj (h.symm.trans he)
    exact ⟨_, rfl, Or.inr (Or.inl rfl)⟩
  · rw [h] at huser
    cases huser

omit [UnicodeData] [UrlData] in
theorem readHeader_sanitized (hjwt : JwtRaises κ) {token : String} {e : Exc}
    (h : readHeader κ token = .error e) : Sanitized e := by
  unfold readHeader at h
  split at h
  · obtain rfl := Except.error.inj h
    exact sanitized_invalid
  · rename_i e' hne hheader
    exact absurd (hjwt.get_unverified_header _ _ hheader) (by simpa using hne)
  · split at h
    · split at h
      · cases h
      · obtain rfl := Except.error.inj h
        exact sanitized_invalid
    · obtain rfl := Except.error.inj h
      exact sanitized_invalid

omit [UrlData] in
theorem checkToken_sanitized (hjwt : JwtRaises κ) {token : String} {key : κ} {time : ℚ} {e : Exc}
    (h : checkToken settings token key time = .error e) : Sanitized e := by
  unfold checkToken at h
  split at h
  · obtain rfl := Except.error.inj h
    exact sanitized_invalid
  · rename_i e' hne hdecode
    exact absurd (hjwt.decode _ _ _ _ _ _ hdecode) (by simpa using hne)
  · exact readClaims_sanitized h

theorem Validated.sanitizes (hjwt : JwtRaises κ) {token : String} {l : KeySession}
    {r : Except Exc AuthenticatedUser} (h : Validated (κ := κ) settings token l r) :
    Sanitizes (Orderly κ l.exchanges) r := by
  cases h with
  | header hheader hnew =>
    rw [hnew]
    refine Or.inl ⟨orderly_nil, ?_⟩
    intro e he
    obtain rfl := Except.error.inj he
    exact readHeader_sanitized hjwt hheader
  | keyless hheader hkey hdecoded =>
    rcases hkey.sanitizes hjwt with ⟨horderly, hsanitized⟩ | ⟨hnot, e', he', hraw⟩
    · refine Or.inl ⟨horderly, ?_⟩
      intro e he
      obtain rfl := Except.error.inj he
      exact hsanitized _ rfl
    · obtain rfl := Except.error.inj he'
      exact Or.inr ⟨hnot, _, rfl, hraw⟩
  | checked hheader hkey hdecoded =>
    rcases hkey.sanitizes hjwt with ⟨horderly, -⟩ | ⟨-, e, he, -⟩
    · exact Or.inl ⟨horderly, fun e he => checkToken_sanitized hjwt he⟩
    · cases he

/-- **Validation fails only in the sanitized ways** exactly when the documents are as they
should be. In every order of turns, a finished `validate` call returned a user or raised
a `PortalError` with status 401, 403 or 503 if and only if what it was answered is
orderly. -/
theorem failures_sanitized (hjwt : JwtRaises κ) {clock : Clock} {wall : ℕ → ℚ}
    (hclock : Monotone clock) {P}
    (h : (authLoop κ settings).Reaches ⟨KeyCache.start clock wall, []⟩ P) {t} (ht : t ∈ P.threads)
    {token : String} (hcall : t.call = .validate token) {r} (hresult : t.prog.result = some r) :
    (∀ e, r = .error e → Sanitized e) ↔ Orderly κ t.sess.exchanges := by
  have hended := Loop.post_of_result (authLoop_kept hclock h) ht hresult
  rw [hcall] at hended
  obtain ⟨x, rfl, hvalidated⟩ := hended
  have herror : ∀ e, x.map Sum.inr = (.error e : Except Exc (κ ⊕ AuthenticatedUser)) ↔
      x = .error e := by
    intro e
    cases x with
    | error e' => exact ⟨fun h => congrArg Except.error (Except.error.inj h), fun h => h ▸ rfl⟩
    | ok user => exact ⟨fun h => (by cases h), fun h => (by cases h)⟩
  simp only [herror]
  rcases hvalidated.sanitizes hjwt with ⟨horderly, hsanitized⟩ | ⟨hnot, e, he, hraw⟩
  · exact ⟨fun _ => horderly, fun _ => hsanitized⟩
  · constructor
    · exact fun hall => absurd (hall e he) hraw
    · exact fun horderly => absurd horderly hnot

end Call

/-! ## Runs -/

section Example

open Ascii RsaKeys

theorem rsaKeys_raises : JwtRaises (String × String) where
  get_unverified_header := by
    intro token e h
    change (if token = signedToken then _ else _) = _ at h
    split at h
    · cases h
    · exact (Except.error.inj h).symm
  from_dict := by
    intro item e h
    cases item with
    | obj fields =>
      dsimp only [Jwt.from_dict] at h
      split at h
      · cases h
      · exact (Except.error.inj h).symm
    | _ => exact (Except.error.inj h).symm
  decode := by
    intro now token key audience issuer e h
    change (if _ then _ else _) = _ at h
    split at h
    · cases h
    · exact (Except.error.inj h).symm

/-- One call, answered as it should be. -/
theorem failures_sanitized_answered :
    ∃ P, (authLoop (String × String) testSettings).Reaches
        ⟨KeyCache.start Clock.ticking (fun _ => 1760000060), []⟩ P ∧
      ∃ t ∈ P.threads, t.call = .validate signedToken ∧ t.sess.decoded.isSome ∧
        ∃ r, t.prog.result = some r ∧
          ((∀ e, r = .error e → Sanitized e) ↔ Orderly (String × String) t.sess.exchanges) := by
  have hrun : (Loop.play (authLoop (String × String) testSettings) answer (fun _ _ => none)
      [.spawn (.validate signedToken), .run 0 keysResponse, .run 0 discoveryResponse,
        .run 0 keysResponse]
      ⟨KeyCache.start Clock.ticking (fun _ => 1760000060), []⟩).any (fun P =>
        P.threads.any fun t => t.call = .validate signedToken ∧ t.sess.decoded.isSome ∧
          t.prog.result.isSome) = true := by
    decide +kernel
  obtain ⟨P, hplay, hP⟩ := (Option.any_eq_true _ _).mp hrun
  obtain ⟨t, ht, hresult⟩ := List.any_eq_true.mp hP
  obtain ⟨hcall, hdecoded, hsome⟩ := of_decide_eq_true hresult
  obtain ⟨r, hr⟩ := Option.isSome_iff_exists.mp hsome
  have hreaches := Loop.play_reaches answer_awaited (fun _ _ _ h => by cases h) hplay
  have hsanitized := failures_sanitized rsaKeys_raises Clock.ticking_monotone
    hreaches ht hcall hr
  exact ⟨P, hreaches, t, ht, hcall, hdecoded, r, hr, hsanitized⟩

/-- A discovery document that is a list: the call ends in an `AttributeError`. -/
theorem discovery_list :
    ∃ P, (authLoop (String × String) testSettings).Reaches
        ⟨KeyCache.start Clock.ticking (fun _ => 1760000060), []⟩ P ∧
      ∃ t ∈ P.threads, t.call = .validate signedToken ∧
        t.prog.result = some (.error .attributeError) ∧ ¬ Sanitized .attributeError := by
  have hrun : (Loop.play (authLoop (String × String) testSettings) answer (fun _ _ => none)
      [.spawn (.validate signedToken), .run 0 keysResponse, .run 0 (.ok ⟨200, .ok (.arr [])⟩)]
      ⟨KeyCache.start Clock.ticking (fun _ => 1760000060), []⟩).any (fun P =>
        P.threads.any fun t => t.call = .validate signedToken ∧
          t.prog.result = some (.error .attributeError)) = true := by
    decide +kernel
  obtain ⟨P, hplay, hP⟩ := (Option.any_eq_true _ _).mp hrun
  obtain ⟨t, ht, hresult⟩ := List.any_eq_true.mp hP
  obtain ⟨hcall, hret⟩ := of_decide_eq_true hresult
  have hreaches := Loop.play_reaches answer_awaited (fun _ _ _ h => by cases h) hplay
  exact ⟨P, hreaches, t, ht, hcall, hret, fun h => not_foreseen_attributeError (Or.inr h)⟩

end Example

end EmployeePortal.Auth.EntraTokenValidator
