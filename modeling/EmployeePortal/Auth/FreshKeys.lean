import EmployeePortal.Auth.KeyCache

/-!
# Only fresh signing keys

Whatever the identity provider answers and in whichever order the calls take their
turns, a key that is found is one that the latest successful refresh listed, and
keys and expiry change together in the turn that completes a refresh.
-/

namespace EmployeePortal.Auth.EntraTokenValidator

open EmployeePortal.Python EmployeePortal.Framework

/-! ## Successful refreshes -/

/-- An answer with a good status and this body. -/
structure Gives (response : HttpResponse) (value : Json) : Prop where
  good : 200 ≤ response.status_code ∧ response.status_code < 300
  json : response.json = .ok value

theorem readBody_ok {response : HttpResponse} {value : Json} (h : readBody response = .ok value) :
    Gives response value := by
  obtain ⟨_, hstatus, hjson⟩ := bind_eq_ok.mp h
  by_cases hgood : 200 ≤ response.status_code ∧ response.status_code < 300
  · exact ⟨hgood, hjson⟩
  · rw [HttpResponse.raiseForStatus, if_neg hgood] at hstatus
    cases hstatus

section Documents

variable [UnicodeData] [UrlData]

/-- A discovery document of the expected issuer with an https address at the identity
provider. -/
structure Trusted (settings : Settings) (discovery : Json) (jwks_uri : String) : Prop where
  issuer : discovery.get "issuer" = .ok (.str settings.entraIssuer)
  address : ∃ value, discovery.item "jwks_uri" = .ok value ∧ value.text = jwks_uri
  host : ∃ parsed, urlparse jwks_uri = .ok parsed ∧ parsed.scheme = "https" ∧
    parsed.hostname = some "login.microsoftonline.com"

theorem readDiscovery_ok {settings : Settings} {discovery : Json} {jwks_uri : String}
    (h : readDiscovery settings discovery = .ok jwks_uri) :
    Trusted settings discovery jwks_uri := by
  obtain ⟨issuer, hissuer, hread⟩ := bind_eq_ok.mp h
  by_cases hexpected : issuer.isText settings.entraIssuer = true
  · rw [if_neg (not_not.mpr hexpected)] at hread
    obtain ⟨value, hvalue, hparse⟩ := bind_eq_ok.mp hread
    obtain ⟨parsed, hparsed, hhost⟩ := bind_eq_ok.mp hparse
    by_cases huntrusted : parsed.scheme ≠ "https" ∨
        parsed.hostname ≠ some "login.microsoftonline.com"
    · rw [if_pos huntrusted] at hhost
      cases hhost
    · rw [if_neg huntrusted] at hhost
      obtain rfl := Except.ok.inj hhost
      rw [Json.isText_iff.mp hexpected] at hissuer
      rw [not_or, not_not, not_not] at huntrusted
      exact ⟨hissuer, ⟨value, hvalue, rfl⟩, parsed, hparsed, huntrusted⟩
  · rw [if_pos hexpected] at hread
    cases hread

/-- The exchanges of a successful refresh: the discovery document, and the key document
at the address it names. -/
def Fetched (settings : Settings) (exchanges : List Exchange) (document : Json) : Prop :=
  ∃ response discovery jwks_uri keys_response,
    exchanges = [⟨settings.entraDiscoveryUrl, .ok response⟩, ⟨jwks_uri, .ok keys_response⟩] ∧
    Gives response discovery ∧ Trusted settings discovery jwks_uri ∧ Gives keys_response document

variable {κ : Type} [Jwt κ]

theorem Fetch.fetched {settings : Settings} {exchanges : List Exchange} {r : Except Exc (Dict κ)}
    (h : Fetch settings exchanges r) {keys : Dict κ} (hr : r = .ok keys) :
    ∃ document, Fetched settings exchanges document ∧ readKeys document = .ok keys := by
  cases h with
  | @keys response keys_response jwks_uri hdiscovery =>
    obtain ⟨discovery, hbody, hread⟩ := bind_eq_ok.mp hdiscovery
    obtain ⟨document, hdocument, hkeys⟩ := bind_eq_ok.mp hr
    exact ⟨document, ⟨response, discovery, jwks_uri, keys_response, rfl, readBody_ok hbody,
      readDiscovery_ok hread, readBody_ok hdocument⟩, hkeys⟩
  | _ => cases hr

/-! ## Fresh keys -/

/-- `key` is the one listed under `kid` by the latest refresh, which was the call's own
or recent at its last check. -/
def Fresh (settings : Settings) (kid : String) (key : κ) (l : KeySession) : Prop :=
  ∃ refresh document, l.latest = some refresh ∧ Fetched settings refresh.exchanges document ∧
    ListedIn document kid key ∧
    (l.completed = some refresh ∨ Recent settings refresh l.checked)

omit [UnicodeData] [UrlData] [Jwt κ] in
theorem findKey_ok {keys : Dict κ} {kid : String} {key : κ} (h : findKey keys kid = .ok key) :
    keys.get? kid = some key := by
  unfold findKey at h
  cases hkey : Dict.get? keys kid with
  | none =>
    rw [hkey] at h
    cases h
  | some found =>
    rw [hkey] at h
    exact congrArg some (Except.ok.inj h)

theorem KeyResult.fresh {settings : Settings} {kid : String} {l : KeySession} {r : Except Exc κ}
    (h : KeyResult settings kid l r) {key : κ} (hr : r = .ok key) : Fresh settings kid key l := by
  cases h with
  | cached hexchanges hcompleted hlatest hrecent hfetch =>
    obtain ⟨document, hfetched, hkeys⟩ := hfetch.fetched rfl
    exact ⟨_, document, hlatest, hfetched, readKeys_listed hkeys (findKey_ok hr), Or.inr hrecent⟩
  | stored hexchanges hcompleted hlatest hfetch =>
    obtain ⟨document, hfetched, hkeys⟩ := hfetch.fetched rfl
    rw [← hexchanges] at hfetched
    exact ⟨_, document, hlatest, hfetched, readKeys_listed hkeys (findKey_ok hr), Or.inl hcompleted⟩
  | failed hcompleted hfetch => cases hr

end Documents

/-! ## What a turn changes -/

section Turns

variable {κ : Type}

/-- The refreshes of a turn are those that its call completes. -/
structure Tied (x y : KeyCache κ × KeySession) : Prop where
  exchanges : y.2.exchanges = x.2.exchanges
  refreshes : (y.1.refreshes = x.1.refreshes ∧ y.2.completed = x.2.completed) ∨
    ∃ refresh, y.1.refreshes.getLast? = some refresh ∧ y.2.completed = some refresh ∧
      refresh.exchanges = y.2.exchanges

theorem Tied.refl (x : KeyCache κ × KeySession) : Tied x x := ⟨rfl, Or.inl ⟨rfl, rfl⟩⟩

theorem Tied.trans {x y z : KeyCache κ × KeySession} (h : Tied x y) (h' : Tied y z) :
    Tied x z := by
  refine ⟨h'.exchanges.trans h.exchanges, ?_⟩
  rcases h'.refreshes with ⟨hsame', hcompleted'⟩ | hnew
  · rcases h.refreshes with ⟨hsame, hcompleted⟩ | ⟨refresh, hlast, hcompleted, hexchanges⟩
    · exact Or.inl ⟨hsame'.trans hsame, hcompleted'.trans hcompleted⟩
    · refine Or.inr ⟨refresh, hsame' ▸ hlast, hcompleted'.trans hcompleted, ?_⟩
      rw [h'.exchanges]
      exact hexchanges
  · exact Or.inr hnew

theorem tied_statement (o : AuthOp κ) (f) (s : KeyCache κ) (l : KeySession)
    (ho : statements o = some f) : Tied (s, l) (f s l).2 := by
  cases o with
  | setExpiresAt time =>
    obtain rfl := Option.some.inj ho
    exact ⟨rfl, Or.inr ⟨⟨l.exchanges, l.checked⟩, List.getLast?_concat .., rfl, rfl⟩⟩
  | lockAcquire => cases ho
  | get url => cases ho
  | _ =>
    obtain rfl := Option.some.inj ho
    exact ⟨rfl, Or.inl ⟨rfl, rfl⟩⟩

theorem tied_runOn {α : Type} {p p' : AuthTask κ α} {s s' : KeyCache κ} {l l' : KeySession}
    (hrun : runOn statements p s l = (p', s', l')) : Tied (s, l) (s', l') :=
  runOn_rel Tied.refl Tied.trans tied_statement hrun

variable [Jwt κ] [UnicodeData] [UrlData] {settings : Settings}

/-- A turn that changes the record of the refreshes completes one of its own. -/
theorem refreshes_turn {P P'} {m : Move AuthCall} (h : (authLoop κ settings).Turn P m P') :
    P'.store.refreshes = P.store.refreshes ∨ ∃ t refresh, t.sess.completed = some refresh ∧
      P'.store.refreshes.getLast? = some refresh ∧ refresh.exchanges = t.sess.exchanges ∧
      ((∃ i, m = .run i ∧ P'.threads[i]? = some t) ∨ t.sess.exchanges = []) := by
  cases h with
  | @spawn s ts p s' l' c hc hrun =>
    have htied : Tied (s, {}) (s', l') := tied_runOn hrun
    rcases htied.refreshes with ⟨hsame, -⟩ | ⟨refresh, hlast, hcompleted, hexchanges⟩
    · exact Or.inl hsame
    · exact Or.inr ⟨⟨c, l', p, false⟩, refresh, hcompleted, hlast, hexchanges,
        Or.inr htied.exchanges⟩
  | @run s ts i t o k r s₁ l₁ p s' l' ht hop hsem hrun =>
    have htied : Tied (s₁, l₁) (s', l') := tied_runOn hrun
    have hstore : s₁.refreshes = s.refreshes := by
      cases hsem <;> rfl
    rcases htied.refreshes with ⟨hsame, -⟩ | ⟨refresh, hlast, hcompleted, hexchanges⟩
    · exact Or.inl (hsame.trans hstore)
    · have hi := (List.getElem?_eq_some_iff.mp ht).1
      exact Or.inr ⟨_, refresh, hcompleted, hlast, hexchanges,
        Or.inl ⟨i, rfl, List.getElem?_set_self hi⟩⟩
  | env he => exact False.elim he

end Turns

section Main

variable {κ : Type} [Jwt κ] [UnicodeData] [UrlData] {settings : Settings}

/-- **Only fresh signing keys.** In every order of turns and whatever the identity
provider answers: a key that `_get_key` returns is fresh, a token is judged by a fresh
key under its key id only, and keys and expiry change only in a turn that completes a
successful refresh, to what that refresh fetched. -/
theorem fresh_keys {clock : Clock} {wall : ℕ → ℚ} (hclock : Monotone clock) {P}
    (h : (authLoop κ settings).Reaches ⟨KeyCache.start clock wall, []⟩ P) :
    (∀ t ∈ P.threads, ∀ kid key, t.call = .getKey kid → t.prog = .ret (.inl key) →
      Fresh settings kid key t.sess) ∧
    (∀ t ∈ P.threads, ∀ token r, t.call = .validate token → t.prog.result = some r →
      (t.sess.decoded = none ∧ ∃ e, r = .error e) ∨
      ∃ (kid : String) (key : κ) (time : ℚ), t.sess.decoded = some time ∧
        readHeader κ token = .ok kid ∧ Fresh settings kid key t.sess ∧
        r = (checkToken settings token key time).map Sum.inr) ∧
    ∀ m P', (authLoop κ settings).Turn P m P' →
      (P'.store.keys = P.store.keys ∧ P'.store.expires_at = P.store.expires_at) ∨
      ∃ i t refresh document, m = .run i ∧ P'.threads[i]? = some t ∧
        t.sess.completed = some refresh ∧ Fetched settings t.sess.exchanges document ∧
        readKeys document = .ok P'.store.keys ∧
        P'.store.expires_at = expiry settings refresh.completed := by
  have hkept := authLoop_kept hclock h
  refine ⟨?_, ?_, ?_⟩
  · intro t ht kid key hcall hret
    have hended := Loop.post_of_ret hkept ht hret
    rw [hcall] at hended
    obtain ⟨x, hx, hresult⟩ := hended
    cases x with
    | error e => cases hx
    | ok found =>
      obtain rfl := Sum.inl.inj (Except.ok.inj hx)
      exact hresult.fresh rfl
  · intro t ht token r hcall hresult
    have hended := Loop.post_of_result hkept ht hresult
    rw [hcall] at hended
    obtain ⟨x, rfl, hvalidated⟩ := hended
    cases hvalidated with
    | header hheader hnew => exact Or.inl ⟨by rw [hnew], _, rfl⟩
    | keyless hheader hkey hdecoded => exact Or.inl ⟨hdecoded, _, rfl⟩
    | checked hheader hkey hdecoded =>
      exact Or.inr ⟨_, _, _, hdecoded, hheader, hkey.fresh rfl, rfl⟩
  · intro m P' hturn
    have hlater : Later P.store P'.store := Loop.rely_turn (fun _ _ hguar => hguar)
      (fun _ _ _ henv => False.elim henv) (fun c s _ hinv => authLoop_keeps c s hinv) hturn hkept
    have hkept' := authLoop_kept hclock (h.tail ⟨m, hturn⟩)
    rcases refreshes_turn hturn with hsame | ⟨t, refresh, hcompleted, hlast, hexchanges, hacting⟩
    · exact Or.inl (hlater.unchanged hsame)
    · obtain ⟨hfetch, hexpires⟩ := hkept'.1.latest refresh hlast
      obtain ⟨document, hfetched, hkeys⟩ := hfetch.fetched rfl
      rw [hexchanges] at hfetched
      rcases hacting with ⟨i, rfl, hi⟩ | hnone
      · exact Or.inr ⟨i, t, refresh, document, rfl, hi, hcompleted, hfetched, hkeys, hexpires⟩
      · -- a call that has asked nothing has fetched nothing
        rw [hnone] at hfetched
        obtain ⟨response, discovery, jwks_uri, keys_response, hlist, -⟩ := hfetched
        cases hlist

end Main

/-! ## A run -/

def publicModulus : String :=
  "2OWUKYyJEM14j_Xcw0tAXN1u3Gt-QOCY74z74EKxVWSPAtXvEB1v4fu-jEyA6oen6kU8bTNxB729DPIS7dPdRtHS" ++
  "MJdxvsoOQMRVasdEAUk34XPQqiQmQ7skSWI8satT85-DgufJB_jmxXWKNuO4ofYhNDhj9SLiAUlH-7c9Zi7ZGcN7" ++
  "dCv_myP1VakOvXuspXTfy8WJz-EH3cR1n8a8K8RSicDjb81Ia2a0BuptHNmHnC6HkZ2RJ411zEuLN3TGgKK2PPuQ" ++
  "bFzSk9sOyKsCj-B3lPM6ZSxcyCu0tBABdfXyRU0-I-FUidwqPD3LJrqHk-ywjsU3Dsv43zPeZSdRrQ"

/-- An access token under that key. -/
def signedToken : String :=
  "eyJhbGciOiJSUzI1NiIsImtpZCI6InVuaXQtdGVzdC1rZXkiLCJ0eXAiOiJKV1QifQ.eyJpc3MiOiJodHRwczovL" ++
  "2xvZ2luLm1pY3Jvc29mdG9ubGluZS5jb20vMTExMTExMTEtMTExMS0xMTExLTExMTEtMTExMTExMTExMTExL3YyL" ++
  "jAiLCJhdWQiOiJhcGk6Ly9wb3J0YWwtdGVzdCIsInRpZCI6IjExMTExMTExLTExMTEtMTExMS0xMTExLTExMTExM" ++
  "TExMTExMSIsIm9pZCI6ImFhYWFhYWFhLWFhYWEtYWFhYS1hYWFhLWFhYWFhYWFhYWFhYSIsImlhdCI6MTc2MDAwM" ++
  "DAwMCwibmJmIjoxNzU5OTk5OTk5LCJleHAiOjE3NjAwMDAzMDAsInZlciI6IjIuMCIsImF6cCI6IjMzMzMzMzMzL" ++
  "TMzMzMtMzMzMy0zMzMzLTMzMzMzMzMzMzMzMyIsIm5hbWUiOiJUZXN0IEVtcGxveWVlIiwicHJlZmVycmVkX3VzZ" ++
  "XJuYW1lIjoiZW1wbG95ZWVAZXhhbXBsZS50ZXN0Iiwicm9sZXMiOlsiZW1wbG95ZWUiXSwic2NwIjoiYWNjZXNzX" ++
  "2FzX3VzZXIifQ.x41DrkIJrDYThzc-NSTGB6Id3-75zlJXKcnP7tMeRsq80OR3mtvP9FRI2ZNWW31Xn_I9Yyy1Od" ++
  "LcFthffqttRtvHOAdiAJHZUQ4dGXi6I7wKRqKNlSMm7M7EnR9kOTJPtEkfV9heIlFlSQ2LWohabYcheEohTQrtCo" ++
  "REy4NykCeWqvzy6fSG6SImG-PjL0Y1GiVjHC0TSw1zSyt4azpALXOusJ-yA2zCDoT39hz7a9M6e63dpbVg9KOBWm" ++
  "y4dedxPQhwsGlA1dqaG5zGHnuAGVX51MZ6lsAuTRE5zLBzATnj7EzdJSP1JEzwhhEnB_IpLIrBkhABznC0kPzD37" ++
  "VYyw"

def signedClaims : Dict Json := [
  ("iss", .str "https://login.microsoftonline.com/11111111-1111-1111-1111-111111111111/v2.0"),
  ("aud", .str "api://portal-test"), ("tid", .str "11111111-1111-1111-1111-111111111111"),
  ("oid", .str "aaaaaaaa-aaaa-aaaa-aaaa-aaaaaaaaaaaa"), ("iat", .int 1760000000),
  ("nbf", .int 1759999999), ("exp", .int 1760000300), ("ver", .str "2.0"),
  ("azp", .str "33333333-3333-3333-3333-333333333333"), ("name", .str "Test Employee"),
  ("preferred_username", .str "employee@example.test"), ("roles", .arr [.str "employee"]),
  ("scp", .str "access_as_user")]

namespace RsaKeys

/-- Keys as their modulus and exponent, where no other token is presented. -/
scoped instance : Jwt (String × String) where
  get_unverified_header := fun token =>
    if token = signedToken then
      .ok [("alg", .str "RS256"), ("kid", .str "unit-test-key"), ("typ", .str "JWT")]
    else .error .invalidTokenError
  from_dict := fun
    | .obj fields =>
        match Dict.getD fields "n" .null, Dict.getD fields "e" .null with
        | .str n, .str e => .ok (n, e)
        | _, _ => .error .pyJwkError
    | _ => .error .pyJwkError
  decode := fun now token key audience issuer =>
    if token = signedToken ∧ key = (publicModulus, "AQAB") ∧ audience = "api://portal-test" ∧
        issuer =
          "https://login.microsoftonline.com/11111111-1111-1111-1111-111111111111/v2.0" ∧
        1760000000 - 60 ≤ now ∧ now < 1760000300 + 60 then .ok signedClaims
    else .error .invalidTokenError

end RsaKeys

section Example

open Ascii RsaKeys

def testSettings : Settings where
  APP_ENV := .test
  TENANT_ID := "11111111-1111-1111-1111-111111111111"
  PORTAL_CLIENT_ID := "33333333-3333-3333-3333-333333333333"
  PORTAL_API_AUDIENCE := "api://portal-test"
  PORTAL_ALLOWED_CLIENT_IDS := ["33333333-3333-3333-3333-333333333333"]
  D365_CLIENT_ID := "22222222-2222-2222-2222-222222222222"
  D365_CLIENT_SECRET := "unit-test-secret"

def discoveryResponse : Except Exc HttpResponse := .ok ⟨200, .ok (.obj [
  ("issuer", .str "https://login.microsoftonline.com/11111111-1111-1111-1111-111111111111/v2.0"),
  ("jwks_uri", .str "https://login.microsoftonline.com/test/discovery/v2.0/keys")])⟩

def keysResponse : Except Exc HttpResponse := .ok ⟨200, .ok (.obj [("keys", .arr [.obj [
  ("kty", .str "RSA"), ("n", .str publicModulus), ("e", .str "AQAB"),
  ("kid", .str "unit-test-key"), ("use", .str "sig"), ("alg", .str "RS256")]])])⟩

/-- The first call refreshes; the second is served what the first one fetched. -/
theorem fresh_keys_second :
    ∃ P, (authLoop (String × String) testSettings).Reaches
        ⟨KeyCache.start Clock.ticking (fun _ => 0), []⟩ P ∧
      ∃ t ∈ P.threads, t.prog = .ret (.inl (publicModulus, "AQAB")) ∧ t.sess.completed = none ∧
        Fresh testSettings "unit-test-key" (publicModulus, "AQAB") t.sess := by
  have hrun : (Loop.play (authLoop (String × String) testSettings) answer (fun _ _ => none)
      [.spawn (.getKey "unit-test-key"), .spawn (.getKey "unit-test-key"), .run 0 keysResponse,
        .run 0 discoveryResponse, .run 0 keysResponse, .run 1 keysResponse,
        .spawn (.getKey "unit-test-key")]
      ⟨KeyCache.start Clock.ticking (fun _ => 0), []⟩).any (fun P =>
        P.threads.any fun t => t.call = .getKey "unit-test-key" ∧
          t.prog.result = some (.ok (.inl (publicModulus, "AQAB"))) ∧
          t.sess.completed.isNone) = true := by
    decide +kernel
  obtain ⟨P, hplay, hP⟩ := (Option.any_eq_true _ _).mp hrun
  obtain ⟨t, ht, hresult⟩ := List.any_eq_true.mp hP
  obtain ⟨hcall, hret, hcompleted⟩ := of_decide_eq_true hresult
  have hreaches := Loop.play_reaches answer_awaited (fun _ _ _ h => by cases h) hplay
  have hfresh := (fresh_keys Clock.ticking_monotone hreaches).1 t ht _ _ hcall
    (Prog.result_eq_ok.mp hret)
  exact ⟨P, hreaches, t, ht, Prog.result_eq_ok.mp hret, Option.isNone_iff_eq_none.mp hcompleted,
    hfresh⟩

end Example

end EmployeePortal.Auth.EntraTokenValidator
