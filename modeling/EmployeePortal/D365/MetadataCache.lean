import EmployeePortal.D365.MetadataDiscovery
import EmployeePortal.Framework.Schedules

/-!
# The metadata cache

Any number of `fetch_xml` and `search` calls on services that share one Redis cache. The
cache is written before the document is parsed, so what it keeps is a document `parse`
accepts as long as D365 sends no other.
-/

namespace EmployeePortal.D365.D365MetadataService

open EmployeePortal.Python EmployeePortal.Framework

/-! ## The cache and the calls -/

/-- What Redis holds under `CACHE_KEY`, with the answer of D365 it came with. -/
structure Held where
  text : String
  source : Option MetadataResponse

structure MetadataCache where
  held : Option Held := none
  /-- All answers D365 gave so far. -/
  answers : List MetadataResponse := []

/-- What one call got from the others. -/
structure MetadataSession where
  response : Option MetadataResponse := none
  /-- The document it was served from the cache. -/
  served : Option Held := none

inductive MetadataCall where
  | fetchXml (service : Service) (refresh : Bool)
  | search (service : Service) (term : String) (refresh : Bool)

def MetadataCall.service : MetadataCall → Service
  | .fetchXml service _ => service
  | .search service _ _ => service

/-- The document of `fetch_xml`, or the entities of `search`. -/
abbrev MetadataReply : Type := String ⊕ List EntityDescription

abbrev MetadataThread : Type :=
  Thread MetadataOp MetadataOp.Answer Exc MetadataReply MetadataSession MetadataCall

abbrev MetadataPool : Type :=
  Pool MetadataOp MetadataOp.Answer Exc MetadataReply MetadataCache MetadataSession MetadataCall

/-- The cached document, where it is not the empty text. -/
def MetadataCache.served (s : MetadataCache) : Option Held :=
  s.held.filter (·.text ≠ "")

/-- Redis returns what was stored and may fail at any time, a failed write before or after it
has written; D365 answers anything. -/
inductive Performs : (o : MetadataOp) → MetadataCache → MetadataSession → Except Exc o.Answer →
    MetadataCache → MetadataSession → Prop
  | get {s l} : Performs .get s l (.ok (s.held.map Held.text)) s { l with served := s.served }
  | getFails {s l} (e : Exc) : Performs .get s l (.error e) s l
  | set {s l xml ex} :
      Performs (.set xml ex) s l (.ok ()) { s with held := some ⟨xml, l.response⟩ } l
  | setFails {s l xml ex} (e : Exc) : Performs (.set xml ex) s l (.error e) s l
  | setUnheard {s l xml ex} (e : Exc) :
      Performs (.set xml ex) s l (.error e) { s with held := some ⟨xml, l.response⟩ } l
  | getMetadata {s l} (response : MetadataResponse) :
      Performs .getMetadata s l (.ok response)
        { s with answers := s.answers ++ [response] } { l with response := some response }
  | getMetadataFails {s l} (e : Exc) : Performs .getMetadata s l (.error e) s l

section Calls

variable [UnicodeData] [MetadataLibrary]

def MetadataCall.body : MetadataCall → MetadataTask MetadataReply
  | .fetchXml service refresh => do return .inl (← D365MetadataService.fetchXml service refresh)
  | .search service term refresh => do
      return .inr (← D365MetadataService.search service term refresh)

/-- The calls on services with one limit. Between two operations of a call the document may
run out, and a call may be cancelled. -/
def metadataCalls (max_bytes : ℕ) : System MetadataOp MetadataOp.Answer Exc MetadataReply
    MetadataCache MetadataSession MetadataCall where
  body := MetadataCall.body
  start := {}
  sem := fun _ => Performs
  env := fun s s' => s' = { s with held := none }
  admits := fun c => c.service.redis = true ∧ c.service.max_bytes = max_bytes
  cuts := fun _ _ => True

end Calls

/-! ## Where the cached document comes from -/

/-- The document came with an answer of D365 that was not too long. -/
def Held.FromAnswer (max_bytes : ℕ) (s : MetadataCache) (held : Held) : Prop :=
  ∃ response ∈ s.answers, held.source = some response ∧ response.size ≤ max_bytes ∧
    held.text = response.text

/-- What is cached came with such an answer, and answers are only added. -/
def cacheContract (max_bytes : ℕ) : Contract MetadataCache :=
  .along (fun s => ∀ held, s.held = some held → held.FromAnswer max_bytes s)
    (fun s s' => s.answers <+: s'.answers) (fun _ => List.prefix_rfl) (fun h h' => h.trans h')

variable {max_bytes : ℕ} {s s' : MetadataCache} {l : MetadataSession} {service : Service}

theorem Held.FromAnswer.mono {held : Held} (h : held.FromAnswer max_bytes s)
    (hanswers : s.answers <+: s'.answers) : held.FromAnswer max_bytes s' := by
  obtain ⟨response, hmem, hheld⟩ := h
  exact ⟨response, hanswers.subset hmem, hheld⟩

theorem served_eq_some {held : Held} (h : s.served = some held) : s.held = some held :=
  (Option.filter_eq_some_iff.mp h).1

/-- `if cached:` passes over the empty text. -/
theorem truthy_held : truthy (s.held.map Held.text) = s.served.map Held.text := by
  unfold MetadataCache.served
  cases s.held with
  | none => rfl
  | some held =>
    by_cases htext : held.text = ""
    · simp [truthy, htext]
    · simp [truthy, htext]

/-- A call that has read the cache knows what it was served. -/
theorem readCache_safe (refresh : Bool) :
    Safe (cacheContract max_bytes) Performs (readCache service refresh)
      (fun r s l => ∃ served : Option Held, r = .ok (served.map Held.text) ∧
        l = { served := served } ∧ ∀ held, served = some held → held.FromAnswer max_bytes s)
      s {} := by
  have hnone : ∀ s : MetadataCache, ∃ served : Option Held,
      (.ok none : Except Exc (Option String)) = .ok (served.map Held.text) ∧
        ({} : MetadataSession) = { served := served } ∧
        ∀ held, served = some held → held.FromAnswer max_bytes s :=
    fun s => ⟨none, rfl, rfl, fun _ h => by cases h⟩
  unfold readCache
  split
  · rw [Prog.attempt_perform, Prog.op_bind]
    intro s₁ _ hinv
    refine ⟨fun hlive => hlive.elim, fun r s₂ l₂ hsem => ?_⟩
    cases hsem with
    | get =>
      refine ⟨hinv, List.prefix_rfl, s₁.served, congrArg Except.ok truthy_held, rfl, ?_⟩
      exact fun held hserved => hinv held (served_eq_some hserved)
    | getFails e => exact ⟨hinv, List.prefix_rfl, hnone s₁⟩
  · exact hnone s

/-- A write keeps where the document comes from. -/
theorem writeCache_safe {response : MetadataResponse} (hresponse : l.response = some response)
    (hmem : response ∈ s.answers) (hsize : response.size ≤ max_bytes) :
    Safe (cacheContract max_bytes) Performs (writeCache service response.text)
      (fun _ _ l' => l'.served = l.served) s l := by
  unfold writeCache
  split
  · rw [Prog.attempt_perform, Prog.op_bind]
    intro s₁ hrely hinv
    have hwritten : ∀ held, (some ⟨response.text, l.response⟩ : Option Held) = some held →
        held.FromAnswer max_bytes s₁ := by
      rintro held ⟨⟩
      exact ⟨response, List.IsPrefix.subset hrely hmem, hresponse, hsize, rfl⟩
    refine ⟨fun hlive => hlive.elim, fun r s₂ l₂ hsem => ?_⟩
    cases hsem with
    | set => exact ⟨hwritten, List.prefix_rfl, rfl⟩
    | setFails e => exact ⟨hinv, List.prefix_rfl, rfl⟩
    | setUnheard e => exact ⟨hwritten, List.prefix_rfl, rfl⟩
  · exact rfl

/-- A download stores only what passed the check of its length. -/
theorem download_safe (hmax : service.max_bytes = max_bytes) :
    Safe (cacheContract max_bytes) Performs (download service)
      (fun _ _ l' => l'.served = l.served) s l := by
  unfold download
  refine Safe.bind (R := fun r s' l' => l'.served = l.served ∧ ∀ response, r = .ok response →
    l'.response = some response ∧ response ∈ s'.answers) ?_ ?_ fun _ _ _ h => h.1
  · refine Safe.perform (fun _ _ _ hlive => hlive.elim) fun s₁ _ hinv r s₂ l₂ hsem => ?_
    cases hsem with
    | getMetadata response =>
      have hgrown : s₁.answers <+: s₁.answers ++ [response] := List.prefix_append _ _
      refine ⟨fun held hheld => (hinv held hheld).mono hgrown, hgrown, rfl, ?_⟩
      rintro response ⟨⟩
      exact ⟨rfl, List.mem_concat_self⟩
    | getMetadataFails e => exact ⟨hinv, List.prefix_rfl, rfl, fun _ h => by cases h⟩
  · rintro response s₁ l₁ ⟨hserved, hanswer⟩
    obtain ⟨hresponse, hmem⟩ := hanswer response rfl
    split
    · exact hserved
    · rename_i hsize
      rw [hmax, not_lt] at hsize
      refine Safe.bind (writeCache_safe hresponse hmem hsize) ?_ fun _ _ _ h => h.trans hserved
      exact fun _ _ _ h => h.trans hserved

/-- What `fetch_xml` is served from the cache it returns as it is. -/
theorem fetchXml_safe (refresh : Bool) (hmax : service.max_bytes = max_bytes) :
    Safe (cacheContract max_bytes) Performs (fetchXml service refresh)
      (fun r s l => ∀ held, l.served = some held →
        held.FromAnswer max_bytes s ∧ r = .ok held.text) s {} := by
  unfold fetchXml
  refine Safe.bind (readCache_safe refresh) ?_ fun e s l h => ?_
  · rintro cached s l ⟨served, hcached, rfl, hserved⟩
    obtain rfl := Except.ok.inj hcached
    cases served with
    | none =>
      refine (download_safe hmax).mono fun r s l hnone held hheld => ?_
      rw [hnone] at hheld
      cases hheld
    | some held =>
      rintro held' ⟨⟩
      exact ⟨hserved held rfl, rfl⟩
  · obtain ⟨_, h, -⟩ := h
    cases h

section Runs

variable [UnicodeData] [MetadataLibrary]

/-- What a call answers from a document of the cache. -/
def MetadataCall.reply : MetadataCall → String → Except Exc MetadataReply
  | .fetchXml _ _, text => .ok (.inl text)
  | .search _ term _, text => (parse text).map fun entities =>
      .inr (entities.filter (isMatch (strip (casefold term))))

/-- A call that is served from the cache answers from this document. -/
def Served (max_bytes : ℕ) (c : MetadataCall) :
    Post Exc MetadataReply MetadataCache MetadataSession :=
  fun r s l => ∀ held, l.served = some held →
    held.FromAnswer max_bytes s ∧ r = c.reply held.text

/-- A search that is served from the cache parses and filters this document. -/
theorem search_safe {term : String} {refresh : Bool} (hmax : service.max_bytes = max_bytes)
    {task : MetadataTask (List EntityDescription)}
    (htask : (∃ e, task = .raise e) ∨ task = D365MetadataService.fetchXml service refresh >>=
      fun xml => Prog.ofExcept ((parse xml).map (List.filter (isMatch (strip (casefold term)))))) :
    Safe (cacheContract max_bytes) Performs (do return .inr (← task))
      (Served max_bytes (.search service term refresh)) s {} := by
  rcases htask with ⟨e, rfl⟩ | rfl
  · rintro held ⟨⟩
  · rw [bind_assoc]
    refine Safe.bind (fetchXml_safe refresh hmax) ?_ ?_
    · intro text s l h
      cases hparse : parse text with
      | ok entities =>
        intro held hheld
        obtain ⟨hfrom, htext⟩ := h held hheld
        obtain rfl := Except.ok.inj htext
        exact ⟨hfrom, by rw [MetadataCall.reply, hparse]; rfl⟩
      | error e =>
        intro held hheld
        obtain ⟨hfrom, htext⟩ := h held hheld
        obtain rfl := Except.ok.inj htext
        exact ⟨hfrom, by rw [MetadataCall.reply, hparse]; rfl⟩
    · intro e s l h held hheld
      obtain ⟨-, herror⟩ := h held hheld
      cases herror

theorem body_safe {c : MetadataCall} (hmax : c.service.max_bytes = max_bytes) :
    Safe (cacheContract max_bytes) Performs c.body (Served max_bytes c) s {} := by
  have hsearch := search_cases
  cases c with
  | fetchXml service refresh =>
    refine Safe.bind (fetchXml_safe refresh hmax) ?_ ?_
    · intro text s l h held hheld
      obtain ⟨hfrom, htext⟩ := h held hheld
      exact ⟨hfrom, congrArg (Except.map Sum.inl) htext⟩
    · intro e s l h held hheld
      obtain ⟨-, herror⟩ := h held hheld
      cases herror
  | search service term refresh =>
    rw [MetadataCall.body]
    specialize hsearch service term refresh
    generalize D365MetadataService.search service term refresh = task at hsearch ⊢
    exact search_safe hmax hsearch

theorem served_of_reaches {P : MetadataPool} (h : (metadataCalls max_bytes).Reaches ⟨{}, []⟩ P) :
    P.Safe (cacheContract max_bytes) (metadataCalls max_bytes)
      (fun _ c => Served max_bytes c) := by
  refine System.safe_of_reaches (fun _ _ h => h) ?_ ?_ ?_ h
    (System.safe_nil _ _ _ fun _ hheld => by cases hheld)
  · intro i c r s s' l hserved hrely _ held hheld
    obtain ⟨hfrom, hr⟩ := hserved held hheld
    exact ⟨hfrom.mono hrely, hr⟩
  · -- the document has run out
    rintro s s' - rfl
    refine ⟨fun _ hheld => ?_, List.prefix_rfl⟩
    cases hheld
  · exact fun i c s hadmits _ => body_safe hadmits.2

/-! ## Which documents -/

def Accepted (xml : String) : Prop := ∃ entities, parse xml = .ok entities

/-- `parse` accepts the document in the cache, and no call served from the cache fails. -/
structure NeverBad (P : MetadataPool) : Prop where
  accepted : ∀ held, P.store.held = some held → Accepted held.text
  served : ∀ t ∈ P.threads, t.cut = false → t.sess.served ≠ none → ∀ e, t.prog ≠ .raise e

omit [UnicodeData] in
theorem Held.FromAnswer.accepted {held : Held} (h : held.FromAnswer max_bytes s)
    (hanswers : ∀ response ∈ s.answers, response.size ≤ max_bytes → Accepted response.text) :
    Accepted held.text := by
  obtain ⟨response, hmem, -, hsize, htext⟩ := h
  exact htext ▸ hanswers response hmem hsize

theorem reply_of_accepted {xml : String} (h : Accepted xml) (c : MetadataCall) :
    ∃ reply, c.reply xml = .ok reply := by
  obtain ⟨entities, hparse⟩ := h
  cases c with
  | fetchXml service refresh => exact ⟨_, rfl⟩
  | search service term refresh => exact ⟨_, by rw [MetadataCall.reply, hparse]; rfl⟩

theorem neverBad_of_reaches {P : MetadataPool}
    (h : (metadataCalls max_bytes).Reaches ⟨{}, []⟩ P)
    (hanswers : ∀ response ∈ P.store.answers, response.size ≤ max_bytes →
      Accepted response.text) : NeverBad P := by
  have hsafe := served_of_reaches h
  refine ⟨fun held hheld => (hsafe.1 held hheld).accepted hanswers, ?_⟩
  intro t ht hcut hserved e hraise
  obtain ⟨i, hi⟩ := List.getElem?_of_mem ht
  obtain ⟨held, hheld⟩ := Option.ne_none_iff_exists'.mp hserved
  have hpost := hsafe.2 i t hi hcut
  rw [hraise] at hpost
  obtain ⟨hfrom, herror⟩ := hpost held hheld
  obtain ⟨reply, hreply⟩ := reply_of_accepted (hfrom.accepted hanswers) t.call
  rw [hreply] at herror
  cases herror

/-! ## One bad answer -/

/-- A call that passes over the cache, on a service with this limit. -/
def refreshing (max_bytes : ℕ) : MetadataCall := .fetchXml { redis := true, max_bytes } true

theorem refreshing_body {response : MetadataResponse} (hsize : response.size ≤ max_bytes) :
    ∃ k, (refreshing max_bytes).body = .op .getMetadata k ∧
      ∃ k', k (.ok response) = .op (.set response.text 21600) k' := by
  refine ⟨_, rfl, ?_⟩
  show ∃ k', (ite (response.size > max_bytes) _ _ : MetadataTask String) >>= _ = .op _ k'
  rw [if_neg (not_lt.mpr hsize)]
  exact ⟨_, rfl⟩

/-- One answer that is not too long is cached, whatever it is. -/
theorem cached_of_response {response : MetadataResponse} (hsize : response.size ≤ max_bytes) :
    ∃ P, (metadataCalls max_bytes).Reaches ⟨{}, []⟩ P ∧ P.store.answers = [response] ∧
      P.store.held = some ⟨response.text, some response⟩ := by
  obtain ⟨k, hbody, k', hk⟩ := refreshing_body hsize
  let call := refreshing max_bytes
  let asking : MetadataThread := ⟨call, {}, call.body, false⟩
  let writing : MetadataThread := ⟨call, ⟨some response, none⟩, k (.ok response), false⟩
  let written : MetadataThread := ⟨call, ⟨some response, none⟩, k' (.ok ()), false⟩
  have hspawn : (metadataCalls max_bytes).Step ⟨{}, []⟩ (.spawn call) ⟨{}, [asking]⟩ :=
    .spawn call ⟨rfl, rfl⟩
  have hget : (metadataCalls max_bytes).Step ⟨{}, [asking]⟩ (.run 0)
      ⟨⟨none, [response]⟩, [writing]⟩ :=
    .run (t := asking) rfl rfl hbody (Performs.getMetadata response)
  have hset : (metadataCalls max_bytes).Step ⟨⟨none, [response]⟩, [writing]⟩ (.run 0)
      ⟨⟨some ⟨response.text, some response⟩, [response]⟩, [written]⟩ :=
    .run (t := writing) rfl rfl hk Performs.set
  exact ⟨_, ((Relation.ReflTransGen.single ⟨_, hspawn⟩).tail ⟨_, hget⟩).tail ⟨_, hset⟩, rfl, rfl⟩

/-- **What the cache keeps.** In every run, the cached document came with an answer that was not
too long. As long as `parse` accepts every such answer, it accepts the cached document, and no
call served from the cache fails. An answer it refuses, though, is cached like any other. -/
theorem keeps_accepted (max_bytes : ℕ) :
    (∀ P : MetadataPool, (metadataCalls max_bytes).Reaches ⟨{}, []⟩ P →
      (∀ held, P.store.held = some held → held.FromAnswer max_bytes P.store) ∧
      ((∀ response ∈ P.store.answers, response.size ≤ max_bytes → Accepted response.text) →
        NeverBad P)) ∧
    ∀ response : MetadataResponse, response.size ≤ max_bytes → ¬ Accepted response.text →
      ∃ P, (metadataCalls max_bytes).Reaches ⟨{}, []⟩ P ∧ P.store.answers = [response] ∧
        ¬ NeverBad P := by
  constructor
  · intro P h
    exact ⟨(served_of_reaches h).1, neverBad_of_reaches h⟩
  · intro response hsize hrefused
    obtain ⟨P, hreach, hanswers, hheld⟩ := cached_of_response hsize
    exact ⟨P, hreach, hanswers, fun hnever => hrefused (hnever.accepted _ hheld)⟩

end Runs

/-! ## A document that is not closed -/

section Example

open Ascii Nested

/-- Redis and D365 as they should be; the hint is what D365 answers. -/
def perform (_ : MetadataCall) : (o : MetadataOp) → MetadataCache → MetadataSession →
    MetadataResponse → Option (Except Exc o.Answer × MetadataCache × MetadataSession)
  | .get, s, l, _ => some (.ok (s.held.map Held.text), s, { l with served := s.served })
  | .set xml _, s, l, _ => some (.ok (), { s with held := some ⟨xml, l.response⟩ }, l)
  | .getMetadata, s, l, response =>
      some (.ok response, { s with answers := s.answers ++ [response] },
        { l with response := some response })

theorem perform_performs (c : MetadataCall) (o : MetadataOp) (s : MetadataCache)
    (l : MetadataSession) (response : MetadataResponse) (r : Except Exc o.Answer)
    (s' : MetadataCache) (l' : MetadataSession)
    (h : perform c o s l response = some (r, s', l')) : Performs o s l r s' l' := by
  cases o with
  | get => cases h; exact .get
  | set xml ex => cases h; exact .set
  | getMetadata => cases h; exact .getMetadata response

instance (max_bytes : ℕ) : DecidablePred (metadataCalls max_bytes).admits :=
  fun _ => inferInstanceAs (Decidable (_ ∧ _))

instance (max_bytes : ℕ) (c : MetadataCall) : DecidablePred ((metadataCalls max_bytes).cuts c) :=
  fun _ => inferInstanceAs (Decidable True)

/-- A search downloads the document; a second one finds it in the cache. -/
def searchTwice (response : MetadataResponse) : Option MetadataPool :=
  System.play (metadataCalls 268435456) perform
    [.spawn (.search { redis := true } "xs" true), .run 0 response, .run 0 response,
      .spawn (.search { redis := true } "xs" false), .run 1 response] ⟨{}, []⟩

def notClosed : MetadataResponse := ⟨12, "<not-closed>"⟩

/-- Both searches fail, though the second one asks D365 for nothing. -/
theorem not_neverBad :
    (¬ ∀ P : MetadataPool, (metadataCalls 268435456).Reaches ⟨{}, []⟩ P →
      ∀ held, P.store.held = some held → Accepted held.text) ∧
    ¬ ∀ P : MetadataPool, (metadataCalls 268435456).Reaches ⟨{}, []⟩ P →
      ∀ t ∈ P.threads, t.cut = false → t.sess.served ≠ none → ∀ e, t.prog ≠ .raise e := by
  have hrun : (searchTwice notClosed).any (fun P =>
      P.store.held.any (fun held => held.text = "<not-closed>") ∧
      P.threads[1]?.any fun t => t.cut = false ∧ t.sess.served.isSome ∧
        (t.prog.result.any fun r => r.toOption.isNone)) = true := by
    decide +kernel
  obtain ⟨P, hplay, hrun⟩ := (Option.any_eq_true _ _).mp hrun
  obtain ⟨hheld, hsecond⟩ := of_decide_eq_true hrun
  have hreach : (metadataCalls 268435456).Reaches ⟨{}, []⟩ P :=
    System.play_reaches perform_performs hplay
  constructor
  · intro hall
    obtain ⟨held, hheld, htext⟩ := (Option.any_eq_true _ _).mp hheld
    obtain ⟨entities, hparse⟩ := hall P hreach held hheld
    rw [of_decide_eq_true htext] at hparse
    cases hparse
  · intro hall
    obtain ⟨t, ht, hsecond⟩ := (Option.any_eq_true _ _).mp hsecond
    obtain ⟨hcut, hserved, hresult⟩ := of_decide_eq_true hsecond
    obtain ⟨r, hr, herror⟩ := (Option.any_eq_true _ _).mp hresult
    have hnot := hall P hreach t (List.mem_of_getElem? ht) hcut
      (Option.isSome_iff_ne_none.mp hserved)
    cases hprog : t.prog with
    | ret a =>
      rw [hprog] at hr
      cases hr
      cases herror
    | raise e => exact hnot e hprog
    | op o k =>
      rw [hprog] at hr
      cases hr

theorem keeps_accepted_xs : ∃ P : MetadataPool,
    (metadataCalls 268435456).Reaches ⟨{}, []⟩ P ∧ P.store.held ≠ none ∧ NeverBad P := by
  have hrun : (searchTwice ⟨300, nestedXml⟩).any (fun P =>
      P.store.held.isSome ∧ P.store.answers = [⟨300, nestedXml⟩]) = true := by
    decide +kernel
  obtain ⟨P, hplay, hrun⟩ := (Option.any_eq_true _ _).mp hrun
  obtain ⟨hheld, hanswers⟩ := of_decide_eq_true hrun
  have hreach : (metadataCalls 268435456).Reaches ⟨{}, []⟩ P :=
    System.play_reaches perform_performs hplay
  refine ⟨P, hreach, Option.isSome_iff_ne_none.mp hheld, ?_⟩
  refine ((keeps_accepted 268435456).1 P hreach).2 fun response hmem _ => ?_
  rw [hanswers, List.mem_singleton] at hmem
  exact hmem ▸ ⟨[xs], parse_nestedXml⟩

end Example

end EmployeePortal.D365.D365MetadataService
