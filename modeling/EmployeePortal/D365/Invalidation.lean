import EmployeePortal.D365.CallTurns
import EmployeePortal.D365.ForcedRefresh
import EmployeePortal.Framework.Histories

/-!
# What an invalidation discards

`invalidate` takes no token and waits for nobody. A call that hears a 401 drops whatever
is in the cache by then: the token it sent, or one that another call has acquired since.
-/

namespace EmployeePortal.D365.D365TokenService

open EmployeePortal.Python EmployeePortal.Framework

section Runs

variable {π : Type}

abbrev ClientPool (π : Type) : Type :=
  Pool ServiceOp ServiceOp.Answer Exc Response (Service π) (TokenSession π) ClientCall

abbrev ClientMoment (π : Type) : Type :=
  Moment ServiceOp ServiceOp.Answer Exc Response (Service π) (TokenSession π) ClientCall

abbrev ClientThread (π : Type) : Type :=
  Thread ServiceOp ServiceOp.Answer Exc Response (TokenSession π) ClientCall

def sessionOf (P : ClientPool π) (i : ℕ) : Option (TokenSession π) :=
  P.threads[i]?.map Thread.sess

/-! ## The turns in question -/

/-- Call `i` sends a request with this token. -/
def Sends (i : ℕ) (token : String) (x : ClientMoment π) : Prop :=
  x.By i ∧ x.after.store.requests ≠ x.before.store.requests ∧
    ∃ l, sessionOf x.after i = some l ∧ l.sent = some token

/-- Call `i` hears its first 401, to a request with this token. -/
def Hears (i : ℕ) (token : String) (x : ClientMoment π) : Prop :=
  x.move = .run i ∧ ∃ l l', sessionOf x.before i = some l ∧ sessionOf x.after i = some l' ∧
    l.refreshed = false ∧ l'.refreshed = true ∧ l.sent = some token

/-- Call `i` starts an acquisition because this token was rejected. -/
def Renews (i : ℕ) (token : String) (x : ClientMoment π) : Prop :=
  x.By i ∧ x.after.store.acquisitions ≠ x.before.store.acquisitions ∧
    ∃ l rejection, sessionOf x.before i = some l ∧ l.rejected = some rejection ∧
      rejection.token = token

/-- Call `i` waits for the lock. -/
def Queues (P : ClientPool π) (i : ℕ) : Prop := ∃ t, P.threads[i]? = some t ∧ AtLock t.prog

/-- Call `i` was rejected with this token, queued for the lock and has got it since. -/
def Resumes (i : ℕ) (token : String) (h : List (ClientMoment π)) : Prop :=
  ∃ h₀ x rest, h = h₀ ++ x :: rest ∧ Hears i token x ∧ Queues x.after i ∧ ∃ z ∈ rest, z.By i

/-- The cached token is another one than before. -/
def Changes (x : ClientMoment π) : Prop := x.after.store.token ≠ x.before.store.token

/-- Call `i` puts a token in the cache. -/
def Stores (i : ℕ) (token : String) (x : ClientMoment π) : Prop :=
  x.By i ∧ Changes x ∧ ∃ expires_at, x.after.store.token = some ⟨token, expires_at⟩

/-- There is no token in the cache, or this one. -/
def OnlyToken (token : String) (s : Service π) : Prop :=
  ∀ stored, s.token = some stored → stored.value = token

/-- A request of call `i` with this token went out at `y` and is rejected at `x`. -/
structure RejectedAt (i : ℕ) (token : String) (y : ClientMoment π) (since : List (ClientMoment π))
    (x : ClientMoment π) : Prop where
  sends : Sends i token y
  waits : ∀ w ∈ since, ¬ w.By i
  hears : Hears i token x

/-- The last of these turns that changes the cache puts another token there. -/
def Overwritten (token : String) (since : List (ClientMoment π)) : Prop :=
  ∃ a z b other stored, since = a ++ z :: b ∧ Stores other stored z ∧ stored ≠ token ∧
    ∀ w ∈ b, ¬ Changes w

/-! ## What is known about a call -/

theorem sessionOf_some {P : ClientPool π} {i : ℕ} {t : ClientThread π}
    (h : P.threads[i]? = some t) : sessionOf P i = some t.sess := by
  rw [sessionOf, h]
  rfl

/-- A call with nothing to answer for has not acquired because of a rejection. -/
structure Ledger [UnicodeData] [FloatData] (max_retries : ℤ) (h : List (ClientMoment π)) (i : ℕ)
    (t : ClientThread π) : Prop where
  phase : Phase max_retries t.call t.sess t.prog
  fresh : t.sess.refreshed = false →
    t.sess.rejected = none ∧ ∀ x ∈ h, ∀ token, ¬ Renews i token x
  pending : AtLock t.prog → ∀ rejection, t.sess.rejected = some rejection →
    (∃ h₀ x since, h = h₀ ++ x :: since ∧ Hears i rejection.token x ∧ Queues x.after i) ∧
      ∀ x ∈ h, ∀ token, ¬ Renews i token x
  asked : AtResponse t.prog → ∃ token h₀ y since, h = h₀ ++ y :: since ∧ Sends i token y ∧
    t.sess.sent = some token ∧ (∃ expires_at, y.after.store.token = some ⟨token, expires_at⟩) ∧
    ∀ w ∈ since, ¬ w.By i

variable [UnicodeData] [FloatData] {answers : Provider π} {max_retries : ℤ}
  {h : List (ClientMoment π)} {x : ClientMoment π} {i : ℕ} {t : ClientThread π}

/-- A turn of call `i`, its first one included. -/
theorem own_turn (hturn : (clientLoop max_retries answers).Turn x.before x.move x.after)
    (hphases : ∀ (i : ℕ) (t : ClientThread π), x.before.threads[i]? = some t →
      Phase max_retries t.call t.sess t.prog)
    (hby : x.By i) :
    ∃ p l, ∃ t' : ClientThread π, x.after.threads[i]? = some t' ∧
      Phase max_retries t'.call t'.sess t'.prog ∧
      Acts p x.before.store l t'.prog x.after.store t'.sess ∧
      (x.before.threads[i]? = none ∧ l = {} ∨
        x.move = .run i ∧ ∃ t, x.before.threads[i]? = some t ∧ t.prog = p ∧ t.sess = l) := by
  obtain ⟨P, m, P'⟩ := x
  cases hturn with
  | @spawn s ts p s' l' c hc hrun =>
    obtain rfl : ts.length = i := by
      rcases hby with hrun | ⟨c', -, hlength⟩
      · cases hrun
      · exact hlength
    have hstarts : Starts max_retries c s {} p s' l' := starts_going (absurd rfl) hrun
    exact ⟨p, {}, ⟨c, l', p, false⟩, List.getElem?_concat_length .., hstarts.phase,
      hstarts.acts fun _ => rfl, Or.inl ⟨List.getElem?_eq_none le_rfl, rfl⟩⟩
  | @run s ts j t o k r s₁ l₁ p s' l' ht hop hsem hrun =>
    obtain rfl : j = i := by
      rcases hby with hmove | ⟨c, hmove, -⟩
      · exact Move.run.inj hmove
      · cases hmove
    have hj := (List.getElem?_eq_some_iff.mp ht).1
    obtain ⟨hphase, hacts⟩ := (hphases j t ht).turn hop hsem hrun
    exact ⟨t.prog, t.sess, { t with sess := l', prog := p }, List.getElem?_set_self hj, hphase,
      hacts, Or.inr ⟨rfl, t, ht, rfl, rfl⟩⟩
  | env he => exact False.elim he

omit [UnicodeData] [FloatData] in
theorem forall_not_concat {p : ClientMoment π → Prop} (hold : ∀ y ∈ h, ¬ p y) (hnew : ¬ p x) :
    ∀ y ∈ h ++ [x], ¬ p y := by
  intro y hy
  rcases List.mem_append.mp hy with hy | hy
  · exact hold y hy
  · obtain rfl := List.mem_singleton.mp hy
    exact hnew

/-- A turn of another call. -/
theorem Ledger.other (hledger : Ledger max_retries h i t) (hnot : ¬ x.By i) :
    Ledger max_retries (h ++ [x]) i t where
  phase := hledger.phase
  fresh := by
    intro hfalse
    obtain ⟨hnone, hno⟩ := hledger.fresh hfalse
    exact ⟨hnone, fun y hy token => forall_not_concat (hno · · token) (fun hx => hnot hx.1) y hy⟩
  pending := by
    intro hlock rejection hrejection
    obtain ⟨⟨h₀, y, since, rfl, hheard⟩, hno⟩ := hledger.pending hlock rejection hrejection
    refine ⟨⟨h₀, y, since ++ [x], by simp, hheard⟩, fun z hz token => ?_⟩
    exact forall_not_concat (hno · · token) (fun hx => hnot hx.1) z hz
  asked := by
    intro hask
    obtain ⟨token, h₀, y, since, rfl, hsends, hsent, hcached, hwaits⟩ := hledger.asked hask
    exact ⟨token, h₀, y, since ++ [x], by simp, hsends, hsent, hcached,
      forall_not_concat hwaits hnot⟩

/-- A turn of the call itself, from what was known about it. -/
theorem ledger_own {p : Task Response} {l : TokenSession π}
    (hfresh : l.refreshed = false → l.rejected = none ∧ ∀ x ∈ h, ∀ token, ¬ Renews i token x)
    (hbefore : sessionOf x.before i = none ∧ l = {} ∨
      x.move = .run i ∧ sessionOf x.before i = some l)
    (hby : x.By i) (hafter : x.after.threads[i]? = some t)
    (hphase : Phase max_retries t.call t.sess t.prog)
    (hacts : Acts p x.before.store l t.prog x.after.store t.sess) :
    Ledger max_retries (h ++ [x]) i t := by
  have hsession := sessionOf_some hafter
  -- before its first 401 a call acquires because of no rejection
  have hnot : l.refreshed = false → ∀ y ∈ h ++ [x], ∀ token, ¬ Renews i token y := by
    intro hfalse y hy token
    obtain ⟨hnone, hno⟩ := hfresh hfalse
    refine forall_not_concat (hno · · token) ?_ y hy
    rintro ⟨-, -, l₀, rejection, hl₀, hrejection, -⟩
    rcases hbefore with ⟨hnil, -⟩ | ⟨-, hsome⟩
    · rw [hnil] at hl₀
      cases hl₀
    · obtain rfl := Option.some.inj (hsome.symm.trans hl₀)
      rw [hnone] at hrejection
      cases hrejection
  refine ⟨hphase, ?_, ?_, ?_⟩
  · intro hfalse'
    have hfalse : l.refreshed = false := by
      by_contra htrue
      rw [hacts.refreshed (Bool.not_eq_false _ ▸ htrue)] at hfalse'
      cases hfalse'
    refine ⟨Option.eq_none_iff_forall_ne_some.mpr ?_, hnot hfalse⟩
    intro rejection hrejection
    rcases hacts.rejected rejection hrejection with hold | ⟨-, htrue, -⟩
    · rw [(hfresh hfalse).1] at hold
      cases hold
    · rw [hfalse'] at htrue
      cases htrue
  · intro hlock rejection hrejection
    obtain ⟨hfalse, htrue⟩ := hacts.queues hlock rejection hrejection
    refine ⟨⟨h, x, [], rfl, ?_, t, hafter, hlock⟩, hnot hfalse⟩
    rcases hacts.rejected rejection hrejection with hold | ⟨-, -, hsent⟩
    · rw [(hfresh hfalse).1] at hold
      cases hold
    · rcases hbefore with ⟨-, rfl⟩ | ⟨hmove, hsome⟩
      · cases hsent
      · exact ⟨hmove, l, t.sess, hsome, hsession, hfalse, htrue, hsent⟩
  · intro hask
    have hmore := hacts.asks hask
    obtain ⟨token, expires_at, hsent, hcached⟩ := hacts.sends hmore
    exact ⟨token, h, x, [], rfl, ⟨hby, hmore, t.sess, hsession, hsent⟩, hsent,
      ⟨expires_at, hcached⟩, fun _ hw => absurd hw List.not_mem_nil⟩

/-! ## What is known about a run -/

structure Books (max_retries : ℤ) (h : List (ClientMoment π)) (P : ClientPool π) : Prop where
  ledger : ∀ (i : ℕ) (t : ClientThread π), P.threads[i]? = some t → Ledger max_retries h i t
  absent : ∀ i, P.threads[i]? = none → ∀ x ∈ h, ¬ x.By i
  once : ∀ i token, Once (Renews i token) h

theorem books_nil (s : Service π) : Books max_retries [] ⟨s, []⟩ where
  ledger := fun i t ht => by cases ht
  absent := fun _ _ _ hx => by cases hx
  once := fun _ _ => List.Pairwise.nil

/-- An acquisition because of a rejection starts at the lock. -/
theorem Books.renews_pending (hbooks : Books max_retries h x.before)
    (hturn : (clientLoop max_retries answers).Turn x.before x.move x.after) {token : String}
    (hrenews : Renews i token x) :
    ∃ (t : ClientThread π) (rejection : Rejection π), x.before.threads[i]? = some t ∧
      AtLock t.prog ∧ t.sess.rejected = some rejection ∧ rejection.token = token := by
  obtain ⟨hby, hmore, l₀, rejection, hl₀, hrejection, htoken⟩ := hrenews
  obtain ⟨p, l, t', ht', hphase, hacts, hbefore⟩ :=
    own_turn hturn (fun i t ht => (hbooks.ledger i t ht).phase) hby
  rcases hbefore with ⟨hnone, -⟩ | ⟨-, t, ht, rfl, rfl⟩
  · rw [sessionOf, hnone] at hl₀
    cases hl₀
  · obtain rfl := Option.some.inj ((sessionOf_some ht).symm.trans hl₀)
    exact ⟨t, rejection, ht, (hacts.acquires hmore).1, hrejection, htoken⟩

theorem Books.turn (hbooks : Books max_retries h x.before)
    (hturn : (clientLoop max_retries answers).Turn x.before x.move x.after) :
    Books max_retries (h ++ [x]) x.after := by
  have hphases : ∀ (i : ℕ) (t : ClientThread π), x.before.threads[i]? = some t →
      Phase max_retries t.call t.sess t.prog := fun i t ht => (hbooks.ledger i t ht).phase
  refine ⟨?_, ?_, ?_⟩
  · intro i t ht
    by_cases hby : x.By i
    · obtain ⟨p, l, t', ht', hphase, hacts, hbefore⟩ := own_turn hturn hphases hby
      obtain rfl := Option.some.inj (ht'.symm.trans ht)
      rcases hbefore with ⟨hnone, rfl⟩ | ⟨hmove, t₀, ht₀, -, rfl⟩
      · have habsent := hbooks.absent i hnone
        refine ledger_own (fun _ => ⟨rfl, fun y hy token hrenews => habsent y hy hrenews.1⟩)
          (Or.inl ⟨?_, rfl⟩) hby ht hphase hacts
        rw [sessionOf, hnone]
        rfl
      · exact ledger_own (hbooks.ledger i t₀ ht₀).fresh (Or.inr ⟨hmove, sessionOf_some ht₀⟩) hby ht
          hphase hacts
    · rw [Loop.getElem?_of_not_by hturn hby] at ht
      exact (hbooks.ledger i t ht).other hby
  · intro i hnone
    have hnot : ¬ x.By i := by
      intro hby
      obtain ⟨p, l, t', ht', -⟩ := own_turn hturn hphases hby
      rw [hnone] at ht'
      cases ht'
    rw [Loop.getElem?_of_not_by hturn hnot] at hnone
    exact forall_not_concat (hbooks.absent i hnone) hnot
  · intro i token
    refine (hbooks.once i token).concat fun hrenews y hy => ?_
    obtain ⟨t, rejection, ht, hlock, hrejection, -⟩ := hbooks.renews_pending hturn hrenews
    exact ((hbooks.ledger i t ht).pending hlock rejection hrejection).2 y hy token

/-- Every run keeps the books. -/
theorem books_of_history {s : Service π} {P : ClientPool π}
    (hrun : (clientLoop max_retries answers).History ⟨s, []⟩ h P) : Books max_retries h P := by
  induction h using List.reverseRecOn generalizing P with
  | nil =>
    obtain rfl : P = ⟨s, []⟩ := hrun
    exact books_nil s
  | append_singleton h x ih =>
    obtain ⟨hfirst, hturn, rfl⟩ := Loop.history_concat.mp hrun
    exact (ih hfirst).turn hturn

/-- The run up to one of its turns, that turn, and the rest. -/
theorem split_history {P Q : ClientPool π} {h₀ rest : List (ClientMoment π)}
    (hrun : (clientLoop max_retries answers).History P (h₀ ++ x :: rest) Q) :
    (clientLoop max_retries answers).History P h₀ x.before ∧
      (clientLoop max_retries answers).Turn x.before x.move x.after ∧
      (clientLoop max_retries answers).History x.after rest Q := by
  obtain ⟨R, hfirst, rfl, hturn, hrest⟩ := Loop.history_append.mp hrun
  exact ⟨hfirst, hturn, hrest⟩

/-! ## What is in the cache -/

omit [UnicodeData] [FloatData] in
theorem append_cons_eq_concat {a b since : List (ClientMoment π)} {y z : ClientMoment π}
    (h : since ++ [z] = a ++ y :: b) :
    (b = [] ∧ a = since ∧ y = z) ∨ ∃ b', b = b' ++ [z] ∧ since = a ++ y :: b' := by
  rcases List.eq_nil_or_concat b with rfl | ⟨b', w, rfl⟩
  · obtain ⟨rfl, hz⟩ := List.append_inj' h rfl
    exact Or.inl ⟨rfl, rfl, (List.cons.inj hz).1.symm⟩
  · rw [List.concat_eq_append, ← List.cons_append, ← List.append_assoc] at h
    obtain ⟨rfl, hz⟩ := List.append_inj' h rfl
    exact Or.inr ⟨b', by rw [List.concat_eq_append, (List.cons.inj hz).1], rfl⟩

omit [UnicodeData] [FloatData] in
theorem overwritten_concat_of_changes {token : String} {since : List (ClientMoment π)}
    (hx : Changes x) : Overwritten token (since ++ [x]) ↔
      ∃ other stored, Stores other stored x ∧ stored ≠ token := by
  constructor
  · rintro ⟨a, z, b, other, stored, heq, hstores, hne, hb⟩
    rcases append_cons_eq_concat heq with ⟨-, -, rfl⟩ | ⟨b', rfl, -⟩
    · exact ⟨other, stored, hstores, hne⟩
    · exact absurd hx (hb x List.mem_concat_self)
  · rintro ⟨other, stored, hstores, hne⟩
    exact ⟨since, x, [], other, stored, rfl, hstores, hne,
      fun _ hw => absurd hw List.not_mem_nil⟩

omit [UnicodeData] [FloatData] in
theorem overwritten_concat_of_not {token : String} {since : List (ClientMoment π)}
    (hx : ¬ Changes x) : Overwritten token (since ++ [x]) ↔ Overwritten token since := by
  constructor
  · rintro ⟨a, z, b, other, stored, heq, hstores, hne, hb⟩
    rcases append_cons_eq_concat heq with ⟨-, -, rfl⟩ | ⟨b', rfl, rfl⟩
    · exact absurd hstores.2.1 hx
    · exact ⟨a, z, b', other, stored, rfl, hstores, hne,
        fun w hw => hb w (List.mem_append_left _ hw)⟩
  · rintro ⟨a, z, b, other, stored, rfl, hstores, hne, hb⟩
    exact ⟨a, z, b ++ [x], other, stored, by simp, hstores, hne, forall_not_concat hb hx⟩

/-- Nobody but the calls touches the service. -/
theorem exists_by (hturn : (clientLoop max_retries answers).Turn x.before x.move x.after) :
    ∃ i, x.By i := by
  obtain ⟨P, m, P'⟩ := x
  cases hturn with
  | spawn c hc hrun => exact ⟨_, Or.inr ⟨c, rfl, rfl⟩⟩
  | run ht hop hsem hrun => exact ⟨_, Or.inl rfl⟩
  | env he => exact False.elim he

/-- From a moment at which the token is in the cache: it is still the only one, unless the
last change put another one there. -/
theorem onlyToken_iff {token : String} {expires_at : PyFloat} {since : List (ClientMoment π)}
    {P Q : ClientPool π} (hrun : (clientLoop max_retries answers).History P since Q)
    (hcached : P.store.token = some ⟨token, expires_at⟩) :
    OnlyToken token Q.store ↔ ¬ Overwritten token since := by
  induction since using List.reverseRecOn generalizing Q with
  | nil =>
    obtain rfl : Q = P := hrun
    constructor
    · rintro - ⟨a, z, b, -, -, heq, -⟩
      exact List.append_ne_nil_of_right_ne_nil a (List.cons_ne_nil z b) heq.symm
    · intro _ stored hstored
      obtain rfl := Option.some.inj (hcached.symm.trans hstored)
      rfl
  | append_singleton since x ih =>
    obtain ⟨hfirst, hturn, rfl⟩ := Loop.history_concat.mp hrun
    by_cases hchanges : Changes x
    · rw [overwritten_concat_of_changes hchanges]
      constructor
      · rintro honly ⟨other, stored, ⟨-, -, e, hstored⟩, hne⟩
        exact hne (honly _ hstored)
      · intro hnot stored hstored
        by_contra hne
        obtain ⟨other, hby⟩ := exists_by hturn
        exact hnot ⟨other, stored.value, ⟨hby, hchanges, stored.expires_at, hstored⟩, hne⟩
    · rw [overwritten_concat_of_not hchanges, ← ih hfirst, OnlyToken, OnlyToken,
        not_not.mp hchanges]

/-! ## The 401 and the acquisition -/

/-- A 401 empties the cache, and it answers the last request of the call. -/
theorem Books.hears (hbooks : Books max_retries h x.before)
    (hturn : (clientLoop max_retries answers).Turn x.before x.move x.after) {token : String}
    (hhears : Hears i token x) :
    x.after.store.token = none ∧
      ∃ h₀ y since, h = h₀ ++ y :: since ∧ RejectedAt i token y since x ∧
        ∃ expires_at, y.after.store.token = some ⟨token, expires_at⟩ := by
  obtain ⟨hmove, l, l', hl, hl', hfalse, htrue, hsent⟩ := hhears
  obtain ⟨p, l₀, t', ht', hphase, hacts, hbefore⟩ :=
    own_turn hturn (fun i t ht => (hbooks.ledger i t ht).phase) (Or.inl hmove)
  rcases hbefore with ⟨hnone, -⟩ | ⟨-, t, ht, rfl, rfl⟩
  · rw [sessionOf, hnone] at hl
    cases hl
  · obtain rfl := Option.some.inj ((sessionOf_some ht).symm.trans hl)
    obtain rfl := Option.some.inj ((sessionOf_some ht').symm.trans hl')
    obtain ⟨hask, hnone, -⟩ := hacts.invalidates hfalse htrue
    obtain ⟨token', h₀, y, since, rfl, hsends, hsent', hcached, hwaits⟩ :=
      (hbooks.ledger i t ht).asked hask
    obtain rfl : token' = token := Option.some.inj (hsent'.symm.trans hsent)
    exact ⟨hnone, h₀, y, since, rfl,
      ⟨hsends, hwaits, hmove, t.sess, t'.sess, hl, hl', hfalse, htrue, hsent⟩, hcached⟩

/-- A rejected call acquires when it has got the lock, and only then. -/
theorem renews_iff {s : Service π} {P : ClientPool π}
    (hrun : (clientLoop max_retries answers).History ⟨s, []⟩ h P) {token : String} :
    (∃ z ∈ h, Renews i token z) ↔ Resumes i token h := by
  constructor
  · rintro ⟨z, hz, hrenews⟩
    obtain ⟨h₀, rest, rfl⟩ := List.append_of_mem hz
    obtain ⟨hfirst, hturn, -⟩ := split_history hrun
    have hbooks := books_of_history hfirst
    obtain ⟨t, rejection, ht, hlock, hrejection, rfl⟩ := hbooks.renews_pending hturn hrenews
    obtain ⟨⟨h₁, x, since, rfl, hhears, hqueues⟩, -⟩ :=
      (hbooks.ledger i t ht).pending hlock rejection hrejection
    exact ⟨h₁, x, since ++ z :: rest, by simp, hhears, hqueues, z, by simp, hrenews.1⟩
  · rintro ⟨h₀, x, rest, rfl, ⟨hmove, l, l', hl, hl', hfalse, htrue, hsent⟩, ⟨t, ht, hlock⟩, hlater⟩
    obtain ⟨hfirst, hturn, hrest⟩ := split_history hrun
    -- the rejection it has to answer for
    obtain ⟨p, l₀, t', ht', hphase, hacts, hbefore⟩ :=
      own_turn hturn (fun i t ht => ((books_of_history hfirst).ledger i t ht).phase) (Or.inl hmove)
    obtain rfl := Option.some.inj (ht.symm.trans ht')
    obtain rfl := Option.some.inj ((sessionOf_some ht).symm.trans hl')
    have hrejected : ∃ rejection, t.sess.rejected = some rejection ∧ rejection.token = token := by
      rcases hbefore with ⟨hnone, -⟩ | ⟨-, t₀, ht₀, rfl, rfl⟩
      · rw [sessionOf, hnone] at hl
        cases hl
      · obtain rfl := Option.some.inj ((sessionOf_some ht₀).symm.trans hl)
        exact (hacts.invalidates hfalse htrue).2.2 token hsent
    -- it is as it was when it gets the lock
    obtain ⟨a, z, b, rfl, hby, hnot⟩ := exists_first hlater
    obtain ⟨hwait, hturn', -⟩ := split_history hrest
    have hsame := hwait.getElem?_eq hnot
    have hupto : (clientLoop max_retries answers).History ⟨s, []⟩ (h₀ ++ x :: a) z.before :=
      Loop.history_append.mpr ⟨x.before, hfirst, rfl, hturn, hwait⟩
    have hbooks := books_of_history hupto
    obtain ⟨p', l₁, t₁, ht₁, -, hacts', hbefore'⟩ :=
      own_turn hturn' (fun i t ht => (hbooks.ledger i t ht).phase) hby
    rw [hsame, ht] at hbefore'
    obtain ⟨rejection, hrejection, htoken⟩ := hrejected
    rcases hbefore' with ⟨hnone, -⟩ | ⟨-, t₂, ht₂, rfl, rfl⟩
    · cases hnone
    · obtain rfl := Option.some.inj ht₂
      have hmore := hacts'.forced hlock (by rw [hrejection]; exact Option.some_ne_none _)
      exact ⟨z, by simp, hby, hmore, t.sess, rejection,
        sessionOf_some (hsame.trans ht), hrejection, htoken⟩

/-- **What an invalidation discards.** In every run, a call that hears its first 401 empties
the cache; it finds nothing else there than the token it sent if and only if the last change of
the cache since its request went out, if there was one, did not store another token. And the
calls rejected with one token cause a single acquisition if and only if no two of them go on to
get the lock. -/
theorem discards_rejected_iff {s : Service π} {P : ClientPool π}
    (hrun : (clientLoop max_retries answers).History ⟨s, []⟩ h P) :
    (∀ h₀ x rest i token, h = h₀ ++ x :: rest → Hears i token x →
      x.after.store.token = none ∧
        ∃ h₁ y since, h₀ = h₁ ++ y :: since ∧ RejectedAt i token y since x ∧
          (OnlyToken token x.before.store ↔ ¬ Overwritten token since)) ∧
    ∀ token, Once (fun x => ∃ i, Renews i token x) h ↔
      ∀ i j, Resumes i token h → Resumes j token h → i = j := by
  constructor
  · rintro h₀ x rest i token rfl hhears
    obtain ⟨hfirst, hturn, -⟩ := split_history hrun
    obtain ⟨hnone, h₁, y, since, rfl, hrejected, expires_at, hcached⟩ :=
      (books_of_history hfirst).hears hturn hhears
    refine ⟨hnone, h₁, y, since, rfl, hrejected, ?_⟩
    exact onlyToken_iff (split_history hfirst).2.2 hcached
  · intro token
    have hdistinct : ∀ (i j : ℕ) (x : ClientMoment π), Renews i token x → Renews j token x →
        i = j := fun i j x hi hj => hi.1.unique hj.1
    rw [Once.exists_iff ((books_of_history hrun).once · token) hdistinct]
    simp only [renews_iff hrun]

end Runs

/-! ## Two calls with one token -/

section Example

open Ascii

/-- The first token has nearly run out by the time of the first 401. -/
def jumpingStart : ClientPool Msal :=
  ⟨{ clock := Clock.leap (p := ((0 : ℕ) : ℚ)) (q := ((4000 : ℕ) : ℚ)) 4
      (isFloat_natCast (by norm_num)) (isFloat_natCast (by norm_num)), provider := {} }, []⟩

abbrev actShared (P : ClientPool Msal) (cue : Loop.Cue (Except Exc Response) ClientCall) :
    Option (ClientPool Msal) :=
  Loop.act (clientLoop 3 (Msal.Answers FiveMinutesLeft)) (answer (Msal.provide 3600))
    (fun _ _ => none) P cue

abbrev playShared (cues : List (Loop.Cue (Except Exc Response) ClientCall)) (P : ClientPool Msal) :
    Option (ClientPool Msal) :=
  Loop.play (clientLoop 3 (Msal.Answers FiveMinutesLeft)) (answer (Msal.provide 3600))
    (fun _ _ => none) cues P

/-- Two requests go out with one token; the first call hears its 401 and stores another one. -/
def rejectedFirst : List (Loop.Cue (Except Exc Response) ClientCall) :=
  [.spawn ⟨"$metadata", none, none⟩, .run 0 (.error .typeError), .run 0 (.error .typeError),
    .spawn ⟨"$metadata", none, none⟩, .run 0 (.ok { status_code := 401 }),
    .run 0 (.error .typeError), .run 0 (.error .typeError)]

/-- Then the second call hears its own. -/
theorem second_hears : ∃ (h : List (ClientMoment Msal)) (x : ClientMoment Msal),
    (clientLoop 3 (Msal.Answers FiveMinutesLeft)).History jumpingStart (h ++ [x]) x.after ∧
      Hears 1 "token 0" x ∧ ¬ OnlyToken "token 0" x.before.store := by
  have hrun : (playShared rejectedFirst jumpingStart).any (fun P =>
      (actShared P (.run 1 (.ok { status_code := 401 }))).any fun P' =>
        P.store.token.any (fun stored => stored.value ≠ "token 0") ∧
        (sessionOf P 1).any (fun l => l.refreshed = false ∧ l.sent = some "token 0") ∧
        (sessionOf P' 1).any fun l => l.refreshed = true) = true := by
    decide +kernel
  obtain ⟨P, hplay, hrun⟩ := (Option.any_eq_true _ _).mp hrun
  obtain ⟨P', hact, hrun⟩ := (Option.any_eq_true _ _).mp hrun
  obtain ⟨hstored, hbefore, hafter⟩ := of_decide_eq_true hrun
  obtain ⟨stored, hstored, hother⟩ := (Option.any_eq_true _ _).mp hstored
  obtain ⟨l, hl, hbefore⟩ := (Option.any_eq_true _ _).mp hbefore
  obtain ⟨l', hl', hafter⟩ := (Option.any_eq_true _ _).mp hafter
  obtain ⟨hfirst, hsent⟩ := of_decide_eq_true hbefore
  have hprovide := answer_awaited (C := ClientCall) (@Msal.provide_answers 3600)
  obtain ⟨h, hhistory⟩ := Loop.Reaches.history
    (Loop.play_reaches (L := clientLoop 3 (Msal.Answers FiveMinutesLeft)) hprovide
      (fun _ _ _ h => by cases h) hplay)
  have hturn := Loop.act_move (L := clientLoop 3 (Msal.Answers FiveMinutesLeft)) hprovide
    (fun _ _ _ h => by cases h) hact
  refine ⟨h, ⟨P, .run 1, P'⟩, Loop.history_concat.mpr ⟨hhistory, hturn, rfl⟩,
    ⟨rfl, l, l', hl, hl', hfirst, of_decide_eq_true hafter, hsent⟩, ?_⟩
  intro honly
  exact of_decide_eq_true hother (honly stored hstored)

/-- The second call throws the new token away. -/
theorem not_discards_rejected : ¬ ∀ (h : List (ClientMoment Msal)) (P : ClientPool Msal),
    (clientLoop 3 (Msal.Answers FiveMinutesLeft)).History jumpingStart h P →
      (∀ x ∈ h, ∀ i token, Hears i token x → OnlyToken token x.before.store) ∧
      ∀ token, Once (fun x => ∃ i, Renews i token x) h := by
  intro hall
  obtain ⟨h, x, hhistory, hhears, hother⟩ := second_hears
  exact hother ((hall _ _ hhistory).1 x List.mem_concat_self 1 "token 0" hhears)

theorem discards_rejected_two : ∃ (y : ClientMoment Msal) (since : List (ClientMoment Msal))
    (x : ClientMoment Msal), RejectedAt 1 "token 0" y since x ∧ Overwritten "token 0" since := by
  obtain ⟨h, x, hhistory, hhears, hother⟩ := second_hears
  obtain ⟨-, h₁, y, since, -, hrejected, honly⟩ :=
    (discards_rejected_iff hhistory).1 h x [] 1 "token 0" rfl hhears
  exact ⟨y, since, x, hrejected, by_contra fun hnot => hother (honly.mpr hnot)⟩

end Example

end EmployeePortal.D365.D365TokenService
