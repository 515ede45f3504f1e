import EmployeePortal.Frontend.SignIns
import Mathlib.Data.List.Perm.Basic

/-!
# Data beside an error

Each click on a view whose data is not there starts a request of its own. The start
clears the error, the end sets the data or the error, and neither end looks at what an
earlier one has set: a view shows data and an error at once exactly when two of its
requests end differently, one after the other. With one request at a time it never does.
-/

namespace EmployeePortal.Frontend

open EmployeePortal.Python EmployeePortal.Framework

/-! ## What happens to a view -/

inductive Mark where
  /-- A click starts a request. -/
  | started
  /-- A request ends with the data. -/
  | loaded
  /-- A request ends with an error. -/
  | failed
deriving DecidableEq

/-- One request ends with the data and the other with an error. -/
def Mark.Opposite : Mark → Mark → Prop
  | .loaded, .failed | .failed, .loaded => True
  | _, _ => False

instance (m m' : Mark) : Decidable (m.Opposite m') := by
  unfold Mark.Opposite
  split <;> infer_instance

def Mark.starts : Option Mark → ℕ
  | some .started => 1
  | _ => 0

def Mark.ends : Option Mark → ℕ
  | some .loaded | some .failed => 1
  | _ => 0

/-- The view a click wants to load. -/
def Event.requests : Event → Option Resource
  | .showProfile | .retryProfile => some .profile
  | .showLeave | .retryLeave => some .leave
  | _ => none

/-- The request that ends when the task settles, and how. -/
def Task.ended : Task → Outcome → Option (Resource × Mark)
  | .token r _, .rejected _ | .response r _, .rejected _ | .body r _ _, .rejected _ =>
      some (r, .failed)
  | .body .profile _ ok, .profile json =>
      some (.profile, if ok && json.employee.isSome then .loaded else .failed)
  | .body .leave _ ok, .leave json =>
      some (.leave, if ok && json.balances.isSome then .loaded else .failed)
  | _, _ => none

def Task.mark (t : Task) (o : Outcome) (r : Resource) : Option Mark :=
  ((t.ended o).filter fun x => x.1 = r).map Prod.snd

/-- The request the task belongs to. -/
def Task.resource : Task → Option Resource
  | .token r _ | .response r _ | .body r _ _ => some r
  | _ => none

namespace State

def holds (s : State) : Resource → Bool
  | .me => false
  | .profile => s.profile.data.isSome
  | .leave => s.leaveBalances.data.isSome

/-- What the event does for the view. -/
def mark (r : Resource) (s : State) : Event → Option Mark
  | .settle i o => (s.tasks[i]?).bind fun t => t.mark o r
  | e => if e.requests = some r ∧ s.holds r = false then some .started else none

end State

/-! ## One panel -/

namespace Panel

variable {α : Type}

/-- Data stands beside no error. -/
def Consistent (p : Panel α) : Prop := p.data.isSome = true → p.error = ""

/-- How a panel changes. -/
inductive Moves : Option Mark → Panel α → Panel α → Prop
  | quiet {p p'} (data : p'.data = p.data) (error : p'.error = p.error) : Moves none p p'
  | started {p p'} (before : p.data = none) (data : p'.data = none) (error : p'.error = "") :
      Moves (some .started) p p'
  | loaded {p p'} (data : p'.data.isSome = true) (error : p'.error = p.error) :
      Moves (some .loaded) p p'
  | failed {p p'} (data : p'.data = p.data) (error : p'.error ≠ "") : Moves (some .failed) p p'

/-- What the panel shows after this was the last to happen to it. -/
def Shows (m : Mark) (p : Panel α) : Prop :=
  match m with
  | .started => p.data = none ∧ p.error = ""
  | .loaded => p.data.isSome = true ∧ p.error = ""
  | .failed => p.data = none ∧ p.error ≠ ""

theorem Shows.consistent {m : Mark} {p : Panel α} (h : Shows m p) : p.Consistent := by
  intro hdata
  cases m with
  | started => exact h.2
  | loaded => exact h.2
  | failed =>
    rw [h.1] at hdata
    cases hdata

theorem Shows.quiet {m : Mark} {p p' : Panel α} (h : Shows m p) (hmoves : Moves none p p') :
    Shows m p' := by
  cases hmoves with
  | quiet hdata herror =>
    unfold Shows at h ⊢
    rwa [hdata, herror]

/-- The next end agrees with the last one, or data and error stand side by side. -/
theorem Shows.next {m m' : Mark} {p p' : Panel α} (h : Shows m p)
    (hmoves : Moves (some m') p p') :
    ¬ m.Opposite m' ∧ Shows m' p' ∨ ¬ ¬ m.Opposite m' ∧ ¬ p'.Consistent := by
  cases hmoves with
  | started hbefore hdata herror =>
    refine Or.inl ⟨?_, hdata, herror⟩
    cases m <;> exact not_false
  | loaded hdata herror =>
    cases m with
    | failed => exact Or.inr ⟨not_not.mpr trivial, fun hp => h.2 (herror ▸ hp hdata)⟩
    | started => exact Or.inl ⟨not_false, hdata, herror.trans h.2⟩
    | loaded => exact Or.inl ⟨not_false, hdata, herror.trans h.2⟩
  | failed hdata herror =>
    cases m with
    | loaded => exact Or.inr ⟨not_not.mpr trivial, fun hp => herror (hp (hdata ▸ h.1))⟩
    | started => exact Or.inl ⟨not_false, hdata.trans h.1, herror⟩
    | failed => exact Or.inl ⟨not_false, hdata.trans h.1, herror⟩

/-- A click on a view without data, while somebody is signed in. -/
theorem moves_start {p : Panel α} {a : Account} {message : String} :
    Moves (if p.data.isSome = false then some .started else none) p
      (p.start (some a) message) := by
  unfold start
  cases hdata : p.data with
  | none => exact .started hdata rfl rfl
  | some x => exact .quiet rfl rfl

/-- `try again`, where the error stands alone. -/
theorem moves_retry {p : Panel α} {a : Account} {message : String} (hp : p.Consistent)
    (herror : p.error ≠ "") :
    Moves (if p.data.isSome = false then some .started else none) p
      (({ p with error := "" } : Panel α).start (some a) message) := by
  unfold start
  cases hdata : p.data with
  | none => exact .started hdata rfl rfl
  | some x => exact absurd (hp (by rw [hdata]; rfl)) herror

end Panel

/-! ## Both panels, event by event -/

namespace State

variable {s s' : State}

/-- The shell is only there while an account is. -/
theorem exists_current (h : s.msal.authenticated = true) : ∃ a, s.msal.current = some a := by
  unfold Msal.authenticated at h
  unfold Msal.current
  cases hactive : s.msal.active with
  | some a => exact ⟨a, rfl⟩
  | none =>
    cases haccounts : s.msal.accounts with
    | nil =>
      rw [haccounts] at h
      cases h
    | cons a accounts => exact ⟨a, rfl⟩

theorem profileUnavailable_ne (s : State) : s.profileUnavailable ≠ "" := by
  unfold profileUnavailable
  cases s.language <;> decide

theorem leaveUnavailable_ne (s : State) : s.leaveUnavailable ≠ "" := by
  unfold leaveUnavailable
  cases s.language <;> decide

theorem orElse_ne {x : Option String} {y : String} (h : y ≠ "") : orElse x y ≠ "" := by
  unfold orElse
  cases hx : truthy x with
  | none => exact h
  | some z => exact (truthy_eq_some.mp hx).2

/-- What an event does to the two panels. -/
structure Changes (s s' : State) (marks : Resource → Option Mark) : Prop where
  profile : Panel.Moves (marks .profile) s.profile s'.profile
  leaveBalances : Panel.Moves (marks .leave) s.leaveBalances s'.leaveBalances

theorem Changes.same {marks : Resource → Option Mark} (hmarks : ∀ r, r ≠ .me → marks r = none)
    (hprofile : s'.profile = s.profile) (hleave : s'.leaveBalances = s.leaveBalances) :
    Changes s s' marks where
  profile := by
    rw [hmarks .profile (by decide)]
    exact .quiet (by rw [hprofile]) (by rw [hprofile])
  leaveBalances := by
    rw [hmarks .leave (by decide)]
    exact .quiet (by rw [hleave]) (by rw [hleave])

theorem profile_showProfile (s : State) :
    s.showProfile.profile = s.profile.start s.msal.current s.profileUnavailable := by
  unfold showProfile
  dsimp only
  split <;> rfl

theorem leaveBalances_showProfile (s : State) :
    s.showProfile.leaveBalances = s.leaveBalances := by
  unfold showProfile
  dsimp only
  split <;> rfl

theorem leaveBalances_showLeave (s : State) :
    s.showLeave.leaveBalances = s.leaveBalances.start s.msal.current s.leaveUnavailable := by
  unfold showLeave
  dsimp only
  split <;> rfl

theorem profile_showLeave (s : State) : s.showLeave.profile = s.profile := by
  unfold showLeave
  dsimp only
  split <;> rfl

theorem mark_of_requests {e : Event} {r : Resource} (h : e.requests = some r) :
    s.mark r e = if s.holds r = false then some .started else none := by
  cases e with
  | settle i o => cases h
  | _ => simp [mark, h]

theorem mark_of_not_requests {e : Event} {r : Resource} (h : e.requests ≠ some r)
    (hsettle : ∀ i o, e ≠ .settle i o) : s.mark r e = none := by
  cases e with
  | settle i o => exact absurd rfl (hsettle i o)
  | _ => simp [mark, h]

theorem mark_of_requests_ne {e : Event} {r r' : Resource} (h : e.requests = some r)
    (hr : r ≠ r') : s.mark r' e = none := by
  refine mark_of_not_requests ?_ ?_
  · rw [h]
    exact fun hsome => hr (Option.some.inj hsome)
  · rintro i o rfl
    cases h

/-- A click on the profile starts from a panel `p` and leaves the leave balances alone. -/
theorem requestProfile_moves {e : Event} (he : e.requests = some .profile)
    (p : Panel EmployeeProfile) :
    (Panel.Moves (if s.profile.data.isSome = false then some .started else none)
        s.profile (p.start s.msal.current s.profileUnavailable) →
      Panel.Moves (s.mark .profile e) s.profile { s with profile := p }.showProfile.profile) ∧
    Panel.Moves (s.mark .leave e) s.leaveBalances
      { s with profile := p }.showProfile.leaveBalances := by
  constructor
  · intro hmoves
    rw [mark_of_requests he, profile_showProfile]
    exact hmoves
  · rw [mark_of_requests_ne he (by decide), leaveBalances_showProfile]
    exact .quiet rfl rfl

/-- A click on the leave balances, the other way round. -/
theorem requestLeave_moves {e : Event} (he : e.requests = some .leave)
    (p : Panel (List LeaveBalance)) :
    (Panel.Moves (if s.leaveBalances.data.isSome = false then some .started else none)
        s.leaveBalances (p.start s.msal.current s.leaveUnavailable) →
      Panel.Moves (s.mark .leave e) s.leaveBalances
        { s with leaveBalances := p }.showLeave.leaveBalances) ∧
    Panel.Moves (s.mark .profile e) s.profile
      { s with leaveBalances := p }.showLeave.profile := by
  constructor
  · intro hmoves
    rw [mark_of_requests he, leaveBalances_showLeave]
    exact hmoves
  · rw [mark_of_requests_ne he (by decide), profile_showLeave]
    exact .quiet rfl rfl

/-! ### The end of a request -/

theorem mark_of_ended {t : Task} {o : Outcome} {r : Resource} {m : Mark}
    (h : t.ended o = some (r, m)) (r' : Resource) :
    t.mark o r' = if r = r' then some m else none := by
  rw [Task.mark, h]
  by_cases hr : r = r'
  · simp [hr]
  · simp [hr]

theorem thrown_changes {t : Task} {interaction : Bool} {r : Resource}
    (h : t.ended (.rejected interaction) = some (r, .failed)) :
    Changes s (r.thrown interaction s) (t.mark (.rejected interaction)) := by
  rw [funext (mark_of_ended h)]
  cases r with
  | me =>
    unfold Resource.thrown
    dsimp only
    split <;> exact .same (fun r hr => if_neg hr.symm) rfl rfl
  | profile => exact ⟨.failed rfl (profileUnavailable_ne s), .quiet rfl rfl⟩
  | leave => exact ⟨.quiet rfl rfl, .failed rfl (leaveUnavailable_ne s)⟩

theorem receiveProfile_changes (account : Account) (ok : Bool) (json : ProfileBody) :
    Changes s (s.receiveProfile account ok json)
      ((Task.body .profile account ok).mark (.profile json)) := by
  unfold receiveProfile
  cases ok with
  | false => exact ⟨.failed rfl (orElse_ne (profileUnavailable_ne s)), .quiet rfl rfl⟩
  | true =>
    obtain ⟨employee, message⟩ := json
    cases employee with
    | none => exact ⟨.failed rfl (orElse_ne (profileUnavailable_ne s)), .quiet rfl rfl⟩
    | some x => exact ⟨.loaded rfl rfl, .quiet rfl rfl⟩

theorem receiveLeave_changes (account : Account) (ok : Bool) (json : LeaveBody) :
    Changes s (s.receiveLeave account ok json)
      ((Task.body .leave account ok).mark (.leave json)) := by
  unfold receiveLeave
  cases ok with
  | false => exact ⟨.quiet rfl rfl, .failed rfl (orElse_ne (leaveUnavailable_ne s))⟩
  | true =>
    obtain ⟨balances, message⟩ := json
    cases balances with
    | none => exact ⟨.quiet rfl rfl, .failed rfl (orElse_ne (leaveUnavailable_ne s))⟩
    | some x => exact ⟨.quiet rfl rfl, .loaded rfl rfl⟩

theorem settle_changes {t : Task} {o : Outcome} (hs : t.settle o s = some s') :
    Changes s s' (t.mark o) := by
  unfold Task.settle at hs
  split at hs
  · obtain rfl := Option.some.inj hs
    cases t with
    | token r account => exact thrown_changes rfl
    | response r account => exact thrown_changes rfl
    | body r account ok => exact thrown_changes rfl
    | _ => exact .same (fun _ _ => rfl) rfl rfl
  · unfold Task.fulfil at hs
    split at hs <;> cases hs
    · exact .same (fun _ _ => rfl) rfl rfl
    · exact .same (fun _ _ => rfl) rfl rfl
    · exact .same (fun _ _ => rfl) rfl rfl
    · split <;> exact .same (fun _ _ => rfl) rfl rfl
    · exact .same (fun _ _ => rfl) rfl rfl
    · exact .same (fun _ _ => rfl) rfl rfl
    · exact receiveProfile_changes _ _ _
    · exact receiveLeave_changes _ _ _
    · exact .same (fun _ _ => rfl) rfl rfl

/-! ### Every event -/

/-- Data stands beside no error, in neither view. -/
def Consistent (s : State) : Prop := s.profile.Consistent ∧ s.leaveBalances.Consistent

theorem step_changes {e : Event} (hs : Frontend.step s e = some s') :
    (s.profile.Consistent → Panel.Moves (s.mark .profile e) s.profile s'.profile) ∧
      (s.leaveBalances.Consistent →
        Panel.Moves (s.mark .leave e) s.leaveBalances s'.leaveBalances) := by
  obtain ⟨hoffers, hs⟩ := Option.ite_none_right_eq_some.mp hs
  cases e with
  | settle i o =>
    obtain ⟨t, ht, hs⟩ := Option.bind_eq_some_iff.mp hs
    have hchanges := settle_changes hs
    have hmark : ∀ r, s.mark r (.settle i o) = t.mark o r := fun r => by rw [mark, ht]; rfl
    rw [hmark, hmark]
    exact ⟨fun _ => hchanges.profile, fun _ => hchanges.leaveBalances⟩
  | showProfile =>
    obtain rfl := Option.some.inj hs
    obtain ⟨a, ha⟩ := exists_current hoffers
    have hclick := requestProfile_moves (s := s) (e := .showProfile) rfl s.profile
    exact ⟨fun _ => hclick.1 (ha ▸ Panel.moves_start), fun _ => hclick.2⟩
  | retryProfile =>
    obtain rfl := Option.some.inj hs
    simp only [offers, Bool.and_eq_true, decide_eq_true_eq] at hoffers
    obtain ⟨a, ha⟩ := exists_current hoffers.1.1
    have hclick := requestProfile_moves (s := s) (e := .retryProfile) rfl
      { s.profile with error := "" }
    exact ⟨fun hp => hclick.1 (ha ▸ Panel.moves_retry hp hoffers.2), fun _ => hclick.2⟩
  | showLeave =>
    obtain rfl := Option.some.inj hs
    obtain ⟨a, ha⟩ := exists_current hoffers
    have hclick := requestLeave_moves (s := s) (e := .showLeave) rfl s.leaveBalances
    exact ⟨fun _ => hclick.2, fun _ => hclick.1 (ha ▸ Panel.moves_start)⟩
  | retryLeave =>
    obtain rfl := Option.some.inj hs
    simp only [offers, Bool.and_eq_true, decide_eq_true_eq] at hoffers
    obtain ⟨a, ha⟩ := exists_current hoffers.1.1
    have hclick := requestLeave_moves (s := s) (e := .retryLeave) rfl
      { s.leaveBalances with error := "" }
    exact ⟨fun _ => hclick.2, fun hp => hclick.1 (ha ▸ Panel.moves_retry hp hoffers.2)⟩
  | effect =>
    obtain rfl := Option.some.inj hs
    have hquiet : Changes s s.runEffect fun _ => none := by
      unfold runEffect
      split
      · split <;> exact .same (fun _ _ => rfl) rfl rfl
      · exact .same (fun _ _ => rfl) rfl rfl
    exact ⟨fun _ => hquiet.profile, fun _ => hquiet.leaveBalances⟩
  | signIn | signOut | toggleLanguage | showDashboard =>
    obtain rfl := Option.some.inj hs
    exact ⟨fun _ => .quiet rfl rfl, fun _ => .quiet rfl rfl⟩

/-! ## Whole runs -/

/-- Two requests for the view that end one after the other, with no new one started in
between, both end with the data or both with an error. -/
def Agreeing (r : Resource) (s : State) (es : List Event) : Prop :=
  (Machine.labels Frontend.step (mark r) s es).IsChain fun m m' => ¬ m.Opposite m'

instance (r : Resource) (s : State) (es : List Event) : Decidable (s.Agreeing r es) :=
  inferInstanceAs (Decidable (List.IsChain _ _))

theorem isChain_started {ms : List Mark} :
    (Mark.started :: ms).IsChain (fun m m' => ¬ m.Opposite m') ↔
      ms.IsChain fun m m' => ¬ m.Opposite m' := by
  cases ms with
  | nil => exact iff_of_true (List.isChain_singleton _) List.isChain_nil
  | cons m ms =>
    rw [List.isChain_cons_cons]
    exact and_iff_right not_false

/-- From a panel that shows nothing, whatever else the state has. -/
theorem panel_always_iff {α : Type} {panel : State → Panel α} {r : Resource} {es : List Event}
    (hpanel : ∀ {s e s'}, Frontend.step s e = some s' → (panel s).Consistent →
      Panel.Moves (s.mark r e) (panel s) (panel s')) (hs : (panel s).Shows .started) :
    Machine.Always Frontend.step (fun s => (panel s).Consistent) s es ↔ s.Agreeing r es := by
  refine (Machine.always_iff_isChain (fun m s => (panel s).Shows m) (fun h => h.consistent)
    (fun h hlabel hstep => ?_) (fun h hlabel hstep => ?_) hs).trans isChain_started
  · have hmoves := hpanel hstep h.consistent
    rw [hlabel] at hmoves
    exact h.quiet hmoves
  · have hmoves := hpanel hstep h.consistent
    rw [hlabel] at hmoves
    exact h.next hmoves

theorem profile_always_iff {es : List Event} (hs : s.profile.Shows .started) :
    Machine.Always Frontend.step (fun s => s.profile.Consistent) s es ↔
      s.Agreeing .profile es :=
  panel_always_iff (fun hstep => (step_changes hstep).1) hs

theorem leaveBalances_always_iff {es : List Event} (hs : s.leaveBalances.Shows .started) :
    Machine.Always Frontend.step (fun s => s.leaveBalances.Consistent) s es ↔
      s.Agreeing .leave es :=
  panel_always_iff (fun hstep => (step_changes hstep).2) hs

/-- **When data stands beside an error.** On every run, with any number of requests under
way: no state shows data and an error of one view together exactly when, for either view,
requests that end one after the other end the same way. -/
theorem always_consistent_iff (msal : Msal) (es : List Event) :
    Machine.Always Frontend.step Consistent (mount msal) es ↔
      (mount msal).Agreeing .profile es ∧ (mount msal).Agreeing .leave es := by
  refine Machine.always_and.trans ?_
  rw [profile_always_iff ⟨rfl, rfl⟩, leaveBalances_always_iff ⟨rfl, rfl⟩]

end State

/-! ## Two clicks -/

section Example

/-- The click starts a sign-in or a sign-out. -/
def Event.signs : Event → Bool
  | .signIn | .signOut => true
  | _ => false

instance {α : Type} (p : Panel α) : Decidable p.Consistent :=
  inferInstanceAs (Decidable (_ → _))

instance (s : State) : Decidable s.Consistent := inferInstanceAs (Decidable (_ ∧ _))

/-- The portal greets an account that is still signed in. -/
def greet (a : Account) : List Event :=
  [.effect, .settle 0 .done, .settle 0 (.response true), .settle 0 (.me { name := a.name })]

/-- Two clicks on the profile before the first answer, and both answers. -/
def clickTwice (first second : ProfileBody) : List Event :=
  [.showProfile, .showProfile, .settle 0 .done, .settle 0 .done, .settle 0 (.response true),
    .settle 0 (.response second.employee.isSome), .settle 0 (.profile first),
    .settle 0 (.profile second)]

def exampleBody : ProfileBody := { employee := some { personnelNumber := "000123" } }

/-- The first answer is the profile and the second an error: the screen shows both. -/
theorem not_always_consistent :
    ¬ ∀ (msal : Msal) (es : List Event) (s : State), (∀ e ∈ es, e.signs = false) →
      Machine.run step (mount msal) es = some s → s.Consistent := by
  intro hall
  let msal : Msal := ⟨[exampleA], some exampleA⟩
  let es := greet exampleA ++ clickTwice exampleBody { message := some "Try again later" }
  have hrun : (Machine.run step (mount msal) es).any (fun s => ¬ s.Consistent) = true := by
    decide +kernel
  obtain ⟨s, hs, hcheck⟩ := (Option.any_eq_true _ _).mp hrun
  exact of_decide_eq_true hcheck (hall msal es s (by decide) hs)

/-- Both answers are the profile. -/
example : (mount ⟨[exampleA], some exampleA⟩).Agreeing .profile
    (greet exampleA ++ clickTwice exampleBody exampleBody) := by
  decide +kernel

end Example

/-! ## One request at a time -/

namespace State

variable {s s' : State}

section Exclusive

variable {r : Resource}

/-- How many requests for the view are under way. -/
def pending (r : Resource) (s : State) : ℕ := s.tasks.countP fun t => t.resource = some r

theorem pending_await (t : Task) :
    (s.await t).pending r = s.pending r + if t.resource = some r then 1 else 0 := by
  simp [pending, State.await, List.countP_append, List.countP_cons]

theorem pending_eraseIdx {i : ℕ} {t : Task} (ht : s.tasks[i]? = some t) :
    s.pending r = pending r { s with tasks := s.tasks.eraseIdx i } +
      if t.resource = some r then 1 else 0 := by
  obtain ⟨hi, rfl⟩ := List.getElem?_eq_some_iff.mp ht
  unfold pending
  rw [← (List.getElem_cons_eraseIdx_perm hi).countP_eq _, List.countP_cons]
  simp

theorem pending_showProfile (h : s.msal.authenticated = true) : s.showProfile.pending r =
    s.pending r + if Resource.profile = r ∧ s.holds .profile = false then 1 else 0 := by
  obtain ⟨a, ha⟩ := exists_current h
  unfold showProfile Panel.asks
  rw [ha]
  cases hdata : s.profile.data with
  | none => simp [pending, State.await, holds, hdata, Task.resource]
  | some x => simp [pending, holds, hdata]

theorem pending_showLeave (h : s.msal.authenticated = true) : s.showLeave.pending r =
    s.pending r + if Resource.leave = r ∧ s.holds .leave = false then 1 else 0 := by
  obtain ⟨a, ha⟩ := exists_current h
  unfold showLeave Panel.asks
  rw [ha]
  cases hdata : s.leaveBalances.data with
  | none => simp [pending, State.await, holds, hdata, Task.resource]
  | some x => simp [pending, holds, hdata]

/-- A click adds a request exactly when it is marked as the start of one. -/
theorem starts_mark {e : Event} {r' : Resource} (he : e.requests = some r') :
    Mark.starts (s.mark r e) = (if r' = r ∧ s.holds r' = false then 1 else 0) ∧
      Mark.ends (s.mark r e) = 0 := by
  by_cases hr : r' = r
  · subst hr
    rw [mark_of_requests he]
    cases s.holds r' <;> simp [Mark.starts, Mark.ends]
  · rw [mark_of_requests_ne he hr]
    simp [hr, Mark.starts, Mark.ends]

/-- An end is marked with one of the two ways to end. -/
theorem ends_mark {t : Task} {o : Outcome} {r' : Resource} {m : Mark}
    (h : t.ended o = some (r', m)) (hm : m ≠ .started) :
    Mark.ends (t.mark o r) = if r' = r then 1 else 0 := by
  rw [mark_of_ended h]
  by_cases hr : r' = r
  · rw [if_pos hr, if_pos hr]
    cases m with
    | started => exact absurd rfl hm
    | loaded => rfl
    | failed => rfl
  · rw [if_neg hr, if_neg hr]
    rfl

theorem pending_thrown (interaction : Bool) (r' : Resource) :
    (r'.thrown interaction s).pending r = s.pending r := by
  cases r' with
  | me =>
    unfold Resource.thrown
    dsimp only
    split
    · rw [pending_await]
      rfl
    · rfl
  | profile => rfl
  | leave => rfl

theorem pending_receiveProfile (account : Account) (ok : Bool) (json : ProfileBody) :
    (s.receiveProfile account ok json).pending r = s.pending r := by
  unfold receiveProfile
  split <;> rfl

theorem pending_receiveLeave (account : Account) (ok : Bool) (json : LeaveBody) :
    (s.receiveLeave account ok json).pending r = s.pending r := by
  unfold receiveLeave
  split <;> rfl

theorem loaded_or_failed_ne (c : Prop) [Decidable c] :
    (if c then Mark.loaded else .failed) ≠ .started := by
  split <;> decide

/-- A request that goes on is still there, and one that ends is marked. -/
theorem pending_settle {t : Task} {o : Outcome} (hr : r ≠ .me) (hs : t.settle o s = some s') :
    s'.pending r + Mark.ends (t.mark o r) =
      s.pending r + if t.resource = some r then 1 else 0 := by
  unfold Task.settle at hs
  split at hs
  · obtain rfl := Option.some.inj hs
    have hthrown : ∀ (t : Task) (interaction : Bool) (r' : Resource),
        t.ended (.rejected interaction) = some (r', .failed) → t.resource = some r' →
        (r'.thrown interaction s).pending r + Mark.ends (t.mark (.rejected interaction) r) =
          s.pending r + if t.resource = some r then 1 else 0 := by
      intro t interaction r' hended hresource
      rw [pending_thrown, ends_mark hended (by decide), hresource]
      simp
    cases t with
    | token r' account => exact hthrown _ _ r' rfl rfl
    | response r' account => exact hthrown _ _ r' rfl rfl
    | body r' account ok => exact hthrown _ _ r' rfl rfl
    | _ => rfl
  · unfold Task.fulfil at hs
    split at hs <;> cases hs
    · rfl
    · rfl
    · rw [pending_await]
      rfl
    · split
      · rw [pending_await]
        rfl
      · rw [Task.resource, if_neg (fun h => hr (Option.some.inj h).symm)]
        rfl
    · rw [pending_await]
      rfl
    · rw [Task.resource, if_neg (fun h => hr (Option.some.inj h).symm)]
      rfl
    · rw [pending_receiveProfile, ends_mark rfl (loaded_or_failed_ne _)]
      simp [Task.resource]
    · rw [pending_receiveLeave, ends_mark rfl (loaded_or_failed_ne _)]
      simp [Task.resource]
    · rfl

theorem ended_ne_started {t : Task} {o : Outcome} {r' : Resource} {m : Mark}
    (h : t.ended o = some (r', m)) : m ≠ .started := by
  unfold Task.ended at h
  split at h
  · cases h
    decide
  · cases h
    decide
  · cases h
    decide
  · cases h
    exact loaded_or_failed_ne _
  · cases h
    exact loaded_or_failed_ne _
  · cases h

theorem starts_mark_settle (t : Task) (o : Outcome) : Mark.starts (t.mark o r) = 0 := by
  cases h : t.ended o with
  | none =>
    rw [Task.mark, h]
    rfl
  | some x =>
    obtain ⟨r', m⟩ := x
    rw [mark_of_ended h]
    split
    · cases m with
      | started => exact absurd rfl (ended_ne_started h)
      | loaded => rfl
      | failed => rfl
    · rfl

/-- The requests under way, before and after an event. -/
theorem pending_step {e : Event} (hr : r ≠ .me) (hs : Frontend.step s e = some s') :
    s'.pending r + Mark.ends (s.mark r e) = s.pending r + Mark.starts (s.mark r e) := by
  obtain ⟨hoffers, hs⟩ := Option.ite_none_right_eq_some.mp hs
  have hclicked : ∀ {r' n}, e.requests = some r' →
      n = s.pending r + (if r' = r ∧ s.holds r' = false then 1 else 0) →
      n + Mark.ends (s.mark r e) = s.pending r + Mark.starts (s.mark r e) := by
    intro r' n he hn
    obtain ⟨hstarts, hends⟩ := starts_mark (s := s) (r := r) he
    rw [hstarts, hends, hn, Nat.add_zero]
  have hquiet : e.requests = none → (∀ i o, e ≠ .settle i o) → s'.pending r = s.pending r →
      s'.pending r + Mark.ends (s.mark r e) = s.pending r + Mark.starts (s.mark r e) := by
    intro he hsettle hsame
    rw [mark_of_not_requests (by simp [he]) hsettle, hsame]
    rfl
  cases e with
  | settle i o =>
    obtain ⟨t, ht, hs⟩ := Option.bind_eq_some_iff.mp hs
    have hmark : s.mark r (.settle i o) = t.mark o r := by rw [mark, ht]; rfl
    rw [hmark, starts_mark_settle, pending_settle hr hs, pending_eraseIdx ht, Nat.add_zero]
  | showProfile =>
    obtain rfl := Option.some.inj hs
    exact hclicked rfl (pending_showProfile hoffers)
  | showLeave =>
    obtain rfl := Option.some.inj hs
    exact hclicked rfl (pending_showLeave hoffers)
  | retryProfile =>
    obtain rfl := Option.some.inj hs
    simp only [offers, Bool.and_eq_true] at hoffers
    exact hclicked rfl (pending_showProfile hoffers.1.1)
  | retryLeave =>
    obtain rfl := Option.some.inj hs
    simp only [offers, Bool.and_eq_true] at hoffers
    exact hclicked rfl (pending_showLeave hoffers.1.1)
  | effect =>
    obtain rfl := Option.some.inj hs
    refine hquiet rfl (fun i o h => by cases h) ?_
    unfold runEffect
    split
    · split
      · rfl
      · rw [pending_await, Task.resource, if_neg (fun h => hr (Option.some.inj h).symm)]
        rfl
    · rfl
  | signIn | signOut =>
    obtain rfl := Option.some.inj hs
    exact hquiet rfl (fun i o h => by cases h) (pending_await _)
  | toggleLanguage | showDashboard =>
    obtain rfl := Option.some.inj hs
    exact hquiet rfl (fun i o h => by cases h) rfl

/-- No request for the view is started while another one is under way. -/
def OneAtATime (r : Resource) (s : State) (e : Event) : Prop :=
  s.mark r e = some .started → s.pending r = 0

/-- What the last mark says of the requests under way: one after a start, none after an end. -/
def Counts (r : Resource) (m : Mark) (s : State) : Prop :=
  s.pending r ≤ Mark.starts (some m)

theorem agreeing_of_oneAtATime {es : List Event} (hr : r ≠ .me) {m : Mark}
    (hcounts : s.Counts r m)
    (hone : Machine.Throughout Frontend.step (OneAtATime r) s es) :
    (m :: Machine.labels Frontend.step (mark r) s es).IsChain fun m m' => ¬ m.Opposite m' := by
  induction es generalizing s m with
  | nil => exact List.isChain_singleton m
  | cons e es ih =>
    obtain ⟨hfirst, hlater⟩ := hone
    rw [Machine.labels]
    cases hstep : Frontend.step s e with
    | none => exact List.isChain_singleton m
    | some s' =>
      have hcount := pending_step hr hstep
      cases hmark : s.mark r e with
      | none =>
        rw [hmark] at hcount
        refine ih (m := m) ?_ (hlater s' hstep)
        exact hcount.le.trans hcounts
      | some m' =>
        rw [hmark] at hcount
        show (m :: m' :: Machine.labels Frontend.step (mark r) s' es).IsChain _
        rw [List.isChain_cons_cons]
        refine ⟨fun hopposite => ?_, ih ?_ (hlater s' hstep)⟩
        · -- after an end no request is left that could end
          unfold Counts at hcounts
          cases m with
          | started => exact hopposite
          | loaded | failed =>
            cases m' with
            | started => exact hopposite
            | loaded | failed =>
              simp only [Mark.starts, Mark.ends] at hcounts hcount
              omega
        · have hle : s.pending r ≤ 1 := hcounts.trans (by cases m <;> decide)
          unfold Counts
          cases m' with
          | started =>
            rw [hfirst hmark] at hcount
            exact hcount.le
          | loaded | failed =>
            simp only [Mark.starts, Mark.ends] at hcount ⊢
            omega

/-- **One request at a time.** A component that starts no request for a view while another
one is under way never shows data and an error of that view together. -/
theorem always_consistent_of_oneAtATime (msal : Msal) {es : List Event}
    (hprofile : Machine.Throughout Frontend.step (OneAtATime .profile) (mount msal) es)
    (hleave : Machine.Throughout Frontend.step (OneAtATime .leave) (mount msal) es) :
    Machine.Always Frontend.step Consistent (mount msal) es := by
  refine Machine.always_and.mpr ⟨?_, ?_⟩
  · refine (profile_always_iff ⟨rfl, rfl⟩).mpr (isChain_started.mp ?_)
    exact agreeing_of_oneAtATime (by decide) (Nat.zero_le _) hprofile
  · refine (leaveBalances_always_iff ⟨rfl, rfl⟩).mpr (isChain_started.mp ?_)
    exact agreeing_of_oneAtATime (by decide) (Nat.zero_le _) hleave

end Exclusive

end State

end EmployeePortal.Frontend
