import EmployeePortal.Frontend.PanelErrors

/-!
# Views that are open

Whatever the requests come to and in whatever order, a view that is open shows its data,
an error or that it is loading; and it says it is loading only while a request for it is
under way.
-/

namespace EmployeePortal.Frontend

open EmployeePortal.Python EmployeePortal.Framework

namespace State

variable {s s' : State} {r : Resource}

def loading (s : State) : Resource → Bool
  | .me => false
  | .profile => s.profile.loading
  | .leave => s.leaveBalances.loading

def error (s : State) : Resource → String
  | .me => ""
  | .profile => s.profile.error
  | .leave => s.leaveBalances.error

/-- The view of the data is open. -/
def Opened (s : State) : Resource → Prop
  | .me => False
  | .profile => s.view = .profile
  | .leave => s.view = .leave

/-- An open view shows something, and what is loading will end. -/
structure Alive (s : State) (r : Resource) : Prop where
  shown : s.Opened r → s.holds r = true ∨ s.loading r = true ∨ s.error r ≠ ""
  awaited : s.loading r = true → 0 < s.pending r

/-! ## What an event does for a view -/

/-- How a view looks after an event, by what the event does for it. -/
inductive Turns (r : Resource) (s s' : State) : Option Mark → Prop
  | quiet (opened : s'.Opened r → s.Opened r) (holds : s'.holds r = s.holds r)
      (loading : s'.loading r = s.loading r) (error : s'.error r = s.error r) : Turns r s s' none
  /-- A click on a view whose data is there. -/
  | held (holds : s'.holds r = true) (loading : s'.loading r = s.loading r) : Turns r s s' none
  | started (loading : s'.loading r = true) : Turns r s s' (some .started)
  | loaded (holds : s'.holds r = true) (loading : s'.loading r = false) :
      Turns r s s' (some .loaded)
  | failed (error : s'.error r ≠ "") (loading : s'.loading r = false) :
      Turns r s s' (some .failed)

theorem Alive.turns {m : Option Mark} (h : s.Alive r) (hturns : Turns r s s' m)
    (hcount : s'.pending r + Mark.ends m = s.pending r + Mark.starts m) : s'.Alive r := by
  have hended : ∀ {P : Prop}, s'.loading r = false → s'.loading r = true → P := by
    intro P hfalse htrue
    rw [hfalse] at htrue
    cases htrue
  have hawaited : s'.loading r = s.loading r → m = none → s'.loading r = true →
      0 < s'.pending r := by
    rintro hloading rfl hload
    have hsame : s'.pending r = s.pending r := hcount
    rw [hsame]
    exact h.awaited (hloading ▸ hload)
  cases hturns with
  | quiet hopened hholds hloading herror =>
    refine ⟨fun hopen => ?_, hawaited hloading rfl⟩
    rw [hholds, hloading, herror]
    exact h.shown (hopened hopen)
  | held hholds hloading => exact ⟨fun _ => Or.inl hholds, hawaited hloading rfl⟩
  | started hloading =>
    refine ⟨fun _ => Or.inr (Or.inl hloading), fun _ => ?_⟩
    have hone : s'.pending r = s.pending r + 1 := hcount
    exact hone ▸ Nat.succ_pos _
  | loaded hholds hloading => exact ⟨fun _ => Or.inl hholds, hended hloading⟩
  | failed herror hloading => exact ⟨fun _ => Or.inr (Or.inr herror), hended hloading⟩

/-- Nothing of the panels has changed. -/
theorem Turns.same (hprofile : s'.profile = s.profile)
    (hleave : s'.leaveBalances = s.leaveBalances) (hopened : s'.Opened r → s.Opened r) :
    Turns r s s' none := by
  cases r with
  | me => exact .quiet hopened rfl rfl rfl
  | profile =>
    refine .quiet hopened ?_ (congrArg Panel.loading hprofile) (congrArg Panel.error hprofile)
    exact congrArg (fun p => p.data.isSome) hprofile
  | leave =>
    refine .quiet hopened ?_ (congrArg Panel.loading hleave) (congrArg Panel.error hleave)
    exact congrArg (fun p => p.data.isSome) hleave

/-- The tasks are not what a view shows. -/
theorem Turns.of_tasks {m : Option Mark} {tasks : List Task}
    (h : Turns r { s with tasks := tasks } s' m) : Turns r s s' m := by
  have hsame : (State.Opened { s with tasks := tasks } r ↔ s.Opened r) ∧
      State.holds { s with tasks := tasks } r = s.holds r ∧
      State.loading { s with tasks := tasks } r = s.loading r ∧
      State.error { s with tasks := tasks } r = s.error r := by
    cases r <;> exact ⟨Iff.rfl, rfl, rfl, rfl⟩
  obtain ⟨hopened, hholds, hloading, herror⟩ := hsame
  cases h with
  | quiet opened holds loading error =>
    exact .quiet (fun hopen => hopened.mp (opened hopen)) (holds.trans hholds)
      (loading.trans hloading) (error.trans herror)
  | held holds loading => exact .held holds (loading.trans hloading)
  | started loading => exact .started loading
  | loaded holds loading => exact .loaded holds loading
  | failed error loading => exact .failed error loading

/-! ### Clicks -/

/-- A click on a view, from a panel `p` with the data of the view. -/
theorem start_turns {α : Type} (p : Panel α) (a : Account) (message : String)
    (hholds : s.holds r = p.data.isSome) (hloading : s.loading r = p.loading)
    (hholds' : s'.holds r = (p.start (some a) message).data.isSome)
    (hloading' : s'.loading r = (p.start (some a) message).loading) :
    Turns r s s' (if s.holds r = false then some .started else none) := by
  rw [hholds]
  unfold Panel.start at hholds' hloading'
  cases hdata : p.data with
  | none =>
    rw [hdata] at hloading'
    exact .started hloading'
  | some x =>
    have hthere : p.data.isSome = true := by rw [hdata]; rfl
    rw [if_pos hthere] at hholds' hloading'
    exact .held (hholds'.trans hthere) (hloading'.trans hloading.symm)

theorem view_showProfile (s : State) : s.showProfile.view = .profile := by
  unfold showProfile
  dsimp only
  split <;> rfl

theorem view_showLeave (s : State) : s.showLeave.view = .leave := by
  unfold showLeave
  dsimp only
  split <;> rfl

/-- A click on the profile, which may have cleared its error. -/
theorem requestProfile_turns {e : Event} (he : e.requests = some .profile)
    (h : s.msal.authenticated = true) (hr : r ≠ .me) (error : String) :
    Turns r s ({ s with profile := { s.profile with error } } : State).showProfile
      (s.mark r e) := by
  obtain ⟨a, ha⟩ := exists_current h
  cases r with
  | me => exact absurd rfl hr
  | profile =>
    have hprofile := profile_showProfile { s with profile := { s.profile with error } }
    dsimp only at hprofile
    rw [ha] at hprofile
    rw [mark_of_requests he]
    exact start_turns { s.profile with error } a _ rfl rfl
      (congrArg (fun p => p.data.isSome) hprofile) (congrArg Panel.loading hprofile)
  | leave =>
    have hleave := leaveBalances_showProfile { s with profile := { s.profile with error } }
    have hview := view_showProfile { s with profile := { s.profile with error } }
    rw [mark_of_requests_ne he (by decide)]
    refine .quiet (fun hopen => ?_) (congrArg (fun p => p.data.isSome) hleave)
      (congrArg Panel.loading hleave) (congrArg Panel.error hleave)
    cases hview.symm.trans hopen

/-- A click on the leave balances, the other way round. -/
theorem requestLeave_turns {e : Event} (he : e.requests = some .leave)
    (h : s.msal.authenticated = true) (hr : r ≠ .me) (error : String) :
    Turns r s ({ s with leaveBalances := { s.leaveBalances with error } } : State).showLeave
      (s.mark r e) := by
  obtain ⟨a, ha⟩ := exists_current h
  cases r with
  | me => exact absurd rfl hr
  | leave =>
    have hleave := leaveBalances_showLeave
      { s with leaveBalances := { s.leaveBalances with error } }
    dsimp only at hleave
    rw [ha] at hleave
    rw [mark_of_requests he]
    exact start_turns { s.leaveBalances with error } a _ rfl rfl
      (congrArg (fun p => p.data.isSome) hleave) (congrArg Panel.loading hleave)
  | profile =>
    have hprofile := profile_showLeave { s with leaveBalances := { s.leaveBalances with error } }
    have hview := view_showLeave { s with leaveBalances := { s.leaveBalances with error } }
    rw [mark_of_requests_ne he (by decide)]
    refine .quiet (fun hopen => ?_) (congrArg (fun p => p.data.isSome) hprofile)
      (congrArg Panel.loading hprofile) (congrArg Panel.error hprofile)
    cases hview.symm.trans hopen

/-! ### The end of a request -/

theorem thrown_turns {t : Task} {interaction : Bool} {r' : Resource} (hr : r ≠ .me)
    (h : t.ended (.rejected interaction) = some (r', .failed)) :
    Turns r s (r'.thrown interaction s) (t.mark (.rejected interaction) r) := by
  rw [mark_of_ended h]
  cases r' with
  | me =>
    rw [if_neg hr.symm]
    unfold Resource.thrown
    dsimp only
    split <;> exact .same rfl rfl id
  | profile =>
    cases r with
    | me => exact absurd rfl hr
    | profile => exact .failed (profileUnavailable_ne s) rfl
    | leave => exact .quiet id rfl rfl rfl
  | leave =>
    cases r with
    | me => exact absurd rfl hr
    | profile => exact .quiet id rfl rfl rfl
    | leave => exact .failed (leaveUnavailable_ne s) rfl

theorem receiveProfile_turns (hr : r ≠ .me) (account : Account) (ok : Bool) (json : ProfileBody) :
    Turns r s (s.receiveProfile account ok json)
      ((Task.body .profile account ok).mark (.profile json) r) := by
  rw [mark_of_ended rfl]
  unfold receiveProfile
  cases r with
  | me => exact absurd rfl hr
  | profile =>
    cases ok with
    | false => exact .failed (orElse_ne (profileUnavailable_ne s)) rfl
    | true =>
      obtain ⟨employee, message⟩ := json
      cases employee with
      | none => exact .failed (orElse_ne (profileUnavailable_ne s)) rfl
      | some x => exact .loaded rfl rfl
  | leave =>
    rw [if_neg (show ¬ Resource.profile = .leave by decide)]
    split <;> exact .quiet id rfl rfl rfl

theorem receiveLeave_turns (hr : r ≠ .me) (account : Account) (ok : Bool) (json : LeaveBody) :
    Turns r s (s.receiveLeave account ok json)
      ((Task.body .leave account ok).mark (.leave json) r) := by
  rw [mark_of_ended rfl]
  unfold receiveLeave
  cases r with
  | me => exact absurd rfl hr
  | leave =>
    cases ok with
    | false => exact .failed (orElse_ne (leaveUnavailable_ne s)) rfl
    | true =>
      obtain ⟨balances, message⟩ := json
      cases balances with
      | none => exact .failed (orElse_ne (leaveUnavailable_ne s)) rfl
      | some x => exact .loaded rfl rfl
  | profile =>
    rw [if_neg (show ¬ Resource.leave = .profile by decide)]
    split <;> exact .quiet id rfl rfl rfl

theorem settle_turns {t : Task} {o : Outcome} (hr : r ≠ .me) (hs : t.settle o s = some s') :
    Turns r s s' (t.mark o r) := by
  unfold Task.settle at hs
  split at hs
  · obtain rfl := Option.some.inj hs
    cases t with
    | token r' account => exact thrown_turns hr rfl
    | response r' account => exact thrown_turns hr rfl
    | body r' account ok => exact thrown_turns hr rfl
    | _ => exact .same rfl rfl id
  · unfold Task.fulfil at hs
    split at hs <;> cases hs
    · exact .same rfl rfl id
    · exact .same rfl rfl id
    · exact .same rfl rfl id
    · split <;> exact .same rfl rfl id
    · exact .same rfl rfl id
    · exact .same rfl rfl id
    · exact receiveProfile_turns hr _ _ _
    · exact receiveLeave_turns hr _ _ _
    · exact .same rfl rfl id

/-! ### Every event -/

theorem step_turns {e : Event} (hr : r ≠ .me) (hs : Frontend.step s e = some s') :
    Turns r s s' (s.mark r e) := by
  obtain ⟨hoffers, hs⟩ := Option.ite_none_right_eq_some.mp hs
  cases e with
  | settle i o =>
    obtain ⟨t, ht, hs⟩ := Option.bind_eq_some_iff.mp hs
    have hmark : s.mark r (.settle i o) = t.mark o r := by rw [mark, ht]; rfl
    rw [hmark]
    exact (settle_turns hr hs).of_tasks
  | showProfile =>
    obtain rfl := Option.some.inj hs
    exact requestProfile_turns rfl hoffers hr s.profile.error
  | retryProfile =>
    obtain rfl := Option.some.inj hs
    simp only [offers, Bool.and_eq_true] at hoffers
    exact requestProfile_turns rfl hoffers.1.1 hr ""
  | showLeave =>
    obtain rfl := Option.some.inj hs
    exact requestLeave_turns rfl hoffers hr s.leaveBalances.error
  | retryLeave =>
    obtain rfl := Option.some.inj hs
    simp only [offers, Bool.and_eq_true] at hoffers
    exact requestLeave_turns rfl hoffers.1.1 hr ""
  | effect =>
    obtain rfl := Option.some.inj hs
    rw [mark_of_not_requests (by simp [Event.requests]) (fun _ _ h => by cases h)]
    unfold runEffect
    split
    · split <;> exact .same rfl rfl id
    · exact .same rfl rfl id
  | showDashboard =>
    obtain rfl := Option.some.inj hs
    rw [mark_of_not_requests (by simp [Event.requests]) (fun _ _ h => by cases h)]
    refine .same rfl rfl fun hopen => ?_
    cases r <;> cases hopen
  | signIn | signOut | toggleLanguage =>
    obtain rfl := Option.some.inj hs
    rw [mark_of_not_requests (by simp [Event.requests]) (fun _ _ h => by cases h)]
    exact .same rfl rfl id

/-! ## Whole runs -/

/-- Both views. -/
def Lively (s : State) : Prop := s.Alive .profile ∧ s.Alive .leave

theorem lively_mount (msal : Msal) : (mount msal).Lively := by
  refine ⟨⟨?_, ?_⟩, ?_, ?_⟩ <;> intro h <;> cases h

theorem Lively.step {e : Event} (h : s.Lively) (hs : Frontend.step s e = some s') : s'.Lively where
  left := h.1.turns (step_turns (by decide) hs) (pending_step (by decide) hs)
  right := h.2.turns (step_turns (by decide) hs) (pending_step (by decide) hs)

/-- **No open view is blank, and none loads in vain**: in every state of every run the view
that is open shows its data, an error or that it is loading, and what says it is loading has a
request under way. -/
theorem open_views_lively {msal : Msal} {es : List Event}
    (hrun : Machine.run Frontend.step (mount msal) es = some s) : s.Lively :=
  Machine.kept_of_run Lively.step hrun (lively_mount msal)

end State

section Example

/-- The profile is open and loading, and its request is under way. -/
theorem open_views_lively_loading :
    ∃ s : State, s.view = .profile ∧ s.profile.loading = true ∧ s.Lively ∧
      0 < s.pending .profile := by
  let es := signInAs exampleA ++ [.showProfile]
  have hrun : (Machine.run step (mount {}) es).any (fun s => s.view = .profile ∧
      s.profile.loading = true) = true := by
    decide +kernel
  obtain ⟨s, hs, hcheck⟩ := (Option.any_eq_true _ _).mp hrun
  obtain ⟨hview, hloading⟩ := of_decide_eq_true hcheck
  have hlively := State.open_views_lively hs
  exact ⟨s, hview, hloading, hlively, hlively.1.awaited hloading⟩

end Example

end EmployeePortal.Frontend
