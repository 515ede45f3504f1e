import EmployeePortal.Frontend.App

/-!
# Data across sign-ins

The component keeps the profile and the leave balances until it is unmounted,
and signing out does not unmount it. What the next account sees is then its own
only if nothing was left behind: `showProfile` and `showLeave` return early when
there is data, whoever it belongs to, and a response is stored whoever is signed
in when it arrives. The effect on `accounts` shows what is missing: it fetches the
name and the mapping status again for whoever is signed in now.
-/

namespace EmployeePortal.Frontend

open EmployeePortal.Python EmployeePortal.Framework

/-- Whose profile or leave balances the task is about to bring. -/
def Task.reader : Task → Option Account
  | .token .me _ | .response .me _ | .body .me _ _ => none
  | .token _ a | .response _ a | .body _ a _ => some a
  | _ => none

namespace State

/-- The profile, the leave balances and the requests for them, as far as the
component has any, are the account's. -/
structure BelongsTo (s : State) (a : Account) : Prop where
  profile : ∀ x ∈ s.profile.data, x.account = a
  leave : ∀ x ∈ s.leaveBalances.data, x.account = a
  tasks : ∀ t ∈ s.tasks, ∀ b ∈ t.reader, b = a

instance (s : State) (a : Account) : Decidable (s.BelongsTo a) :=
  decidable_of_iff ((∀ x ∈ s.profile.data, x.account = a) ∧
      (∀ x ∈ s.leaveBalances.data, x.account = a) ∧ ∀ t ∈ s.tasks, ∀ b ∈ t.reader, b = a)
    ⟨fun ⟨x, y, z⟩ => ⟨x, y, z⟩, fun ⟨x, y, z⟩ => ⟨x, y, z⟩⟩

/-- While an account is active, the data on the screen was returned to a request
with its access token. -/
def ShowsOwn (s : State) : Prop :=
  ∀ b, s.msal.current = some b →
    (∀ x, s.profilePanel = some x → x.account = b) ∧
      ∀ x, s.leaveCards = some x → x.account = b

/-- A sign-in, or a sign-out that leaves another account active, finds nothing
that belongs to somebody else. -/
def CleanHandover (s : State) : Event → Prop
  | .settle _ (.account a) => s.BelongsTo a
  | .settle i .done =>
      match s.tasks[i]? with
      | some (.logout account) => ∀ b ∈ (s.msal.logout account).current, s.BelongsTo b
      | _ => True
  | _ => True

instance (s : State) (e : Event) : Decidable (s.CleanHandover e) := by
  unfold CleanHandover
  split
  · infer_instance
  · split <;> infer_instance
  · infer_instance

namespace BelongsTo

variable {s s' : State} {a : Account}

/-- Nothing came in that is somebody else's. -/
theorem of_steps (h : s.BelongsTo a)
    (hprofile : ∀ x ∈ s'.profile.data, x ∈ s.profile.data ∨ x.account = a)
    (hleave : ∀ x ∈ s'.leaveBalances.data, x ∈ s.leaveBalances.data ∨ x.account = a)
    (htasks : ∀ t ∈ s'.tasks, t ∈ s.tasks ∨ ∀ b ∈ t.reader, b = a) : s'.BelongsTo a where
  profile x hx := (hprofile x hx).elim (h.profile x) id
  leave x hx := (hleave x hx).elim (h.leave x) id
  tasks t ht := (htasks t ht).elim (h.tasks t) id

theorem await (h : s.BelongsTo a) {t : Task} (ht : ∀ b ∈ t.reader, b = a) :
    (s.await t).BelongsTo a := by
  refine h.of_steps (fun _ => Or.inl) (fun _ => Or.inl) fun u hu => ?_
  rcases List.mem_append.mp hu with hu | hu
  · exact Or.inl hu
  · rw [List.mem_singleton.mp hu]
    exact Or.inr ht

theorem eraseIdx (h : s.BelongsTo a) (i : ℕ) :
    BelongsTo { s with tasks := s.tasks.eraseIdx i } a :=
  h.of_steps (fun _ => Or.inl) (fun _ => Or.inl) fun _ ht => Or.inl (List.mem_of_mem_eraseIdx ht)

end BelongsTo

end State

theorem Panel.data_start {α : Type} (p : Panel α) (account : Option Account) (message : String) :
    (p.start account message).data = p.data := by
  unfold Panel.start
  split
  · rfl
  · split <;> rfl

theorem Panel.account_of_asks {α : Type} {p : Panel α} {account : Option Account} {a : Account}
    (h : p.asks account = some a) : account = some a := by
  unfold Panel.asks at h
  split at h
  · cases h
  · exact h

/-! ## The invariant -/

namespace State

/-- What the component has and awaits belongs to whoever is active. -/
def Own (s : State) : Prop := ∀ b, s.msal.current = some b → s.BelongsTo b

theorem Own.showsOwn {s : State} (h : s.Own) : s.ShowsOwn := by
  intro b hb
  refine ⟨fun x hx => (h b hb).profile x ?_, fun x hx => (h b hb).leave x ?_⟩
  · unfold profilePanel at hx
    split at hx
    · exact hx
    · cases hx
  · unfold leaveCards at hx
    split at hx
    · exact (Option.filter_eq_some_iff.mp hx).1
    · cases hx

theorem own_mount (msal : Msal) : (mount msal).Own := by
  intro b _
  refine ⟨?_, ?_, ?_⟩
  · rintro x ⟨⟩
  · rintro x ⟨⟩
  · rintro t ⟨⟩

variable {s s' : State} {a : Account}

/-! ### One lemma for each handler -/

theorem BelongsTo.showProfile (h : s.BelongsTo a) (ha : ∀ b ∈ s.msal.current, b = a) :
    s.showProfile.BelongsTo a := by
  unfold State.showProfile
  have hpanel : BelongsTo { s with
      view := .profile
      profile := s.profile.start s.msal.current s.profileUnavailable } a :=
    h.of_steps (fun x hx => Or.inl (s.profile.data_start _ _ ▸ hx)) (fun _ => Or.inl)
      fun _ => Or.inl
  dsimp only
  split
  · rename_i account hasks
    refine hpanel.await fun b hb => ?_
    obtain rfl := Option.some.inj hb
    exact ha _ (Panel.account_of_asks hasks)
  · exact hpanel

theorem BelongsTo.showLeave (h : s.BelongsTo a) (ha : ∀ b ∈ s.msal.current, b = a) :
    s.showLeave.BelongsTo a := by
  unfold State.showLeave
  have hpanel : BelongsTo { s with
      view := .leave
      leaveBalances := s.leaveBalances.start s.msal.current s.leaveUnavailable } a :=
    h.of_steps (fun _ => Or.inl) (fun x hx => Or.inl (s.leaveBalances.data_start _ _ ▸ hx))
      fun _ => Or.inl
  dsimp only
  split
  · rename_i account hasks
    refine hpanel.await fun b hb => ?_
    obtain rfl := Option.some.inj hb
    exact ha _ (Panel.account_of_asks hasks)
  · exact hpanel

theorem BelongsTo.fulfil (h : s.BelongsTo a) {t : Task} (ht : ∀ b ∈ t.reader, b = a)
    {o : Outcome} (hs : t.fulfil o s = some s') : s'.BelongsTo a := by
  unfold Task.fulfil at hs
  split at hs <;> cases hs
  · exact h.of_steps (fun _ => Or.inl) (fun _ => Or.inl) fun _ => Or.inl
  · exact h.of_steps (fun _ => Or.inl) (fun _ => Or.inl) fun _ => Or.inl
  · rename_i r account
    refine h.await fun b hb => ht b ?_
    cases r <;> exact hb
  · split
    · refine h.await ?_
      rintro b ⟨⟩
    · exact h
  · rename_i r account ok hr
    refine h.await fun b hb => ht b ?_
    cases r <;> exact hb
  · exact h.of_steps (fun _ => Or.inl) (fun _ => Or.inl) fun _ => Or.inl
  · unfold receiveProfile
    split
    · exact h.of_steps (fun _ => Or.inl) (fun _ => Or.inl) fun _ => Or.inl
    · refine h.of_steps (fun x hx => Or.inr ?_) (fun _ => Or.inl) fun _ => Or.inl
      obtain rfl := Option.some.inj hx
      exact ht _ rfl
  · unfold receiveLeave
    split
    · exact h.of_steps (fun _ => Or.inl) (fun _ => Or.inl) fun _ => Or.inl
    · refine h.of_steps (fun _ => Or.inl) (fun x hx => Or.inr ?_) fun _ => Or.inl
      obtain rfl := Option.some.inj hx
      exact ht _ rfl
  · exact h

theorem BelongsTo.reject (h : s.BelongsTo a) (t : Task) (interaction : Bool) :
    (t.reject interaction s).BelongsTo a := by
  have hthrown : ∀ r : Resource, (r.thrown interaction s).BelongsTo a := by
    intro r
    cases r with
    | me =>
      show BelongsTo (if interaction then s.await .popup else s) a
      split
      · refine h.await ?_
        rintro b ⟨⟩
      · exact h
    | profile => exact h.of_steps (fun _ => Or.inl) (fun _ => Or.inl) fun _ => Or.inl
    | leave => exact h.of_steps (fun _ => Or.inl) (fun _ => Or.inl) fun _ => Or.inl
  cases t with
  | token r account => exact hthrown r
  | response r account => exact hthrown r
  | body r account ok => exact hthrown r
  | _ => exact h.of_steps (fun _ => Or.inl) (fun _ => Or.inl) fun _ => Or.inl

theorem msal_reject (s : State) (t : Task) (interaction : Bool) :
    (t.reject interaction s).msal = s.msal := by
  have hthrown : ∀ r : Resource, (r.thrown interaction s).msal = s.msal := by
    intro r
    cases r with
    | me =>
      show State.msal (if interaction then s.await .popup else s) = s.msal
      split <;> rfl
    | profile => rfl
    | leave => rfl
  cases t with
  | token r account => exact hthrown r
  | response r account => exact hthrown r
  | body r account ok => exact hthrown r
  | _ => rfl

/-- Only the end of a `loginPopup` or a `logoutPopup` changes who is signed in. -/
theorem msal_of_settle {t : Task} {o : Outcome} (hs : t.settle o s = some s') :
    s'.msal = s.msal ∨ (∃ b, o = .account b ∧ s'.msal = s.msal.login b) ∨
      ∃ account, o = .done ∧ t = .logout account ∧ s'.msal = s.msal.logout account := by
  unfold Task.settle at hs
  split at hs
  · obtain rfl := Option.some.inj hs
    exact Or.inl (msal_reject s t _)
  · unfold Task.fulfil at hs
    split at hs <;> cases hs
    · exact Or.inr (Or.inl ⟨_, rfl, rfl⟩)
    · exact Or.inr (Or.inr ⟨_, rfl, rfl, rfl⟩)
    · exact Or.inl rfl
    · split <;> exact Or.inl rfl
    · exact Or.inl rfl
    · exact Or.inl rfl
    · unfold receiveProfile
      split <;> exact Or.inl rfl
    · unfold receiveLeave
      split <;> exact Or.inl rfl
    · exact Or.inl rfl

theorem BelongsTo.settle (h : s.BelongsTo a) {i : ℕ} {t : Task} (ht : s.tasks[i]? = some t)
    {o : Outcome} (hs : t.settle o { s with tasks := s.tasks.eraseIdx i } = some s') :
    s'.BelongsTo a := by
  unfold Task.settle at hs
  split at hs
  · obtain rfl := Option.some.inj hs
    exact (h.eraseIdx i).reject t _
  · exact (h.eraseIdx i).fulfil (h.tasks t (List.mem_of_getElem? ht)) hs

theorem msal_showProfile (s : State) : s.showProfile.msal = s.msal := by
  unfold State.showProfile
  dsimp only
  split <;> rfl

theorem msal_showLeave (s : State) : s.showLeave.msal = s.msal := by
  unfold State.showLeave
  dsimp only
  split <;> rfl

/-- The effect makes the current account the active one, and asks for nobody's
data. -/
theorem Own.runEffect (h : s.Own) : s.runEffect.Own := by
  unfold State.runEffect
  split
  · split
    · exact fun b hb => (h b hb).of_steps (fun _ => Or.inl) (fun _ => Or.inl) fun _ => Or.inl
    · rename_i account hcurrent
      intro b hb
      obtain rfl : account = b := Option.some.inj hb
      have hactive : BelongsTo { s with
          effectDue := false
          msal := { s.msal with active := some account } } account :=
        (h account hcurrent).of_steps (fun _ => Or.inl) (fun _ => Or.inl) fun _ => Or.inl
      refine hactive.await ?_
      rintro c ⟨⟩
  · exact fun b hb => (h b hb).of_steps (fun _ => Or.inl) (fun _ => Or.inl) fun _ => Or.inl

theorem Own.showProfile (h : s.Own) : s.showProfile.Own := by
  intro b hb
  rw [msal_showProfile] at hb
  exact (h b hb).showProfile fun c hc => Option.some.inj (hc.symm.trans hb)

theorem Own.showLeave (h : s.Own) : s.showLeave.Own := by
  intro b hb
  rw [msal_showLeave] at hb
  exact (h b hb).showLeave fun c hc => Option.some.inj (hc.symm.trans hb)

/-- Every event keeps the invariant, a sign-in or sign-out if it is clean. -/
theorem Own.step {e : Event} (h : s.Own) (hclean : s.CleanHandover e)
    (hs : Frontend.step s e = some s') : s'.Own := by
  obtain ⟨-, hs⟩ := Option.ite_none_right_eq_some.mp hs
  cases e with
  | settle i o =>
    obtain ⟨t, ht, hs⟩ := Option.bind_eq_some_iff.mp hs
    intro b hb
    rcases msal_of_settle hs with hmsal | ⟨c, rfl, hmsal⟩ | ⟨account, rfl, rfl, hmsal⟩
    · exact (h b (hmsal ▸ hb)).settle ht hs
    · rw [hmsal] at hb
      obtain rfl := Option.some.inj hb
      exact BelongsTo.settle hclean ht hs
    · rw [hmsal] at hb
      simp only [CleanHandover, ht] at hclean
      exact (hclean b hb).settle ht hs
  | effect =>
    obtain rfl := Option.some.inj hs
    exact h.runEffect
  | signIn | signOut =>
    obtain rfl := Option.some.inj hs
    intro b hb
    have hcleared : BelongsTo { s with authError := "" } b :=
      (h b hb).of_steps (fun _ => Or.inl) (fun _ => Or.inl) fun _ => Or.inl
    -- the popups themselves read nothing of an account
    refine hcleared.await ?_
    rintro c ⟨⟩
  | toggleLanguage | showDashboard =>
    obtain rfl := Option.some.inj hs
    exact fun b hb => (h b hb).of_steps (fun _ => Or.inl) (fun _ => Or.inl) fun _ => Or.inl
  | showProfile =>
    obtain rfl := Option.some.inj hs
    exact h.showProfile
  | showLeave =>
    obtain rfl := Option.some.inj hs
    exact h.showLeave
  | retryProfile =>
    obtain rfl := Option.some.inj hs
    refine Own.showProfile fun b hb => ?_
    exact (h b hb).of_steps (fun _ => Or.inl) (fun _ => Or.inl) fun _ => Or.inl
  | retryLeave =>
    obtain rfl := Option.some.inj hs
    refine Own.showLeave fun b hb => ?_
    exact (h b hb).of_steps (fun _ => Or.inl) (fun _ => Or.inl) fun _ => Or.inl

/-- **No employee data crosses sign-ins**, on every run in which no account becomes
active while the component has, or waits for, data of another. -/
theorem no_data_crosses_sign_ins {msal : Msal} {es : List Event}
    (hrun : Machine.run step (mount msal) es = some s)
    (hclean : Machine.Throughout step CleanHandover (mount msal) es) : s.ShowsOwn :=
  (Machine.inv_of_run (fun h hc hs => Own.step h hc hs) hrun hclean (own_mount msal)).showsOwn

end State

/-! ## Two accounts at one browser -/

section Example

def exampleA : Account := ⟨"a", some "Ada"⟩

def exampleB : Account := ⟨"b", some "Bob"⟩

/-- The account signs in, and the portal greets it. -/
def signInAs (a : Account) : List Event :=
  [.signIn, .settle 0 (.account a), .effect, .settle 0 .done, .settle 0 (.response true),
    .settle 0 (.me { name := a.name })]

/-- It looks at its profile, of this personnel number. -/
def viewProfile (personnelNumber : String) : List Event :=
  [.showProfile, .settle 0 .done, .settle 0 (.response true),
    .settle 0 (.profile { employee := some { personnelNumber := personnelNumber } })]

/-- It signs out. -/
def leave : List Event := [.signOut, .settle 0 .done, .effect]

/-- One account looks at its profile and signs out, and what the next one sees when
it signs in is that profile. -/
theorem not_no_data_crosses_sign_ins :
    ¬ ∀ (msal : Msal) (es : List Event) (s : State),
      Machine.run step (mount msal) es = some s → s.ShowsOwn := by
  intro hall
  let es := signInAs exampleA ++ viewProfile "000123" ++ leave ++ signInAs exampleB
  have hrun : (Machine.run step (mount {}) es).any (fun s => s.msal.current = some exampleB ∧
      s.profilePanel.map Fetched.account = some exampleA) = true := by
    decide +kernel
  obtain ⟨s, hs, hcheck⟩ := (Option.any_eq_true _ _).mp hrun
  obtain ⟨hcurrent, hpanel⟩ := of_decide_eq_true hcheck
  obtain ⟨x, hx, hA⟩ := Option.map_eq_some_iff.mp hpanel
  have hB := (hall {} es s hs exampleB hcurrent).1 x hx
  exact absurd (hA.symm.trans hB) (by decide)

/-- One account signs in and out and the next one looks at its profile: its own. -/
theorem no_data_crosses_sign_ins_two :
    ∃ s : State, s.msal.current = some exampleB ∧ s.profilePanel.isSome ∧ s.ShowsOwn := by
  let es := signInAs exampleA ++ leave ++ signInAs exampleB ++ viewProfile "000456"
  have hrun : (Machine.run step (mount {}) es).any (fun s => s.msal.current = some exampleB ∧
      s.profilePanel.isSome ∧ Machine.Throughout step State.CleanHandover (mount {}) es) =
        true := by
    decide +kernel
  obtain ⟨s, hs, hcheck⟩ := (Option.any_eq_true _ _).mp hrun
  obtain ⟨hcurrent, hpanel, hclean⟩ := of_decide_eq_true hcheck
  exact ⟨s, hcurrent, hpanel, State.no_data_crosses_sign_ins hs hclean⟩

end Example

end EmployeePortal.Frontend
