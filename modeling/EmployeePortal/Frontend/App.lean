import EmployeePortal.Framework.Machine
import EmployeePortal.Python.Text

/-!
# The App component

`App.tsx` as a machine. Its state is what the component keeps in `useState`,
what MSAL keeps for it, and what it awaits: an `async` handler stops at each
`await` and goes on when the promise settles, so the handlers under way are a
list of tasks, which settle in any order. The component stays mounted across
`signOut`: `logoutPopup` is called without navigating the main window, and
nothing else unmounts it.

Data that came from the API carries the account whose access token its request
carried. No handler looks at that: it is there so that a statement can say whose
data is on the screen.
-/

namespace EmployeePortal.Frontend

open EmployeePortal.Python EmployeePortal.Framework

/-! ## MSAL -/

structure Account where
  homeAccountId : String
  name : Option String := none
deriving DecidableEq

/-- `instance.getAllAccounts()` and `instance.getActiveAccount()`. -/
structure Msal where
  accounts : List Account := []
  active : Option Account := none

namespace Msal

/-- `instance.getActiveAccount() || accounts[0]` -/
def current (m : Msal) : Option Account := m.active <|> m.accounts.head?

/-- `useIsAuthenticated()` -/
def authenticated (m : Msal) : Bool := !m.accounts.isEmpty

/-- After `loginPopup` returned the account and `setActiveAccount` was called. -/
def login (m : Msal) (a : Account) : Msal where
  accounts := if a ∈ m.accounts then m.accounts else m.accounts ++ [a]
  active := some a

/-- After `logoutPopup({ account })`: the account is forgotten, all of them when
none was given. -/
def logout (m : Msal) : Option Account → Msal
  | some a => ⟨m.accounts.erase a, if m.active = some a then none else m.active⟩
  | none => {}

end Msal

/-! ## Data and responses -/

structure EmployeeProfile where
  personnelNumber : String
  displayName : Option String := none
  email : Option String := none
  phone : Option String := none
  officeLocation : Option String := none
  professionalTitle : Option String := none
  legalEntity : Option String := none
  employmentStartDate : Option String := none
  employmentEndDate : Option String := none

structure LeaveBalance where
  leaveType : String
  available : Option String := none
  taken : Option String := none
  total : Option String := none

structure MeBody where
  name : Option String := none
  username : Option String := none
  mapping_status : Option String := none

structure ProfileBody where
  employee : Option EmployeeProfile := none
  message : Option String := none

structure LeaveBody where
  balances : Option (List LeaveBalance) := none
  message : Option String := none

/-- Data, and the account whose access token the request for it carried. -/
structure Fetched (α : Type) where
  data : α
  account : Account

/-! ## The state -/

inductive View where
  | dashboard
  | profile
  | leave
deriving DecidableEq

inductive Language where
  | en
  | ar

/-- The three requests to the API. -/
inductive Resource where
  | me
  | profile
  | leave
deriving DecidableEq

/-- A handler under way, by the promise it awaits. -/
inductive Task where
  /-- `loginPopup` -/
  | login
  /-- `logoutPopup({ account })` -/
  | logout (account : Option Account)
  /-- `acquireTokenSilent({ account })` -/
  | token (r : Resource) (account : Account)
  /-- `fetch`, with the account's access token -/
  | response (r : Resource) (account : Account)
  /-- `response.json()` -/
  | body (r : Resource) (account : Account) (ok : Bool)
  /-- `acquireTokenPopup` -/
  | popup

/-- The three `useState` of a view that loads data. -/
structure Panel (α : Type) where
  data : Option (Fetched α) := none
  loading : Bool := false
  error : String := ""

structure State where
  msal : Msal
  displayName : String
  authError : String := ""
  mappingStatus : String := "unknown"
  view : View := .dashboard
  profile : Panel EmployeeProfile := {}
  leaveBalances : Panel (List LeaveBalance) := {}
  language : Language := .en
  /-- The effect on `accounts` is to run. -/
  effectDue : Bool := true
  tasks : List Task := []

/-- `x || y` -/
def orElse (x : Option String) (y : String) : String := (truthy x).getD y

/-- The component is mounted. -/
def mount (msal : Msal) : State where
  msal := msal
  displayName := orElse (msal.accounts.head?.bind Account.name) ""

namespace State

/-- Go on to await `t`. -/
def await (s : State) (t : Task) : State := { s with tasks := s.tasks ++ [t] }

/-! ## Loading a view -/

/-- `t('profileUnavailable')` -/
def profileUnavailable (s : State) : String :=
  match s.language with
  | .en => "Employee profile unavailable"
  | .ar => "ملف الموظف غير متاح"

/-- `t('leaveUnavailable')` -/
def leaveUnavailable (s : State) : String :=
  match s.language with
  | .en => "Leave balances unavailable"
  | .ar => "أرصدة الإجازات غير متاحة"

end State

namespace Panel

variable {α : Type}

/-- A handler up to its first `await`: nothing to do when the data is there, an
error when nobody is signed in. -/
def start (p : Panel α) (account : Option Account) (unavailable : String) : Panel α :=
  if p.data.isSome then p
  else match account with
    | none => { p with loading := false, error := unavailable }
    | some _ => { p with loading := true, error := "" }

/-- Whether the handler goes on to its request, and for whom. -/
def asks (p : Panel α) (account : Option Account) : Option Account :=
  if p.data.isSome then none else account

/-- The data has come. -/
def receive (p : Panel α) (x : Fetched α) : Panel α := { p with data := some x, loading := false }

/-- The response was no good, or something was thrown. -/
def fail (p : Panel α) (message : String) : Panel α := { p with error := message, loading := false }

end Panel

namespace State

/-- `showProfile`, up to its first `await`. -/
def showProfile (s : State) : State :=
  let s' := { s with
    view := .profile
    profile := s.profile.start s.msal.current s.profileUnavailable }
  match s.profile.asks s.msal.current with
  | some account => s'.await (.token .profile account)
  | none => s'

/-- `showLeave`, up to its first `await`. -/
def showLeave (s : State) : State :=
  let s' := { s with
    view := .leave
    leaveBalances := s.leaveBalances.start s.msal.current s.leaveUnavailable }
  match s.leaveBalances.asks s.msal.current with
  | some account => s'.await (.token .leave account)
  | none => s'

/-- `showProfile`, after `response.json()`. -/
def receiveProfile (s : State) (account : Account) (ok : Bool) (body : ProfileBody) : State :=
  match if ok then body.employee else none with
  | none => { s with
      profile := s.profile.fail (orElse body.message s.profileUnavailable) }
  | some employee => { s with
      profile := s.profile.receive ⟨employee, account⟩
      displayName := orElse employee.displayName s.displayName }

/-- `showLeave`, after `response.json()`. -/
def receiveLeave (s : State) (account : Account) (ok : Bool) (body : LeaveBody) : State :=
  match if ok then body.balances else none with
  | none => { s with
      leaveBalances := s.leaveBalances.fail (orElse body.message s.leaveUnavailable) }
  | some balances => { s with
      leaveBalances := s.leaveBalances.receive ⟨balances, account⟩ }

/-- The effect on `accounts`, after `response.json()`: the name and the mapping
status of whoever is signed in. -/
def receiveMe (s : State) (account : Account) (body : MeBody) : State :=
  { s with
    displayName := orElse body.name (orElse account.name (orElse body.username ""))
    mappingStatus := orElse body.mapping_status "unknown" }

/-! ## Signing in and out -/

/-- The effect on `accounts`, up to its first `await`. -/
def runEffect (s : State) : State :=
  let s' := { s with effectDue := false }
  if s.msal.authenticated then
    match s.msal.current with
    | none => s'
    | some account => { s' with msal := { s.msal with active := some account } }.await
        (.token .me account)
  else s'

def signIn (s : State) : State := { s with authError := "" }.await .login

def signOut (s : State) : State := { s with authError := "" }.await (.logout s.msal.current)

end State

/-! ## Events -/

/-- What a promise settles with. -/
inductive Outcome where
  /-- It is rejected; `interaction` for an `InteractionRequiredAuthError`. -/
  | rejected (interaction : Bool)
  | account (a : Account)
  /-- A token, or the end of a popup. -/
  | done
  | response (ok : Bool)
  | me (body : MeBody)
  | profile (body : ProfileBody)
  | leave (body : LeaveBody)

/-- The handler goes on when its promise is fulfilled. -/
def Task.fulfil : Task → Outcome → State → Option State
  | .login, .account a, s =>
      some { s with msal := s.msal.login a, effectDue := true }
  | .logout account, .done, s =>
      some { s with msal := s.msal.logout account, effectDue := true }
  | .token r account, .done, s => some (s.await (.response r account))
  | .response .me account, .response ok, s =>
      some (if ok then s.await (.body .me account true) else s)
  | .response r account, .response ok, s => some (s.await (.body r account ok))
  | .body .me account _, .me json, s => some (s.receiveMe account json)
  | .body .profile account ok, .profile json, s => some (s.receiveProfile account ok json)
  | .body .leave account ok, .leave json, s => some (s.receiveLeave account ok json)
  | .popup, .done, s => some s
  | _, _, _ => none

/-- The `catch` around what a task asks for. -/
def Resource.thrown (interaction : Bool) (s : State) : Resource → State
  | .me => if interaction then s.await .popup else s
  | .profile => { s with profile := s.profile.fail s.profileUnavailable }
  | .leave => { s with leaveBalances := s.leaveBalances.fail s.leaveUnavailable }

/-- The handler goes on when its promise is rejected. -/
def Task.reject (interaction : Bool) (s : State) : Task → State
  | .login => { s with authError :=
      "Sign-in could not be completed. Allow pop-ups for this portal and try again." }
  | .logout _ => { s with authError :=
      "Sign-out could not be completed. Allow pop-ups for this portal and try again." }
  | .token r _ => r.thrown interaction s
  | .response r _ => r.thrown interaction s
  | .body r _ _ => r.thrown interaction s
  | .popup => { s with authError :=
      "Your session needs attention. Select sign in again to continue." }

def Task.settle (t : Task) (o : Outcome) (s : State) : Option State :=
  match o with
  | .rejected interaction => some (t.reject interaction s)
  | o => t.fulfil o s

inductive Event where
  | effect
  | settle (i : ℕ) (o : Outcome)
  | signIn
  | signOut
  | toggleLanguage
  | showDashboard
  | showProfile
  | showLeave
  | retryProfile
  | retryLeave

/-- What the screen offers: the login page until somebody is signed in, the shell
after that, and `try again` beside an error. -/
def State.offers (s : State) : Event → Bool
  | .effect => s.effectDue
  | .settle i _ => decide (i < s.tasks.length)
  | .signIn => !s.msal.authenticated
  | .signOut | .toggleLanguage | .showDashboard | .showProfile | .showLeave => s.msal.authenticated
  | .retryProfile => s.msal.authenticated && s.view = .profile && s.profile.error ≠ ""
  | .retryLeave => s.msal.authenticated && s.view = .leave && s.leaveBalances.error ≠ ""

def State.handle (s : State) : Event → Option State
  | .effect => some s.runEffect
  | .settle i o => (s.tasks[i]?).bind fun t => t.settle o { s with tasks := s.tasks.eraseIdx i }
  | .signIn => some s.signIn
  | .signOut => some s.signOut
  | .toggleLanguage => some { s with
      language := match s.language with
        | .en => .ar
        | .ar => .en }
  | .showDashboard => some { s with view := .dashboard }
  | .showProfile => some s.showProfile
  | .showLeave => some s.showLeave
  | .retryProfile => some { s with profile := { s.profile with error := "" } }.showProfile
  | .retryLeave => some { s with leaveBalances := { s.leaveBalances with error := "" } }.showLeave

def step (s : State) (e : Event) : Option State := if s.offers e then s.handle e else none

/-! ## The screen -/

namespace State

/-- The profile panel, where it is rendered. -/
def profilePanel (s : State) : Option (Fetched EmployeeProfile) :=
  if s.msal.authenticated && s.view = .profile then s.profile.data else none

/-- The leave cards, where they are rendered. -/
def leaveCards (s : State) : Option (Fetched (List LeaveBalance)) :=
  if s.msal.authenticated && s.view = .leave then
    s.leaveBalances.data.filter fun x => !x.data.isEmpty
  else none

end State

end EmployeePortal.Frontend
