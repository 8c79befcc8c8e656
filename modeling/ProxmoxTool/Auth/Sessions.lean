import ProxmoxTool.Auth.Epoch
import ProxmoxTool.Lib.System
import Mathlib.Logic.Function.Basic

/-!
# Browser sessions and their revocation

A request of a browser passes four hooks in a fixed order: Flask-Login's loading of the user with the vetting of a
remember-cookie restore (`_on_user_loaded_from_cookie`, `_enforce_remember_and_password_change`), the local-network
bypass, Cloudflare Access, and session tracking (`_enforce_session_state`).  The session cookie, the remember cookie and
the remember marker are signed, so a request carries only cookies that were issued; which of them it carries, and
whose, is free.  Requests under `/static` and `/api/v1` pass no hook and are left out.

Sessions, rows and users are as in the source.  `seq`, `issues`, `revokedAt`, `owner` and `served` record the run: when a
cookie was issued to which browser, when a row was revoked, and which requests were served to whom.
-/

namespace ProxmoxTool.Sessions

abbrev UserId := Nat
abbrev RowId := Nat
abbrev Browser := Nat

structure User where
  active : Bool
  mustChange : Bool
  epoch : Epoch

/-- A `UserSession` row. -/
structure Row where
  user : UserId
  revoked : Bool

/-- The content of the session cookie: `_user_id`, the opaque id of the row, and the mark of the local bypass. -/
structure Session where
  user : Option UserId
  row : Option RowId
  bypass : Bool
deriving DecidableEq

def Session.empty : Session := { user := none, row := none, bypass := false }

/-- `remember_ctx`: the account, its password epoch, and when it was signed. -/
structure Marker where
  uid : UserId
  pwd : Epoch
  signedAt : Nat
deriving DecidableEq

inductive Cookie
  | session (c : Session)
  | remember (u : UserId)
  | marker (m : Marker)
deriving DecidableEq

structure Issue where
  browser : Browser
  seq : Nat
  cookie : Cookie

/-- What the view does once the hooks have passed the request on. -/
inductive Action
  | page
  | login (u : UserId) (remember : Bool)
  | logout
  | changePassword
  | revokeOwn (r : RowId)
  | revokeOthers
  | revokeAny (r : RowId)
  | editUser (u : UserId) (active reset : Bool)

/-- A request.  No session cookie is the empty session.  `bypassHolds` says that the local bypass is on and the client is
trusted, `bypassUser` is its admin account, `cf` the account of a valid Cloudflare token, and `exempt` that the endpoint is
open during a forced password change. -/
structure Request where
  browser : Browser
  session : Session
  remember : Option UserId
  marker : Option Marker
  bypassHolds : Bool
  bypassUser : UserId
  cf : Option UserId
  exempt : Bool
  action : Action

/-- A request that was served as an authenticated user; `fresh` when it made a new login itself. -/
structure Served where
  seq : Nat
  session : Session
  remember : Option UserId
  marker : Option Marker
  user : UserId
  fresh : Bool

structure State where
  users : UserId → Option User
  rows : RowId → Option Row
  nextRow : RowId
  clock : Nat
  seq : Nat
  issues : List Issue
  revokedAt : RowId → Option Nat
  owner : RowId → Browser
  served : List Served

structure Initial (s : State) : Prop where
  rows : ∀ r, s.rows r = none
  revokedAt : ∀ r, s.revokedAt r = none
  issues : s.issues = []
  served : s.served = []

/-! ### Rows -/

/-- `start_session`. -/
def State.startSession (s : State) (u : UserId) (b : Browser) : State :=
  { s with
    rows := Function.update s.rows s.nextRow (some { user := u, revoked := false })
    owner := Function.update s.owner s.nextRow b, nextRow := s.nextRow + 1 }

/-- `record.revoked = True` for the rows that meet `p` and are not revoked. -/
def State.revokeWhere (s : State) (p : RowId → Row → Bool) : State :=
  { s with
    rows := fun r => (s.rows r).map fun row => if p r row then { row with revoked := true } else row
    revokedAt := fun r => match s.rows r with
      | some row => if p r row && !row.revoked then some s.seq else s.revokedAt r
      | none => s.revokedAt r }

def State.isActive (s : State) (u : UserId) : Bool := (s.users u).any fun x => x.active

/-- The row is there and not revoked. -/
def State.rowLive (s : State) (r : Option RowId) : Bool := (r.bind s.rows).any fun row => !row.revoked

def rememberDuration : Nat := 14 * 24 * 60 * 60

/-- `remember_restore_refusal` gives no reason. -/
def State.restoreAccepted (s : State) (u : UserId) (marker : Option Marker) : Bool :=
  s.isActive u && marker.any fun m =>
    s.clock ≤ m.signedAt + rememberDuration && m.uid == u && m.pwd == (s.users u).bind fun x => x.epoch

/-! ### The hooks -/

/-- A request on its way through the hooks: the session dictionary, the authenticated user, whether a restore was vetoed,
whether a hook made a new login, and whether a hook has answered. -/
structure Flow where
  state : State
  session : Session
  user : Option UserId
  rejected : Bool
  fresh : Bool
  answered : Bool

/-- A user as `current_user.is_authenticated` sees it. -/
def State.authenticated (s : State) (u : UserId) : Option UserId := if s.isActive u then some u else none

/-- Flask-Login loads the user from the session, else from the remember cookie, which fires the signal. -/
def loadUser (s : State) (req : Request) : Flow :=
  let flow : Flow :=
    { state := s, session := req.session, user := none, rejected := false, fresh := false, answered := false }
  match req.session.user.filter fun u => (s.users u).isSome with
  | some u => { flow with user := s.authenticated u }
  | none => match req.remember.filter fun u => (s.users u).isSome with
    | none => flow
    | some u =>
      -- the rows are not asked: a restore opens a new one
      if s.restoreAccepted u req.marker then
        { flow with
          state := s.startSession u req.browser, user := some u
          session := { req.session with user := some u, row := some s.nextRow } }
      else { flow with session := { req.session with user := some u }, user := s.authenticated u, rejected := true }

/-- `_enforce_remember_and_password_change`. -/
def enforceRemember (req : Request) (f : Flow) : Flow :=
  match f.user with
  | none => f
  | some u =>
    if f.rejected then
      { f with user := none, session := { f.session with user := none, row := none }, answered := true }
    else if ((f.state.users u).any fun x => x.mustChange) && !req.exempt then { f with answered := true }
    else f

/-- A login by a hook: `session.clear()`, `login_user`, `start_session`. -/
def Flow.login (f : Flow) (u : UserId) (b : Browser) (bypass : Bool) : Flow :=
  { f with
    state := f.state.startSession u b, user := some u, fresh := true
    session := { user := some u, row := some f.state.nextRow, bypass := bypass } }

/-- `_local_network_bypass`. -/
def localNetworkBypass (req : Request) (f : Flow) : Flow :=
  if f.answered then f
  else match f.user with
    | some _ =>
      if f.session.bypass && !req.bypassHolds then
        { f with
          state := f.state.revokeWhere fun r _ => f.session.row = some r, user := none, session := Session.empty }
      else f
    | none =>
      if req.bypassHolds && f.state.isActive req.bypassUser then f.login req.bypassUser req.browser true else f

/-- `_check_cf_access`. -/
def checkCfAccess (req : Request) (f : Flow) : Flow :=
  if f.answered then f
  else match f.user, req.cf with
    | none, some u => if f.state.isActive u then f.login u req.browser false else f
    | _, _ => f

/-- `_enforce_session_state`. -/
def enforceSessionState (f : Flow) : Flow :=
  if f.answered then f
  else match f.user with
    | none => f
    | some _ =>
      if f.session.row.isNone then { f with user := none, session := { f.session with user := none } }
      else if f.state.rowLive f.session.row then f
      else { f with user := none, session := { f.session with user := none, row := none } }

def hooks (s : State) (req : Request) : Flow :=
  enforceSessionState (checkCfAccess req (localNetworkBypass req (enforceRemember req (loadUser s req))))

/-- The user a request is served as; a request that a hook has answered is not served. -/
def Flow.servedAs (f : Flow) : Option UserId := if f.answered then none else f.user

/-! ### The views -/

/-- `user.set_password(…)`. -/
def State.setPassword (s : State) (u : UserId) : State :=
  { s with
    users := Function.update s.users u ((s.users u).map fun x =>
      { x with epoch := some (nextEpoch s.clock x.epoch), mustChange := false }) }

def State.setActive (s : State) (u : UserId) (active : Bool) : State :=
  { s with users := Function.update s.users u ((s.users u).map fun x => { x with active := active }) }

def State.markerFor (s : State) (u : UserId) : Marker :=
  { uid := u, pwd := (s.users u).bind fun x => x.epoch, signedAt := s.clock }

/-- What a view leaves: the database, the session, and the cookies it sets besides. -/
structure Left where
  state : State
  session : Session
  cookies : List Cookie

def view (req : Request) (f : Flow) : Left :=
  let s := f.state
  let unchanged : Left := { state := s, session := f.session, cookies := [] }
  if f.answered then unchanged
  else match req.action, f.user with
    | .login u remember, none =>
      if s.isActive u then
        { state := s.startSession u req.browser
          session := { user := some u, row := some s.nextRow, bypass := false }
          cookies := if remember then [.remember u, .marker (s.markerFor u)] else [] }
      else unchanged
    -- `logout_user` keeps the row id in the session
    | .logout, some _ =>
      { unchanged with
        state := s.revokeWhere fun r _ => f.session.row = some r, session := { f.session with user := none } }
    | .changePassword, some u =>
      let s' := (s.setPassword u).revokeWhere fun r row => row.user = u && f.session.row ≠ some r
      { unchanged with state := s', cookies := if req.marker.isSome then [.marker (s'.markerFor u)] else [] }
    | .revokeOwn r, some u => { unchanged with state := s.revokeWhere fun r' row => r' = r && row.user = u }
    | .revokeOthers, some u =>
      { unchanged with state := s.revokeWhere fun r row => row.user = u && f.session.row ≠ some r }
    | .revokeAny r, some _ => { unchanged with state := s.revokeWhere fun r' _ => r' = r }
    | .editUser u active reset, some me =>
      let s' := if u = me then s else s.setActive u active
      { unchanged with
        state := if reset then (s'.setPassword u).revokeWhere fun _ row => row.user = u else s' }
    | _, _ => unchanged

/-! ### Runs -/

inductive Label
  | request (req : Request)
  | tick

/-- Cookies are signed: a request carries only what has been issued to somebody. -/
def carriesIssued (s : State) (req : Request) : Bool :=
  let issued := fun c => s.issues.any fun i => i.cookie = c
  (req.session = Session.empty || issued (.session req.session)) &&
    (req.remember.all fun u => issued (.remember u)) && (req.marker.all fun m => issued (.marker m))

/-- The answer to a request: a changed session and the cookies the view sets go to its browser. -/
def answer (s : State) (req : Request) : State :=
  let f := hooks s req
  let left := view req f
  let cookies := (if left.session = req.session then [] else [.session left.session]) ++ left.cookies
  { left.state with
    seq := s.seq + 1
    issues := left.state.issues ++ cookies.map fun c => { browser := req.browser, seq := s.seq, cookie := c }
    served := left.state.served ++ (f.servedAs.map fun u =>
      { seq := s.seq, session := req.session, remember := req.remember, marker := req.marker, user := u
        fresh := f.fresh : Served }).toList }

def step (s : State) : Label → Option State
  | .request req => if carriesIssued s req then some (answer s req) else none
  | .tick => some { s with clock := s.clock + 1 }

def system : System State Label := { init := Initial, step := step }

/-! ### The property -/

/-- The cookie was issued to browser `b` before `t`. -/
def State.IssuedTo (s : State) (b : Browser) (t : Nat) (c : Cookie) : Prop :=
  ∃ i ∈ s.issues, i.browser = b ∧ i.seq < t ∧ i.cookie = c

/-- Nothing but cookies issued to browser `b` before `t`. -/
def State.OnlyFrom (s : State) (b : Browser) (t : Nat) (session : Session) (remember : Option UserId)
    (marker : Option Marker) : Prop :=
  (session = Session.empty ∨ s.IssuedTo b t (.session session)) ∧
    (∀ u, remember = some u → s.IssuedTo b t (.remember u)) ∧ ∀ m, marker = some m → s.IssuedTo b t (.marker m)

/-- Once a row has been revoked, no later request that carries only cookies issued to its browser before is served,
without a login of its own. -/
def AccessEnded (s : State) : Prop :=
  ∀ ev ∈ s.served, ∀ r t, s.revokedAt r = some t → t < ev.seq →
    s.OnlyFrom (s.owner r) t ev.session ev.remember ev.marker → ev.fresh = true

/-- The session cookie names an active account and a row that is not revoked. -/
def bringsLiveSession (s : State) (req : Request) : Bool :=
  match req.session.user.filter fun u => (s.users u).isSome with
  | some u => s.isActive u && s.rowLive req.session.row
  | none => false

/-- The session cookie names no account, and the remember cookie does, with a marker for it that has not expired and is
of its present password epoch. -/
def bringsRememberedLogin (s : State) (req : Request) : Bool :=
  match req.session.user.filter fun u => (s.users u).isSome with
  | some _ => false
  | none => (req.remember.filter fun u => (s.users u).isSome).any fun u => s.restoreAccepted u req.marker

/-- After a row has been revoked, a request with nothing but earlier cookies of its browser brings neither the session
cookie of another, unrevoked row nor a remember cookie with a valid marker. -/
def Clear (s : State) : Label → Prop
  | .request req => ∀ r t, s.revokedAt r = some t →
      s.OnlyFrom (s.owner r) t req.session req.remember req.marker →
        bringsLiveSession s req = false ∧ bringsRememberedLogin s req = false
  | .tick => True

/-! ### What the hooks let through -/

private theorem enforceSessionState_served {f : Flow} {u : UserId} (h : (enforceSessionState f).servedAs = some u) :
    enforceSessionState f = f ∧ f.answered = false ∧ f.user = some u ∧ f.state.rowLive f.session.row = true := by
  unfold enforceSessionState Flow.servedAs at *
  cases hans : f.answered with
  | true => simp [hans] at h
  | false =>
    cases huser : f.user with
    | none => simp [hans, huser] at h
    | some v =>
      simp only [hans, huser, Bool.false_eq_true, if_false] at h ⊢
      by_cases hrow : f.session.row.isNone = true
      · simp [hrow] at h
      · by_cases hlive : f.state.rowLive f.session.row = true
        · simp only [hrow, hlive, if_true, Bool.false_eq_true, if_false, huser, hans] at h ⊢
          exact ⟨trivial, trivial, h, trivial⟩
        · simp [hrow, hlive] at h

private theorem checkCfAccess_of_not_fresh {req : Request} {f : Flow} (h : (checkCfAccess req f).fresh = false) :
    checkCfAccess req f = f := by
  unfold checkCfAccess at h ⊢
  split
  · rfl
  · rename_i hans
    rw [if_neg hans] at h
    split at h
    · split
      · rename_i hact
        rw [if_pos hact] at h
        cases h
      · rfl
    · rfl

private theorem localNetworkBypass_of_not_fresh {req : Request} {f : Flow} {u : UserId}
    (h : (localNetworkBypass req f).fresh = false) (hu : (localNetworkBypass req f).user = some u) :
    localNetworkBypass req f = f := by
  unfold localNetworkBypass at h hu ⊢
  cases hans : f.answered with
  | true => rfl
  | false =>
    cases huser : f.user with
    | some v =>
      simp only [hans, huser, Bool.false_eq_true, if_false] at hu ⊢
      split
      · rename_i hinv
        rw [if_pos hinv] at hu
        cases hu
      · rfl
    | none =>
      simp only [hans, huser, Bool.false_eq_true, if_false] at h ⊢
      split
      · rename_i hact
        simp only [if_pos hact] at h
        cases h
      · rfl

private theorem enforceRemember_of_user {req : Request} {f : Flow} {u : UserId} (hans : (enforceRemember req f).answered = false)
    (hu : (enforceRemember req f).user = some u) : enforceRemember req f = f ∧ f.rejected = false := by
  unfold enforceRemember at hans hu ⊢
  split at hans
  · simp_all
  · split at hans
    · cases hans
    · split at hans
      · cases hans
      · simp_all

/-- A request that is served without a login of its own brings a live session or a remembered login. -/
private theorem brings_of_served {s : State} {req : Request} {u : UserId} (h : (hooks s req).servedAs = some u)
    (hfresh : (hooks s req).fresh = false) : bringsLiveSession s req = true ∨ bringsRememberedLogin s req = true := by
  obtain ⟨h5, hans, huser, hlive⟩ := enforceSessionState_served h
  rw [hooks, h5] at hfresh
  have h4 := checkCfAccess_of_not_fresh hfresh
  rw [h4] at hans huser hlive hfresh
  have h3 := localNetworkBypass_of_not_fresh hfresh huser
  rw [h3] at hans huser hlive
  obtain ⟨h2, hrej⟩ := enforceRemember_of_user hans huser
  rw [h2] at huser hlive
  -- the hooks have passed on what Flask-Login loaded
  unfold loadUser at huser hlive hrej
  unfold bringsLiveSession bringsRememberedLogin
  cases hs : req.session.user.filter fun u => (s.users u).isSome with
  | some v =>
    simp only [hs] at huser hlive
    refine .inl ?_
    have hact : s.isActive v = true := by
      simp only [State.authenticated] at huser
      split at huser
      · assumption
      · cases huser
    simp [hact, hlive]
  | none =>
    simp only [hs] at huser hlive hrej
    refine .inr ?_
    cases hr : req.remember.filter fun u => (s.users u).isSome with
    | none => simp [hr] at huser
    | some v =>
      simp only [hr] at hrej
      split at hrej
      · simpa using ‹_›
      · cases hrej

/-! ### What a request records -/

/-- Rows are numbered below `nextRow`. -/
def RowsBelow (s : State) : Prop := ∀ r row, s.rows r = some row → r < s.nextRow

/-- What the hooks and the view of a request do to the record of the run: only rows are added and revoked. -/
structure Grows (s s' : State) : Prop where
  seq : s'.seq = s.seq
  issues : s'.issues = s.issues
  served : s'.served = s.served
  next : s.nextRow ≤ s'.nextRow
  owner : ∀ r, r < s.nextRow → s'.owner r = s.owner r
  rows : RowsBelow s → RowsBelow s'
  revoked : RowsBelow s → ∀ r t, s'.revokedAt r = some t → s.revokedAt r = some t ∨ t = s.seq ∧ r < s'.nextRow

theorem Grows.refl (s : State) : Grows s s :=
  ⟨rfl, rfl, rfl, Nat.le_refl _, fun _ _ => rfl, id, fun _ _ _ h => .inl h⟩

theorem Grows.trans {s s' s'' : State} (h : Grows s s') (h' : Grows s' s'') : Grows s s'' := by
  refine ⟨h'.seq.trans h.seq, h'.issues.trans h.issues, h'.served.trans h.served, Nat.le_trans h.next h'.next,
    fun r hr => (h'.owner r (Nat.lt_of_lt_of_le hr h.next)).trans (h.owner r hr), fun hb => h'.rows (h.rows hb), ?_⟩
  intro hb r t ht
  rcases h'.revoked (h.rows hb) r t ht with ht | ⟨ht, hr⟩
  · rcases h.revoked hb r t ht with ht | ⟨ht, hr⟩
    · exact .inl ht
    · exact .inr ⟨ht, Nat.lt_of_lt_of_le hr h'.next⟩
  · exact .inr ⟨ht.trans h.seq, hr⟩

private theorem grows_startSession (s : State) (u : UserId) (b : Browser) : Grows s (s.startSession u b) := by
  refine ⟨rfl, rfl, rfl, Nat.le_succ _, ?_, ?_, fun _ _ _ h => .inl h⟩
  · intro r hr
    have : r ≠ s.nextRow := Nat.ne_of_lt hr
    simp [State.startSession, this]
  · intro hb r row hrow
    by_cases hr : r = s.nextRow
    · rw [hr]; exact Nat.lt_succ_self _
    · exact Nat.lt_succ_of_lt (hb r row (by simpa [State.startSession, hr] using hrow))

private theorem grows_revokeWhere (s : State) (p : RowId → Row → Bool) : Grows s (s.revokeWhere p) := by
  refine ⟨rfl, rfl, rfl, Nat.le_refl _, fun _ _ => rfl, ?_, ?_⟩
  · intro hb r row hrow
    obtain ⟨old, hold, -⟩ := Option.map_eq_some_iff.mp hrow
    exact hb r old hold
  · intro hb r t ht
    simp only [State.revokeWhere] at ht
    split at ht
    · rename_i row hrow
      split at ht
      · exact .inr ⟨(Option.some.inj ht).symm, hb r row hrow⟩
      · exact .inl ht
    · exact .inl ht

private theorem grows_setPassword (s : State) (u : UserId) : Grows s (s.setPassword u) :=
  ⟨rfl, rfl, rfl, Nat.le_refl _, fun _ _ => rfl, id, fun _ _ _ h => .inl h⟩

private theorem grows_setActive (s : State) (u : UserId) (a : Bool) : Grows s (s.setActive u a) :=
  ⟨rfl, rfl, rfl, Nat.le_refl _, fun _ _ => rfl, id, fun _ _ _ h => .inl h⟩

theorem grows_loadUser (s : State) (req : Request) : Grows s (loadUser s req).state := by
  unfold loadUser
  split
  · exact Grows.refl s
  · split
    · exact Grows.refl s
    · split
      · exact grows_startSession s _ _
      · exact Grows.refl s

theorem grows_enforceRemember (req : Request) (f : Flow) : Grows f.state (enforceRemember req f).state := by
  unfold enforceRemember
  split
  · exact Grows.refl _
  · split
    · exact Grows.refl _
    · split <;> exact Grows.refl _

private theorem grows_localNetworkBypass (req : Request) (f : Flow) :
    Grows f.state (localNetworkBypass req f).state := by
  unfold localNetworkBypass
  split
  · exact Grows.refl _
  · split
    · split
      · exact grows_revokeWhere _ _
      · exact Grows.refl _
    · split
      · exact grows_startSession _ _ _
      · exact Grows.refl _

private theorem grows_checkCfAccess (req : Request) (f : Flow) : Grows f.state (checkCfAccess req f).state := by
  unfold checkCfAccess
  split
  · exact Grows.refl _
  · split
    · split
      · exact grows_startSession _ _ _
      · exact Grows.refl _
    · exact Grows.refl _

private theorem grows_enforceSessionState (f : Flow) : Grows f.state (enforceSessionState f).state := by
  unfold enforceSessionState
  split
  · exact Grows.refl _
  · split
    · exact Grows.refl _
    · split
      · exact Grows.refl _
      · split <;> exact Grows.refl _

theorem grows_hooks (s : State) (req : Request) : Grows s (hooks s req).state :=
  (grows_loadUser s req).trans <| (grows_enforceRemember req _).trans <| (grows_localNetworkBypass req _).trans <|
    (grows_checkCfAccess req _).trans (grows_enforceSessionState _)

theorem grows_view (req : Request) (f : Flow) : Grows f.state (view req f).state := by
  unfold view
  simp only
  split
  · exact Grows.refl _
  · split
    · split
      · exact grows_startSession _ _ _
      · exact Grows.refl _
    · exact grows_revokeWhere _ _
    · exact (grows_setPassword _ _).trans (grows_revokeWhere _ _)
    · exact grows_revokeWhere _ _
    · exact grows_revokeWhere _ _
    · exact grows_revokeWhere _ _
    · rename_i u active reset me _ _
      have hact : Grows f.state (if u = me then f.state else f.state.setActive u active) := by
        split
        · exact Grows.refl _
        · exact grows_setActive _ _ _
      split
      · exact hact.trans ((grows_setPassword _ _).trans (grows_revokeWhere _ _))
      · exact hact
    · exact Grows.refl _

/-! ### Runs whose requests are clear -/

structure Inv (s : State) : Prop where
  rows : RowsBelow s
  revoked : ∀ r t, s.revokedAt r = some t → t < s.seq ∧ r < s.nextRow
  served : ∀ ev ∈ s.served, ev.seq < s.seq
  ended : AccessEnded s

/-- A cookie issued now was not issued before an earlier moment. -/
private theorem issuedTo_of_append {s s' : State} {new : List Issue} (h : s'.issues = s.issues ++ new)
    (hnew : ∀ i ∈ new, i.seq = s.seq) {b : Browser} {t : Nat} (ht : t < s.seq) {c : Cookie} (hc : s'.IssuedTo b t c) :
    s.IssuedTo b t c := by
  obtain ⟨i, hi, hb, hlt, hcookie⟩ := hc
  rw [h, List.mem_append] at hi
  rcases hi with hi | hi
  · exact ⟨i, hi, hb, hlt, hcookie⟩
  · have := hnew i hi
    omega

private theorem Inv.answer {s : State} {req : Request} (hI : Inv s) (hc : Clear s (.request req)) : Inv (answer s req) := by
  have hg : Grows s (view req (hooks s req)).state := (grows_hooks s req).trans (grows_view req _)
  have hrev : ∀ r t, (Sessions.answer s req).revokedAt r = some t → s.revokedAt r = some t ∨
      t = s.seq ∧ r < (Sessions.answer s req).nextRow := hg.revoked hI.rows
  have hback : ∀ {b t c}, t < s.seq → (Sessions.answer s req).IssuedTo b t c → s.IssuedTo b t c := by
    intro b t c ht h
    refine issuedTo_of_append (by simp only [Sessions.answer, hg.issues]; rfl) ?_ ht h
    intro i hi
    obtain ⟨c, -, rfl⟩ := List.mem_map.mp hi
    rfl
  have hfrom : ∀ {r t se re ma}, s.revokedAt r = some t →
      (Sessions.answer s req).OnlyFrom ((Sessions.answer s req).owner r) t se re ma → s.OnlyFrom (s.owner r) t se re ma := by
    intro r t se re ma hr h
    obtain ⟨ht, hlt⟩ := hI.revoked r t hr
    have howner : (Sessions.answer s req).owner r = s.owner r := hg.owner r hlt
    rw [howner] at h
    exact ⟨h.1.imp id (hback ht), fun u hu => hback ht (h.2.1 u hu), fun m hm => hback ht (h.2.2 m hm)⟩
  refine ⟨hg.rows hI.rows, ?_, ?_, ?_⟩
  · intro r t ht
    rcases hrev r t ht with ht | ⟨rfl, hr⟩
    · exact ⟨Nat.lt_succ_of_lt (hI.revoked r t ht).1, Nat.lt_of_lt_of_le (hI.revoked r t ht).2 hg.next⟩
    · exact ⟨Nat.lt_succ_self _, hr⟩
  · intro ev hev
    simp only [Sessions.answer, hg.served, List.mem_append, Option.mem_toList] at hev
    rcases hev with hev | hev
    · exact Nat.lt_succ_of_lt (hI.served ev hev)
    · obtain ⟨u, -, rfl⟩ := Option.map_eq_some_iff.mp hev
      exact Nat.lt_succ_self _
  · intro ev hev r t ht hlt honly
    simp only [Sessions.answer, hg.served, List.mem_append, Option.mem_toList] at hev
    rcases hev with hev | hev
    · rcases hrev r t ht with ht | ⟨rfl, -⟩
      · exact hI.ended ev hev r t ht hlt (hfrom ht honly)
      · exact absurd (hI.served ev hev) (by omega)
    · obtain ⟨u, hu, rfl⟩ := Option.map_eq_some_iff.mp hev
      rcases hrev r t ht with ht | ⟨rfl, -⟩
      · obtain ⟨hsess, hrem⟩ := hc r t ht (hfrom ht honly)
        by_contra hfresh
        rcases brings_of_served hu (by simpa using hfresh) with h | h
        · simp [hsess] at h
        · simp [hrem] at h
      · exact absurd hlt (Nat.lt_irrefl _)

/-- In every run in which, after a row has been revoked, no request with nothing but earlier cookies of its browser
brings another live session or a remembered login, the revocation ends the browser's access. -/
theorem accessEnded_of_clear {s : State} (h : system.Reach Clear s) : AccessEnded s := by
  have hI : Inv s := by
    refine h.invariant (I := Inv) ?_ ?_
    · rintro s ⟨hrows, hrev, -, hserved⟩
      exact ⟨by simp [RowsBelow, hrows], by simp [hrev], by simp [hserved], by simp [AccessEnded, hserved]⟩
    · intro s e s' hI hc hs
      cases e with
      | request req =>
        simp only [system, step] at hs
        split at hs
        · obtain rfl := Option.some.inj hs
          exact hI.answer hc
        · cases hs
      | tick =>
        obtain rfl := Option.some.inj hs
        exact ⟨hI.rows, hI.revoked, hI.served, hI.ended⟩
  exact hI.ended

/-- Active accounts, no sessions yet. -/
def State.start : State :=
  { users := fun _ => some { active := true, mustChange := false, epoch := none }, rows := fun _ => none, nextRow := 0
    clock := 0, seq := 0, issues := [], revokedAt := fun _ => none, owner := fun _ => 0, served := [] }

private theorem initial_start : Initial State.start := ⟨fun _ => rfl, fun _ => rfl, rfl, rfl⟩

/-- A request without local bypass and Cloudflare. -/
def plainRequest (b : Browser) (session : Session) (remember : Option UserId) (marker : Option Marker) (a : Action) :
    Request :=
  { browser := b, session := session, remember := remember, marker := marker, bypassHolds := false, bypassUser := 0
    cf := none, exempt := false, action := a }

/-- User 5 logs in with "remember me" in browser 0, user 9 in browser 1, and user 9 revokes row 0. -/
def revocationRun : List Label :=
  [.request (plainRequest 0 Session.empty none none (.login 5 true)),
   .request (plainRequest 1 Session.empty none none (.login 9 false)),
   .request (plainRequest 1 { user := some 9, row := some 1, bypass := false } none none (.revokeAny 0))]

/-- After the revocation, browser 0's session cookie is refused. -/
theorem revoked_session_refused : ∃ s, system.Reach Clear s ∧ AccessEnded s ∧ s.revokedAt 0 = some 2 ∧ s.seq = 4 ∧
    s.served.map (fun ev => ev.user) = [9] := by
  have r0 : system.Reach Clear State.start := .init initial_start
  have r1 := r0.next (.request (plainRequest 0 Session.empty none none (.login 5 true)))
    (fun r t h => by cases h) rfl
  have r2 := r1.next (.request (plainRequest 1 Session.empty none none (.login 9 false))) (fun r t h => by cases h) rfl
  have r3 := r2.next (.request (plainRequest 1 { user := some 9, row := some 1, bypass := false } none none (.revokeAny 0)))
    (fun r t h => by cases h) rfl
  have r4 := r3.next (.request (plainRequest 0 { user := some 5, row := some 0, bypass := false } none none .page))
    (fun r t _ _ => ⟨rfl, rfl⟩) rfl
  exact ⟨_, r4, accessEnded_of_clear r4, rfl, rfl, rfl⟩

/-- The remember cookie and its marker survive the revocation: they restore a login, with a row of its own. -/
theorem remember_survives_revocation : ¬ ∀ s, system.Reachable s → AccessEnded s := by
  intro h
  have r : system.exec State.start (revocationRun ++
      [.request (plainRequest 0 Session.empty (some 5) (some { uid := 5, pwd := none, signedAt := 0 }) .page)]) =
        some _ := rfl
  have hx := h _ (System.reachable_of_exec initial_start r)
  have hbad := hx _ (List.mem_append_right _ (List.mem_singleton_self _)) 0 2 rfl (by decide) ⟨.inl rfl,
    by rintro u hu; cases hu; exact ⟨_, .tail _ (.head _), rfl, by decide, rfl⟩,
    by rintro m hm; cases hm; exact ⟨_, .tail _ (.tail _ (.head _)), rfl, by decide, rfl⟩⟩
  cases hbad

end ProxmoxTool.Sessions
