import ProxmoxTool.Auth.ClientIp
import ProxmoxTool.Auth.Sessions

/-!
# The local-network bypass

`auth/local_network.py` on top of the sessions of `Auth.Sessions`: here a request comes with its peer, its headers and its cookies, the
two settings of the bypass are part of the state, and whether the bypass holds is computed from them.  Between two requests the
settings, the accounts and the session rows may change in any way.

A session is that of a login, and every login opens a row, so `established` records the rows of the logins by the bypass.  The session
cookie carries the mark `_local_bypass` along (`Inv.marked`), and the hook re-validates the sessions that have it.  But the hook that
forces a password change comes first and answers in its place: `bypass_revalidated_iff`.
-/

namespace ProxmoxTool.LocalBypass

open ClientIp Sessions

/-! ### The networks -/

/-- `_prefix_from_prefix_string`. -/
def prefixFromString (width : Nat) (t : Text) : Option Nat :=
  if t ≠ [] ∧ t.all Char.isDigit ∧ Nat.ofDigitChars 10 t 0 ≤ width then some (Nat.ofDigitChars 10 t 0) else none

/-- `_prefix_from_ip_int`: ones, and then zeros. -/
def prefixFromInt (n : Nat) : Option Nat := (List.range 33).find? fun k => n = 2 ^ 32 - 2 ^ (32 - k)

/-- `_prefix_from_ip_string`: a netmask, or else a host mask. -/
def prefixFromMask (t : Text) : Option Nat :=
  (ipv4Int t).bind fun n => (prefixFromInt n).or (prefixFromInt (2 ^ 32 - 1 - n))

/-- `ipaddress.ip_network` with `strict=False`; `none` for a `ValueError`. -/
def ipNetwork (t : Text) : Option Network :=
  match t.splitOn '/' with
  | [addr] => ((ipv4Int addr).map fun n => ⟨.v4 n, 32⟩).or ((ipv6Int addr).map fun n => ⟨.v6 n, 128⟩)
  | [addr, mask] =>
    ((ipv4Int addr).bind fun n => ((prefixFromString 32 mask).or (prefixFromMask mask)).map fun k => ⟨.v4 n, k⟩).or
      ((ipv6Int addr).bind fun n => (prefixFromString 128 mask).map fun k => ⟨.v6 n, k⟩)
  | _ => none

/-- The rows `local_bypass_enabled` and `trusted_subnets` of the settings. -/
structure Settings where
  localBypassEnabled : Option Text
  trustedSubnets : Option Text

/-- `_get_trusted_networks`: an entry that cannot be read is passed over. -/
def getTrustedNetworks (settings : Settings) : List Network :=
  (((settings.trustedSubnets.getD []).splitOn ',').map strip).filterMap fun entry => if entry = [] then none else ipNetwork entry

/-- `_bypass_enabled`. -/
def bypassEnabled (settings : Settings) : Bool := decide (settings.localBypassEnabled.getD "false".toList ≠ "false".toList)

/-- `_is_trusted`. -/
def isTrusted (clientIp : Option Text) (networks : List Network) : Bool :=
  (clientIp.bind ipAddress).any fun addr => networks.any fun net => net.contains addr

/-! ### Requests -/

/-- What decides on a client's address: which addresses are loopback or private, Werkzeug's `ProxyFix`, and the two settings of the
deployment. -/
structure Proxies where
  isLocal : Address → Bool
  fix : ProxyFix
  count : Nat
  peers : Option (List Network)

def Proxies.clientIp (proxies : Proxies) (peer : Text) (headers : Headers) : Option Text :=
  ClientIp.clientIp proxies.isLocal proxies.fix proxies.count proxies.peers peer headers

/-- A request outside `/static/` and `/api/v1/`: where it comes from, its header lines, its cookies that are not signed, the signed ones
as in `Auth.Sessions`, the account `admin` that the bypass finds, the account of a valid Cloudflare token, and what its view does. -/
structure Visit where
  browser : Browser
  peer : Text
  headers : Headers
  cookies : List (Text × Text)
  session : Session
  remember : Option UserId
  marker : Option Marker
  admin : UserId
  cf : Option UserId
  endpoint : Option Text
  action : Action

def cloudflareHeaders : List Text :=
  ["cf-access-jwt-assertion".toList, cfConnectingIp, "cf-ray".toList]

def cloudflareCookies : List Text := ["CF_Authorization".toList]

/-- `request.cookies.get`: the first cookie of the name. -/
def Visit.cookie (v : Visit) (name : Text) : Option Text := (v.cookies.find? fun c => decide (c.1 = name)).map Prod.snd

/-- `_came_through_cloudflare`. -/
def cameThroughCloudflare (v : Visit) : Bool :=
  cloudflareHeaders.any (fun name => decide ((v.headers.get name).getD [] ≠ [])) ||
    cloudflareCookies.any fun name => decide ((v.cookie name).getD [] ≠ [])

/-- `_bypass_session_still_valid`, and the same three checks before a login by the bypass. -/
def bypassSessionStillValid (proxies : Proxies) (settings : Settings) (v : Visit) : Bool :=
  bypassEnabled settings && !cameThroughCloudflare v &&
    isTrusted (proxies.clientIp v.peer v.headers) (getTrustedNetworks settings)

/-- `_FORCED_CHANGE_EXEMPT`. -/
def forcedChangeExempt : List Text :=
  ["static".toList, "auth.login".toList, "auth.logout".toList, "auth.change_password".toList, "health_check".toList]

def Visit.exempt (v : Visit) : Bool := v.endpoint.any fun e => decide (e ∈ forcedChangeExempt)

/-- The request as the hooks of `Auth.Sessions` see it. -/
def Visit.request (proxies : Proxies) (settings : Settings) (v : Visit) : Sessions.Request :=
  { browser := v.browser, session := v.session, remember := v.remember, marker := v.marker
    bypassHolds := bypassSessionStillValid proxies settings v, bypassUser := v.admin, cf := v.cf, exempt := v.exempt
    action := v.action }

/-! ### Runs -/

/-- `established` are the rows of the logins that the bypass has made. -/
structure State where
  settings : Settings
  sessions : Sessions.State
  established : List RowId

structure Initial (s : State) : Prop where
  sessions : Sessions.Initial s.sessions
  established : s.established = []

/-- The row of a login that the bypass makes in this request. -/
def bypassLogins (s : Sessions.State) (req : Sessions.Request) : List RowId :=
  let before := enforceRemember req (loadUser s req)
  if (localNetworkBypass req before).fresh then [before.state.nextRow] else []

/-- A request, or a change of the settings, of the accounts or of the session rows from elsewhere. -/
inductive Label
  | request (v : Visit)
  | settings (settings : Settings)
  | users (users : UserId → Option User)
  | rows (rows : RowId → Option Row)
  | tick

def answered (proxies : Proxies) (s : State) (v : Visit) : State :=
  let req := v.request proxies s.settings
  { s with sessions := answer s.sessions req, established := s.established ++ bypassLogins s.sessions req }

def step (proxies : Proxies) (s : State) : Label → Option State
  | .request v => if carriesIssued s.sessions (v.request proxies s.settings) then some (answered proxies s v) else none
  | .settings settings => some { s with settings := settings }
  | .users users => some { s with sessions := { s.sessions with users := users } }
  | .rows rows => some { s with sessions := { s.sessions with rows := rows } }
  | .tick => some { s with sessions := { s.sessions with clock := s.sessions.clock + 1 } }

def system (proxies : Proxies) : System State Label := { init := Initial, step := step proxies }

/-! ### The property -/

/-- The conditions of the bypass. -/
structure Conditions (proxies : Proxies) (settings : Settings) (v : Visit) : Prop where
  enabled : settings.localBypassEnabled.getD "false".toList ≠ "false".toList
  headers : ∀ name ∈ cloudflareHeaders, (v.headers.get name).getD [] = []
  cookies : ∀ name ∈ cloudflareCookies, (v.cookie name).getD [] = []
  trusted : ∃ ip, proxies.clientIp v.peer v.headers = some ip ∧ ∃ addr, ipAddress ip = some addr ∧
    ∃ net ∈ getTrustedNetworks settings, net.contains addr = true

/-- The request brings a session of user `u` that the bypass has established: its row is still that of the bypass's login. -/
structure Brings (s : State) (v : Visit) (u : UserId) (r : RowId) : Prop where
  user : v.session.user = some u
  active : s.sessions.isActive u = true
  row : v.session.row = some r
  established : r ∈ s.established

/-- The session of row `r` is ended: the row is dead, the browser is left with another session or none, and the request is not handled
as a user, except by a login of its own. -/
structure Ended (proxies : Proxies) (s : State) (v : Visit) (r : RowId) : Prop where
  row : (answered proxies s v).sessions.rowLive (some r) = false
  session : (view (v.request proxies s.settings) (hooks s.sessions (v.request proxies s.settings))).session.row ≠ some r
  user : (hooks s.sessions (v.request proxies s.settings)).user = none ∨
    (hooks s.sessions (v.request proxies s.settings)).fresh = true

/-- A request with a session that the bypass has established meets the conditions of the bypass, or ends the session. -/
def Revalidated (proxies : Proxies) (s : State) : Label → Prop
  | .request v => ∀ u r, Brings s v u r → Conditions proxies s.settings v ∨ Ended proxies s v r
  | _ => True

/-- The user of such a session owes no password change, or the endpoint is one of those open to a user who does, or the conditions are
met. -/
def NotForced (proxies : Proxies) (s : State) : Label → Prop
  | .request v => ∀ u r, Brings s v u r →
      Conditions proxies s.settings v ∨ v.exempt = true ∨ ((s.sessions.users u).any fun x => x.mustChange) = false
  | _ => True

/-! ### The conditions as the code checks them -/

theorem isTrusted_iff (clientIp : Option Text) (networks : List Network) : isTrusted clientIp networks = true ↔
    ∃ ip, clientIp = some ip ∧ ∃ addr, ipAddress ip = some addr ∧ ∃ net ∈ networks, net.contains addr = true := by
  unfold isTrusted
  cases clientIp with
  | none => simp
  | some ip =>
    cases haddr : ipAddress ip with
    | none => simp [haddr]
    | some addr => simp [haddr]

theorem cameThroughCloudflare_eq_false_iff (v : Visit) : cameThroughCloudflare v = false ↔
    (∀ name ∈ cloudflareHeaders, (v.headers.get name).getD [] = []) ∧
      ∀ name ∈ cloudflareCookies, (v.cookie name).getD [] = [] := by
  unfold cameThroughCloudflare
  rw [Bool.or_eq_false_iff, List.any_eq_false, List.any_eq_false]
  simp only [ne_eq, decide_not, Bool.not_eq_true', decide_eq_false_iff_not, not_not]

theorem bypassSessionStillValid_iff (proxies : Proxies) (settings : Settings) (v : Visit) :
    bypassSessionStillValid proxies settings v = true ↔ Conditions proxies settings v := by
  unfold bypassSessionStillValid bypassEnabled
  rw [Bool.and_eq_true, Bool.and_eq_true, decide_eq_true_iff, Bool.not_eq_true', cameThroughCloudflare_eq_false_iff, isTrusted_iff]
  constructor
  · rintro ⟨⟨henabled, hheaders, hcookies⟩, htrusted⟩
    exact ⟨henabled, hheaders, hcookies, htrusted⟩
  · rintro ⟨henabled, hheaders, hcookies, htrusted⟩
    exact ⟨⟨henabled, hheaders, hcookies⟩, htrusted⟩

/-! ### The mark goes with the row -/

/-- The row of a session has been given out, and if the bypass has opened it, then the session is marked. -/
def Marked (established : List RowId) (n : RowId) (c : Session) : Prop :=
  ∀ r, c.row = some r → r < n ∧ (r ∈ established → c.bypass = true)

structure Inv (s : State) : Prop where
  below : ∀ r ∈ s.established, r < s.sessions.nextRow
  marked : ∀ i ∈ s.sessions.issues, ∀ c, i.cookie = .session c → Marked s.established s.sessions.nextRow c

/-- The invariant of a request on its way. -/
structure FlowInv (established : List RowId) (f : Flow) : Prop where
  below : ∀ r ∈ established, r < f.state.nextRow
  marked : Marked established f.state.nextRow f.session

section

variable {established : List RowId} {n : RowId} {c : Session}

theorem marked_of_no_row (h : c.row = none) : Marked established n c := by
  intro r hr
  rw [h] at hr
  cases hr

theorem Marked.congr {c' : Session} (h : Marked established n c) (hrow : c'.row = c.row) (hbypass : c'.bypass = c.bypass) :
    Marked established n c' := by
  intro r hr
  rw [hbypass]
  exact h r (hrow ▸ hr)

theorem Marked.mono {m : RowId} (h : Marked established n c) (hle : n ≤ m) : Marked established m c := by
  intro r hr
  exact ⟨Nat.lt_of_lt_of_le (h r hr).1 hle, (h r hr).2⟩

/-- A row that is new is none of the bypass's. -/
theorem marked_of_new (hbelow : ∀ r ∈ established, r < n) (hrow : c.row = some n) : Marked established (n + 1) c := by
  intro r hr
  obtain rfl : n = r := Option.some.inj (hrow.symm.trans hr)
  exact ⟨Nat.lt_succ_self n, fun hmem => absurd (hbelow n hmem) (Nat.lt_irrefl n)⟩

/-- The row that the bypass opens comes with the mark. -/
theorem marked_of_bypass (hrow : c.row = some n) (hbypass : c.bypass = true) : Marked established (n + 1) c := by
  intro r hr
  obtain rfl : n = r := Option.some.inj (hrow.symm.trans hr)
  exact ⟨Nat.lt_succ_self n, fun _ => hbypass⟩

theorem below_succ (hbelow : ∀ r ∈ established, r < n) : ∀ r ∈ established, r < n + 1 :=
  fun r hr => Nat.lt_succ_of_lt (hbelow r hr)

theorem flowInv_loadUser {s : Sessions.State} {req : Sessions.Request} (hbelow : ∀ r ∈ established, r < s.nextRow)
    (hmarked : Marked established s.nextRow req.session) : FlowInv established (loadUser s req) := by
  unfold loadUser
  split
  · exact ⟨hbelow, hmarked⟩
  · split
    · exact ⟨hbelow, hmarked⟩
    · split
      · exact ⟨below_succ hbelow, marked_of_new hbelow rfl⟩
      · exact ⟨hbelow, hmarked.congr rfl rfl⟩

variable {req : Sessions.Request} {f : Flow}

theorem FlowInv.enforceRemember (h : FlowInv established f) : FlowInv established (enforceRemember req f) := by
  unfold Sessions.enforceRemember
  split
  · exact h
  · split
    · exact ⟨h.below, marked_of_no_row rfl⟩
    · split
      · exact ⟨h.below, h.marked⟩
      · exact h

theorem fresh_enforceRemember : (Sessions.enforceRemember req f).fresh = f.fresh := by
  unfold Sessions.enforceRemember
  split
  · rfl
  · split
    · rfl
    · split <;> rfl

theorem fresh_loadUser (s : Sessions.State) (req : Sessions.Request) : (loadUser s req).fresh = false := by
  unfold loadUser
  split
  · rfl
  · split
    · rfl
    · split <;> rfl

theorem FlowInv.localNetworkBypass (h : FlowInv established f) (hfresh : f.fresh = false) :
    FlowInv (established ++ if (localNetworkBypass req f).fresh then [f.state.nextRow] else [])
      (localNetworkBypass req f) := by
  have hsame : FlowInv (established ++ if f.fresh then [f.state.nextRow] else []) f := by
    rw [hfresh, if_neg Bool.false_ne_true, List.append_nil]
    exact h
  unfold Sessions.localNetworkBypass
  split
  · exact hsame
  · split
    · split
      · refine ⟨?_, marked_of_no_row rfl⟩
        rw [hfresh, if_neg Bool.false_ne_true, List.append_nil]
        exact h.below
      · exact hsame
    · split
      · refine ⟨?_, marked_of_bypass rfl rfl⟩
        intro r hr
        rcases List.mem_append.1 hr with hr | hr
        · exact below_succ h.below r hr
        · rw [List.mem_singleton.1 hr]
          exact Nat.lt_succ_self _
      · exact hsame

theorem FlowInv.checkCfAccess (h : FlowInv established f) : FlowInv established (checkCfAccess req f) := by
  unfold Sessions.checkCfAccess
  split
  · exact h
  · split
    · split
      · exact ⟨below_succ h.below, marked_of_new h.below rfl⟩
      · exact h
    · exact h

theorem FlowInv.enforceSessionState (h : FlowInv established f) : FlowInv established (enforceSessionState f) := by
  unfold Sessions.enforceSessionState
  split
  · exact h
  · split
    · exact h
    · split
      · exact ⟨h.below, h.marked.congr rfl rfl⟩
      · split
        · exact h
        · exact ⟨h.below, marked_of_no_row rfl⟩

theorem FlowInv.view (h : FlowInv established f) :
    Marked established (view req f).state.nextRow (view req f).session := by
  unfold Sessions.view
  dsimp only
  split
  · exact h.marked
  · split
    · split
      · exact marked_of_new h.below rfl
      · exact h.marked
    · exact h.marked.congr rfl rfl
    · exact h.marked
    · exact h.marked
    · exact h.marked
    · exact h.marked
    · refine h.marked.mono (Nat.le_of_eq ?_)
      split <;> split <;> rfl
    · exact h.marked

/-- The session cookie of an answer is that of the session the view leaves. -/
theorem session_not_mem_cookies (c : Session) : Cookie.session c ∉ (Sessions.view req f).cookies := by
  unfold Sessions.view
  dsimp only
  split
  · simp
  · split
    · split
      · dsimp only
        split <;> simp
      · simp
    · simp
    · dsimp only
      split <;> simp
    · simp
    · simp
    · simp
    · simp
    · simp

end

section

variable {proxies : Proxies} {s : State} {v : Visit}

theorem marked_of_carries {req : Sessions.Request} (h : Inv s) (hcarries : carriesIssued s.sessions req = true) :
    Marked s.established s.sessions.nextRow req.session := by
  unfold carriesIssued at hcarries
  simp only [Bool.and_eq_true, Bool.or_eq_true, List.any_eq_true, decide_eq_true_iff] at hcarries
  rcases hcarries.1.1 with hempty | ⟨i, hi, hcookie⟩
  · rw [hempty]
    exact marked_of_no_row rfl
  · exact h.marked i hi _ hcookie

theorem flowInv_hooks {req : Sessions.Request} (h : Inv s) (hcarries : carriesIssued s.sessions req = true) :
    FlowInv (s.established ++ bypassLogins s.sessions req) (hooks s.sessions req) := by
  have hload := flowInv_loadUser h.below (marked_of_carries h hcarries)
  have hfresh : (enforceRemember req (loadUser s.sessions req)).fresh = false := by
    rw [fresh_enforceRemember, fresh_loadUser]
  exact (hload.enforceRemember.localNetworkBypass hfresh).checkCfAccess.enforceSessionState

/-- What was marked before an answer is marked after it: the row that the bypass may have opened is new. -/
theorem Marked.later {c : Session} {opened : List RowId} {n m : RowId} (h : Marked s.established n c) (hle : n ≤ m)
    (hopened : ∀ r ∈ opened, n ≤ r) : Marked (s.established ++ opened) m c := by
  intro r hr
  obtain ⟨hlt, hmark⟩ := h r hr
  refine ⟨Nat.lt_of_lt_of_le hlt hle, fun hmem => ?_⟩
  rcases List.mem_append.1 hmem with hmem | hmem
  · exact hmark hmem
  · exact absurd (hopened r hmem) (Nat.not_le_of_lt hlt)

theorem le_of_mem_bypassLogins {s : Sessions.State} {req : Sessions.Request} {r : RowId} (h : r ∈ bypassLogins s req) :
    s.nextRow ≤ r := by
  unfold bypassLogins at h
  dsimp only at h
  split at h
  · rw [List.mem_singleton.1 h]
    exact ((grows_loadUser s req).trans (grows_enforceRemember req _)).next
  · cases h

theorem Inv.answered (h : Inv s) (hcarries : carriesIssued s.sessions (v.request proxies s.settings) = true) :
    Inv (answered proxies s v) := by
  have hflow := flowInv_hooks h hcarries
  have hhooks := grows_hooks s.sessions (v.request proxies s.settings)
  have hview := grows_view (v.request proxies s.settings) (hooks s.sessions (v.request proxies s.settings))
  refine ⟨fun r hr => Nat.lt_of_lt_of_le (hflow.below r hr) hview.next, fun i hi c hcookie => ?_⟩
  rcases List.mem_append.1 hi with hi | hi
  · rw [hview.issues, hhooks.issues] at hi
    exact (h.marked i hi c hcookie).later (Nat.le_trans hhooks.next hview.next) fun r => le_of_mem_bypassLogins
  · obtain ⟨cookie, hmem, rfl⟩ := List.mem_map.1 hi
    obtain rfl : cookie = .session c := hcookie
    rcases List.mem_append.1 hmem with hmem | hmem
    · split at hmem
      · cases hmem
      · cases List.mem_singleton.1 hmem
        exact hflow.view
    · exact absurd hmem (session_not_mem_cookies c)

theorem Inv.step {s' : State} {e : Label} (h : Inv s) (hstep : step proxies s e = some s') : Inv s' := by
  cases e with
  | request v =>
    obtain ⟨hcarries, rfl⟩ := System.of_guard hstep
    exact h.answered hcarries
  | settings | users | rows | tick =>
    cases hstep
    exact ⟨h.below, h.marked⟩

theorem inv_init (h : Initial s) : Inv s := by
  refine ⟨fun r hr => ?_, fun i hi => ?_⟩
  · rw [h.established] at hr
    cases hr
  · rw [h.sessions.issues] at hi
    cases hi

end

/-! ### A session that is ended -/

section

variable {r : RowId} {s : Sessions.State}

theorem rowLive_startSession (u : UserId) (b : Browser) (hr : r < s.nextRow) :
    (s.startSession u b).rowLive (some r) = s.rowLive (some r) := by
  unfold Sessions.State.rowLive
  rw [Option.bind_some, Option.bind_some, Sessions.State.startSession]
  dsimp only
  rw [Function.update_of_ne (Nat.ne_of_lt hr)]

theorem rowLive_revokeWhere {p : RowId → Row → Bool} (h : s.rowLive (some r) = false) :
    (s.revokeWhere p).rowLive (some r) = false := by
  unfold Sessions.State.rowLive at *
  rw [Option.bind_some] at *
  rw [Sessions.State.revokeWhere]
  dsimp only
  cases hrow : s.rows r with
  | none => rfl
  | some row =>
    rw [hrow, Option.any_some] at h
    rw [Option.map_some, Option.any_some]
    split
    · rfl
    · exact h

theorem rowLive_revokeWhere_self {p : RowId → Row → Bool} (h : ∀ row, p r row = true) :
    (s.revokeWhere p).rowLive (some r) = false := by
  unfold Sessions.State.rowLive
  rw [Option.bind_some, Sessions.State.revokeWhere]
  dsimp only
  cases hrow : s.rows r with
  | none => rfl
  | some row =>
    rw [Option.map_some, Option.any_some, if_pos (h row)]
    rfl

/-- The session of row `r` is gone from the request. -/
structure Gone (r : RowId) (f : Flow) : Prop where
  session : f.session.row ≠ some r
  row : f.state.rowLive (some r) = false
  given : r < f.state.nextRow
  user : f.user = none ∨ f.fresh = true

variable {req : Sessions.Request} {f : Flow}

theorem Gone.checkCfAccess (h : Gone r f) : Gone r (checkCfAccess req f) := by
  unfold Sessions.checkCfAccess
  split
  · exact h
  · split
    · split
      · refine ⟨fun hrow => ?_, ?_, Nat.lt_succ_of_lt h.given, .inr rfl⟩
        · exact absurd (Option.some.inj hrow) (Nat.ne_of_gt h.given)
        · exact (rowLive_startSession _ _ h.given).trans h.row
      · exact h
    · exact h

theorem Gone.enforceSessionState (h : Gone r f) : Gone r (enforceSessionState f) := by
  unfold Sessions.enforceSessionState
  split
  · exact h
  · split
    · exact h
    · split
      · exact ⟨h.session, h.row, h.given, .inl rfl⟩
      · split
        · exact h
        · exact ⟨nofun, h.row, h.given, .inl rfl⟩

theorem Gone.view (h : Gone r f) (req : Sessions.Request) : (view req f).session.row ≠ some r ∧ (view req f).state.rowLive (some r) = false := by
  unfold Sessions.view
  dsimp only
  split
  · exact ⟨h.session, h.row⟩
  · split
    · split
      · refine ⟨fun hrow => ?_, ?_⟩
        · exact absurd (Option.some.inj hrow) (Nat.ne_of_gt h.given)
        · exact (rowLive_startSession _ _ h.given).trans h.row
      · exact ⟨h.session, h.row⟩
    · exact ⟨h.session, rowLive_revokeWhere h.row⟩
    · exact ⟨h.session, rowLive_revokeWhere h.row⟩
    · exact ⟨h.session, rowLive_revokeWhere h.row⟩
    · exact ⟨h.session, rowLive_revokeWhere h.row⟩
    · exact ⟨h.session, rowLive_revokeWhere h.row⟩
    · refine ⟨h.session, ?_⟩
      split
      · refine rowLive_revokeWhere ?_
        split <;> exact h.row
      · split <;> exact h.row
    · exact ⟨h.session, h.row⟩

/-- The flow of a request whose session names an active account. -/
theorem loadUser_of_session (req : Sessions.Request) {u : UserId} (huser : req.session.user = some u) (hactive : s.isActive u = true) : loadUser s req =
    { state := s, session := req.session, user := some u, rejected := false, fresh := false, answered := false } := by
  have hsome : (s.users u).isSome = true := by
    cases hu : s.users u with
    | none =>
      rw [Sessions.State.isActive, hu] at hactive
      cases hactive
    | some x => rfl
  unfold loadUser
  rw [huser, Option.filter_some, if_pos hsome]
  dsimp only
  rw [Sessions.State.authenticated, if_pos hactive]

end

section

variable {proxies : Proxies} {s : State} {v : Visit} {u : UserId} {r : RowId}

/-- A forced password change is answered before the bypass is asked, and the session stays as it is. -/
theorem not_ended_of_forced (hb : Brings s v u r) (hexempt : v.exempt = false)
    (hforced : ((s.sessions.users u).any fun x => x.mustChange) = true) : ¬ Ended proxies s v r := by
  rintro ⟨-, -, hend⟩
  have hload := loadUser_of_session (v.request proxies s.settings) hb.user hb.active
  have hflow : hooks s.sessions (v.request proxies s.settings) =
      { state := s.sessions, session := v.session, user := some u, rejected := false, fresh := false, answered := true } := by
    unfold hooks
    rw [hload]
    unfold enforceRemember
    dsimp only
    have hexempt' : (v.request proxies s.settings).exempt = false := hexempt
    rw [if_neg Bool.false_ne_true, hforced, hexempt']
    rfl
  rw [hflow] at hend
  rcases hend with hend | hend
  · cases hend
  · cases hend

/-- A session with the mark is ended if the conditions are not met and no password change is forced. -/
theorem ended_of_marked (hb : Brings s v u r) (hmarked : Marked s.established s.sessions.nextRow v.session)
    (hconditions : bypassSessionStillValid proxies s.settings v = false)
    (hfree : v.exempt = true ∨ ((s.sessions.users u).any fun x => x.mustChange) = false) : Ended proxies s v r := by
  obtain ⟨hgiven, hmark⟩ := hmarked r hb.row
  have hload := loadUser_of_session (v.request proxies s.settings) hb.user hb.active
  have hremember : enforceRemember (v.request proxies s.settings) (loadUser s.sessions (v.request proxies s.settings)) =
      loadUser s.sessions (v.request proxies s.settings) := by
    rw [hload]
    unfold enforceRemember
    dsimp only
    rw [if_neg Bool.false_ne_true, if_neg]
    rcases hfree with hfree | hfree
    · have hexempt : (v.request proxies s.settings).exempt = true := hfree
      simp [hexempt]
    · simp [hfree]
  have hgone : Gone r (localNetworkBypass (v.request proxies s.settings)
      (enforceRemember (v.request proxies s.settings) (loadUser s.sessions (v.request proxies s.settings)))) := by
    rw [hremember, hload]
    unfold localNetworkBypass
    dsimp only
    have hsession : (v.request proxies s.settings).session.bypass = true := hmark hb.established
    have hholds : (v.request proxies s.settings).bypassHolds = false := hconditions
    rw [if_neg Bool.false_ne_true, hsession, hholds, Bool.not_false, Bool.and_self, if_pos rfl]
    exact ⟨nofun, rowLive_revokeWhere_self fun row => decide_eq_true hb.row, hgiven, .inl rfl⟩
  have hhooks : Gone r (hooks s.sessions (v.request proxies s.settings)) := hgone.checkCfAccess.enforceSessionState
  obtain ⟨hsession, hrow⟩ := hhooks.view (v.request proxies s.settings)
  exact ⟨hrow, hsession, hhooks.user⟩

theorem revalidated_iff {e : Label} {s' : State} (hinv : Inv s) (hstep : step proxies s e = some s') :
    Revalidated proxies s e ↔ NotForced proxies s e := by
  cases e with
  | request v =>
    obtain ⟨hcarries, -⟩ := System.of_guard hstep
    refine forall_congr' fun u => forall_congr' fun r => imp_congr_right fun hb => or_congr_right' fun hnot => ?_
    constructor
    · intro hended
      cases hexempt : v.exempt with
      | true => exact .inl rfl
      | false =>
        refine .inr (Bool.eq_false_iff.2 fun hforced => ?_)
        exact not_ended_of_forced hb hexempt hforced hended
    · intro hfree
      have hconditions : bypassSessionStillValid proxies s.settings v = false :=
        Bool.eq_false_iff.2 fun h => hnot ((bypassSessionStillValid_iff _ _ _).1 h)
      exact ended_of_marked hb (marked_of_carries hinv hcarries) hconditions hfree
  | settings settings => exact Iff.rfl
  | users users => exact Iff.rfl
  | rows rows => exact Iff.rfl
  | tick => exact Iff.rfl

end

/-- In every run of requests from any clients, with any changes of the settings, the accounts and the session rows in between, every
request with a session of the bypass meets the conditions of the bypass or ends the session exactly if, in every such request without
the conditions, the user owes no password change or the endpoint is one of those left open to a user who does. -/
theorem bypass_revalidated_iff (proxies : Proxies) {s : State} (hinit : Initial s) (run : List Label) :
    (system proxies).Meets (Revalidated proxies) s run ↔ (system proxies).Meets (NotForced proxies) s run := by
  constructor
  · refine System.Meets.imp (I := Inv) (fun s e s' hinv hok hstep => ⟨hinv.step hstep, ?_⟩) (inv_init hinit)
    exact (revalidated_iff hinv hstep).1 hok
  · refine System.Meets.imp (I := Inv) (fun s e s' hinv hok hstep => ⟨hinv.step hstep, ?_⟩) (inv_init hinit)
    exact (revalidated_iff hinv hstep).2 hok

/-! ### A LAN client -/

def exampleProxies : Proxies := { isLocal := exampleLocal, fix := listHeader, count := 0, peers := none }

/-- The account `admin` of a new installation still has the password it was made with, and the bypass is on for a subnet. -/
def exampleStart (mustChange : Bool) : State :=
  { settings := { localBypassEnabled := some "true".toList, trustedSubnets := some "192.168.1.0/24".toList }
    sessions := { Sessions.State.start with users := fun _ => some { active := true, mustChange := mustChange, epoch := none } }
    established := [] }

def switchedOff : Settings := { localBypassEnabled := some "false".toList, trustedSubnets := some "192.168.1.0/24".toList }

/-- A client of the subnet asks for the dashboard. -/
def lanVisit (session : Session) : Visit :=
  { browser := 0, peer := "192.168.1.20".toList, headers := [], cookies := [], session := session, remember := none, marker := none
    admin := 1, cf := none, endpoint := some "dashboard.index".toList, action := .page }

/-- The session that the bypass has given to the client. -/
def bypassSession : Session := { user := some 1, row := some 0, bypass := true }

/-- The client is logged in, the bypass is switched off, and the client asks again. -/
def lanRun : List Label := [.request (lanVisit Session.empty), .settings switchedOff, .request (lanVisit bypassSession)]

theorem initial_exampleStart (mustChange : Bool) : Initial (exampleStart mustChange) :=
  ⟨⟨fun _ => rfl, fun _ => rfl, rfl, rfl⟩, rfl⟩

/-- The first visit: the bypass holds. -/
def lanRequest : Sessions.Request :=
  { browser := 0, session := Session.empty, remember := none, marker := none, bypassHolds := true, bypassUser := 1, cf := none
    exempt := false, action := .page }

theorem lan_request (mustChange : Bool) :
    (lanVisit Session.empty).request exampleProxies (exampleStart mustChange).settings = lanRequest := by
  have hvalid : bypassSessionStillValid exampleProxies (exampleStart mustChange).settings (lanVisit Session.empty) = true := by
    have hsame : (exampleStart mustChange).settings = (exampleStart true).settings := rfl
    rw [hsame]
    decide
  have hexempt : (lanVisit Session.empty).exempt = false := by decide
  unfold Visit.request
  rw [hvalid, hexempt]
  rfl

theorem lan_login (mustChange : Bool) : step exampleProxies (exampleStart mustChange) (.request (lanVisit Session.empty)) =
    some { exampleStart mustChange with sessions := answer (exampleStart mustChange).sessions lanRequest, established := [0] } := by
  have hanswered : answered exampleProxies (exampleStart mustChange) (lanVisit Session.empty) =
      { exampleStart mustChange with sessions := answer (exampleStart mustChange).sessions lanRequest, established := [0] } := by
    unfold answered
    rw [lan_request]
    rfl
  have hcarries : carriesIssued (exampleStart mustChange).sessions
      ((lanVisit Session.empty).request exampleProxies (exampleStart mustChange).settings) = true := by
    rw [lan_request]
    rfl
  rw [← hanswered, step, if_pos hcarries]

theorem lan_brings {s : State} (hactive : s.sessions.isActive 1 = true) (hestablished : s.established = [0]) :
    Brings s (lanVisit bypassSession) 1 0 := by
  refine ⟨rfl, hactive, rfl, ?_⟩
  rw [hestablished]
  exact List.mem_singleton_self 0

theorem bypass_revalidated_once : (system exampleProxies).Meets (Revalidated exampleProxies) (exampleStart false) lanRun := by
  refine (bypass_revalidated_iff exampleProxies (initial_exampleStart false) lanRun).2 ?_
  intro s₁ h₁
  obtain rfl : _ = s₁ := Option.some.inj ((lan_login false).symm.trans h₁)
  refine ⟨fun u r hb => (nomatch hb.user), ?_⟩
  intro s₂ h₂
  cases h₂
  refine ⟨trivial, ?_⟩
  intro s₃ h₃
  exact ⟨fun u r hb => .inr (.inr rfl), trivial⟩

/-- The bypass is switched off, but the next request finds the session alive: the client is sent to change the password of `admin`. -/
theorem forced_change_hides_bypass : ¬ ∀ s, Initial s → ∀ run, (system exampleProxies).Meets (Revalidated exampleProxies) s run := by
  intro h
  obtain ⟨-, hrest⟩ := h _ (initial_exampleStart true) lanRun _ (lan_login true)
  obtain ⟨-, hrest⟩ := hrest _ rfl
  obtain ⟨hrevalidated, -⟩ := hrest _ rfl
  rcases hrevalidated 1 0 (lan_brings rfl rfl) with hconditions | hended
  · exact hconditions.enabled rfl
  · exact not_ended_of_forced (lan_brings rfl rfl) (by decide +kernel) rfl hended

end ProxmoxTool.LocalBypass
