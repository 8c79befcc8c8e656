import ProxmoxTool.Discovery.Listing
import ProxmoxTool.Lib.Rows
import Mathlib.Data.List.ReduceOption

/-!
# The scheduled check of the hosts

`_check_host_updates` of `core/scheduler.py` asks every host for its pending packages and stores the list in place of the one
before; the clients are `ProxmoxClient` and `PBSClient`.  Both report some failures as an empty list, which is then stored like an
answer.  What the APIs answer is an input.  `Host.Obtains` and `Host.Silent` say, of these answers alone, when the list of a host was
obtained and when a failure becomes an empty list; `forgets_nothing_iff` is the check for any number of hosts.
-/

namespace ProxmoxTool.Updates

open Discovery (Answer Api HostId getLocalNodeName)

/-- An element of a package list, as `upd.get` reads it; `some none` is a null. -/
abbrev Upd := Text → Option (Option Text)

/-- What an API answers for the pending packages. -/
inductive Data
  /-- A null, `false` or 0. -/
  | null
  /-- An empty text or object. -/
  | empty
  /-- An element that the code cannot read, or the table cannot hold, is `none`. -/
  | list (items : List (Option Upd))
  /-- Anything else; going through it raises. -/
  | other

/-! ### `PBSClient` -/

/-- The answer to a request by its JSON. -/
inductive Body (α : Type)
  | notJson
  /-- Reading the fields of the JSON raises. -/
  | unreadable
  | data (a : α)

inductive Reply (α : Type)
  | requestException
  | response (status : ℕ) (body : Body α)

namespace Reply

variable {α : Type}

/-- A request of `PBSClient`: `none` where it has caught a `RequestException`, which text that is no JSON raises too, or the status is not
200; an error is an exception that it lets pass. -/
def read : Reply α → Answer (Option α)
  | .requestException => .ok none
  | .response status body =>
    if status = 200 then
      match body with
      | .notJson => .ok none
      | .unreadable => .error "AttributeError".toList
      | .data a => .ok (some a)
    else .ok none

/-- The request has failed in a way that `PBSClient` hides. -/
inductive Refused : Reply α → Prop
  | requestException : Refused .requestException
  | status {status : ℕ} {body : Body α} : status ≠ 200 → Refused (.response status body)
  | notJson : Refused (.response 200 .notJson)

theorem read_eq_none_iff {r : Reply α} : r.read = .ok none ↔ r.Refused := by
  constructor
  · intro h
    match r, h with
    | .requestException, _ => exact .requestException
    | .response status body, h =>
      by_cases hs : status = 200
      · subst hs
        match body, h with
        | .notJson, _ => exact .notJson
      · exact .status hs
  · rintro (_ | hs | _)
    · rfl
    · simp [read, hs]
    · rfl

theorem read_eq_some_iff {r : Reply α} {a : α} : r.read = .ok (some a) ↔ r = .response 200 (.data a) := by
  constructor
  · intro h
    match r, h with
    | .response status body, h =>
      by_cases hs : status = 200
      · subst hs
        match body, h with
        | .data _, rfl => rfl
      · simp [read, hs] at h
  · rintro rfl
    rfl

end Reply

/-- The answer to `/nodes`: nothing, or the `node` of its first element. -/
inductive Nodes
  | nothing
  | first (node : Text)
  /-- There is no first element to read `node` from. -/
  | unreadable

/-- A Backup Server: whether the client has a token, whether its secret can be decrypted, and the answers.  A client with a password
logs in at a request until it has succeeded. -/
structure Pbs where
  hasToken : Bool
  decrypts : Bool
  login₁ : Reply Unit
  nodes : Reply Nodes
  login₂ : Reply Unit
  aptUpdate : Text → Reply Data

namespace Pbs

/-- `_get`, with whether the client is logged in afterwards. -/
def get {α : Type} (loggedIn : Bool) (login : Reply Unit) (reply : Reply α) : Answer (Option α × Bool) :=
  if loggedIn then do return (← reply.read, true)
  else do
    match ← login.read with
    | none => return (none, false)
    | some () => return (← reply.read, true)

/-- `get_node_name`, after its request. -/
def nodeName : Option Nodes → Answer Text
  | none => .ok "pbs".toList
  | some .nothing => .ok "pbs".toList
  | some (.first node) => .ok node
  | some .unreadable => .error "KeyError".toList

/-- `client.get_apt_updates` of a new client. -/
def getAptUpdates (p : Pbs) : Answer Data :=
  if p.decrypts then do
    let (nodes, loggedIn) ← get p.hasToken p.login₁ p.nodes
    let node ← nodeName nodes
    let (data, _) ← get loggedIn p.login₂ (p.aptUpdate node)
    match data with
    | none => return .list []
    | some .null => return .list []
    | some .empty => return .list []
    | some data => return data
  else .error "InvalidToken".toList

/-- The answer to `/nodes` leads to this name. -/
inductive NodeName : Reply Nodes → Text → Prop
  | refused {r : Reply Nodes} : r.Refused → NodeName r "pbs".toList
  | nothing : NodeName (.response 200 (.data .nothing)) "pbs".toList
  | first (node : Text) : NodeName (.response 200 (.data (.first node))) node

/-- The client gets as far as asking for the packages of this node. -/
inductive Asks (p : Pbs) : Text → Prop
  | named {node : Text} : p.hasToken = true ∨ p.login₁ = .response 200 (.data ()) → NodeName p.nodes node → Asks p node
  | second : p.hasToken = false → p.login₁.Refused → p.login₂ = .response 200 (.data ()) → Asks p "pbs".toList

/-- An answer for the packages that the client takes for an empty list. -/
def NoList (r : Reply Data) : Prop :=
  r.Refused ∨ r = .response 200 (.data .null) ∨ r = .response 200 (.data .empty)

end Pbs

/-! ### The check -/

/-- A row of `proxmox_hosts`, with the answers that its client gets. -/
structure Host where
  id : HostId
  name : Text
  hostname : Text
  hostType : Text
  api : Api
  aptUpdate : Text → Answer Data
  pbs : Pbs

/-- A row of `host_update_package` without its key. -/
structure Package where
  packageName : Option Text
  currentVersion : Option Text
  availableVersion : Option Text
  severity : Text
  deriving DecidableEq

structure Row extends Package where
  id : ℕ
  hostId : HostId
  status : Text
  deriving DecidableEq

def pendingStatus : Text := "pending".toList

/-- `_PRIORITY_MAP.get(upd.get("Priority", ""), "normal")`. -/
def severity (upd : Upd) : Text :=
  let priority := (upd "Priority".toList).getD (some [])
  if priority = some "important".toList then "critical".toList
  else if priority = some "required".toList then "important".toList
  else "normal".toList

def Upd.package (upd : Upd) : Package where
  packageName := (upd "Package".toList).getD (some "unknown".toList)
  currentVersion := (upd "OldVersion".toList).getD (some [])
  availableVersion := match upd "Version".toList with
    | some (some (c :: cs)) => some (c :: cs)
    | _ => (upd "NewVersion".toList).getD (some [])
  severity := severity upd

/-- The elements that `for upd in api_updates` reads. -/
def Data.elements : Data → Answer (List Upd)
  | .null => .error "TypeError".toList
  | .empty => .ok []
  | .list items => if items.all Option.isSome then .ok items.reduceOption else .error "AttributeError".toList
  | .other => .error "AttributeError".toList

def Data.len : Data → ℕ
  | .list items => items.length
  | _ => 0

def addRow (host : HostId) (rows : List Row) (upd : Upd) : List Row :=
  rows ++ [{ toPackage := upd.package, id := freshId Row.id rows, hostId := host, status := pendingStatus }]

def isPendingOf (host : HostId) (r : Row) : Bool := r.hostId = host && r.status = pendingStatus

/-- `_persist_host_packages`, up to the commit. -/
def persistHostPackages (host : HostId) (updates : Data) (rows : List Row) : Answer (List Row) := do
  let kept := rows.filter fun r => !isPendingOf host r
  let upds ← updates.elements
  return upds.foldl (addRow host) kept

/-- `ProxmoxClient.get_apt_updates`. -/
def pveGetAptUpdates (h : Host) (node : Text) : Data :=
  match h.aptUpdate node with
  | .ok data => data
  | .error _ => .list []

/-- The packages that the client of the host reports. -/
def clientUpdates (h : Host) : Answer Data :=
  if h.hostType = "pbs".toList then h.pbs.getAptUpdates
  else match getLocalNodeName h.api h.hostname with
    | some (c :: cs) => .ok (pveGetAptUpdates h (c :: cs))
    | _ => .ok (.list [])

/-- An element of `host_results`; `host` is the one of the round that has added it. -/
structure HostResult where
  host : HostId
  name : Text
  hostType : Text
  updateCount : ℕ

structure Check where
  rows : List Row
  hostResults : List HostResult

/-- One round of the loop; the handler rolls back what the round has written. -/
def checkHost (s : Check) (h : Host) : Check :=
  let outcome : Answer Check := do
    let updates ← clientUpdates h
    let rows ← persistHostPackages h.id updates s.rows
    return { rows
             hostResults := s.hostResults ++ [{ host := h.id, name := h.name, hostType := h.hostType, updateCount := updates.len }] }
  match outcome with
  | .ok s' => s'
  | .error _ => s

/-- The table of hosts. -/
structure Hosts where
  all : List Host
  ids : (all.map Host.id).Nodup

/-- `_check_host_updates` with the value of `scan_enabled`, up to the notification. -/
def checkHostUpdates (scanEnabled : Text) (hosts : Hosts) (rows : List Row) : Check :=
  if scanEnabled = "false".toList then { rows, hostResults := [] }
  else hosts.all.foldl checkHost { rows, hostResults := [] }

/-! ### Which answers are lists -/

/-- The API has answered with this list of packages. -/
def Host.Obtains (h : Host) (upds : List Upd) : Prop :=
  if h.hostType = "pbs".toList then
    h.pbs.decrypts = true ∧ ∃ node, h.pbs.Asks node ∧ h.pbs.aptUpdate node = .response 200 (.data (.list (upds.map some)))
  else ∃ node, node ≠ [] ∧ getLocalNodeName h.api h.hostname = some node ∧ h.aptUpdate node = .ok (.list (upds.map some))

/-- The name of the node is unknown, or the last request was refused, or answered by something empty that is no list. -/
def Host.Silent (h : Host) : Prop :=
  if h.hostType = "pbs".toList then
    h.pbs.decrypts = true ∧ (h.pbs.hasToken = false ∧ h.pbs.login₁.Refused ∧ h.pbs.login₂.Refused ∨
      ∃ node, h.pbs.Asks node ∧ Pbs.NoList (h.pbs.aptUpdate node))
  else (∀ node, getLocalNodeName h.api h.hostname = some node → node = []) ∨
    ∃ node, node ≠ [] ∧ getLocalNodeName h.api h.hostname = some node ∧
      ((∃ e, h.aptUpdate node = .error e) ∨ h.aptUpdate node = .ok .empty)

/-! ### What the clients report -/

section

variable {ε α β : Type}

private theorem ok_of_bind {x : Except ε α} {f : α → Except ε β} {b : β} (h : x >>= f = .ok b) :
    ∃ a, x = .ok a ∧ f a = .ok b := by
  cases x with
  | error e => cases h
  | ok a => exact ⟨a, rfl, h⟩

end

namespace Pbs

variable {p : Pbs}

theorem nodeName_read {r : Reply Nodes} {node : Text} : (∃ nodes, r.read = .ok nodes ∧ nodeName nodes = .ok node) ↔ NodeName r node := by
  constructor
  · rintro ⟨nodes, hread, hname⟩
    match nodes, hname with
    | none, rfl => exact .refused (Reply.read_eq_none_iff.1 hread)
    | some .nothing, rfl =>
      rw [Reply.read_eq_some_iff.1 hread]
      exact .nothing
    | some (.first _), rfl =>
      rw [Reply.read_eq_some_iff.1 hread]
      exact .first node
  · rintro (hr | _ | _)
    · exact ⟨none, Reply.read_eq_none_iff.2 hr, rfl⟩
    · exact ⟨some .nothing, rfl, rfl⟩
    · exact ⟨some (.first node), rfl, rfl⟩

/-- With a token, or after a first login that succeeds, the client asks for the packages of the node that is named. -/
theorem get_of_loggedIn {α : Type} {loggedIn : Bool} {login : Reply Unit} (h : loggedIn = true ∨ login = .response 200 (.data ()))
    (reply : Reply α) : get loggedIn login reply = do return (← reply.read, true) := by
  unfold get
  rcases h with rfl | rfl
  · rfl
  · split <;> rfl

theorem get_of_refused {α : Type} {login : Reply Unit} (h : login.Refused) (reply : Reply α) :
    get false login reply = .ok (none, false) := by
  unfold get
  rw [Reply.read_eq_none_iff.2 h]
  rfl

/-- What the client makes of the answer for the packages. -/
def read (r : Reply Data) : Answer Data := do
  match ← r.read with
  | none => return .list []
  | some .null => return .list []
  | some .empty => return .list []
  | some data => return data

theorem read_of_noList {r : Reply Data} (h : NoList r) : read r = .ok (.list []) := by
  unfold read
  rcases h with h | rfl | rfl
  · rw [Reply.read_eq_none_iff.2 h]
    rfl
  · rfl
  · rfl

theorem read_eq_ok {r : Reply Data} {data : Data} (h : read r = .ok data) :
    NoList r ∧ data = .list [] ∨ r = .response 200 (.data data) := by
  obtain ⟨answer, hread, h⟩ := ok_of_bind h
  match answer, h with
  | none, rfl => exact .inl ⟨.inl (Reply.read_eq_none_iff.1 hread), rfl⟩
  | some .null, rfl => exact .inl ⟨.inr (.inl (Reply.read_eq_some_iff.1 hread)), rfl⟩
  | some .empty, rfl => exact .inl ⟨.inr (.inr (Reply.read_eq_some_iff.1 hread)), rfl⟩
  | some (.list items), rfl => exact .inr (Reply.read_eq_some_iff.1 hread)
  | some .other, rfl => exact .inr (Reply.read_eq_some_iff.1 hread)

theorem not_refused {α : Type} {a : α} : ¬(Reply.response 200 (.data a)).Refused := by
  rintro (_ | hs | _)
  exact hs rfl

theorem Asks.unique {node node' : Text} (h : p.Asks node) (h' : p.Asks node') : node = node' := by
  have hno : p.hasToken = false → p.login₁.Refused → ¬(p.hasToken = true ∨ p.login₁ = .response 200 (.data ())) := by
    rintro htoken hlogin (h | h)
    · exact absurd (htoken.symm.trans h) (by decide)
    · exact not_refused (h ▸ hlogin)
  rcases h with ⟨hin, hname⟩ | ⟨htoken, hlogin, -⟩ <;> rcases h' with ⟨hin', hname'⟩ | ⟨htoken', hlogin', -⟩
  · obtain ⟨nodes, hread, hnode⟩ := nodeName_read.2 hname
    obtain ⟨nodes', hread', hnode'⟩ := nodeName_read.2 hname'
    cases hread.symm.trans hread'
    exact Except.ok.inj (hnode.symm.trans hnode')
  · exact absurd hin (hno htoken' hlogin')
  · exact absurd hin' (hno htoken hlogin)
  · rfl

theorem getAptUpdates_of_asks (hd : p.decrypts = true) {node : Text} (h : p.Asks node) :
    p.getAptUpdates = read (p.aptUpdate node) := by
  unfold getAptUpdates
  rw [if_pos hd]
  rcases h with ⟨hin, hname⟩ | ⟨htoken, hlogin, hlogin'⟩
  · obtain ⟨nodes, hread, hnode⟩ := nodeName_read.2 hname
    rw [get_of_loggedIn hin, hread]
    show (nodeName nodes >>= fun node => get true p.login₂ (p.aptUpdate node) >>= _) = _
    rw [hnode]
    show (get true p.login₂ (p.aptUpdate node) >>= _) = _
    rw [get_of_loggedIn (.inl rfl)]
    unfold read
    cases (p.aptUpdate node).read <;> rfl
  · rw [htoken, get_of_refused hlogin]
    show (get false p.login₂ (p.aptUpdate "pbs".toList) >>= _) = _
    rw [get_of_loggedIn (.inr hlogin')]
    unfold read
    cases (p.aptUpdate "pbs".toList).read <;> rfl

theorem getAptUpdates_of_refused (hd : p.decrypts = true) (htoken : p.hasToken = false) (h : p.login₁.Refused)
    (h' : p.login₂.Refused) : p.getAptUpdates = .ok (.list []) := by
  unfold getAptUpdates
  rw [if_pos hd, htoken, get_of_refused h]
  show (get false p.login₂ (p.aptUpdate "pbs".toList) >>= _) = _
  rw [get_of_refused h']
  rfl

/-- Without an exception the client has asked for the packages, or has been refused twice. -/
theorem asks_of_ok {data : Data} (h : p.getAptUpdates = .ok data) :
    p.decrypts = true ∧ (p.hasToken = false ∧ p.login₁.Refused ∧ p.login₂.Refused ∨ ∃ node, p.Asks node) := by
  unfold getAptUpdates at h
  split at h
  swap
  · cases h
  rename_i hd
  refine ⟨hd, ?_⟩
  obtain ⟨⟨nodes, loggedIn⟩, hnodes, h⟩ := ok_of_bind h
  obtain ⟨node, hnode, h⟩ := ok_of_bind h
  obtain ⟨⟨answer, loggedIn'⟩, hlist, -⟩ := ok_of_bind h
  by_cases hin : p.hasToken = true ∨ p.login₁ = .response 200 (.data ())
  · rw [get_of_loggedIn hin] at hnodes
    obtain ⟨nodes', hread, heq⟩ := ok_of_bind hnodes
    cases heq
    exact .inr ⟨node, .named hin (nodeName_read.1 ⟨nodes, hread, hnode⟩)⟩
  · have htoken : p.hasToken = false := by simpa using fun ht => hin (.inl ht)
    have refused_of : ∀ {α : Type} {login : Reply Unit} {reply : Reply α} {answer}, login ≠ .response 200 (.data ()) →
        get false login reply = .ok answer → login.Refused := by
      intro α login reply answer hne hget
      obtain ⟨answer', hread, -⟩ := ok_of_bind hget
      cases answer' with
      | none => exact Reply.read_eq_none_iff.1 hread
      | some u => exact absurd (Reply.read_eq_some_iff.1 hread) hne
    rw [htoken] at hnodes
    have hlogin := refused_of (fun h => hin (.inr h)) hnodes
    rw [get_of_refused hlogin] at hnodes
    cases hnodes
    by_cases hlogin' : p.login₂ = .response 200 (.data ())
    · exact .inr ⟨_, .second htoken hlogin hlogin'⟩
    · exact .inl ⟨htoken, hlogin, refused_of hlogin' hlist⟩

end Pbs

section

variable {h : Host} {data : Data} {upds : List Upd}

theorem elements_list (upds : List Upd) : (Data.list (upds.map some)).elements = .ok upds := by
  simp [Data.elements, List.reduceOption]

theorem elements_eq_ok (hel : data.elements = .ok upds) : data = .empty ∧ upds = [] ∨ data = .list (upds.map some) := by
  match data, hel with
  | .empty, rfl => exact .inl ⟨rfl, rfl⟩
  | .list items, hel =>
    simp only [Data.elements] at hel
    split at hel
    · rename_i hall
      cases hel
      refine .inr (congrArg Data.list ?_)
      induction items with
      | nil => rfl
      | cons item items ih =>
        rw [List.all_cons, Bool.and_eq_true] at hall
        obtain ⟨upd, rfl⟩ := Option.isSome_iff_exists.1 hall.1
        rw [List.reduceOption_cons_of_some, List.map_cons, ← ih hall.2]
    · cases hel

theorem len_of_elements (hel : data.elements = .ok upds) : data.len = upds.length := by
  rcases elements_eq_ok hel with ⟨rfl, rfl⟩ | rfl
  · rfl
  · exact List.length_map some

namespace Host

theorem clientUpdates_of_obtains (ho : h.Obtains upds) : clientUpdates h = .ok (.list (upds.map some)) := by
  unfold Obtains at ho
  unfold clientUpdates
  split at ho
  · rename_i hpbs
    obtain ⟨hd, node, hasks, hreply⟩ := ho
    rw [if_pos hpbs, Pbs.getAptUpdates_of_asks hd hasks, hreply]
    rfl
  · rename_i hpve
    obtain ⟨node, hne, hname, hreply⟩ := ho
    obtain ⟨c, cs, rfl⟩ := List.exists_cons_of_ne_nil hne
    rw [if_neg hpve, hname]
    simp only [pveGetAptUpdates, hreply]

theorem clientUpdates_of_silent (hs : h.Silent) : ∃ data, clientUpdates h = .ok data ∧ data.elements = .ok [] := by
  unfold Silent at hs
  unfold clientUpdates
  split at hs
  · rename_i hpbs
    rw [if_pos hpbs]
    refine ⟨.list [], ?_, rfl⟩
    obtain ⟨hd, ⟨htoken, hlogin, hlogin'⟩ | ⟨node, hasks, hno⟩⟩ := hs
    · exact Pbs.getAptUpdates_of_refused hd htoken hlogin hlogin'
    · rw [Pbs.getAptUpdates_of_asks hd hasks, Pbs.read_of_noList hno]
  · rename_i hpve
    rw [if_neg hpve]
    rcases hs with hunknown | ⟨node, hne, hname, hreply⟩
    · refine ⟨.list [], ?_, rfl⟩
      split
      · rename_i c cs hname
        cases hunknown _ hname
      · rfl
    · obtain ⟨c, cs, rfl⟩ := List.exists_cons_of_ne_nil hne
      rw [hname]
      rcases hreply with ⟨e, he⟩ | he
      · exact ⟨.list [], by simp only [pveGetAptUpdates, he], rfl⟩
      · exact ⟨.empty, by simp only [pveGetAptUpdates, he], rfl⟩

/-- What is stored is a list that was obtained, or stands for a failure. -/
theorem obtains_or_silent (hd : clientUpdates h = .ok data) (hel : data.elements = .ok upds) : h.Obtains upds ∨ h.Silent := by
  unfold clientUpdates at hd
  unfold Obtains Silent
  split at hd
  · rename_i hpbs
    rw [if_pos hpbs, if_pos hpbs]
    obtain ⟨hdec, hrefused | ⟨node, hasks⟩⟩ := Pbs.asks_of_ok hd
    · exact .inr ⟨hdec, .inl hrefused⟩
    · rw [Pbs.getAptUpdates_of_asks hdec hasks] at hd
      rcases Pbs.read_eq_ok hd with ⟨hno, -⟩ | hreply
      · exact .inr ⟨hdec, .inr ⟨node, hasks, hno⟩⟩
      · rcases elements_eq_ok hel with ⟨rfl, -⟩ | rfl
        · exact .inr ⟨hdec, .inr ⟨node, hasks, .inr (.inr hreply)⟩⟩
        · exact .inl ⟨hdec, node, hasks, hreply⟩
  · rename_i hpve
    rw [if_neg hpve, if_neg hpve]
    split at hd
    · rename_i c cs hname
      cases hreply : h.aptUpdate (c :: cs) with
      | error e => exact .inr (.inr ⟨c :: cs, by simp, hname, .inl ⟨e, hreply⟩⟩)
      | ok answer =>
        obtain rfl : answer = data := by simpa [pveGetAptUpdates, hreply] using hd
        rcases elements_eq_ok hel with ⟨rfl, -⟩ | rfl
        · exact .inr (.inr ⟨c :: cs, by simp, hname, .inr hreply⟩)
        · exact .inl ⟨c :: cs, by simp, hname, hreply⟩
    · rename_i hno
      refine .inr (.inl fun node hname => ?_)
      cases node with
      | nil => rfl
      | cons c cs => exact absurd hname (hno c cs)

theorem not_silent_of_obtains (ho : h.Obtains upds) : ¬h.Silent := by
  unfold Obtains at ho
  unfold Silent
  split at ho
  · rename_i hpbs
    rw [if_pos hpbs]
    obtain ⟨-, node, hasks, hreply⟩ := ho
    rintro ⟨-, ⟨htoken, hlogin, hlogin'⟩ | ⟨node', hasks', hno⟩⟩
    · rcases hasks with ⟨hin | hin, -⟩ | ⟨-, -, hin⟩
      · exact absurd (htoken.symm.trans hin) (by decide)
      · exact Pbs.not_refused (hin ▸ hlogin)
      · exact Pbs.not_refused (hin ▸ hlogin')
    · rw [hasks'.unique hasks, hreply] at hno
      rcases hno with hno | hno | hno
      · exact Pbs.not_refused hno
      · cases hno
      · cases hno
  · rename_i hpve
    rw [if_neg hpve]
    obtain ⟨node, hne, hname, hreply⟩ := ho
    rintro (hunknown | ⟨node', -, hname', hno⟩)
    · exact hne (hunknown node hname)
    · obtain rfl : node = node' := Option.some.inj (hname.symm.trans hname')
      rw [hreply] at hno
      rcases hno with ⟨e, hno⟩ | hno
      · cases hno
      · cases hno

end Host

end

/-! ### Rounds -/

section

variable {σ η κ ν : Type} {step : σ → η → σ} {key : η → κ} {view : κ → σ → ν}

private theorem view_foldl_of_not_mem (hother : ∀ s x k, k ≠ key x → view k (step s x) = view k s) {k : κ} {xs : List η}
    (hk : k ∉ xs.map key) (s : σ) : view k (xs.foldl step s) = view k s := by
  induction xs generalizing s with
  | nil => rfl
  | cons x xs ih =>
    rw [List.map_cons, List.mem_cons, not_or] at hk
    rw [List.foldl_cons, ih hk.2, hother s x k hk.1]

/-- Rounds that each touch what is seen under their own key, with distinct keys: a loop does to each what its round does. -/
private theorem view_foldl (hother : ∀ s x k, k ≠ key x → view k (step s x) = view k s) {Rel : η → ν → ν → Prop}
    (hown : ∀ s x, Rel x (view (key x) s) (view (key x) (step s x))) {xs : List η} (hkeys : (xs.map key).Nodup) (s : σ) {x : η}
    (hx : x ∈ xs) : Rel x (view (key x) s) (view (key x) (xs.foldl step s)) := by
  induction xs generalizing s with
  | nil => cases hx
  | cons y xs ih =>
    rw [List.map_cons, List.nodup_cons] at hkeys
    rw [List.foldl_cons]
    rcases List.mem_cons.1 hx with rfl | hx
    · rw [view_foldl_of_not_mem hother hkeys.1]
      exact hown s x
    · have hne : key x ≠ key y := fun h => hkeys.1 (h ▸ List.mem_map_of_mem hx)
      rw [← hother s y (key x) hne]
      exact ih hkeys.2 (step s y) hx

end

def pendingOf (host : HostId) (rows : List Row) : List Row := rows.filter (isPendingOf host)

theorem checkHost_of_ok {h : Host} {data : Data} {upds : List Upd} (hd : clientUpdates h = .ok data)
    (hel : data.elements = .ok upds) (s : Check) :
    checkHost s h = { rows := upds.foldl (addRow h.id) (s.rows.filter fun r => !isPendingOf h.id r)
                      hostResults := s.hostResults ++ [⟨h.id, h.name, h.hostType, upds.length⟩] } := by
  unfold checkHost persistHostPackages
  rw [← len_of_elements hel, hd]
  simp only [bind, Except.bind, hel, pure, Except.pure]

theorem checkHost_of_error {h : Host} (hno : ∀ data upds, clientUpdates h = .ok data → data.elements ≠ .ok upds) (s : Check) :
    checkHost s h = s := by
  unfold checkHost persistHostPackages
  cases hd : clientUpdates h with
  | error e => rfl
  | ok data =>
    cases hel : data.elements with
    | error e => simp only [bind, Except.bind, hel]
    | ok upds => exact absurd hel (hno data upds hd)

/-! ### What a check stores and reports -/

theorem pendingOf_foldl_addRow (host k : HostId) (upds : List Upd) (rows : List Row) :
    (pendingOf k (upds.foldl (addRow host) rows)).map Row.toPackage =
      (pendingOf k rows).map Row.toPackage ++ if k = host then upds.map Upd.package else [] := by
  induction upds generalizing rows with
  | nil => simp
  | cons upd upds ih =>
    rw [List.foldl_cons, ih]
    by_cases hk : k = host
    · simp [pendingOf, addRow, isPendingOf, hk]
    · simp [pendingOf, addRow, isPendingOf, hk, Ne.symm hk]

theorem pendingOf_foldl_addRow_of_ne {host k : HostId} (hk : k ≠ host) (upds : List Upd) (rows : List Row) :
    pendingOf k (upds.foldl (addRow host) rows) = pendingOf k rows := by
  induction upds generalizing rows with
  | nil => rfl
  | cons upd upds ih =>
    rw [List.foldl_cons, ih]
    simp [pendingOf, addRow, isPendingOf, Ne.symm hk]

theorem pendingOf_kept_of_ne {host k : HostId} (hk : k ≠ host) (rows : List Row) :
    pendingOf k (rows.filter fun r => !isPendingOf host r) = pendingOf k rows := by
  unfold pendingOf
  rw [List.filter_filter]
  refine List.filter_congr fun r _ => ?_
  by_cases hr : r.hostId = k
  · simp [isPendingOf, hr, hk]
  · simp [isPendingOf, hr]

theorem pendingOf_kept (host : HostId) (rows : List Row) : pendingOf host (rows.filter fun r => !isPendingOf host r) = [] := by
  unfold pendingOf
  rw [List.filter_filter]
  simp

/-- The pending rows of a host and what is reported of it. -/
def seen (k : HostId) (s : Check) : List Row × List HostResult :=
  (pendingOf k s.rows, s.hostResults.filter fun r => r.host = k)

theorem seen_checkHost_of_ne (s : Check) (h : Host) (k : HostId) (hk : k ≠ h.id) : seen k (checkHost s h) = seen k s := by
  by_cases hok : ∃ data upds, clientUpdates h = .ok data ∧ data.elements = .ok upds
  · obtain ⟨data, upds, hd, hel⟩ := hok
    rw [checkHost_of_ok hd hel]
    unfold seen
    rw [pendingOf_foldl_addRow_of_ne hk, pendingOf_kept_of_ne hk]
    simp [Ne.symm hk]
  · rw [checkHost_of_error fun data upds hd hel => hok ⟨data, upds, hd, hel⟩]

/-- A list that was obtained is what is stored; without one the pending rows are as before, and no zero is reported. -/
structure Kept (h : Host) (before : List Row) (after : List Row × List HostResult) : Prop where
  obtained : ∀ upds, h.Obtains upds → after.1.map Row.toPackage = upds.map Upd.package
  failed : (∀ upds, ¬h.Obtains upds) → after.1 = before ∧ ∀ r ∈ after.2, r.updateCount ≠ 0

theorem kept_checkHost {s : Check} {h : Host} (hnew : (seen h.id s).2 = []) :
    Kept h (pendingOf h.id s.rows) (seen h.id (checkHost s h)) ↔ ¬h.Silent := by
  constructor
  · intro hkept hs
    have hno : ∀ upds, ¬h.Obtains upds := fun upds ho => Host.not_silent_of_obtains ho hs
    obtain ⟨data, hd, hel⟩ := Host.clientUpdates_of_silent hs
    refine (hkept.failed hno).2 ⟨h.id, h.name, h.hostType, 0⟩ ?_ rfl
    rw [checkHost_of_ok hd hel]
    simp [seen]
  · intro hs
    constructor
    · intro upds ho
      rw [checkHost_of_ok (Host.clientUpdates_of_obtains ho) (elements_list upds)]
      simp only [seen]
      rw [pendingOf_foldl_addRow, pendingOf_kept, if_pos rfl]
      rfl
    · intro hno
      rw [checkHost_of_error]
      · refine ⟨rfl, fun r hr => ?_⟩
        rw [hnew] at hr
        cases hr
      · intro data upds hd hel
        rcases Host.obtains_or_silent hd hel with ho | hsilent
        · exact hno upds ho
        · exact hs hsilent

/-- The run of a check, as seen for one host: a list counts as obtained only if scanning is on. -/
structure ForgetsNothing (scanEnabled : Text) (h : Host) (before : List Row) (after : Check) : Prop where
  obtained : scanEnabled ≠ "false".toList → ∀ upds, h.Obtains upds →
    (pendingOf h.id after.rows).map Row.toPackage = upds.map Upd.package
  failed : (scanEnabled = "false".toList ∨ ∀ upds, ¬h.Obtains upds) →
    pendingOf h.id after.rows = pendingOf h.id before ∧ ∀ r ∈ after.hostResults, r.host = h.id → r.updateCount ≠ 0

theorem forgetsNothing_iff_kept {scanEnabled : Text} (hscan : scanEnabled ≠ "false".toList) {h : Host} {before : List Row}
    {after : Check} : ForgetsNothing scanEnabled h before after ↔ Kept h (pendingOf h.id before) (seen h.id after) := by
  constructor
  · intro hf
    refine ⟨hf.obtained hscan, fun hno => ⟨(hf.failed (.inr hno)).1, fun r hr => ?_⟩⟩
    obtain ⟨hr, hid⟩ := List.mem_filter.1 hr
    exact (hf.failed (.inr hno)).2 r hr (of_decide_eq_true hid)
  · intro hk
    refine ⟨fun _ => hk.obtained, fun hno => ?_⟩
    obtain ⟨hrows, hresults⟩ := hk.failed (hno.resolve_left hscan)
    exact ⟨hrows, fun r hr hid => hresults r (List.mem_filter.2 ⟨hr, decide_eq_true hid⟩)⟩

/-- A check forgets nothing, for any hosts, exactly if scanning is off, or no failure has become an empty list. -/
theorem forgets_nothing_iff (scanEnabled : Text) (hosts : Hosts) (rows : List Row) :
    (∀ h ∈ hosts.all, ForgetsNothing scanEnabled h rows (checkHostUpdates scanEnabled hosts rows)) ↔
      scanEnabled = "false".toList ∨ ∀ h ∈ hosts.all, ¬h.Silent := by
  by_cases hscan : scanEnabled = "false".toList
  · refine iff_of_true (fun h _ => ?_) (.inl hscan)
    unfold checkHostUpdates
    rw [if_pos hscan]
    exact ⟨fun hne => absurd hscan hne, fun _ => ⟨rfl, fun r hr => by cases hr⟩⟩
  · have hrun : ∀ h ∈ hosts.all,
        ForgetsNothing scanEnabled h rows (checkHostUpdates scanEnabled hosts rows) ↔ ¬h.Silent := by
      intro h hh
      rw [forgetsNothing_iff_kept hscan, checkHostUpdates, if_neg hscan]
      exact @view_foldl _ _ _ _ checkHost Host.id seen seen_checkHost_of_ne
        (fun h before after => before.2 = [] → (Kept h before.1 after ↔ ¬h.Silent))
        (fun s h hnew => kept_checkHost hnew) _ hosts.ids { rows, hostResults := [] } _ hh rfl
    simp only [hscan, false_or]
    exact forall₂_congr hrun

/-! ### A host that cannot be reached -/

def downApi : Api where
  clusterStatus := .error "ConnectionError".toList
  nodesForName := .error "ConnectionError".toList
  nodesForListing := .error "ConnectionError".toList
  qemu := fun _ => .error "ConnectionError".toList
  lxc := fun _ => .error "ConnectionError".toList
  replication := .error "ConnectionError".toList
  agentInterfaces := fun _ _ => .error "ConnectionError".toList
  qemuNet0 := fun _ _ => .error "ConnectionError".toList
  lxcNet0 := fun _ _ => .error "ConnectionError".toList
  lxcInterfaces := fun _ _ => .error "ConnectionError".toList

def downHost : Host where
  id := 1
  name := "pve1".toList
  hostname := "pve1.example".toList
  hostType := "pve".toList
  api := downApi
  aptUpdate := fun _ => .error "ConnectionError".toList
  pbs := { hasToken := true, decrypts := true, login₁ := .requestException, nodes := .requestException, login₂ := .requestException
           aptUpdate := fun _ => .requestException }

def kernelRow : Row where
  id := 7
  hostId := 1
  packageName := some "proxmox-kernel".toList
  currentVersion := some "6.8.4".toList
  availableVersion := some "6.8.8".toList
  severity := "normal".toList
  status := pendingStatus

/-- The pending package of a host that is down is gone after the check, and the host is reported with no updates. -/
theorem down_host_forgotten :
    let after := checkHostUpdates "true".toList ⟨[downHost], List.nodup_singleton _⟩ [kernelRow]
    pendingOf 1 after.rows = [] ∧ after.hostResults.map (fun r => (r.host, r.updateCount)) = [(1, 0)] ∧
      ¬ForgetsNothing "true".toList downHost [kernelRow] after := by
  refine ⟨by decide, by decide, fun hf => ?_⟩
  have hno : ∀ upds, ¬downHost.Obtains upds := by
    rintro upds ⟨node, -, hname, -⟩
    exact absurd hname (by simp [getLocalNodeName, downHost, downApi])
  exact absurd (hf.failed (.inr hno)).1 (by decide)

end ProxmoxTool.Updates
