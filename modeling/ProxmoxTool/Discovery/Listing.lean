import ProxmoxTool.Lib.Text

/-!
# What a Proxmox host reports

The queries of `ProxmoxClient` that discovery is built on: the name of the node the client talks to, the guests of one
node or of all nodes with the completeness flag, the replication targets, and the address and the MAC of one guest.
What the Proxmox API answers is an input (`Api`); an error is the text of the exception.

The two listing functions collect the errors of the single requests instead of raising them.  What callers rely on is
`nodeGuests_of_failed`: a failed request always shows, as an exception or as an incomplete listing.
-/

namespace ProxmoxTool.Discovery

abbrev HostId := Nat

abbrev Vmid := Nat

inductive GuestType
  | vm
  | ct
  deriving DecidableEq, Repr

/-- The `status` of a listed guest; any other text, or none, is `other`. -/
inductive Status
  | running
  | stopped
  | paused
  | other
  deriving DecidableEq, Repr

/-- A guest as the API lists it; missing `tags` are the empty text. -/
structure ApiGuest where
  vmid : Vmid
  name : Option Text
  status : Status
  tags : Text := []
  lock : Option Text := none
  deriving DecidableEq, Repr

/-- A guest with the node and the type that the client adds to it. -/
structure Listed extends ApiGuest where
  node : Text
  type : GuestType
  deriving DecidableEq, Repr

abbrev Answer (α : Type) := Except Text α

/-- An entry of `/cluster/status`. -/
structure StatusEntry where
  isNode : Bool
  isLocal : Bool
  name : Text

/-- A replication job; `int(vmid)` of the source is the number itself. -/
structure ReplicationJob where
  guest : Option Nat
  target : Option Text

/-- An address the guest agent reports. -/
structure AgentAddress where
  isIpv4 : Bool
  address : Text

/-- A network interface of a container. -/
structure LxcInterface where
  name : Text
  inet : Option Text

/-- The answers of one host's API.  `get_nodes` is asked twice, once for the name of the local node and once for the
listing, and the two requests may end differently. -/
structure Api where
  clusterStatus : Answer (List StatusEntry)
  nodesForName : Answer (List Text)
  nodesForListing : Answer (List Text)
  qemu : Text → Answer (List ApiGuest)
  lxc : Text → Answer (List ApiGuest)
  replication : Answer (List ReplicationJob)
  agentInterfaces : Text → Vmid → Answer (List (List AgentAddress))
  qemuNet0 : Text → Vmid → Answer Text
  lxcNet0 : Text → Vmid → Answer Text
  lxcInterfaces : Text → Vmid → Answer (List LxcInterface)

/-- `t.lower()`; host names, MACs and the address placeholders are ASCII. -/
def lower (t : Text) : Text := t.map Char.toLower

/-! ### The local node -/

def getLocalNodeName (api : Api) (hostname : Text) : Option Text :=
  let flagged : Option Text := match api.clusterStatus with
    | .ok entries => (entries.find? fun e => e.isNode && e.isLocal).map StatusEntry.name
    | .error _ => none
  match flagged with
  | some name => some name
  | none => match api.nodesForName with
    | .ok [node] => some node
    | .ok nodes => nodes.find? fun node => lower node = lower hostname
    | .error _ => none

/-! ### The guests of a node -/

def requestLabel : GuestType → Text
  | .vm => "VMs on ".toList
  | .ct => "CTs on ".toList

/-- One request of a listing: the guests it adds, or the error it leaves. -/
def listType (node : Text) (type : GuestType) : Answer (List ApiGuest) → List Listed × List Text
  | .ok guests => (guests.map fun g => { toApiGuest := g, node := node, type := type }, [])
  | .error e => ([], [requestLabel type ++ node ++ ": ".toList ++ e])

/-- The two requests for one node. -/
def listNode (api : Api) (node : Text) : List Listed × List Text :=
  let vms := listType node .vm (api.qemu node)
  let cts := listType node .ct (api.lxc node)
  (vms.1 ++ cts.1, vms.2 ++ cts.2)

/-- The end of both listing functions: nothing but errors raises, otherwise the guests and whether there was none. -/
def finishListing (failure : Text) (guests : List Listed) (errors : List Text) : Answer (List Listed × Bool) :=
  if guests = [] ∧ errors ≠ [] then .error (failure ++ joinText "; ".toList errors) else .ok (guests, errors.isEmpty)

/-- `get_node_guests(node_name, with_completeness=True)`. -/
def getNodeGuests (api : Api) (node : Text) : Answer (List Listed × Bool) :=
  finishListing ("Could not list guests on ".toList ++ node ++ ": ".toList) (listNode api node).1 (listNode api node).2

def noNodes : Text :=
  "No nodes returned from Proxmox API. Check API token permissions (need VM.Audit or PVEAuditor role).".toList

/-- `get_all_guests(with_completeness=True)`. -/
def getAllGuests (api : Api) : Answer (List Listed × Bool) :=
  match api.nodesForListing with
  | .error e => .error e
  | .ok [] => .error noNodes
  | .ok nodes => finishListing "Could not list guests: ".toList (nodes.flatMap fun n => (listNode api n).1)
      (nodes.flatMap fun n => (listNode api n).2)

/-- The guests of a host: those of its node, or of all nodes if the name of the node is unknown. -/
def nodeGuests (api : Api) (hostname : Text) : Answer (List Listed × Bool) :=
  match getLocalNodeName api hostname with
  | some (c :: cs) => getNodeGuests api (c :: cs)
  | _ => getAllGuests api

/-- The nodes whose guests are requested for a host. -/
def queriedNodes (api : Api) (hostname : Text) : List Text :=
  match getLocalNodeName api hostname with
  | some (c :: cs) => [c :: cs]
  | _ => match api.nodesForListing with
    | .ok nodes => nodes
    | .error _ => []

/-- The request for the guests of one type on a node failed. -/
def RequestFailed (api : Api) (node : Text) : Prop :=
  (∃ e, api.qemu node = .error e) ∨ ∃ e, api.lxc node = .error e

theorem listType_errors {node : Text} {type : GuestType} {answer : Answer (List ApiGuest)} :
    (listType node type answer).2 = [] ↔ ∃ guests, answer = .ok guests := by
  cases answer with
  | ok guests => simp [listType]
  | error e => simp [listType]

theorem listNode_errors {api : Api} {node : Text} : (listNode api node).2 = [] ↔ ¬ RequestFailed api node := by
  unfold listNode RequestFailed
  rw [List.append_eq_nil_iff, listType_errors, listType_errors]
  cases api.qemu node with
  | ok vms => cases api.lxc node <;> simp
  | error e => simp

/-- An error that was collected shows in the result. -/
theorem finishListing_of_error {failure : Text} {guests : List Listed} {errors : List Text} (h : errors ≠ []) :
    (∃ e, finishListing failure guests errors = .error e) ∨ finishListing failure guests errors = .ok (guests, false) := by
  unfold finishListing
  by_cases hg : guests = []
  · exact Or.inl ⟨_, if_pos ⟨hg, h⟩⟩
  · right
    rw [if_neg fun hand => hg hand.1, List.isEmpty_eq_false_iff.2 h]

/-- A failed request for the node makes the listing raise or be incomplete. -/
theorem getNodeGuests_of_failed {api : Api} {node : Text} (h : RequestFailed api node) :
    (∃ e, getNodeGuests api node = .error e) ∨ ∃ guests, getNodeGuests api node = .ok (guests, false) := by
  have herr : (listNode api node).2 ≠ [] := fun h0 => listNode_errors.1 h0 h
  rcases finishListing_of_error herr with he | hok
  · exact Or.inl he
  · exact Or.inr ⟨_, hok⟩

/-- A failed request for any of the nodes makes the listing raise or be incomplete. -/
theorem getAllGuests_of_failed {api : Api} {nodes : List Text} {node : Text} (hn : api.nodesForListing = .ok nodes)
    (hmem : node ∈ nodes) (h : RequestFailed api node) :
    (∃ e, getAllGuests api = .error e) ∨ ∃ guests, getAllGuests api = .ok (guests, false) := by
  have herr : (nodes.flatMap fun n => (listNode api n).2) ≠ [] := by
    intro h0
    rw [List.flatMap_eq_nil_iff] at h0
    exact listNode_errors.1 (h0 node hmem) h
  unfold getAllGuests
  rw [hn]
  cases nodes with
  | nil => cases hmem
  | cons n ns =>
    rcases finishListing_of_error herr with he | hok
    · exact Or.inl he
    · exact Or.inr ⟨_, hok⟩

/-- A failed request for a queried node makes the listing of the host raise or be incomplete. -/
theorem nodeGuests_of_failed {api : Api} {hostname node : Text} (hq : node ∈ queriedNodes api hostname)
    (h : RequestFailed api node) :
    (∃ e, nodeGuests api hostname = .error e) ∨ ∃ guests, nodeGuests api hostname = .ok (guests, false) := by
  unfold nodeGuests
  unfold queriedNodes at hq
  split at hq
  · rw [List.mem_singleton] at hq
    subst hq
    exact getNodeGuests_of_failed h
  · split at hq
    · rename_i nodes hn
      exact getAllGuests_of_failed hn hq h
    · cases hq

/-! ### Replication, addresses and MACs -/

/-- `get_replication_map()[vmid]`: the target of the last job of the guest. -/
def replicationTarget (api : Api) (vmid : Vmid) : Option Text :=
  match api.replication with
  | .error _ => none
  | .ok jobs => ((jobs.filter fun j => j.guest = some vmid ∧ vmid ≠ 0 ∧ j.target.getD [] ≠ []).getLast?).bind
      ReplicationJob.target

/-- The text after the first `sub`; `none` if there is none. -/
def afterFirst (sub : Text) : Text → Option Text
  | [] => if sub = [] then some [] else none
  | c :: t => if sub.isPrefixOf (c :: t) then some ((c :: t).drop sub.length) else afterFirst sub t

/-- `t.split(sub)[0]`: the text before the first `sub`, all of it if there is none. -/
def beforeFirst (sub : Text) : Text → Text
  | [] => []
  | c :: t => if sub.isPrefixOf (c :: t) then [] else c :: beforeFirst sub t

def ipKey : Text := ['i', 'p', '=']

def dhcp : Text := ['d', 'h', 'c', 'p']

/-- The address in a container's `net0`: what follows `ip=` up to a comma or a slash, `dhcp` excepted. -/
def net0Address (net0 : Text) : Option Text :=
  match afterFirst ipKey net0 with
  | none => none
  | some rest =>
    let part := beforeFirst ['/'] (beforeFirst [','] (beforeFirst ipKey rest))
    if part = [] ∨ part = dhcp then none else some part

/-- `get_guest_ip`: what the agent of a VM, or the configuration and then the interfaces of a container, report. -/
def getGuestIp (api : Api) (node : Text) (vmid : Vmid) : GuestType → Option Text
  | .vm => match api.agentInterfaces node vmid with
    | .error _ => none
    | .ok ifaces => (ifaces.flatten.find? fun a => a.isIpv4 && !( ['1', '2', '7', '.'].isPrefixOf a.address)).map
        AgentAddress.address
  | .ct => match api.lxcNet0 node vmid with
    | .error _ => none
    | .ok net0 => match net0Address net0 with
      | some ip => some ip
      | none => match api.lxcInterfaces node vmid with
        | .error _ => none
        | .ok ifaces => ((ifaces.find? fun i => i.name ≠ ['l', 'o'] ∧ i.inet.getD [] ≠ []).bind LxcInterface.inet).map
            (beforeFirst ['/'])

def isHex (c : Char) : Bool := c.isDigit || ('a' ≤ c && c ≤ 'f') || ('A' ≤ c && c ≤ 'F')

/-- Six pairs of hexadecimal digits with colons between them. -/
def isMac (t : Text) : Bool :=
  t.length = 17 && (t.zipIdx).all fun p => if p.2 % 3 = 2 then p.1 = ':' else isHex p.1

/-- `re.search` for `lead` followed by seventeen characters of the given shape; the result is those characters. -/
def searchMac (lead : Text) (shape : Text → Bool) : Text → Option Text
  | [] => none
  | c :: t =>
    let found := ((c :: t).drop lead.length).take 17
    if lead.isPrefixOf (c :: t) && shape found then some found else searchMac lead shape t

def hwaddrKey : Text := ['h', 'w', 'a', 'd', 'd', 'r', '=']

/-- `get_guest_mac`: the `hwaddr=` of a container or the MAC after the driver of a VM, in lower case. -/
def getGuestMac (api : Api) (node : Text) (vmid : Vmid) (type : GuestType) : Option Text :=
  let config : Answer Text := match type with
    | .vm => api.qemuNet0 node vmid
    | .ct => api.lxcNet0 node vmid
  match config with
  | .error _ => none
  | .ok net0 =>
    match searchMac hwaddrKey (fun t => t.length = 17 && t.all fun c => isHex c || c = ':') net0 with
    | some mac => some (lower mac)
    | none => (searchMac ['='] isMac net0).map lower

end ProxmoxTool.Discovery
