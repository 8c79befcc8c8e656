import Mathlib.Data.List.Sort
import ProxmoxTool.Auth.Users
import ProxmoxTool.Lib.Dict

/-!
# The routes of a guest

The model of the state-changing `/guests/<id>/...` routes in `routes/guests.py` that call Proxmox: the checks each makes, the
object of the call as it takes it from the guest or from the URL, and what it answers.  What Proxmox answers to the calls that only
read is a parameter.

Every route is a body under the common checks (`guarded`, `linkedTo`, `onNode`, `withBackup`).  `guest_routes_own_iff` says that the
calls address objects of the guest, but for the one identifier that no route looks up: the replication job to be deleted.
-/

namespace ProxmoxTool.Guests

open Users (RoleTable User)

/-- A row of `Guest` with its host and its tags. -/
structure Guest where
  name : Text
  guestType : Text
  vmid : Option Nat
  host : Option (Nat × Text)
  tags : List (Nat × Text)
  backupStorage : Option Text
  backupMode : Option Text
  backupCompress : Option Text

/-- The backup defaults of a tag. -/
structure BackupDefaults where
  storage : Option Text := none
  mode : Option Text := none
  compress : Option Text := none

structure Settings where
  backupTagDefaults : Dict Text BackupDefaults := []
  backupStorage : Option Text := none
  backupMode : Option Text := none
  backupCompress : Option Text := none

structure Volume where
  volid : Text
  ctime : Int
  storage : Option Text

/-- The answers of Proxmox to the calls that read. -/
structure Proxmox where
  findGuestNode : Nat → Option Text
  listClusterNodes : List Text
  listNodeStorages : Text → List Text
  listBackups : Text → Nat → Text → List Volume

/-- The calls that change something. -/
inductive Call
  | power (node : Text) (vmid : Nat) (guestType action : Text)
  | clone (node : Text) (vmid : Nat) (guestType : Text) (newid : Int) (name : Text) (full : Bool) (targetStorage : Text)
  | migrate (node : Text) (vmid : Nat) (guestType targetNode : Text)
  | createSnapshot (node : Text) (vmid : Nat) (guestType snapname description : Text)
  | deleteSnapshot (node : Text) (vmid : Nat) (guestType snapname : Text)
  | rollbackSnapshot (node : Text) (vmid : Nat) (guestType snapname : Text)
  | createBackup (node : Text) (vmid : Nat) (storage mode compress : Text) (isProtected : Bool) (notes : Text)
  | deleteBackup (node storage volid : Text)
  | updateBackupProtection (node storage volid : Text) (isProtected : Bool)
  | updateBackupNotes (node storage volid notes : Text)
  | restoreBackup (node : Text) (vmid : Nat) (guestType volid storage : Text)
  | createReplication (jobId targetNode schedule : Text)
  | deleteReplication (jobId : Text)

inductive Page
  | dashboard | index | detail | notFound | restoreConfirm
  | progress (jobType : Text)

/-- What a route does: it refuses, or it makes one call to a host; then the page if the call succeeds, and the beginning of the
message if it fails. -/
inductive Outcome
  | refused (message : Text) (page : Page)
  | calls (host : Nat) (call : Call) (success : Page) (failure : Text)

def Outcome.call : Outcome → Option (Nat × Call)
  | .refused _ _ => none
  | .calls host call _ _ => some (host, call)

/-! ### The checks -/

section

variable (roles : RoleTable)

def canAccessGuest (u : User) (guest : Guest) : Bool :=
  u.isSuperAdmin roles || guest.tags.any fun tag => decide (tag.1 ∈ u.allowedTags)

def mayAccessGuest (u : User) (guest : Guest) : Bool := u.isAdmin roles || canAccessGuest roles u guest

/-- The permission, the guest and `_require_guest_access`. -/
def guarded (u : User) (guest : Option Guest) (body : Guest → Outcome) : Outcome :=
  if u.canManageGuests roles = false then .refused "Permission denied.".toList .detail
  else match guest with
    | none => .refused [] .notFound
    | some guest =>
      if mayAccessGuest roles u guest = false then
        .refused "You don't have permission to access this guest.".toList .index
      else body guest

end

def linkedTo (guest : Guest) (body : Nat → Text → Nat → Outcome) : Outcome :=
  match guest.host, guest.vmid with
  | some (host, hostName), some vmid =>
    if vmid = 0 then .refused "Guest must be linked to a Proxmox host with a VMID.".toList .detail
    else body host hostName vmid
  | _, _ => .refused "Guest must be linked to a Proxmox host with a VMID.".toList .detail

def onNode (px : Proxmox) (guest : Guest) (vmid : Nat) (body : Text → Outcome) : Outcome :=
  match px.findGuestNode vmid with
  | none => .refused ("Could not find ".toList ++ guest.guestType ++ '/' :: natText vmid ++ " on any node.".toList) .detail
  | some node => body node

/-- `a or b`. -/
def orText (a b : Option Text) : Option Text := if a.getD [] = [] then b else a

/-- `_get_tag_backup_defaults`. -/
def getTagBackupDefaults (settings : Settings) (guest : Guest) : BackupDefaults :=
  (guest.tags.findSome? fun tag => settings.backupTagDefaults.get? tag.2).getD {}

def defaultStorage (settings : Settings) (guest : Guest) : Text :=
  (orText guest.backupStorage (orText (getTagBackupDefaults settings guest).storage settings.backupStorage)).getD []

/-- `vol.setdefault("storage", storage)`. -/
def Volume.setDefault (storage : Text) (vol : Volume) : Volume := { vol with storage := some (vol.storage.getD storage) }

def listAllBackups (px : Proxmox) (node : Text) (vmid : Nat) : List Volume :=
  (((px.listNodeStorages node).filter fun storage => decide (storage ≠ [])).flatMap fun storage =>
    (px.listBackups node vmid storage).map (Volume.setDefault storage)).insertionSort fun a b => b.ctime ≤ a.ctime

/-- The archives `_resolve_guest_backup` looks at. -/
def guestBackups (px : Proxmox) (settings : Settings) (guest : Guest) (node : Text) (vmid : Nat) : List Volume :=
  let storage := defaultStorage settings guest
  if storage ≠ [] then (px.listBackups node vmid storage).map (Volume.setDefault storage) else listAllBackups px node vmid

/-- `_resolve_guest_backup`. -/
def resolveGuestBackup (px : Proxmox) (settings : Settings) (guest : Guest) (node : Text) (vmid : Nat) (volid : Text) :
    Option Text :=
  ((guestBackups px settings guest node vmid).find? fun vol => decide (vol.volid = volid)).map fun vol =>
    (orText vol.storage (orText (some (defaultStorage settings guest))
      (if volid.contains ':' then (volid.splitOn ':').head? else none))).getD []

def withBackup (px : Proxmox) (settings : Settings) (guest : Guest) (node : Text) (vmid : Nat) (volid : Text)
    (body : Text → Outcome) : Outcome :=
  match resolveGuestBackup px settings guest node vmid volid with
  | none => .refused "That backup archive does not belong to this guest.".toList .detail
  | some storage => body storage

/-! ### The routes -/

structure CloneForm where
  newid : Text
  name : Text
  cloneType : Text
  targetStorage : Text

structure BackupForm where
  storage : Text
  mode : Text
  compress : Text
  isProtected : Bool
  notes : Text

/-- A request of a route with what it takes from the URL and the form; `timestamp` is of the clock. -/
inductive Request
  | power (action : Text)
  | clone (form : CloneForm)
  | migrate (targetNode : Text)
  | createSnapshot (snapname description timestamp : Text)
  | deleteSnapshot (snapname : Text)
  | rollbackSnapshot (snapname : Text)
  | createBackup (form : BackupForm)
  | deleteBackup (volid : Text)
  | toggleBackupProtection (volid isProtected : Text)
  | updateBackupNotes (volid notes : Text)
  | restoreBackup (volid confirmName : Text)
  | createReplication (targetNode schedule : Text)
  | deleteReplication (jobId : Text)

section

variable (roles : RoleTable) (px : Proxmox) (settings : Settings) (u : User) (guest : Option Guest)

def powerActions : List Text := ["start".toList, "shutdown".toList, "stop".toList, "reboot".toList]

def powerAction (action : Text) : Outcome :=
  -- the action is checked before the guest is looked up, and a guest that is on no node is looked for on its host
  if u.canManageGuests roles = false then .refused "Permission denied.".toList .detail
  else if action ∉ powerActions then .refused "Invalid power action.".toList .detail
  else guarded roles u guest fun guest => linkedTo guest fun host hostName vmid =>
    .calls host (.power ((px.findGuestNode vmid).getD hostName) vmid guest.guestType action) .detail
      ("Power ".toList ++ action ++ " failed: ".toList)

def cloneGuest (form : CloneForm) : Outcome :=
  guarded roles u guest fun guest => linkedTo guest fun host _ vmid =>
    match parseInt (strip form.newid) with
    | none => .refused "New VMID must be a number.".toList .detail
    | some newid =>
      if newid ≤ 0 then .refused "New VMID must be a positive number.".toList .detail
      else if newid = vmid then .refused "New VMID must differ from the source VMID.".toList .detail
      else onNode px guest vmid fun node =>
        .calls host (.clone node vmid guest.guestType newid (strip form.name) (form.cloneType ≠ "linked".toList)
          (strip form.targetStorage)) (.progress "clone".toList) "Failed to clone: ".toList

def migrateGuest (targetNode : Text) : Outcome :=
  guarded roles u guest fun guest => linkedTo guest fun host _ vmid =>
    let target := strip targetNode
    if target = [] then .refused "Target node is required.".toList .detail
    else onNode px guest vmid fun node =>
      if target = node then .refused "Target node must differ from the current node.".toList .detail
      else if px.listClusterNodes ≠ [] ∧ target ∉ px.listClusterNodes then
        .refused ("Unknown target node '".toList ++ target ++ "'.".toList) .detail
      else .calls host (.migrate node vmid guest.guestType target) (.progress "migrate".toList) "Failed to migrate: ".toList

/-- A snapshot route: the call on the node of the guest. -/
def snapshotRoute (call : Text → Nat → Text → Call) (jobType failure : Text) : Outcome :=
  guarded roles u guest fun guest => linkedTo guest fun host _ vmid => onNode px guest vmid fun node =>
    .calls host (call node vmid guest.guestType) (.progress jobType) failure

def createSnapshot (snapname description timestamp : Text) : Outcome :=
  let name := if strip snapname = [] then "manual-".toList ++ timestamp else strip snapname
  snapshotRoute roles px u guest (fun node vmid guestType => .createSnapshot node vmid guestType name (strip description))
    "snapshot".toList "Failed to create snapshot: ".toList

def deleteSnapshot (snapname : Text) : Outcome :=
  snapshotRoute roles px u guest (fun node vmid guestType => .deleteSnapshot node vmid guestType snapname)
    "snapshot_delete".toList "Failed to delete snapshot: ".toList

def rollbackSnapshot (snapname : Text) : Outcome :=
  snapshotRoute roles px u guest (fun node vmid guestType => .rollbackSnapshot node vmid guestType snapname)
    "rollback".toList "Failed to rollback: ".toList

def createBackup (form : BackupForm) : Outcome :=
  guarded roles u guest fun guest => linkedTo guest fun host _ vmid =>
    let defaults := getTagBackupDefaults settings guest
    let storage := (orText (some (strip form.storage)) (some (defaultStorage settings guest))).getD []
    let mode := (orText (some (strip form.mode)) (orText guest.backupMode (orText defaults.mode
      (some (settings.backupMode.getD "snapshot".toList))))).getD []
    let compress := (orText (some (strip form.compress)) (orText guest.backupCompress (orText defaults.compress
      (some (settings.backupCompress.getD "zstd".toList))))).getD []
    if storage = [] then
      .refused "No backup storage configured. Add a backup config for one of this guest's tags in Settings.".toList .detail
    else onNode px guest vmid fun node =>
      .calls host (.createBackup node vmid storage mode compress form.isProtected (strip form.notes))
        (.progress "backup".toList) "Failed to create backup: ".toList

/-- A route on an archive of the guest. -/
def archiveRoute (volid : Text) (call : Text → Text → Call) (failure : Text) : Outcome :=
  guarded roles u guest fun guest => linkedTo guest fun host _ vmid => onNode px guest vmid fun node =>
    withBackup px settings guest node vmid volid fun storage => .calls host (call node storage) .detail failure

def deleteBackup (volid : Text) : Outcome :=
  archiveRoute roles px settings u guest volid (fun node storage => .deleteBackup node storage volid)
    "Failed to delete backup: ".toList

def toggleBackupProtection (volid isProtected : Text) : Outcome :=
  archiveRoute roles px settings u guest volid
    (fun node storage => .updateBackupProtection node storage volid (isProtected = "1".toList))
    "Failed to update protection: ".toList

def updateBackupNotes (volid notes : Text) : Outcome :=
  archiveRoute roles px settings u guest volid (fun node storage => .updateBackupNotes node storage volid (strip notes))
    "Failed to update notes: ".toList

def restoreBackup (volid confirmName : Text) : Outcome :=
  match guest with
  | none => .refused [] .notFound
  | some guest =>
    -- here the guest is checked before the permission
    if mayAccessGuest roles u guest = false then
      .refused "You don't have permission to access this guest.".toList .index
    else guarded roles u (some guest) fun guest => linkedTo guest fun host _ vmid =>
      if strip confirmName ≠ guest.name then
        .refused "Confirmation text did not match the guest name. Restore cancelled.".toList .restoreConfirm
      else onNode px guest vmid fun node => withBackup px settings guest node vmid volid fun storage =>
        .calls host (.restoreBackup node vmid guest.guestType volid storage) (.progress "restore".toList)
          "Failed to restore backup: ".toList

def createReplication (targetNode schedule : Text) : Outcome :=
  guarded roles u guest fun guest => linkedTo guest fun host _ vmid =>
    if strip targetNode = [] then .refused "Target node is required.".toList .detail
    else .calls host (.createReplication (natText vmid ++ "-0".toList) (strip targetNode) (strip schedule)) .detail
      "Failed to create replication: ".toList

def deleteReplication (jobId : Text) : Outcome :=
  guarded roles u guest fun guest =>
    -- unlike the other routes this one does not look at the VMID
    match guest.host with
    | none => .refused "Guest must be linked to a Proxmox host.".toList .detail
    | some (host, _) => .calls host (.deleteReplication jobId) .detail "Failed to delete replication: ".toList

/-- A request: `_require_guest_view`, then the route. -/
def serve (request : Request) : Outcome :=
  if u.canViewGuests roles = false then .refused "You don't have permission to view guests.".toList .dashboard
  else match request with
    | .power action => powerAction roles px u guest action
    | .clone form => cloneGuest roles px u guest form
    | .migrate targetNode => migrateGuest roles px u guest targetNode
    | .createSnapshot snapname description timestamp => createSnapshot roles px u guest snapname description timestamp
    | .deleteSnapshot snapname => deleteSnapshot roles px u guest snapname
    | .rollbackSnapshot snapname => rollbackSnapshot roles px u guest snapname
    | .createBackup form => createBackup roles px settings u guest form
    | .deleteBackup volid => deleteBackup roles px settings u guest volid
    | .toggleBackupProtection volid isProtected => toggleBackupProtection roles px settings u guest volid isProtected
    | .updateBackupNotes volid notes => updateBackupNotes roles px settings u guest volid notes
    | .restoreBackup volid confirmName => restoreBackup roles px settings u guest volid confirmName
    | .createReplication targetNode schedule => createReplication roles u guest targetNode schedule
    | .deleteReplication jobId => deleteReplication roles u guest jobId

end

/-! ### Objects of a guest -/

/-- A replication job is named by its guest and a number. -/
def isJobOf (vmid : Nat) (jobId : Text) : Bool :=
  let parts := partition '-' jobId
  parts.1 = natText vmid && parts.2.1 && !parts.2.2.isEmpty && parts.2.2.all Char.isDigit

/-- An archive that Proxmox lists for the VMID. -/
def IsArchiveOf (px : Proxmox) (vmid : Nat) (node volid : Text) : Prop :=
  ∃ storage, ∃ vol ∈ px.listBackups node vmid storage, vol.volid = volid

/-- The call addresses an object of the guest with the VMID. -/
def Call.Addresses (px : Proxmox) (vmid : Nat) : Call → Prop
  | .power _ id _ _ | .clone _ id _ _ _ _ _ | .migrate _ id _ _ | .createSnapshot _ id _ _ _ | .deleteSnapshot _ id _ _
  | .rollbackSnapshot _ id _ _ | .createBackup _ id _ _ _ _ _ => id = vmid
  | .deleteBackup node _ volid | .updateBackupProtection node _ volid _ | .updateBackupNotes node _ volid _ =>
    IsArchiveOf px vmid node volid
  | .restoreBackup node id _ volid _ => id = vmid ∧ IsArchiveOf px vmid node volid
  | .createReplication jobId _ _ | .deleteReplication jobId => isJobOf vmid jobId = true

/-- Whatever call is made, it is made to the host of the guest and addresses an object of it. -/
def Outcome.Own (px : Proxmox) (guest : Guest) (outcome : Outcome) : Prop :=
  ∀ host call, outcome.call = some (host, call) →
    guest.host.map Prod.fst = some host ∧ ∃ vmid, guest.vmid = some vmid ∧ call.Addresses px vmid

theorem own_refused {px : Proxmox} {guest : Guest} {message : Text} {page : Page} :
    (Outcome.refused message page).Own px guest := by
  intro host call h
  cases h

section

variable {roles : RoleTable} {px : Proxmox} {settings : Settings} {u : User} {guest : Guest}

theorem own_guarded {body : Guest → Outcome} (h : (body guest).Own px guest) :
    (guarded roles u (some guest) body).Own px guest := by
  unfold guarded
  split
  · exact own_refused
  · dsimp only
    split
    · exact own_refused
    · exact h

/-- Under `linkedTo` a call need only address an object of the VMID. -/
theorem own_linkedTo {body : Nat → Text → Nat → Outcome}
    (h : ∀ host hostName vmid, ∀ host' call, (body host hostName vmid).call = some (host', call) →
      host' = host ∧ call.Addresses px vmid) : (linkedTo guest body).Own px guest := by
  unfold linkedTo
  split
  · rename_i host hostName vmid hhost hvmid
    split
    · exact own_refused
    · intro host' call hcall
      obtain ⟨rfl, haddr⟩ := h host hostName vmid host' call hcall
      exact ⟨by rw [hhost]; rfl, vmid, hvmid, haddr⟩
  · exact own_refused

/-- An outcome makes at most one call, to a host and with a property. -/
def Outcome.Only (outcome : Outcome) (host : Nat) (P : Call → Prop) : Prop :=
  ∀ host' call, outcome.call = some (host', call) → host' = host ∧ P call

theorem only_refused {message : Text} {page : Page} {host : Nat} {P : Call → Prop} :
    (Outcome.refused message page).Only host P := by
  intro host' call h
  cases h

theorem only_calls {host : Nat} {call : Call} {success : Page} {failure : Text} {P : Call → Prop} (h : P call) :
    (Outcome.calls host call success failure).Only host P := by
  intro host' call' hcall
  cases hcall
  exact ⟨rfl, h⟩

theorem only_onNode {vmid host : Nat} {P : Call → Prop} {body : Text → Outcome} (h : ∀ node, (body node).Only host P) :
    (onNode px guest vmid body).Only host P := by
  unfold onNode
  split
  · exact only_refused
  · exact h _

/-- What `_resolve_guest_backup` accepts is listed for the VMID. -/
theorem isArchiveOf_of_resolve {node volid storage : Text} {vmid : Nat}
    (h : resolveGuestBackup px settings guest node vmid volid = some storage) : IsArchiveOf px vmid node volid := by
  obtain ⟨vol, hfind, -⟩ := Option.map_eq_some_iff.1 h
  have hmem := List.mem_of_find?_eq_some hfind
  have hvolid : vol.volid = volid := by simpa using List.find?_some hfind
  unfold guestBackups at hmem
  dsimp only at hmem
  split at hmem
  · obtain ⟨listed, hlisted, rfl⟩ := List.mem_map.1 hmem
    exact ⟨_, listed, hlisted, hvolid⟩
  · unfold listAllBackups at hmem
    rw [List.mem_insertionSort] at hmem
    obtain ⟨storage', -, hmem⟩ := List.mem_flatMap.1 hmem
    obtain ⟨listed, hlisted, rfl⟩ := List.mem_map.1 hmem
    exact ⟨storage', listed, hlisted, hvolid⟩

theorem only_withBackup {node volid : Text} {vmid host : Nat} {P : Call → Prop} {body : Text → Outcome}
    (h : IsArchiveOf px vmid node volid → ∀ storage, (body storage).Only host P) :
    (withBackup px settings guest node vmid volid body).Only host P := by
  unfold withBackup
  split
  · exact only_refused
  · rename_i storage hresolve
    exact h (isArchiveOf_of_resolve hresolve) storage

theorem own_snapshotRoute {call : Text → Nat → Text → Call} {jobType failure : Text}
    (h : ∀ node vmid guestType, (call node vmid guestType).Addresses px vmid) :
    (snapshotRoute roles px u (some guest) call jobType failure).Own px guest :=
  own_guarded (own_linkedTo fun _ _ vmid => only_onNode fun node => only_calls (h node vmid _))

theorem own_archiveRoute {volid failure : Text} {call : Text → Text → Call}
    (h : ∀ node storage vmid, IsArchiveOf px vmid node volid → (call node storage).Addresses px vmid) :
    (archiveRoute roles px settings u (some guest) volid call failure).Own px guest :=
  own_guarded (own_linkedTo fun _ _ vmid => only_onNode fun node => only_withBackup fun harchive storage =>
    only_calls (h node storage vmid harchive))

theorem isJobOf_zero (vmid : Nat) : isJobOf vmid (natText vmid ++ "-0".toList) = true := by
  have hpart : partition '-' (natText vmid ++ '-' :: ['0']) = (natText vmid, true, ['0']) :=
    partition_append (not_mem_natText (by decide)) _
  have htext : natText vmid ++ "-0".toList = natText vmid ++ '-' :: ['0'] := rfl
  unfold isJobOf
  rw [htext, hpart]
  simp

/-- Every route but the deletion of a replication job addresses only objects of its guest. -/
theorem own_of_ne_deleteReplication {request : Request} (h : ∀ jobId, request ≠ .deleteReplication jobId) :
    (serve roles px settings u (some guest) request).Own px guest := by
  unfold serve
  split
  · exact own_refused
  · cases request with
    | power action =>
      dsimp only
      unfold powerAction
      split
      · exact own_refused
      · split
        · exact own_refused
        · exact own_guarded (own_linkedTo fun _ _ vmid => only_calls rfl)
    | clone form =>
      refine own_guarded (own_linkedTo fun _ _ vmid => ?_)
      split
      · exact only_refused
      · split
        · exact only_refused
        · split
          · exact only_refused
          · exact only_onNode fun node => only_calls rfl
    | migrate targetNode =>
      refine own_guarded (own_linkedTo fun _ _ vmid => ?_)
      dsimp only
      split
      · exact only_refused
      · refine only_onNode fun node => ?_
        split
        · exact only_refused
        · split
          · exact only_refused
          · exact only_calls rfl
    | createSnapshot snapname description timestamp =>
      dsimp only [createSnapshot]
      exact own_snapshotRoute fun _ _ _ => rfl
    | deleteSnapshot snapname => exact own_snapshotRoute fun _ _ _ => rfl
    | rollbackSnapshot snapname => exact own_snapshotRoute fun _ _ _ => rfl
    | createBackup form =>
      refine own_guarded (own_linkedTo fun _ _ vmid => ?_)
      dsimp only
      split
      · exact only_refused
      · exact only_onNode fun node => only_calls rfl
    | deleteBackup | toggleBackupProtection | updateBackupNotes => exact own_archiveRoute fun _ _ _ harchive => harchive
    | restoreBackup volid confirmName =>
      dsimp only [restoreBackup]
      split
      · exact own_refused
      · refine own_guarded (own_linkedTo fun _ _ vmid => ?_)
        split
        · exact only_refused
        · exact only_onNode fun node => only_withBackup fun harchive storage => only_calls ⟨rfl, harchive⟩
    | createReplication targetNode schedule =>
      refine own_guarded (own_linkedTo fun _ _ vmid => ?_)
      split
      · exact only_refused
      · exact only_calls (isJobOf_zero vmid)
    | deleteReplication jobId => exact absurd rfl (h jobId)

theorem deleteReplication_own_iff {jobId : Text} :
    (serve roles px settings u (some guest) (.deleteReplication jobId)).Own px guest ↔
      (u.canViewGuests roles = true → u.canManageGuests roles = true → mayAccessGuest roles u guest = true →
        guest.host.isSome = true → ∃ vmid, guest.vmid = some vmid ∧ isJobOf vmid jobId = true) := by
  unfold serve
  cases hview : u.canViewGuests roles with
  | false => simp [own_refused]
  | true =>
    dsimp only [deleteReplication, guarded]
    cases hmanage : u.canManageGuests roles with
    | false => simp [own_refused]
    | true =>
      cases haccess : mayAccessGuest roles u guest with
      | false => simp [own_refused]
      | true =>
        cases hhost : guest.host with
        | none => simp [own_refused]
        | some host =>
          simp only [Bool.true_eq_false, if_false, Option.isSome_some, forall_const]
          constructor
          · intro hown
            exact (hown _ _ rfl).2
          · rintro ⟨vmid, hvmid, hjob⟩ host' call hcall
            cases hcall
            exact ⟨by rw [hhost]; rfl, vmid, hvmid, hjob⟩

/-- A request of a guest's routes addresses only objects of the guest if and only if it does not delete, with success of its
checks, a replication job that is not one of the guest's VMID. -/
theorem guest_routes_own_iff (roles : RoleTable) (px : Proxmox) (settings : Settings) (u : User) (guest : Guest)
    (request : Request) :
    (serve roles px settings u (some guest) request).Own px guest ↔
      ∀ jobId, request = .deleteReplication jobId → u.canViewGuests roles = true → u.canManageGuests roles = true →
        mayAccessGuest roles u guest = true → guest.host.isSome = true →
          ∃ vmid, guest.vmid = some vmid ∧ isJobOf vmid jobId = true := by
  constructor
  · rintro hown jobId rfl
    exact deleteReplication_own_iff.1 hown
  · intro h
    by_cases hdelete : ∃ jobId, request = .deleteReplication jobId
    · obtain ⟨jobId, rfl⟩ := hdelete
      exact deleteReplication_own_iff.2 (h jobId rfl)
    · exact own_of_ne_deleteReplication fun jobId heq => hdelete ⟨jobId, heq⟩

end

/-- A role of the operator tier that may manage guests. -/
def tenantRoles : RoleTable where
  rows := [⟨1, Users.superAdmin, 4, true, true, true, true⟩, ⟨2, "tenant".toList, 2, false, false, true, true⟩]
  ids := by decide
  seeded := by decide
  top := by decide
  bound := by decide

def tenant : User :=
  ⟨1, "tenant".toList, "tenant".toList, "password".toList, 2, "local".toList, true, none, false, [7]⟩

def tenantGuest : Guest :=
  ⟨"web".toList, "vm".toList, some 100, some (1, "pve".toList), [(7, "web".toList)], none, none, none⟩

/-- A user limited to a tag deletes the replication job of VMID 200 through the guest with VMID 100. -/
theorem other_job_deleted :
    tenant.isAdmin tenantRoles = false ∧ mayAccessGuest tenantRoles tenant tenantGuest = true ∧
    ¬ (serve tenantRoles ⟨fun _ => none, [], fun _ => [], fun _ _ _ => []⟩ {} tenant (some tenantGuest)
      (.deleteReplication "200-0".toList)).Own ⟨fun _ => none, [], fun _ => [], fun _ _ _ => []⟩ tenantGuest := by
  refine ⟨by decide +kernel, by decide +kernel, fun hown => ?_⟩
  obtain ⟨-, vmid, hvmid, hjob⟩ := hown 1 (.deleteReplication "200-0".toList) rfl
  cases hvmid
  have hfalse : isJobOf 100 "200-0".toList = false := by decide +kernel
  exact Bool.false_ne_true (hfalse.symm.trans hjob)

end ProxmoxTool.Guests
