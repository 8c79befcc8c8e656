import ProxmoxTool.Discovery.Inventory

/-!
# Merging a listing into the guest table

One host's processing: the stale rows of the host are deleted, then each listed guest is matched with a row, first by host
and VMID and then by VMID on any other host, and the row is refreshed, re-linked and refreshed, skipped, or created.

The source has the loop three times.  The copies differ in two points, which are `Rules`: what they do with the reported
address, and when they take a VMID as reused.  `routes/hosts.py` has `manualRules` for `discover` and `discover_all`,
`core/scheduler.py` has `scheduledRules` for `_run_discovery`.
-/

namespace ProxmoxTool.Discovery

def powerState : Status → PowerState
  | .running => .running
  | .stopped => .stopped
  | .paused => .paused
  | .other => .unknown

/-- A text the code takes as present. -/
def truthy (t : Option Text) : Option Text := t.filter (· ≠ [])

/-- Where the copies of the merge loop differ: the address to store, and the changes when the guest behind a row is taken to
be another one than before, given the row, the listed guest and its MAC.  None of them re-links the row on reuse. -/
structure Rules where
  storedIp : Option Text → Option Text
  reuse : Guest → Listed → Option Text → List Change
  reuse_ne_link : ∀ existing g mac host, Change.link host ∉ reuse existing g mac

def placeholders : List Text := [dhcp, dhcp ++ ['6'], ['a', 'u', 't', 'o']]

/-- Placeholders for an address that is not known are not stored. -/
def dropPlaceholder (ip : Option Text) : Option Text := ip.filter fun t => lower t ∉ placeholders

/-- `_handle_vmid_reuse` of `routes/hosts.py`. -/
def handleVmidReuse (existing : Guest) (g : Listed) (_ : Option Text) : List Change :=
  if existing.guestType = g.type then [] else .setType g.type :: clearStaleData

/-- Two MACs that are both known and not the same. -/
def macChanged (old new : Option Text) : Bool :=
  match truthy old, truthy new with
  | some a, some b => lower b ≠ lower a
  | _, _ => false

/-- The reuse detection of `_run_discovery`. -/
def detectReuse (existing : Guest) (g : Listed) (mac : Option Text) : List Change :=
  if existing.guestType ≠ g.type then .setType g.type :: clearStaleData
  else if macChanged existing.macAddress mac then clearStaleData
  else []

def manualRules : Rules where
  storedIp := dropPlaceholder
  reuse := handleVmidReuse
  reuse_ne_link existing g mac host := by
    unfold handleVmidReuse
    split <;> simp [clearStaleData]

def scheduledRules : Rules where
  storedIp ip := ip
  reuse := detectReuse
  reuse_ne_link existing g mac host := by
    unfold detectReuse
    split
    · simp [clearStaleData]
    · split <;> simp [clearStaleData]

section

variable (rules : Rules) (now : Nat) (host : HostId) (api : Api)

/-- The row of a VMID on the host. -/
def ownRow (host : HostId) (vmid : Vmid) (guests : List Guest) : Option Guest :=
  guests.find? fun r => r.proxmoxHostId = some host && r.vmid = some vmid

/-- A row of the VMID on another host. -/
def otherRow (host : HostId) (vmid : Vmid) (guests : List Guest) : Option Guest :=
  guests.find? fun r => r.vmid = some vmid && (r.proxmoxHostId.isSome && r.proxmoxHostId ≠ some host)

/-- The address discovery reads; only running guests are asked. -/
def reportedIp (g : Listed) : Option Text :=
  if g.status = .running then rules.storedIp (getGuestIp api g.node g.vmid g.type) else none

/-- The assignments to the row of a guest that is known. -/
def refreshChanges (existing : Guest) (g : Listed) : List Change :=
  let mac := getGuestMac api g.node g.vmid g.type
  rules.reuse existing g mac ++
    ((truthy (reportedIp rules api g)).map Change.setIp).toList ++
    [.setName (g.name.getD existing.name), .setReplication (replicationTarget api g.vmid), .setPower (powerState g.status),
      .setLock (truthy g.lock)] ++
    ((truthy mac).map Change.setMac).toList ++
    [.clearTags]

def defaultName (vmid : Vmid) : Text := ['g', 'u', 'e', 's', 't', '-'] ++ natText vmid

/-- The row of a guest that is not known. -/
def newGuest (guests : List Guest) (g : Listed) : Guest where
  id := freshId Guest.id guests
  proxmoxHostId := some host
  vmid := some g.vmid
  name := g.name.getD (defaultName g.vmid)
  guestType := g.type
  ipAddress := reportedIp rules api g
  connectionMethod := .auto
  replicationTarget := replicationTarget api g.vmid
  macAddress := getGuestMac api g.node g.vmid g.type
  powerState := powerState g.status
  lockReason := truthy g.lock
  createdAt := now

/-- What one listed guest makes the session write. -/
def entryWrites (db : Db) (g : Listed) : List Write :=
  let refresh (existing : Guest) : List Write :=
    (refreshChanges rules api existing g).map (.change existing.id) ++
      tagWrites existing.id (parseGuestTags g.tags) db.tags
  match ownRow host g.vmid db.guests with
  | some existing => refresh existing
  | none => match otherRow host g.vmid db.guests with
    | some other =>
      -- known on another host: taken over if it runs here, else skipped as a replica
      if g.status = .running then .change other.id (.link host) :: refresh ((Change.link host).apply other) else []
    | none =>
      let guest := newGuest rules now host api db.guests g
      .insert guest :: tagWrites guest.id (parseGuestTags g.tags) db.tags

/-- The loop over the listed guests; each is matched against the rows the earlier ones have left. -/
def mergeWrites : Db → List Listed → List Write
  | _, [] => []
  | db, g :: gs =>
    let ws := entryWrites rules now host api db g
    ws ++ mergeWrites (applyAll ws db) gs

/-- A VMID that is known and not listed. -/
def unlisted (vmids : List Vmid) : Option Vmid → Bool
  | some v => v ∉ vmids
  | none => false

/-- The rows of the host whose VMID is not listed. -/
def staleRows (host : HostId) (guests : List Listed) (rows : List Guest) : List Guest :=
  rows.filter fun r => r.proxmoxHostId = some host && unlisted (guests.map fun g => g.vmid) r.vmid

/-- Stale rows go only after a listing that is complete and not empty. -/
def cleanupWrites (guests : List Listed) (complete : Bool) (db : Db) : List Write :=
  if guests = [] ∨ complete = false then [] else (staleRows host guests db.guests).map fun r => .delete r.id

/-- Everything one host's processing writes. -/
def hostWrites (guests : List Listed) (complete : Bool) (db : Db) : List Write :=
  let cleanup := cleanupWrites host guests complete db
  cleanup ++ mergeWrites rules now host api (applyAll cleanup db) guests

/-- The tables after the entries of a listing. -/
def mergeAll (db : Db) (guests : List Listed) : Db :=
  guests.foldl (fun db g => applyAll (entryWrites rules now host api db g) db) db

theorem applyAll_mergeWrites (db : Db) (guests : List Listed) :
    applyAll (mergeWrites rules now host api db guests) db = mergeAll rules now host api db guests := by
  induction guests generalizing db with
  | nil => rfl
  | cons g gs ih =>
    rw [mergeWrites, applyAll_append, ih]
    rfl

theorem applyAll_hostWrites (guests : List Listed) (complete : Bool) (db : Db) :
    applyAll (hostWrites rules now host api guests complete db) db =
      mergeAll rules now host api (applyAll (cleanupWrites host guests complete db) db) guests := by
  rw [hostWrites, applyAll_append, applyAll_mergeWrites]

end

/-! ### Cleanup -/

theorem applyAll_deletes (ids : List Nat) (db : Db) :
    applyAll (ids.map Write.delete) db = { db with guests := db.guests.filter fun g => g.id ∉ ids } := by
  induction ids generalizing db with
  | nil =>
    obtain ⟨guests, tags⟩ := db
    simp
  | cons id ids ih =>
    rw [List.map_cons, applyAll_cons, ih]
    simp only [Write.apply, List.filter_filter, Db.mk.injEq, and_true]
    refine List.filter_congr fun g _ => ?_
    simp [List.mem_cons, not_or, Bool.and_comm]

/-- Deleting the ids of some rows deletes those rows: ids are distinct. -/
theorem filter_ids_of_filter {guests : List Guest} (hids : (guests.map Guest.id).Nodup) (p : Guest → Bool) :
    (guests.filter fun g => g.id ∉ (guests.filter p).map Guest.id) = guests.filter fun g => !p g := by
  refine List.filter_congr fun g hg => ?_
  have : g.id ∈ (guests.filter p).map Guest.id ↔ p g = true := by
    constructor
    · intro h
      obtain ⟨g', hg', hid⟩ := List.mem_map.1 h
      rw [List.mem_filter] at hg'
      rw [← eq_of_id_eq Guest.id hids hg'.1 hg hid]
      exact hg'.2
    · intro h
      exact List.mem_map_of_mem (List.mem_filter.2 ⟨hg, h⟩)
  by_cases hp : p g = true
  · simp [this, hp]
  · simp [this, hp]

end ProxmoxTool.Discovery
