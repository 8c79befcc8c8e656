import Mathlib.Tactic.Common
import ProxmoxTool.Lib.Rows
import ProxmoxTool.Discovery.Listing

/-!
# Guest and tag rows

The tables that discovery writes, and its writes as data: what one host's processing does to the session is a list of
`Write`s, in the order of the source, each as small as one assignment.  An exception in the middle leaves a prefix of the
list in the session, whatever raised it.

`Guest.link` is the part of a row that says which guest it stands for and what belongs to the guest: discovery only changes
its host (`Change.link`).
-/

namespace ProxmoxTool.Discovery

inductive PowerState
  | running
  | stopped
  | paused
  | unknown
  deriving DecidableEq, Repr

inductive Connection
  | ssh
  | agent
  | auto
  deriving DecidableEq, Repr

/-- `Guest.status`. -/
inductive ScanStatus
  | unknown
  | upToDate
  | updatesAvailable
  | error
  deriving DecidableEq, Repr

/-- The data of a guest derived from scans; the related rows are given by their ids. -/
structure ScanState where
  scanResults : List Nat := []
  updates : List Nat := []
  services : List Nat := []
  exporters : List Nat := []
  lastScan : Option Nat := none
  status : ScanStatus := .unknown
  rebootRequired : Bool := false
  deriving DecidableEq, Repr

/-- A row of `guests`, with the rows that refer to it. -/
structure Guest where
  id : Nat
  proxmoxHostId : Option HostId
  vmid : Option Vmid
  name : Text
  guestType : GuestType
  ipAddress : Option Text := none
  connectionMethod : Connection := .ssh
  credentialId : Option Nat := none
  autoUpdate : Bool := false
  maintenanceWindowId : Option Nat := none
  scan : ScanState := {}
  updateHistory : List Nat := []
  replicationTarget : Option Text := none
  macAddress : Option Text := none
  powerState : PowerState := .unknown
  lockReason : Option Text := none
  tags : List Nat := []
  createdAt : Nat
  deriving DecidableEq, Repr

structure Tag where
  id : Nat
  name : Text
  deriving DecidableEq, Repr

structure Db where
  guests : List Guest
  tags : List Tag
  deriving DecidableEq, Repr

/-! ### Writes -/

/-- An assignment to one guest row. -/
inductive Change
  | link (host : HostId)
  | setType (type : GuestType)
  | dropScanResults
  | dropUpdates
  | dropServices
  | dropExporters
  | resetScan
  | setIp (ip : Text)
  | setName (name : Text)
  | setReplication (target : Option Text)
  | setPower (state : PowerState)
  | setLock (reason : Option Text)
  | setMac (mac : Text)
  | clearTags
  | appendTag (tag : Nat)
  deriving DecidableEq, Repr

def Change.apply : Change → Guest → Guest
  | .link host, g => { g with proxmoxHostId := some host }
  | .setType type, g => { g with guestType := type }
  | .dropScanResults, g => { g with scan := { g.scan with scanResults := [] } }
  | .dropUpdates, g => { g with scan := { g.scan with updates := [] } }
  | .dropServices, g => { g with scan := { g.scan with services := [] } }
  | .dropExporters, g => { g with scan := { g.scan with exporters := [] } }
  | .resetScan, g => { g with scan := { g.scan with lastScan := none, status := .unknown, rebootRequired := false } }
  | .setIp ip, g => { g with ipAddress := some ip }
  | .setName name, g => { g with name := name }
  | .setReplication target, g => { g with replicationTarget := target }
  | .setPower state, g => { g with powerState := state }
  | .setLock reason, g => { g with lockReason := reason }
  | .setMac mac, g => { g with macAddress := some mac }
  | .clearTags, g => { g with tags := [] }
  | .appendTag tag, g => { g with tags := g.tags ++ [tag] }

/-- `Guest.clear_stale_data`. -/
def clearStaleData : List Change := [.dropScanResults, .dropUpdates, .dropServices, .dropExporters, .resetScan]

/-- A statement of the session. -/
inductive Write
  | delete (id : Nat)
  | insert (g : Guest)
  | change (id : Nat) (c : Change)
  | insertTag (t : Tag)
  deriving DecidableEq, Repr

/-- Deleting a row takes the rows that refer to it along. -/
def Write.apply : Write → Db → Db
  | .delete id, db => { db with guests := db.guests.filter fun g => g.id ≠ id }
  | .insert g, db => { db with guests := db.guests ++ [g] }
  | .change id c, db => { db with guests := db.guests.map fun g => if g.id = id then c.apply g else g }
  | .insertTag t, db => { db with tags := db.tags ++ [t] }

def applyAll (ws : List Write) (db : Db) : Db := ws.foldl (fun db w => w.apply db) db

@[simp] theorem applyAll_nil (db : Db) : applyAll [] db = db := rfl

@[simp] theorem applyAll_cons (w : Write) (ws : List Write) (db : Db) :
    applyAll (w :: ws) db = applyAll ws (w.apply db) := rfl

theorem applyAll_append (ws ws' : List Write) (db : Db) : applyAll (ws ++ ws') db = applyAll ws' (applyAll ws db) :=
  List.foldl_append

/-- The changes made to one row, one after the other. -/
def changeAll (cs : List Change) (g : Guest) : Guest := cs.foldl (fun g c => c.apply g) g

theorem changeAll_append (cs cs' : List Change) (g : Guest) :
    changeAll (cs ++ cs') g = changeAll cs' (changeAll cs g) :=
  List.foldl_append

@[simp] theorem Change.apply_id (c : Change) (g : Guest) : (c.apply g).id = g.id := by
  cases c <;> rfl

@[simp] theorem Change.apply_vmid (c : Change) (g : Guest) : (c.apply g).vmid = g.vmid := by
  cases c <;> rfl

@[simp] theorem changeAll_id (cs : List Change) (g : Guest) : (changeAll cs g).id = g.id := by
  induction cs generalizing g with
  | nil => rfl
  | cons c cs ih => exact (ih (c.apply g)).trans (c.apply_id g)

/-- The rows with one id changed by `f`. -/
def Db.modify (db : Db) (id : Nat) (f : Guest → Guest) : Db :=
  { db with guests := db.guests.map fun g => if g.id = id then f g else g }

theorem Db.modify_modify (db : Db) (id : Nat) (f f' : Guest → Guest) (hf : ∀ g, (f g).id = g.id) :
    (db.modify id f).modify id f' = db.modify id fun g => f' (f g) := by
  unfold Db.modify
  simp only [List.map_map, Db.mk.injEq, and_true]
  refine List.map_congr_left fun g _ => ?_
  by_cases h : g.id = id
  · simp [h, hf]
  · simp [h]

theorem applyAll_changes (id : Nat) (cs : List Change) (db : Db) :
    applyAll (cs.map (.change id)) db = db.modify id (changeAll cs) := by
  induction cs generalizing db with
  | nil =>
    obtain ⟨guests, tags⟩ := db
    simp [Db.modify, changeAll]
  | cons c cs ih =>
    rw [List.map_cons, applyAll_cons, ih]
    exact Db.modify_modify db id c.apply (changeAll cs) c.apply_id

/-! ### Tags -/

/-- `_parse_guest_tags`: tags are separated by semicolons or commas. -/
def parseGuestTags (tags : Text) : List Text :=
  ((tags.splitOnP fun c => c = ';' || c = ',').map strip).filter (· ≠ [])

/-- Appending the tags of the given names to a row; a name without a `Tag` row gets one (`_resolve_tag`). -/
def tagWrites (id : Nat) : List Text → List Tag → List Write
  | [], _ => []
  | name :: names, tags => match tags.find? fun t => t.name = name with
    | some t => .change id (.appendTag t.id) :: tagWrites id names tags
    | none =>
      let t : Tag := { id := freshId Tag.id tags, name := name }
      .insertTag t :: .change id (.appendTag t.id) :: tagWrites id names (tags ++ [t])

/-- The tag table after resolving the names, and the ids they resolve to. -/
def resolveTags : List Text → List Tag → List Tag × List Nat
  | [], tags => (tags, [])
  | name :: names, tags => match tags.find? fun t => t.name = name with
    | some t => ((resolveTags names tags).1, t.id :: (resolveTags names tags).2)
    | none =>
      let t : Tag := { id := freshId Tag.id tags, name := name }
      ((resolveTags names (tags ++ [t])).1, t.id :: (resolveTags names (tags ++ [t])).2)

/-- Tag writes append the resolved ids to one row and extend the tag table. -/
theorem applyAll_tagWrites (id : Nat) (names : List Text) (db : Db) :
    applyAll (tagWrites id names db.tags) db =
      { guests := (db.modify id fun g => { g with tags := g.tags ++ (resolveTags names db.tags).2 }).guests,
        tags := (resolveTags names db.tags).1 } := by
  induction names generalizing db with
  | nil =>
    obtain ⟨guests, tags⟩ := db
    simp [tagWrites, resolveTags, Db.modify]
  | cons name names ih =>
    unfold tagWrites resolveTags
    split
    · rename_i t ht
      rw [applyAll_cons]
      have := ih (Write.apply (.change id (.appendTag t.id)) db)
      rw [show (Write.apply (.change id (.appendTag t.id)) db).tags = db.tags from rfl] at this
      rw [this]
      simp only [Db.mk.injEq, and_true]
      have hmod := Db.modify_modify db id (Change.appendTag t.id).apply
        (fun g => { g with tags := g.tags ++ (resolveTags names db.tags).2 }) (Change.apply_id _)
      refine (congrArg Db.guests hmod).trans ?_
      simp [Change.apply]
    · rename_i ht
      generalize htag : ({ id := freshId Tag.id db.tags, name := name } : Tag) = t
      rw [applyAll_cons, applyAll_cons]
      have := ih (Write.apply (.change id (.appendTag t.id)) (Write.apply (.insertTag t) db))
      rw [show (Write.apply (.change id (.appendTag t.id)) (Write.apply (.insertTag t) db)).tags = db.tags ++ [t] from
        rfl] at this
      rw [this]
      simp only [Db.mk.injEq, and_true]
      have hmod := Db.modify_modify (Write.apply (.insertTag t) db) id (Change.appendTag t.id).apply
        (fun g => { g with tags := g.tags ++ (resolveTags names (db.tags ++ [t])).2 }) (Change.apply_id _)
      refine (congrArg Db.guests hmod).trans ?_
      simp [Change.apply, Db.modify, Write.apply]

end ProxmoxTool.Discovery
