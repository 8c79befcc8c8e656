import Mathlib.Data.List.Sort
import ProxmoxTool.ConfigBackup.Import

/-!
# Exporting the tables

`build_export`.  Hosts, tags and guests are ordered by name (SQLite compares texts by code point), settings by key, roles
from the highest level down.  A guest names its host and its tags instead of their ids; secrets are replaced by a
placeholder.
-/

namespace ProxmoxTool.ConfigBackup

def orderBy {α β : Type} [LE β] [DecidableLE β] (key : α → β) (rows : List α) : List α :=
  rows.insertionSort fun a b => key a ≤ key b

def Host.item (h : Host) : HostItem where
  name := some (.scalar (.str h.name))
  hostname := some (.scalar (.str h.hostname))
  fields := fun f => some (.scalar (h.fields f))

def Tag.item (t : Tag) : TagItem where
  name := some (.scalar (.str t.name))
  color := some (.scalar t.color)
  unifiNetworks := some (.arr (t.networks.map some))

/-- `g.proxmox_host.name`. -/
def Db.hostName (db : Db) (g : Guest) : Option Text :=
  (g.host.bind fun id => db.hosts.find? (·.id = id)).map Host.name

/-- `[t.name for t in g.tags]`. -/
def Db.tagNames (db : Db) (g : Guest) : List Text := (db.tags.filter (·.id ∈ g.tags)).map Tag.name

/-- A text, or `None`. -/
def orNull (t : Option Text) : Value := .scalar ((t.map Scalar.str).getD .null)

def Db.guestItem (db : Db) (g : Guest) : GuestItem where
  name := some (.scalar (.str g.name))
  guestType := some (.scalar (.str g.guestType))
  fields := fun f => some (.scalar (g.fields f))
  hostName := some (orNull (db.hostName g))
  tags := some (.arr ((db.tagNames g).map some))

def Role.item (r : Role) : RoleItem where
  name := some (.scalar (.str r.name))
  displayName := some (.scalar r.displayName)
  level := some (.scalar (.int r.level))
  isBuiltin := some (.scalar (.bool r.isBuiltin))
  baseTier := some (.scalar r.baseTier)
  permissions := fun p => some (.scalar (.bool (r.permissions p)))

def redacted : Text := ['*', '*', '*', 'R', 'E', 'D', 'A', 'C', 'T', 'E', 'D', '*', '*', '*']

def exportSetting (s : String × Option Text) : String × Value :=
  (s.1, if looksLikeSecretKey s.1 || looksLikeSecretValue s.2 then .scalar (.str redacted) else orNull s.2)

/-- `build_export`. -/
def buildExport (db : Db) : Document where
  hosts := (orderBy Host.name db.hosts).map Host.item
  tags := (orderBy Tag.name db.tags).map Tag.item
  guests := (orderBy Guest.name db.guests).map db.guestItem
  roles := (orderBy Role.level (orderBy Role.name db.roles).reverse).reverse.map Role.item
  settings := (orderBy Prod.fst db.settings).map exportSetting

/-- The document as it is uploaded again. -/
def Document.upload (doc : Document) : Upload where
  version := some (.scalar (.int 1))
  tags := some (.list (doc.tags.map some))
  hosts := some (.list (doc.hosts.map some))
  guests := some (.list (doc.guests.map some))
  roles := some (.list (doc.roles.map some))
  settings := some (some doc.settings)

private theorem requireObjects_some {α : Type} (name : String) (items : List α) :
    requireObjects name (items.map some) = .ok items := by
  have h : (items.map some).findIdx? Option.isNone = none := by
    simp [List.findIdx?_eq_none_iff]
  simp [requireObjects, h]

theorem validateDocument_upload (doc : Document) : validateDocument (some doc.upload) = .ok doc := by
  simp [validateDocument, Document.upload, requireSection, requireList, requireObjects_some, bind, Except.bind, pure,
    Except.pure]

theorem orderBy_perm {α β : Type} [LE β] [DecidableLE β] (key : α → β) (rows : List α) :
    (orderBy key rows).Perm rows := List.perm_insertionSort _ rows

@[simp] theorem mem_orderBy {α β : Type} [LE β] [DecidableLE β] {key : α → β} {rows : List α} {a : α} :
    a ∈ orderBy key rows ↔ a ∈ rows := (orderBy_perm key rows).mem_iff

@[simp] theorem length_orderBy {α β : Type} [LE β] [DecidableLE β] (key : α → β) (rows : List α) :
    (orderBy key rows).length = rows.length := (orderBy_perm key rows).length_eq

theorem pairwise_orderBy {α β : Type} [LE β] [DecidableLE β] [IsTrans β (· ≤ ·)] [@Std.Total β (· ≤ ·)]
    (key : α → β) (rows : List α) : ((orderBy key rows).map key).Pairwise (· ≤ ·) := by
  have : @Std.Total α fun a b => key a ≤ key b := ⟨fun a b => Std.Total.total (key a) (key b)⟩
  have : IsTrans α fun a b => key a ≤ key b := ⟨fun _ _ _ hab hbc => IsTrans.trans _ _ _ hab hbc⟩
  exact List.pairwise_map.2 (List.pairwise_insertionSort _ rows)

/-- Rows that are in order stay as they are. -/
theorem orderBy_of_pairwise {α β : Type} [LE β] [DecidableLE β] {key : α → β} {rows : List α}
    (h : (rows.map key).Pairwise (· ≤ ·)) : orderBy key rows = rows :=
  (List.pairwise_map.1 h).insertionSort_eq

end ProxmoxTool.ConfigBackup
