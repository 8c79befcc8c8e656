import ProxmoxTool.ConfigBackup.Settings
import ProxmoxTool.Lib.Rows

/-!
# Importing a document

`apply_import` as a run of upserts: one step for each item of the document, in the order tags, hosts, guests, roles,
settings.  A step is `none` when it raises (a value without `strip`, a value that its column cannot store, a violated
unique index); the caller then rolls the whole import back.  `Note` is what a step adds to the summary.
-/

namespace ProxmoxTool.ConfigBackup

structure Flags where
  importRoles : Bool
  importHosts : Bool

/-- What a step reports. -/
inductive Note
  | ignored
  | tag
  | host
  | hostSkipped (name : Text)
  | guest (skipped : Option Text) (cleared : Option Text)
  | role (clamped : Option Text)
  | settingSkipped (key : String)
  | setting (cleared : List String)

/-! ### Tags -/

def defaultColor : Scalar := .str ['#', '6', 'c', '7', '5', '7', 'd']

/-- `item.get(key) or default`, in a text column. -/
def orDefault (v : Option Value) (default : Scalar) : Option Scalar :=
  if (got v).truthy then store .text (got v) else some default

/-- The network links an item asks for: `none` leaves them alone. -/
def networkLinks (v : Option Value) : Option (List Text) :=
  match got v with
  | .arr items => some ((items.filterMap id).map strip |>.filter (· ≠ []))
  | v => if v.truthy then none else some []

def importTag (db : Db) (item : TagItem) : Option (Db × Note) := do
  let name := strip (← textArg item.name)
  if name = [] then return (db, .ignored)
  let color ← orDefault item.color defaultColor
  let networks := networkLinks item.unifiNetworks
  -- the primary key of a link is the tag and the network
  if (networks.getD []).Nodup then
    match db.tags.find? (·.name = name) with
    | none =>
      let tag : Tag := ⟨freshId Tag.id db.tags, name, color, networks.getD []⟩
      return ({ db with tags := db.tags ++ [tag] }, .tag)
    | some tag =>
      let tag := { tag with color := color, networks := networks.getD tag.networks }
      return ({ db with tags := replaceRow Tag.id tag db.tags }, .tag)
  else none

/-! ### Hosts -/

def newHost (id : Nat) (name hostname : Text) (fields : HostField → Scalar) : Host :=
  ⟨id, name, hostname, insertDefaults HostField.default fields, none, none, none, none⟩

/-- An existing host under the opt-in: `_HOST_SECRET_FIELDS` are cleared, then the fields are overwritten. -/
def repointHost (host : Host) (name hostname : Text) (fields : HostField → Scalar) : Host :=
  { host with
    name := name
    hostname := hostname
    fields := fields
    encryptedPassword := none
    apiTokenSecret := none
    ipmiPassword := none }

def importHost (flags : Flags) (db : Db) (item : HostItem) : Option (Db × Note) := do
  let name ← textArg item.name
  let hostname ← textArg item.hostname
  if strip name = [] ∨ strip hostname = [] then return (db, .ignored)
  match db.hosts.find? (·.name = strip name) with
  | none =>
    -- the names go in as the item has them, not stripped
    let fields ← assign HostField.kind (fun _ => .null) item.fields
    return ({ db with hosts := db.hosts ++ [newHost (freshId Host.id db.hosts) name hostname fields] }, .host)
  | some host =>
    if !flags.importHosts then return (db, .hostSkipped (strip name))
    let fields ← assign HostField.kind host.fields item.fields
    return ({ db with hosts := replaceRow Host.id (repointHost host name hostname fields) db.hosts }, .host)

/-! ### Guests -/

/-- `ProxmoxHost.query.filter_by(name=host_name).first()` if a name is given; an array or object cannot be bound. -/
def hostNamed (db : Db) (v : Option Value) : Option (Option Host) :=
  if !(got v).truthy then some none
  else match got v with
    | .scalar (.str name) => some (db.hosts.find? (·.name = name))
    | .scalar _ => some none
    | _ => none

/-- The two-stage look-up: by host and VMID, then by name and type. -/
def findGuest (db : Db) (host : Option Host) (vmid : Scalar) (name guestType : Text) : Option Guest :=
  -- both look-ups also see the rows that this import has created
  let byVmid : Option Guest := match host with
    | some h => if vmid = .null then none
        else db.guests.find? fun g => g.host = some h.id ∧ g.fields .vmid = vmid
    | none => none
  byVmid.or (db.guests.find? fun g => g.name = name ∧ g.guestType = guestType)

/-- The fields of the item that are written: the connection fields of an existing guest need the opt-in. -/
def writtenFields (flags : Flags) (isNew : Bool) (item : GuestItem) : GuestField → Option Value := fun f =>
  if f.isConnection && !isNew && !flags.importHosts then none else item.fields f

/-- A connection field of the item differs from the guest's. -/
def changesConnection (guest : Guest) (item : GuestItem) : Bool :=
  [GuestField.ipAddress, .connectionMethod].any fun f =>
    (item.fields f).any fun v => v ≠ .scalar (guest.fields f)

/-- The tag links an item asks for: `none` leaves them alone. -/
def tagLinks (db : Db) (v : Option Value) : Option (List Nat) :=
  match got v with
  | .arr items => some ((db.tags.filter fun t => some t.name ∈ items).map Tag.id)
  | v => if v.truthy then none else some []

/-- No other guest of the host has the VMID (`uq_guest_host_vmid`). -/
def vmidFree (db : Db) (guest : Guest) : Bool :=
  guest.host = none ∨ guest.fields .vmid = .null ∨
    ∀ g ∈ db.guests, g.id = guest.id ∨ g.host ≠ guest.host ∨ g.fields .vmid ≠ guest.fields .vmid

def guestTypes : List Text := [['v', 'm'], ['c', 't']]

def newGuest (db : Db) (name guestType : Text) (host : Option Host) (item : GuestItem)
    (fields : GuestField → Scalar) : Guest :=
  { id := freshId Guest.id db.guests
    name := name
    guestType := guestType
    fields := insertDefaults GuestField.default fields
    host := host.map Host.id
    credential := none
    tags := (tagLinks db item.tags).getD [] }

/-- An existing guest: a changed address or connection method drops its own credential link. -/
def updateGuest (flags : Flags) (db : Db) (guest : Guest) (name guestType : Text) (host : Option Host) (item : GuestItem)
    (fields : GuestField → Scalar) : Guest :=
  { id := guest.id
    name := name
    guestType := guestType
    fields := fields
    host := (host.map Host.id).or guest.host
    credential := if flags.importHosts && changesConnection guest item then none else guest.credential
    tags := (tagLinks db item.tags).getD guest.tags }

def importGuest (flags : Flags) (db : Db) (item : GuestItem) : Option (Db × Note) := do
  let name := strip (← textArg item.name)
  let guestType := strip (← textArg item.guestType)
  if name = [] ∨ guestType ∉ guestTypes then return (db, .ignored)
  let host ← hostNamed db item.hostName
  let vmid ← store .integer (got (item.fields .vmid))
  match findGuest db host vmid name guestType with
  | none =>
    let fields ← assign GuestField.kind (fun _ => .null) (writtenFields flags true item)
    let guest := newGuest db name guestType host item fields
    if vmidFree db guest then return ({ db with guests := db.guests ++ [guest] }, .guest none none) else none
  | some old =>
    let fields ← assign GuestField.kind old.fields (writtenFields flags false item)
    let guest := updateGuest flags db old name guestType host item fields
    let skipped := if !flags.importHosts && changesConnection old item then some name else none
    let cleared := if guest.credential ≠ old.credential then some name else none
    if vmidFree db guest then
      return ({ db with guests := replaceRow Guest.id guest db.guests }, .guest skipped cleared)
    else none

/-! ### Roles -/

/-- `Role.BASE_TIER_LEVELS.get(tier, 0)`; an array or object is not hashable. -/
def tierLevel : Value → Option Int
  | .scalar (.str s) =>
    if s = ['v', 'i', 'e', 'w', 'e', 'r'] then some 1
    else if s = ['o', 'p', 'e', 'r', 'a', 't', 'o', 'r'] then some 2
    else if s = ['a', 'd', 'm', 'i', 'n'] then some 3
    else some 0
  | .scalar _ => some 0
  | _ => none

/-- `_MAX_IMPORTED_ROLE_LEVEL`. -/
def maxImportedRoleLevel : Int := 2

/-- `int(level) if isinstance(level, int) else 1`; a `bool` is an `int`. -/
def wantedLevel (v : Option Value) : Int :=
  match got v with
  | .scalar (.int i) => i
  | .scalar (.bool b) => if b then 1 else 0
  | _ => 1

def importedPermissions (base : Permission → Bool) (item : RoleItem) : Permission → Bool := fun p =>
  match item.permissions p with
  | none => base p
  | some v => v.truthy

/-- A role that does not exist yet: at most at the operator level, with a base tier that is not above its level. -/
def newRole (name : Text) (item : RoleItem) : Option Role := do
  let level := min (wantedLevel item.level) maxImportedRoleLevel
  let tier := got item.baseTier
  let tooHigh ← if tier.truthy then (tierLevel tier).map fun l => decide (level < l) else some false
  let baseTier ← if tooHigh then some .null else store .text tier
  let displayName ← orDefault item.displayName (.str name)
  if bindable level then
    some ⟨name, displayName, level, false, baseTier, importedPermissions (fun _ => false) item⟩
  else none

/-- The level an existing role may be given. -/
def cappedLevel (role : Role) (item : RoleItem) : Int :=
  min (wantedLevel item.level) (max role.level maxImportedRoleLevel)

def updateRole (role : Role) (item : RoleItem) : Option Role := do
  let level := cappedLevel role item
  let tier := got item.baseTier
  let displayName ← orDefault item.displayName role.displayName
  let takesTier ← if tier.truthy then (tierLevel tier).map fun l => decide (l ≤ level) else some false
  let baseTier ← if takesTier then store .text tier else some role.baseTier
  if bindable level then
    some ⟨role.name, displayName, if item.level.isSome then level else role.level, role.isBuiltin, baseTier,
      importedPermissions role.permissions item⟩
  else none

def importRole (db : Db) (item : RoleItem) : Option (Db × Note) := do
  let name := strip (← textArg item.name)
  if name = [] then return (db, .ignored)
  let wanted := wantedLevel item.level
  match db.roles.find? (·.name = name) with
  | none =>
    if (got item.isBuiltin).truthy then return (db, .ignored)
    let role ← newRole name item
    return ({ db with roles := db.roles ++ [role] }, .role (if role.level < wanted then some name else none))
  | some role =>
    if role.isBuiltin then return (db, .ignored)
    let new ← updateRole role item
    return ({ db with roles := db.roles.map fun r => if r.name = role.name then new else r },
      .role (if cappedLevel role item < wanted then some name else none))

/-! ### Settings -/

/-- `Setting.set_no_commit`. -/
def setSetting (db : Db) (key : String) (value : Option Text) : Db :=
  { db with settings :=
      if db.settings.any (·.1 = key) then db.settings.map fun s => if s.1 = key then (key, value) else s
      else db.settings ++ [(key, value)] }

/-- `Setting.get(key, "") or ""`. -/
def settingText (db : Db) (key : String) : Text := ((db.setting key).getD none).getD []

/-- The secrets among `keys` that are set are emptied. -/
def clearSecrets (db : Db) (keys : List String) : Db :=
  keys.foldl (fun db key => if settingText db key = [] then db else setSetting db key (some [])) db

/-- The text of an interval in bounds, any other value as it is; `none` for an interval that is refused. -/
def settingValue (key : String) (value : Option Text) : Option (Option Text) :=
  match intervalBounds.lookup key with
  | none => some value
  | some (low, high) => (parseInterval low high value).map fun i => some (intText i)

/-- A setting that is neither `None` nor a text is not imported. -/
def valueText : Value → Option (Option Text)
  | .scalar .null => some none
  | .scalar (.str s) => some (some s)
  | _ => none

def importSetting (flags : Flags) (db : Db) (key : String) (value : Value) : Db × Note :=
  match valueText value with
  | none => (db, if !looksLikeSecretKey key ∧ key ∈ authCriticalKeys then .settingSkipped key else .ignored)
  | some text =>
    if looksLikeSecretKey key || looksLikeSecretValue text then (db, .ignored)
    else if key ∈ authCriticalKeys then (db, .settingSkipped key)
    else match settingValue key text with
      | none => (db, .settingSkipped key)
      | some text =>
        match destinationSecrets key with
        | some secrets =>
          if text.getD [] = settingText db key then (setSetting db key text, .setting [])
          else if !flags.importHosts then (db, .settingSkipped key)
          else (setSetting (clearSecrets db secrets) key text,
            .setting (secrets.filter fun k => settingText db k ≠ []))
        | none => (setSetting db key text, .setting [])

/-! ### The whole import -/

inductive Step
  | tag (item : TagItem)
  | host (item : HostItem)
  | guest (item : GuestItem)
  | role (item : RoleItem)
  | setting (key : String) (value : Value)

def Document.steps (flags : Flags) (doc : Document) : List Step :=
  doc.tags.map .tag ++ doc.hosts.map .host ++ doc.guests.map .guest ++
    (if flags.importRoles then doc.roles.map .role else []) ++ doc.settings.map fun s => .setting s.1 s.2

def importStep (flags : Flags) (db : Db) : Step → Option (Db × Note)
  | .tag item => importTag db item
  | .host item => importHost flags db item
  | .guest item => importGuest flags db item
  | .role item => importRole db item
  | .setting key value => some (importSetting flags db key value)

/-- The steps in order; the first one that raises ends the import. -/
def importSteps (flags : Flags) : Db → List Step → Option (Db × List Note)
  | db, [] => some (db, [])
  | db, step :: steps => do
    let (db, note) ← importStep flags db step
    let (db, notes) ← importSteps flags db steps
    return (db, note :: notes)

/-- The tables after the steps. -/
def runSteps (flags : Flags) (db : Db) (steps : List Step) : Option Db := (importSteps flags db steps).map Prod.fst

/-! ### The uploaded object -/

/-- A section that must be a list of objects; an element that is no object is `none`. -/
inductive Section (α : Type)
  | notList
  | list (items : List (Option α))

/-- The parsed upload, if it is an object. -/
structure Upload where
  version : Option Value
  tags : Option (Section TagItem)
  hosts : Option (Section HostItem)
  guests : Option (Section GuestItem)
  roles : Option (Section RoleItem)
  settings : Option (Option (List (String × Value)))

inductive Failure
  | rejected (message : String)
  | raised

def requireSection {α : Type} (name : String) : Option (Section α) → Except String Unit
  | none => .error s!"Missing required section: '{name}'."
  | some _ => .ok ()

def requireList {α : Type} (name : String) : Option (Section α) → Except String (List (Option α))
  | some (.list items) => .ok items
  | _ => .error s!"Section '{name}' must be a list."

def requireObjects {α : Type} (name : String) (items : List (Option α)) : Except String (List α) :=
  match items.findIdx? Option.isNone with
  | some i => .error s!"{name}[{i}] must be an object."
  | none => .ok (items.filterMap id)

/-- `_validate_document`; `True` equals the version 1. -/
def validateDocument : Option Upload → Except String Document
  | none => .error "Top-level JSON must be an object."
  | some upload => do
    if upload.version ≠ some (.scalar (.int 1)) ∧ upload.version ≠ some (.scalar (.bool true)) then
      throw "Unsupported export version (expected 1)."
    requireSection "hosts" upload.hosts
    requireSection "tags" upload.tags
    requireSection "guests" upload.guests
    requireSection "roles" upload.roles
    if upload.settings.isNone then throw "Missing required section: 'settings'."
    let hosts ← requireList "hosts" upload.hosts
    let tags ← requireList "tags" upload.tags
    let guests ← requireList "guests" upload.guests
    let roles ← requireList "roles" upload.roles
    match upload.settings with
    | some (some settings) =>
      let hosts ← requireObjects "hosts" hosts
      let tags ← requireObjects "tags" tags
      let guests ← requireObjects "guests" guests
      let roles ← requireObjects "roles" roles
      return ⟨tags, hosts, guests, roles, settings⟩
    | _ => throw "Section 'settings' must be an object."

/-- The summary of an import. -/
structure Summary where
  hosts : Nat
  tags : Nat
  guests : Nat
  settings : Nat
  roles : Nat
  skippedSettings : List String
  skippedHosts : List Text
  skippedGuests : List Text
  skippedRoles : Nat
  clampedRoles : List Text
  clearedGuests : List Text
  clearedSettings : List String

def summary (flags : Flags) (doc : Document) (notes : List Note) : Summary where
  hosts := notes.countP fun n => n matches .host
  tags := notes.countP fun n => n matches .tag
  guests := notes.countP fun n => n matches .guest ..
  settings := notes.countP fun n => n matches .setting _
  roles := notes.countP fun n => n matches .role _
  skippedSettings := notes.filterMap fun | .settingSkipped key => some key | _ => none
  skippedHosts := notes.filterMap fun | .hostSkipped name => some name | _ => none
  skippedGuests := (notes.filterMap fun | .guest skipped _ => skipped | _ => none).eraseDups
  skippedRoles := if flags.importRoles then 0 else doc.roles.length
  clampedRoles := notes.filterMap fun | .role clamped => clamped | _ => none
  clearedGuests := notes.filterMap fun | .guest _ cleared => cleared | _ => none
  clearedSettings := (notes.map fun | .setting cleared => cleared | _ => []).flatten

/-- `apply_import`: the new tables and the summary; after a failure the caller rolls back. -/
def applyImport (flags : Flags) (db : Db) (upload : Option Upload) : Except Failure (Db × Summary) :=
  match validateDocument upload with
  | .error message => .error (.rejected message)
  | .ok doc => match importSteps flags db (doc.steps flags) with
    | none => .error .raised
    | some (db, notes) => .ok (db, summary flags doc notes)

end ProxmoxTool.ConfigBackup
