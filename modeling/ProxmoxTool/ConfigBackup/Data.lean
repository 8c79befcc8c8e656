import Mathlib
import ProxmoxTool.Lib.Text

/-!
# Rows and documents of the configuration backup

The tables that `core/config_backup.py` reads and writes, and the JSON document it exports and imports.  A row keeps its
name and its host name as texts and its other configuration columns as scalars; the columns of a table are an enumeration,
so that a loop over `_HOST_FIELDS` or `_GUEST_FIELDS` is one function of the column.  An item of a document has, for every
key the import reads, the value given there, if any.

A column stores what its kind allows, otherwise the flush raises.  SQLite's conversion of a number in a text column (and
of a numeral in an integer column) is left out: values are stored and compared as the document gives them.
-/

namespace ProxmoxTool.ConfigBackup

/-- A JSON value that a column can hold.  `frac` is a number that is not whole. -/
inductive Scalar
  | null
  | bool (b : Bool)
  | int (i : Int)
  | frac (shown : Text)
  | str (s : Text)
deriving DecidableEq

/-- A JSON value.  Of the elements of an array only the strings are read: the others are `none`. -/
inductive Value
  | scalar (s : Scalar)
  | arr (items : List (Option Text))
  | obj (empty : Bool)
deriving DecidableEq

def Scalar.truthy : Scalar → Bool
  | .null => false
  | .bool b => b
  | .int i => i != 0
  | .frac _ => true
  | .str s => !s.isEmpty

def Value.truthy : Value → Bool
  | .scalar s => s.truthy
  | .arr items => !items.isEmpty
  | .obj empty => !empty

/-- `item.get(key)`. -/
def got (v : Option Value) : Value := v.getD (.scalar .null)

/-- `(item.get(key) or "")`, to which `.strip()` is applied: `none` when the value has no such method. -/
def textArg (v : Option Value) : Option Text :=
  match got v with
  | .scalar (.str s) => some s
  | v => if v.truthy then none else some []

/-! ### Columns -/

inductive Kind
  | text | integer | boolean
deriving DecidableEq

/-- An integer that SQLite can bind. -/
def bindable (i : Int) : Bool := -2 ^ 63 ≤ i && i < 2 ^ 63

/-- What the column keeps of a value; `none` when the flush raises. -/
def store : Kind → Value → Option Scalar
  | _, .scalar .null => some .null
  | .boolean, .scalar (.bool b) => some (.bool b)
  | .boolean, .scalar (.int 0) => some (.bool false)
  | .boolean, .scalar (.int 1) => some (.bool true)
  | .boolean, _ => none
  | _, .scalar (.int i) => if bindable i then some (.int i) else none
  | _, .scalar s => some s
  | _, .arr _ => none
  | _, .obj _ => none

/-- The columns of `_HOST_FIELDS` besides `name` and `hostname`. -/
inductive HostField
  | port | authType | username | apiTokenId | verifySsl | hostType | ipmiEnabled | ipmiAddress | ipmiUsername
  | ipmiVerifySsl
deriving DecidableEq

instance : Fintype HostField :=
  .ofList [.port, .authType, .username, .apiTokenId, .verifySsl, .hostType, .ipmiEnabled, .ipmiAddress, .ipmiUsername,
    .ipmiVerifySsl] fun f => by cases f <;> decide

def HostField.kind : HostField → Kind
  | .port => .integer
  | .verifySsl | .ipmiEnabled | .ipmiVerifySsl => .boolean
  | _ => .text

/-- The column default, which an insert also uses where the value is `None`. -/
def HostField.default : HostField → Scalar
  | .port => .int 8006
  | .authType => .str ['t', 'o', 'k', 'e', 'n']
  | .hostType => .str ['p', 'v', 'e']
  | .verifySsl | .ipmiEnabled | .ipmiVerifySsl => .bool false
  | .username | .apiTokenId | .ipmiAddress | .ipmiUsername => .null

/-- The columns of `_GUEST_FIELDS` besides `name` and `guest_type`. -/
inductive GuestField
  | vmid | ipAddress | connectionMethod | autoUpdate | status | enabled | replicationTarget | macAddress | powerState
  | rebootRequired | requireSnapshot | backupStorage | backupMode | backupCompress
deriving DecidableEq

instance : Fintype GuestField :=
  .ofList [.vmid, .ipAddress, .connectionMethod, .autoUpdate, .status, .enabled, .replicationTarget, .macAddress,
    .powerState, .rebootRequired, .requireSnapshot, .backupStorage, .backupMode, .backupCompress]
    fun f => by cases f <;> decide

def GuestField.kind : GuestField → Kind
  | .vmid => .integer
  | .autoUpdate | .enabled | .rebootRequired => .boolean
  | _ => .text

def unknown : Text := ['u', 'n', 'k', 'n', 'o', 'w', 'n']

def GuestField.default : GuestField → Scalar
  | .connectionMethod => .str ['s', 's', 'h']
  | .autoUpdate | .rebootRequired => .bool false
  | .enabled => .bool true
  | .status | .powerState => .str unknown
  | .requireSnapshot => .str ['i', 'n', 'h', 'e', 'r', 'i', 't']
  | _ => .null

/-- `_GUEST_CONNECTION_FIELDS`. -/
def GuestField.isConnection : GuestField → Bool
  | .ipAddress | .connectionMethod => true
  | _ => false

section

variable {F : Type} [DecidableEq F] [Fintype F] (kind : F → Kind) (default : F → Scalar)

/-- `for field in fields: if field in item: setattr(row, field, item[field])`, then the flush. -/
def assign (base : F → Scalar) (item : F → Option Value) : Option (F → Scalar) :=
  if ∀ f, (item f).all fun v => (store (kind f) v).isSome then
    some fun f => match item f with
      | none => base f
      | some v => (store (kind f) v).getD (base f)
  else none

/-- A column left at `None` gets its default when the row is inserted. -/
def insertDefaults (fields : F → Scalar) : F → Scalar := fun f =>
  if fields f = .null then default f else fields f

end

/-! ### Tables -/

structure Host where
  id : Nat
  name : Text
  hostname : Text
  fields : HostField → Scalar
  encryptedPassword : Option Text
  apiTokenSecret : Option Text
  ipmiPassword : Option Text
  sshCredential : Option Nat
deriving DecidableEq

structure Guest where
  id : Nat
  name : Text
  guestType : Text
  fields : GuestField → Scalar
  host : Option Nat
  credential : Option Nat
  tags : List Nat
deriving DecidableEq

structure Tag where
  id : Nat
  name : Text
  color : Scalar
  networks : List Text
deriving DecidableEq

/-- `Role.PERMISSION_FIELDS`. -/
inductive Permission
  | ssh | update | manageUsers | manageSettings | manageCredentials | viewHosts | manageHosts | manageGuests
  | restartUnifi | viewAuditLog | viewServices | editServices | viewUnifi | viewIpmi | manageIpmi | moderate | useAi
  | viewGuests | moderateStaff | maintainMastodonAccounts
deriving DecidableEq

instance : Fintype Permission :=
  .ofList [.ssh, .update, .manageUsers, .manageSettings, .manageCredentials, .viewHosts, .manageHosts, .manageGuests,
    .restartUnifi, .viewAuditLog, .viewServices, .editServices, .viewUnifi, .viewIpmi, .manageIpmi, .moderate, .useAi,
    .viewGuests, .moderateStaff, .maintainMastodonAccounts] fun p => by cases p <;> decide

structure Role where
  name : Text
  displayName : Scalar
  level : Int
  isBuiltin : Bool
  baseTier : Scalar
  permissions : Permission → Bool
deriving DecidableEq

structure Credential where
  id : Nat
  isDefault : Bool
deriving DecidableEq

structure Db where
  tags : List Tag
  hosts : List Host
  guests : List Guest
  roles : List Role
  settings : List (String × Option Text)
  credentials : List Credential

/-- `Setting.query.filter_by(key=key).first()`. -/
def Db.setting (db : Db) (key : String) : Option (Option Text) := (db.settings.find? (·.1 = key)).map (·.2)

/-! ### Documents -/

structure TagItem where
  name : Option Value
  color : Option Value
  unifiNetworks : Option Value
deriving DecidableEq

structure HostItem where
  name : Option Value
  hostname : Option Value
  fields : HostField → Option Value
deriving DecidableEq

structure GuestItem where
  name : Option Value
  guestType : Option Value
  fields : GuestField → Option Value
  hostName : Option Value
  tags : Option Value
deriving DecidableEq

structure RoleItem where
  name : Option Value
  displayName : Option Value
  level : Option Value
  isBuiltin : Option Value
  baseTier : Option Value
  permissions : Permission → Option Value

/-- A document that has passed `_validate_document`.  `settings` is an object: its keys are distinct. -/
structure Document where
  tags : List TagItem
  hosts : List HostItem
  guests : List GuestItem
  roles : List RoleItem
  settings : List (String × Value)

end ProxmoxTool.ConfigBackup
