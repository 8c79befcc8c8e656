import ProxmoxTool.Lib.Text

/-!
# The state-changing tools of the assistant

The handlers of `control_service`, `control_guest_power`, `manage_snapshot`, `manage_backup`, `manage_host_updates` and
`control_ipmi_power`, and `execute_tool` around them.  A tool input is the JSON object the model sent, with values of any
type; `View` is everything a call finds outside: the rows it looks up, what Proxmox or the BMC answers.

All six have one shape, `twoPhase`: checks, then the gate on `confirm`, then what is still checked after the gate, then
the command.  Each keeps its own checks, texts and late checks.  `refresh` and `cancel` of `manage_host_updates` need no
confirmation by design; they are replies here, not commands.
-/

namespace ProxmoxTool.AiTools

/-- A JSON value; `other` is an array, an object or a fraction. -/
inductive Value
  | null
  | bool (b : Bool)
  | num (n : Int)
  | str (s : String)
  | other (truthy : Bool) (shown : String)

def Value.truthy : Value → Bool
  | .null => false
  | .bool b => b
  | .num n => n != 0
  | .str s => s != ""
  | .other t _ => t

def Value.shown : Value → String
  | .null => "None"
  | .bool true => "True"
  | .bool false => "False"
  | .num n => toString n
  | .str s => s
  | .other _ s => s

/-- `tool_input`, a dictionary. -/
abbrev ToolInput := String → Option Value

inductive Tool
  | controlService | controlGuestPower | manageSnapshot | manageBackup | manageHostUpdates | controlIpmiPower
deriving DecidableEq

def Tool.name : Tool → String
  | .controlService => "control_service"
  | .controlGuestPower => "control_guest_power"
  | .manageSnapshot => "manage_snapshot"
  | .manageBackup => "manage_backup"
  | .manageHostUpdates => "manage_host_updates"
  | .controlIpmiPower => "control_ipmi_power"

/-- What a command acts on.  A snapshot or a backup to be made has no name of its own yet: its target is the guest. -/
inductive Target
  | service (id : Nat)
  | guest (id : Nat)
  | snapshot (guest : Nat) (name : String)
  | backup (guest : Nat) (volid : String)
  | host (id : Nat)
deriving DecidableEq

structure Key where
  tool : Tool
  target : Target
  action : String
deriving DecidableEq

/-- An answer that proposes nothing. -/
inductive Answer
  | error (message : String)
  | result (success : Bool) (message : String)

inductive Reply
  | answer (a : Answer)
  | confirmationRequired (message : String) (pending : Key) (details : List (String × String))

/-- What a call does: the command it sends, if any, and what it answers the model. -/
structure Outcome where
  command : Option Key
  reply : Reply

/-! ### What a call finds -/

structure GuestRow where
  id : Nat
  name : String
  guestType : String
  vmid : Nat
  host : Option String
  powerState : String
  lockReason : String
  accessible : Bool
  backupStorage : String
  backupMode : String
  backupCompress : String

structure ServiceRow where
  id : Nat
  serviceName : String
  guest : Option GuestRow

structure HostRow where
  id : Nat
  name : String
  isPbs : Bool
  sshCredential : Bool
  pending : Nat
  security : Nat
  ipmiEnabled : Bool
  ipmiAddress : String

/-- `node` is the node found for the guest or the host, `none` when the client raises; `answer` is what the command returns, `none` when
it raises; `running` and `runningAtReserve` are the two looks at the host's apply job. -/
structure View where
  services : Value → Option ServiceRow
  guests : Value → Option GuestRow
  hosts : Value → Option HostRow
  timestamp : String
  node : Option (Option String)
  supportsSnapshot : Bool
  backupArchive : Option String
  running : Bool
  runningAtReserve : Bool
  redfish : Bool
  bmcPowerState : Option String
  answer : Option (Bool × String)

/-! ### The two-phase gate -/

def internalError : Answer := .error "Tool execution failed due to an internal error."

/-- A call that has passed the checks before the gate.  `late` is what happens once it is confirmed: a refusal without
a command, or the answer to the command. -/
structure Prepared where
  key : Key
  message : String
  details : List (String × String)
  late : Except Answer Answer

/-- The checks before the gate: `error none` is a Python exception, `error (some a)` an early answer. -/
abbrev Check := Except (Option Answer) Prepared

def refuse {α : Type} (message : String) : Except (Option Answer) α := .error (some (.error message))

def confirmed (input : ToolInput) : Bool := (input "confirm").any Value.truthy

def twoPhase (check : Check) (input : ToolInput) : Outcome :=
  match check with
  | .error none => { command := none, reply := .answer internalError }
  | .error (some a) => { command := none, reply := .answer a }
  | .ok p =>
    if confirmed input then
      match p.late with
      | .error a => { command := none, reply := .answer a }
      | .ok a => { command := some p.key, reply := .answer a }
    else { command := none, reply := .confirmationRequired p.message p.key p.details }

/-- The message of `_confirmation_required`. -/
def confirmationMessage (tool : Tool) (summary : String) : String :=
  let name := tool.name
  s!"{summary} No action has been taken. To proceed, call {name} again with the same arguments plus \"confirm\": true."

/-- `tool_input[name]`. -/
def field (input : ToolInput) (name : String) : Except (Option Answer) Value :=
  match input name with
  | some v => .ok v
  | none => .error none

/-- `(tool_input.get(name) or "").strip()`. -/
def textField (input : ToolInput) (name : String) : Except (Option Answer) String :=
  match input name with
  | some (.str s) => .ok (String.ofList (strip s.toList))
  | some v => if v.truthy then .error none else .ok ""
  | none => .ok ""

/-- `if action not in allowed: return Invalid action`. -/
def actionField (action : Option Value) (allowed : List String) : Except (Option Answer) String :=
  match action with
  | some (.str s) => if s ∈ allowed then .ok s else refuse s!"Invalid action: {s}"
  | some v =>
    let shown := v.shown
    refuse s!"Invalid action: {shown}"
  | none => refuse "Invalid action: None"

def linkedGuest (guest : Option GuestRow) : Except (Option Answer) GuestRow :=
  match guest with
  | none => refuse "Guest not found"
  | some g =>
    if !g.accessible then refuse "Access denied"
    else if g.host.isNone || g.vmid == 0 then refuse "Guest is not linked to a Proxmox host"
    else .ok g

/-- `_live_guest` for a guest that has passed `_linked_guest`. -/
def liveGuest (guest : GuestRow) (view : View) : Except Answer String :=
  match view.node with
  | none => .error internalError
  | some none =>
    let vmid := guest.vmid
    let host := guest.host.getD ""
    .error (.error s!"Guest VMID {vmid} was not found on host '{host}'")
  | some (some node) => .ok node

/-- The answer to a command that was sent; an exception is caught by `execute_tool`. -/
def answered (view : View) (done rejected : String) : Answer :=
  match view.answer with
  | some (true, _) => .result true done
  | some (false, _) => .result false rejected
  | none => internalError

/-! ### The handlers -/

def serviceActions : List String := ["start", "stop", "restart"]
def powerActions : List String := ["start", "shutdown", "stop", "reboot"]
def snapshotActions : List String := ["create", "delete", "rollback"]
def backupActions : List String := ["create", "delete", "restore", "protect", "unprotect"]
def backupModes : List String := ["snapshot", "suspend", "stop"]
def backupCompress : List String := ["0", "gzip", "lzo", "zstd"]
def hostUpdateActions : List String := ["refresh", "apply", "cancel"]
def ipmiPowerActions : List String := ["on", "off", "reset", "cycle", "graceful_shutdown"]
def ipmiHardActions : List String := ["off", "reset", "cycle"]

def checkControlService (input : ToolInput) (view : View) : Check := do
  let id ← field input "service_id"
  let some svc := view.services id | refuse "Service not found"
  let some guest := svc.guest | refuse "Access denied"
  if !guest.accessible then refuse "Access denied"
  else
    let action ← actionField ((input "action").getD (.str "restart")) serviceActions
    let service := svc.serviceName
    let name := guest.name
    return {
      key := { tool := .controlService, target := .service svc.id, action := action }
      message := s!"This will {action} '{service}' on '{name}'. No action has been taken. To proceed, call " ++
        "control_service again with the same service_id and action plus \"confirm\": true."
      details := [("service_name", service), ("guest", name)]
      late := .ok (match view.answer with
        | some (ok, msg) => .result ok msg
        | none => .error "Service control failed due to an internal error.") }

def checkControlGuestPower (input : ToolInput) (view : View) : Check := do
  let action ← actionField (input "action") powerActions
  let id ← field input "guest_id"
  let guest ← linkedGuest (view.guests id)
  let name := guest.name
  let kind := guest.guestType.toUpper
  let vmid := guest.vmid
  let host := guest.host.getD ""
  let state := guest.powerState
  let lock := guest.lockReason
  return {
    key := { tool := .controlGuestPower, target := .guest guest.id, action := action }
    message := confirmationMessage .controlGuestPower (
      s!"This will {action} '{name}' ({kind} {vmid} on {host}); it is currently {state}." ++
      (if lock == "" then "" else s!" WARNING: the guest is locked ({lock}).") ++
      (if action == "stop" then
        " 'stop' is a hard power-off; prefer 'shutdown' unless the guest is unresponsive." else ""))
    details := [("guest", name), ("current_power_state", state)]
    late :=
      let capitalized := action.capitalize
      if view.node.isNone then .error internalError
      else .ok (answered view s!"{capitalized} command sent to {name}."
        s!"Proxmox rejected the {action} command; details are in the server log.") }

/-- `_SNAPNAME_RE`: a letter, then at most 39 letters, digits, `-` and `_`; `$` also accepts one newline at the end. -/
def validSnapname (s : String) : Bool :=
  let body := s.toList
  let name := if body.getLast? = some '\n' then body.dropLast else body
  match name with
  | [] => false
  | c :: rest => c.isAlpha && rest.length ≤ 39 && rest.all fun d => d.isAlpha || d.isDigit || d == '_' || d == '-'

def snapshotSummary (action snapname name : String) : String :=
  if action == "create" then s!"This will create snapshot '{snapname}' of '{name}'."
  else if action == "delete" then
    s!"This will permanently delete snapshot '{snapname}' of '{name}'. This cannot be undone."
  else
    s!"This will roll '{name}' back to snapshot '{snapname}', discarding every change made since it was taken. " ++
      "This cannot be undone."

def checkManageSnapshot (input : ToolInput) (view : View) : Check := do
  let action ← actionField (input "action") snapshotActions
  let id ← field input "guest_id"
  let guest ← linkedGuest (view.guests id)
  let given ← textField input "snapname"
  let stamp := view.timestamp
  let snapname := if action == "create" && given == "" then s!"manual-{stamp}" else given
  if snapname == "" then refuse "snapname is required"
  else if !validSnapname snapname then
    refuse ("Invalid snapshot name: start with a letter, then letters, digits, '-' or '_' only, at most 40 characters")
  else
    let description ← textField input "description"
    let name := guest.name
    return {
      key := { tool := .manageSnapshot, action := action
               target := if action == "create" then .guest guest.id else .snapshot guest.id snapname }
      message := confirmationMessage .manageSnapshot (snapshotSummary action snapname name)
      details := [("guest", name), ("snapname", snapname)] ++
        (if action == "create" then [("description", description)] else [])
      late := do
        let _ ← liveGuest guest view
        if action == "create" && !view.supportsSnapshot then
          .error (.error "This guest's storage does not support snapshots")
        else .ok (answered view
          s!"Snapshot {action} of '{snapname}' started on {name}; Proxmox is running it as a task."
          s!"Proxmox rejected the snapshot {action}; details are in the server log.") }

def backupSummary (action volid name kind : String) (vmid : Nat) : String :=
  if action == "delete" then
    s!"This will permanently delete backup '{volid}' of '{name}'. This cannot be undone."
  else if action == "restore" then
    s!"DESTRUCTIVE: this will replace '{name}' ({kind} {vmid}) entirely with the contents of '{volid}'; everything " ++
      "changed since that backup is lost. This cannot be undone. The confirming call must also pass " ++
      s!"\"confirm_name\": \"{name}\"."
  else if action == "protect" then
    s!"This will mark backup '{volid}' of '{name}' as protected (kept by pruning)."
  else s!"This will remove protection from backup '{volid}' of '{name}', so pruning may delete it."

/-- A backup to be made: the settings given, else the guest's defaults. -/
def checkBackupCreate (input : ToolInput) (view : View) (guest : GuestRow) : Check := do
  let givenStorage ← textField input "storage"
  let givenMode ← textField input "mode"
  let givenCompress ← textField input "compress"
  let storage := if givenStorage == "" then guest.backupStorage else givenStorage
  let mode := if givenMode == "" then guest.backupMode else givenMode
  let compress := if givenCompress == "" then guest.backupCompress else givenCompress
  let isProtected := (input "protected").any Value.truthy
  let notes ← textField input "notes"
  let name := guest.name
  if storage == "" then
    refuse ("No backup storage is configured for this guest. Pass storage explicitly (list_backups shows the " ++
      "backup-capable storages) or add a backup config for one of its tags in Settings.")
  else if mode ∉ backupModes then refuse s!"Invalid mode: {mode} (use snapshot, suspend or stop)"
  else if compress ∉ backupCompress then refuse s!"Invalid compress: {compress} (use zstd, gzip, lzo or 0)"
  else
    let mark := if isProtected then ", protected" else ""
    return {
      key := { tool := .manageBackup, target := .guest guest.id, action := "create" }
      message := confirmationMessage .manageBackup
        s!"This will create a {mode} backup of '{name}' to storage '{storage}' (compression {compress}{mark})."
      details := [("guest", name), ("storage", storage), ("mode", mode), ("compress", compress),
        ("protected", if isProtected then "True" else "False"), ("notes", notes)]
      late := do
        let _ ← liveGuest guest view
        .ok (answered view s!"{mode} backup of {name} to '{storage}' started; Proxmox is running it as a task."
          "Proxmox rejected the backup; details are in the server log.") }

/-- An existing archive: a restore must also name the guest, and the archive must be the guest's. -/
def checkBackupArchive (input : ToolInput) (view : View) (guest : GuestRow) (action volid : String) : Check := do
  let name := guest.name
  return {
    key := { tool := .manageBackup, target := .backup guest.id volid, action := action }
    message := confirmationMessage .manageBackup
      (backupSummary action volid name guest.guestType.toUpper guest.vmid)
    details := [("guest", name), ("volid", volid)]
    late :=
      match textField input "confirm_name" with
      | .error _ => if action == "restore" then .error internalError else lateArchive name
      | .ok confirmName =>
        if action == "restore" && confirmName != name then
          .error (.error s!"Restore cancelled: confirm_name must exactly match the guest name '{name}'.")
        else lateArchive name }
where
  lateArchive (name : String) : Except Answer Answer := do
    let _ ← liveGuest guest view
    if view.backupArchive.isNone then
      .error (.error "That backup archive does not belong to this guest (check list_backups).")
    else .ok (answered view
      (if action == "delete" then "Backup deleted."
        else if action == "restore" then
          s!"Restore of {name} from '{volid}' started; Proxmox is running it as a task."
        else s!"Backup is now {action}ed.")
      s!"Proxmox rejected the backup {action}; details are in the server log.")

def checkManageBackup (input : ToolInput) (view : View) : Check := do
  let action ← actionField (input "action") backupActions
  let id ← field input "guest_id"
  let guest ← linkedGuest (view.guests id)
  let volid ← textField input "volid"
  if action == "create" then checkBackupCreate input view guest
  else if volid == "" then refuse "volid is required (take it from list_backups)"
  else checkBackupArchive input view guest action volid

def hostOf (input : ToolInput) (view : View) : Except (Option Answer) HostRow :=
  let id := match input "host_id" with
    | some v => if v.truthy then v else .num 0
    | none => .num 0
  match view.hosts id with
  | some host => .ok host
  | none => refuse "Host not found"

def checkManageHostUpdates (input : ToolInput) (view : View) : Check := do
  let action ← actionField (input "action") hostUpdateActions
  let host ← hostOf input view
  let name := host.name
  if action == "refresh" then
    .error (some (match view.node, view.answer with
      | some node, some _ =>
        if !host.isPbs && node.all (· == "") then .error "Could not determine the node name"
        else .result true s!"apt-get update started on {name}; call get_host_updates in a moment for the refreshed list."
      | _, _ => internalError))
  else if action == "cancel" then
    .error (some (if view.running then
        .result true s!"Cancellation requested for the update job on {name}; apt stops at the next safe point."
      else .result false "No update job is running on this host."))
  else if !host.sshCredential then
    refuse (s!"No SSH credential is configured for {name}; updates can only be applied over SSH. Set one on the " ++
      "host page.")
  else if view.running then
    refuse "An update job is already running for this host; check get_host_updates."
  else
    let kind := if host.isPbs then "PBS" else "PVE"
    let pending := host.pending
    let security := host.security
    return {
      key := { tool := .manageHostUpdates, target := .host host.id, action := "apply" }
      message := confirmationMessage .manageHostUpdates (
        s!"This will run 'apt-get dist-upgrade' over SSH on {kind} host '{name}' ({pending} package(s) pending at " ++
        s!"the last scan, {security} security). Kernel or Proxmox package upgrades may require a reboot " ++
        "afterwards; the job can be cancelled but packages already unpacking will finish.")
      details := [("host", name)]
      late :=
        if view.runningAtReserve then
          .error (.error "An update job is already running for this host; check get_host_updates.")
        else .ok (.result true (s!"Update job started on {name}. Call get_host_updates to follow its progress " ++
          "(apply_job.running / success / log_tail).")) }

def checkControlIpmiPower (input : ToolInput) (view : View) : Check := do
  let action ← actionField (input "action") ipmiPowerActions
  let host ← hostOf input view
  let name := host.name
  let address := host.ipmiAddress
  let state := view.bmcPowerState.getD "unknown"
  if !host.ipmiEnabled then refuse s!"IPMI is not enabled for host '{name}'"
  else
    return {
      key := { tool := .controlIpmiPower, target := .host host.id, action := action }
      message := confirmationMessage .controlIpmiPower (
        s!"This will send BMC power action '{action}' to physical host '{name}' (BMC {address}); its power state is " ++
        s!"currently {state}." ++
        (if action ∈ ipmiHardActions then
          s!" WARNING: '{action}' cuts power without an OS shutdown, taking down every VM and container on this " ++
          "host; prefer 'graceful_shutdown' unless the host is unresponsive." else ""))
      details := [("host", name), ("current_power_state", state)]
      late :=
        if !view.redfish then .error (.error "IPMI is enabled but not fully configured for this host")
        else .ok (answered view s!"Power {action} command sent to {name}."
          s!"The BMC rejected the power {action} command; details are in the server log.") }

/-- The checks of a tool's handler before its gate. -/
def Tool.check : Tool → ToolInput → View → Check
  | .controlService => checkControlService
  | .controlGuestPower => checkControlGuestPower
  | .manageSnapshot => checkManageSnapshot
  | .manageBackup => checkManageBackup
  | .manageHostUpdates => checkManageHostUpdates
  | .controlIpmiPower => checkControlIpmiPower

/-! ### `execute_tool` -/

inductive Permission
  | canViewServices | canEditServices | canManageGuests | canManageHosts | canManageIpmi

def Permission.name : Permission → String
  | .canViewServices => "can_view_services"
  | .canEditServices => "can_edit_services"
  | .canManageGuests => "can_manage_guests"
  | .canManageHosts => "can_manage_hosts"
  | .canManageIpmi => "can_manage_ipmi"

def Tool.required : Tool → List Permission
  | .controlService => [.canViewServices, .canEditServices]
  | .controlGuestPower => [.canManageGuests]
  | .manageSnapshot => [.canManageGuests]
  | .manageBackup => [.canManageGuests]
  | .manageHostUpdates => [.canManageHosts]
  | .controlIpmiPower => [.canManageIpmi]

/-- The permissions of the current user. -/
abbrev User := Permission → Bool

def executeTool (tool : Tool) (input : ToolInput) (view : View) (user : User) : Outcome :=
  let missing := tool.required.filter fun p => !user p
  if missing = [] then twoPhase (tool.check input view) input
  else
    let names := ", ".intercalate (missing.map Permission.name)
    { command := none, reply := .answer (.error s!"Permission denied: {names} required") }

end ProxmoxTool.AiTools
