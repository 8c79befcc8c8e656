import ProxmoxTool.Ghost.Readings
import ProxmoxTool.Lib.Script

/-!
# The upgrade of Ghost

`run_ghost_upgrade` as a script: what it asks of Proxmox, of the npm registry and of the guest, in which order, whatever the answers are.
A command on the guest exits with a code and an output, or raises.  What is logged is left out.
-/

namespace ProxmoxTool.Ghost

/-- `_get_ghost_config`, the entries that the upgrade reads. -/
structure Config where
  guestId : Text
  user : Text
  ghostDir : Text
  latestVersion : Text
  protectionType : Text
  backupStorage : Text
  backupMode : Text

structure GuestRow where
  ipAddress : Bool
  credential : Bool

structure View where
  guest : Int → Option GuestRow
  defaultCredential : Bool

inductive Task
  | snapshot | backup (storage mode : Text)
deriving DecidableEq

/-- The three times that `_fix_ghost_permissions` is called. -/
inductive Sweep
  | before | after | recovery
deriving DecidableEq

/-- The commands on the guest, by what they run.  `again` tells the second of two equal commands of the checks before the update. -/
inductive Site
  | ghostCli | unitUser (service : Text) | passwd (uid : Text) | ghostUser | which (name : Text) | sudoers (service : Text)
  | ghostCliUpdate | stopSweeps | permissions (sweep : Sweep) (serviceUser : Option Text)
  | dbConfig | dbHost (again : Bool) | showGrants (user : Text) | grant (db user : Text) | mysqlVersion
  | nodeVersion (again : Bool) | whichN | n (major : Nat)
  | nginxPresent (nginx : Text) | reload (nginx : Text) (again : Bool) | nginxActive | nginxRestart
  | date | update | debugLog (since : Option Text) | readlink | isActive (service : Text) | httpTarget | curl (host : Text) (port : Int)
  | rollback | restart (service : Text) | start (service : Text) | journal (service : Text)
  | direct (host : Text) (port : Int) | viaNginx (hostname : Text)
deriving DecidableEq

inductive Command
  | protect (task : Task)
  | connect
  | nodeRange (version : Text)
  | execute (site : Site)
  | setSetting (key value : Text)
deriving DecidableEq

structure Reply where
  out : Text
  err : Text := []
  code : Int := 0

/-- Whether the snapshot or backup was reported a success; whether the connection is made; `engines.node` of the release; the result of
a command; whether the setting is stored.  `none` or `false` stand for what raises. -/
@[reducible]
def Answer : Command → Type
  | .protect _ => Option Bool
  | .connect => Bool
  | .nodeRange _ => Option Text
  | .execute _ => Option Reply
  | .setSetting _ _ => Bool

abbrev Remote := Script Command Answer

/-- The part within `try`: an error ends it. -/
abbrev Step := ExceptT Unit Remote

def issue (c : Command) : Step (Answer c) := ExceptT.lift (Script.send c)

/-- `ssh.execute_sudo`. -/
def ask (site : Site) : Step Reply := do
  match ← issue (.execute site) with
  | some r => return r
  | none => throw ()

variable (py : Python) (cfg : Config) (view : View)

/-! ### The checks before the update -/

/-- `_resolve_guest_binary`. -/
def resolveGuestBinary (name default : Text) : Step Text := do
  let r ← ask (.which name)
  return if firstLine r.out = [] then default else firstLine r.out

/-- `_resolve_ghost_service_user`. -/
def resolveGhostServiceUser (service : Text) : Step (Option Text) := do
  let r ← ask (.unitUser service)
  let val ← if py.isdigit (firstLine r.out) then do
      let r ← ask (.passwd (firstLine r.out))
      pure (strip r.out)
    else pure (firstLine r.out)
  if isUnixUser val then return some val
  let r ← ask .ghostUser
  return if r.code = 0 && isUnixUser (strip r.out) then some (strip r.out) else none

/-- `_stop_stale_permission_sweeps`. -/
def stopStalePermissionSweeps : Step Unit := do
  let r ← ask .stopSweeps
  let count := strip ((splitLines (strip r.out)).getLast?.getD ['0'])
  if py.isdigit count && (py.int count).isNone then throw ()

/-- `_fix_ghost_permissions`. -/
def fixGhostPermissions (sweep : Sweep) (serviceUser : Option Text) : Step Bool := do
  let r ← ask (.permissions sweep serviceUser)
  return r.code = 0

/-- The database and the user to check the grants of; `none` if a `TypeError` is raised, `some none` if the check is skipped. -/
def account (r : Reply) : Option (Option (Text × Text)) :=
  match resolveGhostDb py r.out (r.code = 0) with
  | some (.str db, .str user) =>
    if isDbIdent (.str db) = some true ∧ isDbIdent (.str user) = some true then some (some (textOf db, textOf user)) else some none
  | some (.str db, _) => if isDbIdent (.str db) = some true then none else some none
  | some _ => none
  | none => some none

def ghostDbHost (again : Bool) : Step Text := do
  let r ← ask (.dbHost again)
  return resolveGhostDbHost r.out (r.code = 0)

/-- `_ensure_ghost_db_privileges`. -/
def ensureGhostDbPrivileges : Step Bool := do
  let r ← ask .dbConfig
  match account py r with
  | none => throw ()
  | some none => return false
  | some (some (db, user)) =>
    let host ← ghostDbHost false
    if host ∉ localDbHosts then return false
    let grants ← ask (.showGrants user)
    if grants.code ≠ 0 then return false
    if hasAll db grants.out then return true
    let r ← ask (.grant db user)
    return r.code = 0

/-- `_check_ghost_db_engine`. -/
def checkGhostDbEngine : Step Unit := do
  let host ← ghostDbHost true
  if host ∈ localDbHosts then
    let _ ← ask .mysqlVersion

/-- `_guest_node`. -/
def guestNode (again : Bool) : Step Text := do
  let r ← ask (.nodeVersion again)
  return firstLine r.out

/-- `_ensure_node_compatible`. -/
def ensureNodeCompatible (nodeRange : Option Text) : Step Bool := do
  match nodeRange.filter (· ≠ []) with
  | none => return true
  | some range =>
    let current ← guestNode false
    if current = [] then return true
    if nodeSatisfies py current range then return true
    let hasN ← ask .whichN
    match nodeTargetMajor py range ((parseSemver py current).map Prod.fst) with
    | none => return false
    | some target =>
      if hasN.code ≠ 0 then return false
      let r ← ask (.n target)
      if r.code ≠ 0 then return false
      let current ← guestNode true
      return current ≠ [] && nodeSatisfies py current range

/-- `_preflight_nginx_reload`. -/
def preflightNginxReload (nginx : Text) : Step Bool := do
  let present ← ask (.nginxPresent nginx)
  if present.code ≠ 0 then return true
  let r ← ask (.reload nginx false)
  if r.code = 0 then return true
  let active ← ask .nginxActive
  if strip active.out ≠ "active".toList then return false
  let r ← ask .nginxRestart
  if r.code ≠ 0 then return false
  let r ← ask (.reload nginx true)
  return r.code = 0

/-- What the update and its verification go by. -/
structure Found where
  service : Text
  preVersion : Option Text
  serviceUser : Option Text
  nginx : Text

/-- The `with` block is entered. -/
def connect : Step Unit := do
  if !(← issue .connect) then throw ()

/-- From the connection to the permissions. -/
def connectAndPrepare : Step (Option Found) := do
  connect
  let raw ← ask .ghostCli
  let (service, preVersion) := metadata py cfg.ghostDir raw.out (raw.code = 0)
  let serviceUser ← resolveGhostServiceUser py service
  let _ ← resolveGuestBinary "systemctl".toList "/usr/bin/systemctl".toList
  let _ ← resolveGuestBinary "mv".toList "/usr/bin/mv".toList
  let _ ← resolveGuestBinary "sed".toList "/usr/bin/sed".toList
  let nginx ← resolveGuestBinary "nginx".toList "/usr/sbin/nginx".toList
  let _ ← ask (.sudoers service)
  let _ ← ask .ghostCliUpdate
  stopStalePermissionSweeps py
  if !(← fixGhostPermissions .before serviceUser) then return none
  return some { service, preVersion, serviceUser, nginx }

/-- The checks that the runtime of the site is subject to: whether the run goes on. -/
def checkRuntime (nginx : Text) : Step Bool := do
  let _ ← ensureGhostDbPrivileges py
  checkGhostDbEngine
  let nodeRange ← issue (.nodeRange (if cfg.latestVersion = [] then "latest".toList else cfg.latestVersion))
  if !(← ensureNodeCompatible py nodeRange) then return false
  if !(← preflightNginxReload nginx) then return false
  return true

/-! ### The update and its verification -/

/-- `started_at`. -/
def startedAt : Step (Option Text) := do
  let r ← ask .date
  return if py.isdigit (strip r.out) then some (strip r.out) else none

/-- `_resolve_ghost_http_target`. -/
def ghostHttpTarget : Step HttpTarget := do
  let r ← ask .httpTarget
  match resolveHttpTarget py r.out (r.code = 0) with
  | some target => return target
  | none => throw ()

/-- `_report_ghost_state`: the release of `current`, and whether the service is active. -/
def reportGhostState (service : Text) : Step (Option Text × Bool) := do
  let link ← ask .readlink
  let state ← ask (.isActive service)
  let target ← ghostHttpTarget py
  let _ ← ask (.curl target.host target.port)
  return (linkedVersion py link.out, strip state.out = "active".toList)

/-- `_recover_after_failed_update`. -/
def recoverAfterFailedUpdate (found : Found) : Step Unit := do
  let (version, active) ← reportGhostState py found.service
  if active || found.preVersion.isNone || version.isNone || version = found.preVersion then return
  let _ ← fixGhostPermissions .recovery found.serviceUser
  let _ ← ask .rollback
  let _ ← reportGhostState py found.service

/-- Step 3: whether the service is active, if need be after a start. -/
def verifyService (service : Text) : Step Bool := do
  let state ← ask (.isActive service)
  if strip state.out = "active".toList then return true
  let _ ← ask (.start service)
  let state ← ask (.isActive service)
  if strip state.out = "active".toList then return true
  let _ ← ask (.journal service)
  return false

/-- `_check_ghost_http`. -/
def checkGhostHttp (nginx : Text) : Step Bool := do
  let target ← ghostHttpTarget py
  let r ← ask (.direct target.host target.port)
  if !httpOk py r.out then return false
  match target.hostname with
  | none => return true
  | some hostname =>
    let present ← ask (.nginxPresent nginx)
    if present.code ≠ 0 then return true
    let r ← ask (.viaNginx hostname)
    if !httpOk py r.out then
      let _ ← ask .nginxActive
      return false
    return true

def currentVersionKey : Text := "ghost_current_version".toList

/-- `Setting.set`. -/
def setSetting (key value : Text) : Step Unit := do
  if !(← issue (.setSetting key value)) then throw ()

/-- The new version is recorded. -/
def recordVersion : Step Unit := do
  let r ← ask .ghostCli
  if r.code = 0 && !(strip r.out).isEmpty then
    if let some version := entry "active-version".toList r.out then
      setSetting currentVersionKey version
      setSetting "ghost_update_available".toList "false".toList

/-- All that comes behind a successful `ghost update`. -/
def verify (found : Found) : Step Bool := do
  let _ ← fixGhostPermissions .after found.serviceUser
  let _ ← ask (.restart found.service)
  if !(← verifyService found.service) then return false
  if !(← checkGhostHttp py found.nginx) then return false
  recordVersion
  return true

/-- `ghost update` and all that comes behind it. -/
def update (found : Found) : Step Bool := do
  let since ← startedAt py
  let r ← ask .update
  if r.code ≠ 0 then
    let _ ← ask (.debugLog since)
    recoverAfterFailedUpdate py found
    return false
  verify py found

/-- Step 2. -/
def stepTwo : Step Bool := do
  match ← connectAndPrepare py cfg with
  | none => return false
  | some found =>
    if !(← checkRuntime py cfg found.nginx) then return false
    update py found

/-! ### The run -/

inductive Early
  | raised | refused
deriving DecidableEq

/-- What is read and checked before the first command. -/
def prepare : Except Early Unit := do
  if cfg.guestId = [] then throw .refused
  match parseInt cfg.guestId with
  | none => throw .raised
  | some id => match view.guest id with
    | none => throw .refused
    | some guest =>
      if !(py.chars.validateShellParam cfg.user && py.chars.validateShellParam cfg.ghostDir) then throw .refused
      if !(guest.credential || view.defaultCredential) then throw .refused
      if !guest.ipAddress then throw .refused

/-- Step 1: whether the run goes on; an error is raised out of the run. -/
def protect (skipProtection : Bool) : Step Bool := do
  if skipProtection then return true
  let isBackup := decide (cfg.protectionType = "backup".toList)
  if isBackup && cfg.backupStorage.isEmpty then return false
  match ← issue (.protect (if isBackup then .backup cfg.backupStorage cfg.backupMode else .snapshot)) with
  | none => throw ()
  | some ok => return ok

/-- `run_ghost_upgrade`: its first result, or an error that is raised. -/
def runGhostUpgrade (skipProtection : Bool) : Remote (Except Unit Bool) :=
  match prepare py cfg view with
  | .error .raised => return .error ()
  | .error .refused => return .ok false
  | .ok () => do
    match ← (protect cfg skipProtection).run with
    | .error () => return .error ()
    | .ok false => return .ok false
    | .ok true =>
      match ← (stepTwo py cfg).run with
      | .ok ok => return .ok ok
      | .error () => return .ok false

end ProxmoxTool.Ghost
