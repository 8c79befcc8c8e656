import ProxmoxTool.Lib.Json
import ProxmoxTool.Lib.Script
import ProxmoxTool.Moderation.Client
import ProxmoxTool.Moderation.Maintenance
import ProxmoxTool.Moderation.Transport

/-!
# What the routes ask for

The methods of `MastodonAdminClient` that the moderation routes call, as commands of a script (`ProxmoxTool.Script`), next to the other
effects of a request: a command over SSH, a row of the audit log with its commit, a new watch, and the maintenance lock.

A method may fail before the instance has done anything, or after: the instance performs the call and the response cannot be read
(`Outcome.unread`).  `isStaffRole` reads the role that the instance reports.
-/

namespace ProxmoxTool.Moderation.Admin

open Transport (Lift)

/-! ### Roles -/

/-- White space and upper case in a string of code points. -/
def stripStr (s : Str) : Str :=
  let space := fun n => isSpace (Char.ofNat n)
  ((s.dropWhile space).reverse.dropWhile space).reverse

def lowerStr (s : Str) : Str := s.map fun n => if 65 ≤ n ∧ n ≤ 90 then n + 32 else n

def inviteUsersBit : Nat := 1 <<< 16

def legacyStaffRoleNames : List Str := ["admin", "owner", "moderator"].map fun name => Str.ofText name.toList

/-- Whether a value of JSON is true in Python; of the numbers, those with no digit but zeros are false. -/
def truthyJson : Json → Bool
  | .null => false
  | .bool b => b
  | .num literal => (literal.takeWhile fun c => c ≠ 'e' && c ≠ 'E').any fun c => c.isAlpha || ('1' ≤ c && c ≤ '9')
  | .str s => !s.isEmpty
  | .arr items => !items.isEmpty
  | .obj members => !members.isEmpty

/-- `int(str(permissions))`; `none` for a `ValueError`. -/
def readPermissions (u : TextTable) : Json → Option Int
  | .str s => u.int (s.map Char.ofNat)
  | .num literal => if literal.all (fun c => c.isDigit || c == '-') then u.int literal else none
  | _ => none

/-- A bit other than that of `invite_users` is set; every negative number has one. -/
def hasStaffBit (permissions : Int) : Bool :=
  match permissions with
  | .ofNat n => n != 0 && n != inviteUsersBit
  | .negSucc _ => true

/-- `is_staff_role`. -/
def isStaffRole (u : TextTable) (role : Json) : Bool :=
  if !truthyJson role then false
  else match role with
    | .str name => lowerStr (stripStr name) ∈ legacyStaffRoleNames
    | .obj members =>
      match (Json.member members (Str.ofText "permissions".toList)).bind (readPermissions u) with
      | some permissions => hasStaffBit permissions
      | none =>
        match Json.member members (Str.ofText "name".toList) with
        | some (.str name) => stripStr name ≠ [] && lowerStr (stripStr name) ≠ Str.ofText "user".toList
        -- any other value prints as a name
        | some name => truthyJson name
        | none => false
    | _ => false

/-! ### The methods -/

/-- What the routes read of `summarize_admin_account`. -/
structure Account where
  id : Text
  username : Text
  acct : Text
  domain : Option Text
  suspended : Bool
  roleName : Text
  role : Json

def Account.isStaff (u : TextTable) (a : Account) : Bool := isStaffRole u a.role

def Account.isLocal (a : Account) : Bool := (truthy a.domain).isNone

/-- What the routes read of `summarize_report`; an id that is missing is no id. -/
structure Report where
  actionTaken : Bool
  statusIds : List Text
  target : Account

inductive ActionType
  | none | disable | silence | suspend | sensitive
  deriving DecidableEq

def ActionType.text : ActionType → Text
  | .none => "none".toList
  | .disable => "disable".toList
  | .silence => "silence".toList
  | .suspend => "suspend".toList
  | .sensitive => "sensitive".toList

/-- The member of `ACCOUNT_ACTION_TYPES`. -/
def ActionType.parse (t : Text) : Option ActionType := [none, disable, silence, suspend, sensitive].find? fun type => type.text = t

/-- The member of `ACCOUNT_LIFT_ACTIONS`. -/
def parseLift (t : Text) : Option Lift := [Lift.enable, .unsilence, .unsuspend, .unsensitive].find? fun lift => lift.text = t

inductive Severity
  | silence | suspend | noop
  deriving DecidableEq

def Severity.text : Severity → Text
  | .silence => "silence".toList
  | .suspend => "suspend".toList
  | .noop => "noop".toList

/-- The member of `DOMAIN_BLOCK_SEVERITIES`. -/
def Severity.parse (t : Text) : Option Severity := [silence, suspend, noop].find? fun severity => severity.text = t

structure BlockOptions where
  severity : Severity
  rejectMedia : Bool
  rejectReports : Bool
  obfuscate : Bool
  publicComment : Text
  privateComment : Text

inductive ApiCall
  | resolveReport (id : Nat)
  | reopenReport (id : Nat)
  | approveAccount (id : Nat)
  | rejectAccount (id : Nat)
  | accountAction (id : Nat) (type : ActionType) (text : Text) (reportId : Option Int) (sendEmailNotification : Bool)
  | liftAccountAction (id : Nat) (lift : Lift)
  | deleteAccount (id : Nat)
  | createDomainBlock (domain : Text) (opts : BlockOptions)
  | deleteDomainBlock (id : Nat)
  | getAdminAccount (id : Nat)
  | getReport (id : Nat)
  | latestStatus (id : Int)

/-- The call changes the state of the instance: it is a `POST` or a `DELETE`. -/
def ApiCall.mutates : ApiCall → Bool
  | .getAdminAccount _ | .getReport _ | .latestStatus _ => false
  | _ => true

@[reducible]
def ApiCall.Result : ApiCall → Type
  | .getAdminAccount _ => Account
  | .getReport _ => Report
  | .latestStatus _ => Option Text
  | _ => Unit

/-- What a method raises: a `MastodonAPIError`, a `ValueError`, or something else. -/
inductive Raised
  | api (message : Text)
  | value (message : Text)
  | other

inductive Outcome (α : Type)
  | refused (e : Raised)
  | unread (e : Raised)
  | returned (a : α)

/-- The instance has done what was asked. -/
def Outcome.performed {α : Type} : Outcome α → Bool
  | .refused _ => false
  | _ => true

def Outcome.isReturned {α : Type} : Outcome α → Bool
  | .returned _ => true
  | _ => false

def Outcome.result {α : Type} : Outcome α → Except Raised α
  | .refused e | .unread e => .error e
  | .returned a => .ok a

/-! ### Commands -/

inductive Detail
  | text (t : Text)
  | flag (b : Bool)
  | number (n : Int)
  | null
  deriving DecidableEq

/-- A row of the audit log. -/
structure Row where
  action : Text
  resourceType : Text
  resourceName : Option Text
  details : List (Text × Detail)

/-- What a command over SSH is about: a local account by its name, or the posts of a report. -/
inductive SshTarget
  | username (t : Text)
  | reportPosts (reportId : Nat)

inductive Command
  | api (c : ApiCall)
  | ssh (target : SshTarget) (command : Text) (timeout : Nat)
  | audit (row : Row)
  | addWatch (accountId acct : Text) (reason : Option Text) (days : Nat) (lastStatusId : Option Text)
  | acquire
  | release

/-- A command over SSH may raise; a watch may be refused by the database. -/
@[reducible]
def Answer : Command → Type
  | .api c => Outcome c.Result
  | .ssh _ _ _ => Except Text Printed
  | .addWatch _ _ _ _ _ | .acquire => Bool
  | .audit _ | .release => Unit

abbrev Remote := Script Command Answer

def issue (c : Command) : Remote (Answer c) := Script.send c

end ProxmoxTool.Moderation.Admin
