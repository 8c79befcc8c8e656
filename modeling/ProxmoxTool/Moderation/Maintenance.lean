import ProxmoxTool.Lib.Lines
import ProxmoxTool.Services.Execute

/-!
# Commands on the Mastodon guest

The commands of `core/mastodon_maintenance.py`: `tootctl accounts modify` for one account, and a Ruby script for the posts of one
report.  Both are built, with every value checked, before a guest is looked up; `none` stands for a `ValueError`.  What a run printed is
read with a limit: `readMaintenance` and `readStatusAction`.
-/

namespace ProxmoxTool.Moderation.Admin

open Utf8

/-- `str.lower`, `str.isdigit` and `int` beside the tables of the regular expressions. -/
structure TextTable extends CharTable where
  lower : Text → Text
  isDigits : Text → Bool
  int : Text → Option Int

def rbenvPath : Text := "export PATH=$HOME/.rbenv/bin:$HOME/.rbenv/shims:$PATH".toList

def invalidInputMessage : Text := "Invalid input for this maintenance action (username, email or Mastodon settings)".toList

inductive MaintenanceAction
  | disable2fa
  | resetPassword
  | confirmEmail
  | changeEmail
  deriving DecidableEq

def MaintenanceAction.text : MaintenanceAction → Text
  | .disable2fa => "disable_2fa".toList
  | .resetPassword => "reset_password".toList
  | .confirmEmail => "confirm_email".toList
  | .changeEmail => "change_email".toList

def MaintenanceAction.label : MaintenanceAction → Text
  | .disable2fa => "Disable two-factor authentication".toList
  | .resetPassword => "Reset password".toList
  | .confirmEmail => "Confirm email".toList
  | .changeEmail => "Change email".toList

/-- The key of `MAINTENANCE_ACTIONS`. -/
def MaintenanceAction.parse (t : Text) : Option MaintenanceAction :=
  [disable2fa, resetPassword, confirmEmail, changeEmail].find? fun action => action.text = t

inductive StatusAction
  | delete
  | markAsSensitive
  deriving DecidableEq

def StatusAction.text : StatusAction → Text
  | .delete => "delete".toList
  | .markAsSensitive => "mark_as_sensitive".toList

def StatusAction.label : StatusAction → Text
  | .delete => "Delete".toList
  | .markAsSensitive => "Mark as sensitive".toList

/-- The key of `STATUS_ACTIONS`. -/
def StatusAction.parse (t : Text) : Option StatusAction := [delete, markAsSensitive].find? fun action => action.text = t

def maxStatusIds : Nat := 50

def maxActionText : Nat := 2000

/-- `_USERNAME_RE.fullmatch`. -/
def isUsername (t : Text) : Bool := 1 ≤ t.length && t.length ≤ 30 && t.all fun c => c.isAlphanum || c == '_'

/-- `_validate_email` raises nothing. -/
def validateEmail (t : Text) : Bool :=
  match t.splitOn '@' with
  | [name, host] =>
    let labels := host.splitOn '.'
    let last := labels.getLastD []
    t.length ≤ 254 && !name.isEmpty && name.all (fun c => c.isAlphanum || c ∈ "._%+-".toList) &&
      host.all (fun c => c.isAlphanum || c == '.' || c == '-') && 2 ≤ labels.length && 2 ≤ last.length && last.all Char.isAlpha &&
      last.length + 1 < host.length
  | _ => false

section

variable (u : TextTable)

/-- The flags of `build_modify_command`. -/
def modifyFlags (action : MaintenanceAction) (email : Option Text) (confirm : Bool) : Option Text :=
  match action, email with
  | .changeEmail, some email =>
    if validateEmail email then
      some ("--email ".toList ++ Services.shlexQuote email ++ if confirm then " --confirm".toList else [])
    else none
  | .changeEmail, none => none
  | _, some _ => none
  | .disable2fa, none => some "--disable-2fa".toList
  | .resetPassword, none => some "--reset-password".toList
  | .confirmEmail, none => some "--confirm".toList

/-- `build_modify_command`. -/
def buildModifyCommand (username : Text) (action : MaintenanceAction) (email : Option Text) (confirm : Bool)
    (user appDir : Text) : Option Text :=
  if isUsername username && u.validateShellParam user && u.validateShellParam appDir then
    (modifyFlags action email confirm).map fun flags =>
      "su - ".toList ++ user ++ " -c '".toList ++ rbenvPath ++ "; cd ".toList ++ appDir ++
        " && RAILS_ENV=production bin/tootctl accounts modify ".toList ++ username ++ ' ' :: flags ++ ['\'']
  else none

/-- `_DIGITS_RE.fullmatch`. -/
def isDigits (t : Text) : Bool := !t.isEmpty && t.all u.isDecimal

/-! ### The script for the posts of a report -/

def base64Alphabet : Text := "ABCDEFGHIJKLMNOPQRSTUVWXYZabcdefghijklmnopqrstuvwxyz0123456789+/".toList

def base64Digit (n : Nat) : Char := base64Alphabet.getD n '='

/-- `base64.b64encode`. -/
def base64 : List Nat → Text
  | a :: b :: c :: rest =>
    [base64Digit (a / 4), base64Digit (a % 4 * 16 + b / 16), base64Digit (b % 16 * 4 + c / 64), base64Digit (c % 64)] ++ base64 rest
  | [a, b] => [base64Digit (a / 4), base64Digit (a % 4 * 16 + b / 16), base64Digit (b % 16 * 4), '=']
  | [a] => [base64Digit (a / 4), base64Digit (a % 4 * 16), '=', '=']
  | [] => []

def base64Text (t : Text) : Text := base64 ((encode t).map UInt8.toNat)

/-- The first occurrence of every id. -/
def firstOccurrences : List Text → List Text
  | [] => []
  | id :: ids => id :: (firstOccurrences ids).filter (· ≠ id)

def scriptLines (action : StatusAction) (ids : List Text) (reportId actor : Text) (text : Text) (sendEmail : Bool) : List Text :=
  ["require 'base64'".toList,
    "account = Account.find(".toList ++ actor ++ [')'],
    "report = Report.find(".toList ++ reportId ++ [')'],
    "ids = report.status_ids.map(&:to_s) & [".toList ++ joinText ", ".toList (ids.map fun id => '\'' :: id ++ ['\'']) ++ [']'],
    "raise 'none of the selected statuses belong to this report' if ids.empty?".toList,
    "params = \x7b type: '".toList ++ action.text ++ "', current_account: account, report_id: report.id, send_email_notification: ".toList ++
      (if sendEmail then "true".toList else "false".toList) ++ ", text: Base64.strict_decode64('".toList ++ base64Text text ++
      "').force_encoding('UTF-8') \x7d".toList,
    "if Admin.const_defined?(:ModerationAction)".toList,
    "  selected = report.status_ids & ids.map(&:to_i)".toList,
    "  action = Admin::ModerationAction.new(params)".toList,
    "  action.define_singleton_method(:status_ids) \x7b selected \x7d".toList,
    "  action.define_singleton_method(:collections) \x7b [] \x7d".toList,
    "else".toList,
    "  action = Admin::StatusBatchAction.new(params.merge(status_ids: ids))".toList,
    "end".toList,
    "raise \"Mastodon rejected the action: #\x7baction.errors.full_messages.join(', ')\x7d\" unless action.valid?".toList,
    "action.save!".toList,
    "puts \"OK #\x7bids.size\x7d\"".toList]

/-- `build_status_action_script`. -/
def buildStatusActionScript (action : StatusAction) (statusIds : List Text) (reportId : Nat) (actor : Text) (text : Text)
    (sendEmail : Bool) : Option Text :=
  let ids := firstOccurrences statusIds
  if !statusIds.isEmpty && statusIds.all (isDigits u) && ids.length ≤ maxStatusIds && isDigits u actor && text.length ≤ maxActionText then
    (u.int actor).map fun actor => printLines (scriptLines action ids (natText reportId) (intText actor) text sendEmail)
  else none

/-- `build_status_action_command`. -/
def buildStatusActionCommand (script : Text) (user appDir : Text) : Option Text :=
  if u.validateShellParam user && u.validateShellParam appDir then
    some ("printf '%s' '".toList ++ base64Text script ++ "' | base64 -d | su - ".toList ++ user ++ " -c '".toList ++ rbenvPath ++
      "; cd ".toList ++ appDir ++ " && RAILS_ENV=production bin/rails runner -'".toList)
  else none

end

/-! ### What a run printed -/

/-- Standard output, standard error and the exit code. -/
structure Printed where
  out : Text
  err : Text
  code : Int

def maxOutputBytes : Nat := 64 * 1024

/-- The whole characters in the first bytes. -/
def takeBytes : Nat → Text → Text
  | _, [] => []
  | limit, c :: t => if c.utf8Size ≤ limit then c :: takeBytes (limit - c.utf8Size) t else []

/-- `_cap`. -/
def cap (t : Text) : Text :=
  if (encode t).length ≤ maxOutputBytes then t else takeBytes maxOutputBytes t ++ "\n[output truncated]".toList

/-- `_first_line`. -/
def firstLine (t : Text) : Text := (((splitLines t).map strip).find? (· ≠ [])).elim [] (·.take 300)

/-- `_redact_password`. -/
def redactPassword (password : Text) : Nat → Text → Text
  | 0, t => t
  | n + 1, t =>
    if password.isEmpty then t
    else match t with
      | [] => []
      | c :: rest =>
        if password.isPrefixOf t then "[redacted]".toList ++ redactPassword password n (t.drop password.length)
        else c :: redactPassword password n rest

/-- The rest of the text at the beginning of every line. -/
def lineStarts (t : Text) : List Text := t :: (t.tails.filterMap fun s => if s.head? = some '\n' then some s.tail else none)

/-- `_NEW_PASSWORD_RE.search`. -/
def newPassword (out : Text) : Option Text :=
  (lineStarts out).findSome? fun t =>
    let lead := "New password:".toList
    if lead.isPrefixOf t then
      let password := ((t.drop lead.length).dropWhile isSpace).takeWhile fun c => !isSpace c
      if password.isEmpty then none else some password
    else none

structure MaintenanceResult where
  ok : Bool
  message : Text
  password : Option Text

/-- The second half of `run_maintenance`. -/
def readMaintenance (action : MaintenanceAction) (username : Text) (printed : Printed) : MaintenanceResult :=
  let out := cap printed.out
  let err := cap printed.err
  let password := if action = .resetPassword then newPassword out else none
  let ok := printed.code == 0 && hasSub "OK".toList out
  let line := if firstLine err ≠ [] then firstLine err else firstLine out
  let redacted := password.elim line fun password => redactPassword password (line.length + 1) line
  let message :=
    if ok then action.label ++ " applied to @".toList ++ username
    else if redacted ≠ [] then redacted else "tootctl exited with code ".toList ++ intText printed.code
  { ok, message, password }

/-- `_STATUS_ACTION_OK_RE.search`; Ruby prints the number with ASCII digits. -/
def statusActionCount (out : Text) : Option Nat :=
  (out.splitOn '\n').findSome? fun line =>
    if "OK ".toList.isPrefixOf line && (line.drop 3).all Char.isDigit then parseNat (line.drop 3) else none

structure StatusActionResult where
  ok : Bool
  message : Text
  count : Nat

/-- The second half of `run_status_action`. -/
def readStatusAction (action : StatusAction) (reportId : Nat) (printed : Printed) : StatusActionResult :=
  let out := cap printed.out
  let err := cap printed.err
  let found := statusActionCount out
  let count := found.getD 0
  let ok := printed.code == 0 && found.isSome
  let line := if firstLine err ≠ [] then firstLine err else firstLine out
  let message :=
    if ok then action.label ++ " applied to ".toList ++ natText count ++ " post(s); report #".toList ++ natText reportId ++
      " resolved".toList
    else if line ≠ [] then line else "rails runner exited with code ".toList ++ intText printed.code
  { ok, message, count }

end ProxmoxTool.Moderation.Admin
