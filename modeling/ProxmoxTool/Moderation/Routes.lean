import ProxmoxTool.Moderation.AdminClient

/-!
# The routes that moderate

The routes under `/moderation/mastodon` that change something on the instance, each as the script of what it asks for (`serve`).
`_mastodon_json` runs a closure and writes the audit row after the whole of it has returned; the closures of `action` and of the lifts
look the account up again after they have changed it.  So a mutation is audited exactly when nothing fails behind it
(`mutations_audited_iff`).
-/

namespace ProxmoxTool.Moderation.Admin

open Transport (Lift)

structure User where
  canModerate : Bool
  isAdmin : Bool
  canModerateStaff : Bool
  canMaintainMastodonAccounts : Bool

structure AppGuest where
  ipAddress : Option Text
  credential : Bool

/-- The settings and tables that the routes read; `decrypt` is `none` if it raises. -/
structure Site where
  apiUrl : Text
  apiToken : Text
  decrypt : Text → Option (Option Text)
  mastodonUser : Text
  mastodonAppDir : Text
  mastodonGuestId : Text
  guest : Int → Option AppGuest
  defaultCredential : Bool
  /-- The id in the account that belongs to the token, if there is one. -/
  tokenAccountId : Option Text
  watched : Text → Bool

structure Form where
  get : Text → Text
  getlist : Text → List Text

inductive Request
  | reportResolve (reportId : Nat)
  | reportReopen (reportId : Nat)
  | reportStatusesAction (reportId : Nat)
  | accountApprove (accountId : Nat)
  | accountReject (accountId : Nat)
  | accountAction (accountId : Nat)
  | accountDelete (accountId : Nat)
  | accountMaintenance (accountId : Nat)
  | accountLift (accountId : Nat) (lift : Text)
  | domainBlockCreate
  | domainBlockDelete (blockId : Nat)
  | watchAdd

/-- A redirect with a message, a JSON answer that refuses or agrees, or an exception that nothing handles. -/
inductive Response
  | redirect (message : Text)
  | refused (status : Nat) (error : Text)
  | agreed
  | crashed
  deriving DecidableEq

def staffTargetError : Text := "This account holds a Mastodon staff role; your MCAT role may not act on it".toList

/-! ### Helpers -/

section

variable (u : TextTable) (site : Site) (user : User) (form : Form)

/-- `_form_text`. -/
def formText (name : String) : Text := (strip (form.get name.toList)).take 2000

/-- `_form_flag`. -/
def formFlag (name : String) : Bool := u.lower (form.get name.toList) ∈ ["1", "true", "on", "yes"].map String.toList

/-- `validate_domain`. -/
def validateDomain (domain : Text) : Except Text Text :=
  let domain := rstripChar '.' (u.lower (strip domain))
  -- `$` also matches before a newline at the end
  let name := if domain.getLast? = some '\n' then domain.dropLast else domain
  let alnum := fun c : Char => c.isLower || c.isDigit
  let label := fun (least : Nat) (t : Text) =>
    least ≤ t.length && t.length ≤ 63 && t.all (fun c => alnum c || c == '-') && (t.head?.map alnum).getD false &&
      (t.getLast?.map alnum).getD false
  let labels := name.splitOn '.'
  if name.length ≤ 253 && 2 ≤ labels.length && labels.dropLast.all (label 1) && label 2 (labels.getLastD []) then .ok domain
  else .error "Enter a bare hostname such as example.social (no scheme, path or port)".toList

/-- The first lines of a route that builds the client itself: `_get_mastodon_client`. -/
def getMastodonClient : Except Response Unit :=
  if site.apiUrl = [] ∨ site.apiToken = [] then .error (.refused 400 "Mastodon API URL or token not configured".toList)
  else match site.decrypt site.apiToken with
    | none => .error .crashed
    | some plain =>
      if (truthy plain).isNone then .error (.refused 400 "Failed to decrypt the Mastodon API token".toList) else .ok ()

/-- A row of the audit log, and its commit. -/
def audit (row : Row) : Remote Unit := issue (.audit row)

/-- `_mastodon_json`. -/
def mastodonJson (fn : Remote (Except Raised Unit)) (row : Row) : Remote Response :=
  match getMastodonClient site with
  | .error response => pure response
  | .ok () => do
    match ← fn with
    | .error (.api message) => pure (.refused 502 message)
    | .error (.value message) => pure (.refused 400 message)
    | .error .other => pure .crashed
    | .ok () =>
      audit row
      pure .agreed

/-- A closure that makes one call. -/
def perform (c : ApiCall) : Remote (Except Raised Unit) := do
  let outcome ← issue (.api c)
  pure (outcome.result.map fun _ => ())

/-- A closure that makes a call and then returns the account. -/
def performAndLookUp (c : ApiCall) (accountId : Nat) : Remote (Except Raised Unit) := do
  let outcome ← issue (.api c)
  match outcome.result with
  | .error e => pure (.error e)
  | .ok _ => perform (.getAdminAccount accountId)

/-- A lookup in front of the check of its result. -/
def lookUp (c : ApiCall) (next : c.Result → Remote Response) : Remote Response :=
  match getMastodonClient site with
  | .error response => pure response
  | .ok () => do
    let outcome ← issue (.api c)
    match outcome.result with
    | .error (.api message) => pure (.refused 502 message)
    | .error _ => pure .crashed
    | .ok found => next found

/-- The check whether the target is staff, with the row it leaves. -/
def unlessStaff (target : Account) (resourceName accountId type : Text) (report : List (Text × Detail)) (next : Remote Response) :
    Remote Response :=
  if target.isStaff u && !user.canModerateStaff then do
    audit
      { action := "mastodon_account_action_refused".toList
        resourceType := "mastodon_account".toList
        resourceName := some resourceName
        details := [("account_id".toList, .text accountId), ("type".toList, .text type), ("target_role".toList, .text target.roleName)] ++
          report }
    pure (.refused 403 staffTargetError)
  else next

/-- `a or b`. -/
def orElse (a b : Text) : Text := if a = [] then b else a

/-! ### The routes -/

def mastodonReportResolve (reportId : Nat) : Remote Response :=
  mastodonJson site (perform (.resolveReport reportId))
    { action := "mastodon_report_resolve".toList
      resourceType := "mastodon_report".toList
      resourceName := some ("report ".toList ++ natText reportId)
      details := [("report_id".toList, .text (natText reportId))] }

def mastodonReportReopen (reportId : Nat) : Remote Response :=
  mastodonJson site (perform (.reopenReport reportId))
    { action := "mastodon_report_reopen".toList
      resourceType := "mastodon_report".toList
      resourceName := some ("report ".toList ++ natText reportId)
      details := [("report_id".toList, .text (natText reportId))] }

def mastodonAccountApprove (accountId : Nat) : Remote Response :=
  mastodonJson site (perform (.approveAccount accountId))
    { action := "mastodon_account_approve".toList
      resourceType := "mastodon_account".toList
      resourceName := some (orElse (formText form "acct") (natText accountId))
      details := [("account_id".toList, .text (natText accountId))] }

def mastodonAccountReject (accountId : Nat) : Remote Response :=
  mastodonJson site (perform (.rejectAccount accountId))
    { action := "mastodon_account_reject".toList
      resourceType := "mastodon_account".toList
      resourceName := some (orElse (formText form "acct") (natText accountId))
      details := [("account_id".toList, .text (natText accountId))] }

/-- `request.form.get("report_id", type=int)`, if it is not zero. -/
def formReportId : Option Int := (u.int (form.get "report_id".toList)).filter (· ≠ 0)

def reportDetail (reportId : Option Int) : List (Text × Detail) :=
  reportId.elim [] fun id => [("report_id".toList, .text (intText id))]

def mastodonAccountAction (accountId : Nat) : Remote Response :=
  match ActionType.parse (formText form "type") with
  | none => pure (.refused 400 "Unknown account action".toList)
  | some type =>
    let acct := formText form "acct"
    let reportId := formReportId u form
    let notify := formFlag u form "send_email_notification"
    lookUp site (.getAdminAccount accountId) fun target =>
      unlessStaff u user target (orElse acct (orElse target.acct (natText accountId))) (natText accountId) type.text (reportDetail reportId) <|
        mastodonJson site
          (performAndLookUp (.accountAction accountId type (formText form "text") reportId notify) accountId)
          { action := "mastodon_account_".toList ++ type.text
            resourceType := "mastodon_account".toList
            resourceName := some (orElse acct (natText accountId))
            details := [("account_id".toList, .text (natText accountId)), ("type".toList, .text type.text),
              ("notify".toList, .flag notify)] ++ reportDetail reportId }

def mastodonAccountDelete (accountId : Nat) : Remote Response :=
  let acct := formText form "acct"
  if acct = [] then pure (.refused 400 "acct is required".toList)
  else if formText form "confirm" ≠ acct then pure (.refused 400 "Type the account handle to confirm".toList)
  else lookUp site (.getAdminAccount accountId) fun target =>
    if !target.suspended then pure (.refused 400 "Suspend the account before deleting it".toList)
    else unlessStaff u user target acct (natText accountId) "delete".toList [] <|
      mastodonJson site (perform (.deleteAccount accountId))
        { action := "mastodon_account_delete".toList
          resourceType := "mastodon_account".toList
          resourceName := some acct
          details := [("account_id".toList, .text (natText accountId)), ("domain".toList, target.domain.elim .null .text)] }

def mastodonAccountLift (accountId : Nat) (lift : Text) : Remote Response :=
  match parseLift lift with
  | none => pure (.refused 404 "Unknown account action".toList)
  | some lift =>
    mastodonJson site (performAndLookUp (.liftAccountAction accountId lift) accountId)
      { action := "mastodon_account_".toList ++ lift.text
        resourceType := "mastodon_account".toList
        resourceName := some (orElse (formText form "acct") (natText accountId))
        details := [("account_id".toList, .text (natText accountId))] }

/-- `create_domain_block` validates the domain once more before it asks. -/
def createDomainBlock (domain : Text) (opts : BlockOptions) : Remote (Except Raised Unit) :=
  match validateDomain u domain with
  | .error message => pure (.error (.value message))
  | .ok domain => perform (.createDomainBlock domain opts)

def blockOptions (severity : Severity) : BlockOptions where
  severity
  rejectMedia := formFlag u form "reject_media"
  rejectReports := formFlag u form "reject_reports"
  obfuscate := formFlag u form "obfuscate"
  publicComment := formText form "public_comment"
  privateComment := formText form "private_comment"

def mastodonDomainBlockCreate : Remote Response :=
  match validateDomain u (form.get "domain".toList) with
  | .error message => pure (.refused 400 message)
  | .ok domain =>
    match Severity.parse (orElse (formText form "severity") "silence".toList) with
    | none => pure (.refused 400 "Unknown domain block severity".toList)
    | some severity =>
      let opts := blockOptions u form severity
      mastodonJson site (createDomainBlock u domain opts)
        { action := "mastodon_domain_block_create".toList
          resourceType := "mastodon_domain_block".toList
          resourceName := some domain
          details := [("severity".toList, .text severity.text), ("reject_media".toList, .flag opts.rejectMedia),
            ("reject_reports".toList, .flag opts.rejectReports)] }

def mastodonDomainBlockDelete (blockId : Nat) : Remote Response :=
  mastodonJson site (perform (.deleteDomainBlock blockId))
    { action := "mastodon_domain_block_delete".toList
      resourceType := "mastodon_domain_block".toList
      resourceName := some (orElse (formText form "domain") (natText blockId))
      details := [("block_id".toList, .text (natText blockId))] }

/-- The closure of `mastodon_watch_add`: the latest status, and the row. -/
def addWatch (accountId acct : Text) (days : Nat) : Remote (Except Raised Unit) :=
  match u.int accountId with
  | none => pure (.error (.value "invalid literal for int()".toList))
  | some id => do
    let outcome ← issue (.api (.latestStatus id))
    match outcome.result with
    | .error e => pure (.error e)
    | .ok lastStatusId =>
      let reason := formText form "reason"
      let added ← issue (.addWatch accountId acct (if reason = [] then none else some reason) days lastStatusId)
      pure (if added then .ok () else .error .other)

def mastodonWatchAdd : Remote Response :=
  let accountId := formText form "account_id"
  let acct := formText form "acct"
  let days := (max 0 (min 365 ((u.int (form.get "days".toList)).getD 0))).toNat
  if !u.isDigits accountId then pure (.refused 400 "A numeric account_id is required".toList)
  else if acct = [] then pure (.refused 400 "acct is required".toList)
  else if site.watched accountId then pure (.refused 409 "Already watched".toList)
  else mastodonJson site (addWatch u form accountId acct days)
    { action := "mastodon_watch_add".toList
      resourceType := "mastodon_account".toList
      resourceName := some acct
      details := [("account_id".toList, .text accountId), ("days".toList, .number days)] }

/-! ### The routes over SSH -/

/-- `_run_over_ssh`. -/
def runOverSsh (target : SshTarget) (command : Text) (timeout : Nat) : Remote (Except Text Printed) :=
  match if site.mastodonGuestId = [] then none else (u.int site.mastodonGuestId).bind site.guest with
  | none => pure (.error "Mastodon app guest is not configured".toList)
  | some guest =>
    if (truthy guest.ipAddress).isNone then pure (.error "Guest has no IP address".toList)
    else if !guest.credential && !site.defaultCredential then pure (.error "No SSH credential for the Mastodon guest".toList)
    else issue (.ssh target command timeout)

/-- `run_maintenance`. -/
def runMaintenance (action : MaintenanceAction) (username : Text) (email : Option Text) (confirm : Bool) : Remote MaintenanceResult :=
  match buildModifyCommand u username action email confirm site.mastodonUser site.mastodonAppDir with
  | none => pure { ok := false, message := invalidInputMessage, password := none }
  | some command => do
    match ← runOverSsh u site (.username username) command 180 with
    | .error message => pure { ok := false, message, password := none }
    | .ok printed => pure (readMaintenance action username printed)

/-- `run_status_action`. -/
def runStatusAction (action : StatusAction) (statusIds : List Text) (reportId : Nat) (text : Text) (sendEmail : Bool) :
    Remote StatusActionResult :=
  match site.tokenAccountId with
  | none =>
    pure
      { ok := false
        message := "Run Test Connection first so MCAT knows which Mastodon account performs the action".toList
        count := 0 }
  | some actor =>
    match (buildStatusActionScript u action statusIds reportId actor text sendEmail).bind fun script =>
        buildStatusActionCommand u script site.mastodonUser site.mastodonAppDir with
    | none => pure { ok := false, message := invalidInputMessage, count := 0 }
    | some command => do
      match ← runOverSsh u site (.reportPosts reportId) command 240 with
      | .error message => pure { ok := false, message, count := 0 }
      | .ok printed => pure (readStatusAction action reportId printed)

/-- `with maintenance_slot()`, and what follows it. -/
def inMaintenanceSlot {α : Type} (busy : Text) (run : Remote α) (next : α → Remote Response) : Remote Response := do
  match ← issue .acquire with
  | false => pure (.refused 409 busy)
  | true =>
    let result ← run
    issue .release
    next result

/-- The audit row of a finished run and the answer. -/
def finish (row : Row) (ok : Bool) (message : Text) : Remote Response := do
  audit row
  pure (if ok then .agreed else .refused 502 message)

/-- `mastodon_account_maintenance` from the point where the account is known. -/
def maintainAccount (accountId : Nat) (action : MaintenanceAction) (target : Account) : Remote Response :=
  let acct := formText form "acct"
  let email := truthy (some (formText form "email"))
  let confirm := formFlag u form "confirm"
  if !target.isLocal then pure (.refused 400 "Maintenance actions apply to local accounts only".toList)
  else unlessStaff u user target (orElse acct (orElse target.acct (natText accountId))) (natText accountId)
      ("maintenance:".toList ++ action.text) [] <|
    if (buildModifyCommand u target.username action email confirm site.mastodonUser site.mastodonAppDir).isNone then
      pure (.refused 400 invalidInputMessage)
    else inMaintenanceSlot "Another maintenance action is running".toList (runMaintenance u site action target.username email confirm)
      fun result =>
        finish
          { action := "mastodon_maintenance_".toList ++ action.text
            resourceType := "mastodon_account".toList
            resourceName := some (orElse acct target.username)
            details := [("account_id".toList, .text (natText accountId)), ("ok".toList, .flag result.ok),
              ("email_changed".toList, .flag (action == .changeEmail && result.ok))] }
          result.ok result.message

def mastodonAccountMaintenance (accountId : Nat) : Remote Response :=
  if !user.canMaintainMastodonAccounts then do
    audit
      { action := "mastodon_maintenance_refused".toList
        resourceType := "mastodon_account".toList
        resourceName := some (natText accountId)
        details := [("account_id".toList, .text (natText accountId)), ("action".toList, .text (formText form "action")),
          ("reason".toList, .text "permission".toList)] }
    pure (.refused 403 "Your role may not run account maintenance".toList)
  else match MaintenanceAction.parse (form.get "action".toList) with
    | none => pure (.refused 400 "Unknown maintenance action".toList)
    | some action => lookUp site (.getAdminAccount accountId) (maintainAccount u site user form accountId action)

/-- `mastodon_report_statuses_action` from the point where the posts may be acted on. -/
def actOnPosts (action : StatusAction) (reportId : Nat) (target : Account) (statusIds : List Text) (text : Text) (sendEmail : Bool) :
    Remote Response :=
  match site.tokenAccountId with
  | none => pure (.refused 400 "Run Test Connection first so MCAT knows which Mastodon account performs the action".toList)
  | some actor =>
    if site.mastodonGuestId = [] then pure (.refused 400 "Configure the Mastodon app guest first".toList)
    else if (buildStatusActionScript u action statusIds reportId actor text sendEmail).isNone then
      pure (.refused 400 invalidInputMessage)
    else inMaintenanceSlot "Another server-side action is running".toList (runStatusAction u site action statusIds reportId text sendEmail)
      fun result =>
        finish
          { action := "mastodon_report_posts_".toList ++ action.text
            resourceType := "mastodon_report".toList
            resourceName := some ("report ".toList ++ natText reportId)
            details := [("report_id".toList, .text (natText reportId)), ("status_count".toList, .number statusIds.length),
              ("acted".toList, .number result.count), ("ok".toList, .flag result.ok), ("target".toList, .text target.acct),
              ("text_len".toList, .number text.length), ("email".toList, .flag sendEmail)] }
          result.ok result.message

/-- The same from the point where the report is known. -/
def actOnReport (action : StatusAction) (reportId : Nat) (statusIds : List Text) (report : Report) : Remote Response :=
  let text := formText form "text"
  let sendEmail := formFlag u form "send_email_notification"
  let chosen := statusIds.filter fun id => id ∈ report.statusIds
  let target := report.target
  if report.actionTaken then pure (.refused 400 "This report is already resolved; reopen it first".toList)
  else if chosen = [] then pure (.refused 400 "None of the selected posts belong to this report".toList)
  else unlessStaff u user target (orElse target.acct target.id) target.id ("posts:".toList ++ action.text)
      [("report_id".toList, .text (natText reportId))] <|
    actOnPosts u site action reportId target chosen text (sendEmail && target.isLocal)

def mastodonReportStatusesAction (reportId : Nat) : Remote Response :=
  match StatusAction.parse (form.get "type".toList) with
  | none => pure (.refused 400 "Unknown post action".toList)
  | some action =>
    let statusIds := ((form.getlist "status_ids".toList).map strip).filter (· ≠ [])
    if statusIds = [] then pure (.refused 400 "Select at least one post".toList)
    else if maxStatusIds < statusIds.length then pure (.refused 400 "Too many posts selected (max 50)".toList)
    else lookUp site (.getReport reportId) (actOnReport u site user form action reportId statusIds)

/-- The endpoints of `_ADMIN_ONLY_ENDPOINTS` among the requests. -/
def Request.adminOnly : Request → Bool
  | .accountDelete _ => true
  | _ => false

/-- `_require_login` of a user who is logged in. -/
def requireLogin (request : Request) : Option Response :=
  if !user.canModerate then some (.redirect "You don't have permission to access moderation.".toList)
  else if request.adminOnly && !user.isAdmin then
    some (.redirect "Administrator access is required to change moderation settings.".toList)
  else none

def route : Request → Remote Response
  | .reportResolve id => mastodonReportResolve site id
  | .reportReopen id => mastodonReportReopen site id
  | .reportStatusesAction id => mastodonReportStatusesAction u site user form id
  | .accountApprove id => mastodonAccountApprove site form id
  | .accountReject id => mastodonAccountReject site form id
  | .accountAction id => mastodonAccountAction u site user form id
  | .accountDelete id => mastodonAccountDelete u site user form id
  | .accountMaintenance id => mastodonAccountMaintenance u site user form id
  | .accountLift id lift => mastodonAccountLift site form id lift
  | .domainBlockCreate => mastodonDomainBlockCreate u site form
  | .domainBlockDelete id => mastodonDomainBlockDelete site form id
  | .watchAdd => mastodonWatchAdd u site form

/-- A request from the check of the user to the answer. -/
def serve (request : Request) : Remote Response :=
  match requireLogin user request with
  | some response => pure response
  | none => route u site user form request

end

/-! ### What the routes issue -/

/-- The commands that change nothing on the instance or on its guest are allowed. -/
structure Permits (P : Command → Prop) : Prop where
  read : ∀ c : ApiCall, c.mutates = false → P (.api c)
  audit : ∀ row, P (.audit row)
  addWatch : ∀ accountId acct reason days lastStatusId, P (.addWatch accountId acct reason days lastStatusId)
  acquire : P .acquire
  release : P .release

section

open Script

variable {u : TextTable} {site : Site} {user : User} {form : Form} {P : Command → Prop}

theorem only_perform {c : ApiCall} (hc : P (.api c)) : Only P (perform c) := ⟨hc, fun _ => trivial⟩

theorem only_performAndLookUp (hP : Permits P) {c : ApiCall} (hc : P (.api c)) (id : Nat) : Only P (performAndLookUp c id) := by
  refine (Only.send (c := Command.api c) hc).bind fun outcome => ?_
  cases Outcome.result outcome with
  | error e => trivial
  | ok a => exact only_perform (hP.read (.getAdminAccount id) rfl)

theorem only_mastodonJson (hP : Permits P) {fn : Remote (Except Raised Unit)} (hfn : Only P fn) (row : Row) :
    Only P (mastodonJson site fn row) := by
  unfold mastodonJson
  split
  · trivial
  · refine hfn.bind fun result => ?_
    rcases result with (message | message | _) | _
    · trivial
    · trivial
    · trivial
    · exact ⟨hP.audit row, fun _ => trivial⟩

theorem only_unlessStaff (hP : Permits P) {target : Account} {resourceName accountId type : Text} {report : List (Text × Detail)}
    {next : Remote Response} (hnext : (target.isStaff u && !user.canModerateStaff) = false → Only P next) :
    Only P (unlessStaff u user target resourceName accountId type report next) := by
  unfold unlessStaff
  cases hstaff : target.isStaff u && !user.canModerateStaff with
  | true => exact ⟨hP.audit _, fun _ => trivial⟩
  | false => exact hnext hstaff

theorem only_runOverSsh {target : SshTarget} (hssh : ∀ command timeout, P (.ssh target command timeout)) (command : Text)
    (timeout : Nat) : Only P (runOverSsh u site target command timeout) := by
  unfold runOverSsh
  split
  · trivial
  · split
    · trivial
    · split
      · trivial
      · exact ⟨hssh command timeout, fun _ => trivial⟩

theorem only_inMaintenanceSlot (hP : Permits P) {α : Type} {busy : Text} {run : Remote α} {next : α → Remote Response}
    (hrun : Only P run) (hnext : ∀ a, Only P (next a)) : Only P (inMaintenanceSlot busy run next) := by
  refine (Only.send (c := Command.acquire) hP.acquire).bind fun acquired => ?_
  cases acquired with
  | false => trivial
  | true => exact hrun.bind fun a => ⟨hP.release, fun _ => hnext a⟩

theorem only_finish (hP : Permits P) (row : Row) (ok : Bool) (message : Text) : Only P (finish row ok message) :=
  ⟨hP.audit row, fun _ => trivial⟩

theorem only_runMaintenance {action : MaintenanceAction} {username : Text} {email : Option Text} {confirm : Bool}
    (hssh : ∀ command timeout, P (.ssh (.username username) command timeout)) :
    Only P (runMaintenance u site action username email confirm) := by
  unfold runMaintenance
  split
  · trivial
  · refine (only_runOverSsh hssh _ _).bind fun result => ?_
    cases result with
    | error message => trivial
    | ok printed => trivial

theorem only_runStatusAction {action : StatusAction} {statusIds : List Text} {reportId : Nat} {text : Text} {sendEmail : Bool}
    (hssh : ∀ command timeout, P (.ssh (.reportPosts reportId) command timeout)) :
    Only P (runStatusAction u site action statusIds reportId text sendEmail) := by
  unfold runStatusAction
  split
  · trivial
  · split
    · trivial
    · refine (only_runOverSsh hssh _ _).bind fun result => ?_
      cases result with
      | error message => trivial
      | ok printed => trivial

theorem only_maintainAccount (hP : Permits P) {accountId : Nat} {action : MaintenanceAction} {target : Account}
    (hssh : target.isLocal = true → (target.isStaff u && !user.canModerateStaff) = false →
      ∀ command timeout, P (.ssh (.username target.username) command timeout)) :
    Only P (maintainAccount u site user form accountId action target) := by
  unfold maintainAccount
  cases hlocal : target.isLocal with
  | false => trivial
  | true =>
    refine only_unlessStaff hP fun hstaff => ?_
    split
    · trivial
    · exact only_inMaintenanceSlot hP (only_runMaintenance (hssh hlocal hstaff)) fun result => only_finish hP _ _ _

theorem only_actOnReport (hP : Permits P) {action : StatusAction} {reportId : Nat} {statusIds : List Text} {report : Report}
    (hssh : (report.target.isStaff u && !user.canModerateStaff) = false →
      ∀ command timeout, P (.ssh (.reportPosts reportId) command timeout)) :
    Only P (actOnReport u site user form action reportId statusIds report) := by
  unfold actOnReport
  dsimp only
  split
  · trivial
  · split
    · trivial
    · refine only_unlessStaff hP fun hstaff => ?_
      unfold actOnPosts
      split
      · trivial
      · split
        · trivial
        · split
          · trivial
          · exact only_inMaintenanceSlot hP (only_runStatusAction (hssh hstaff)) fun result => only_finish hP _ _ _

theorem only_mastodonWatchAdd (hP : Permits P) : Only P (mastodonWatchAdd u site form) := by
  unfold mastodonWatchAdd
  dsimp only
  split
  · trivial
  · split
    · trivial
    · split
      · trivial
      · refine only_mastodonJson hP ?_ _
        unfold addWatch
        split
        · trivial
        · rename_i id _
          refine (Only.send (c := Command.api (.latestStatus id)) (hP.read (.latestStatus id) rfl)).bind fun outcome => ?_
          cases Outcome.result outcome with
          | error e => trivial
          | ok lastStatusId => exact ⟨hP.addWatch _ _ _ _ _, fun _ => trivial⟩

/-- A lookup, and a continuation that depends on what it found. -/
theorem lookUp_forall (hP : Permits P) {c : ApiCall} (hc : c.mutates = false) {next : c.Result → Remote Response}
    {answer : Script.History Command Answer → ∀ c, Answer c} {h : Script.History Command Answer} (hh : ∀ e ∈ h, P e.1)
    (hnext : ∀ found, answer h (.api c) = .returned found → Only P (next found)) :
    ∀ e ∈ ((lookUp site c next).transcript answer h).1, P e.1 := by
  unfold lookUp
  cases getMastodonClient site with
  | error response => exact hh
  | ok _ =>
    have hlooked : ∀ e ∈ (⟨.api c, answer h (.api c)⟩ :: h : Script.History Command Answer), P e.1 :=
      List.forall_mem_cons.2 ⟨hP.read c hc, hh⟩
    change ∀ e ∈ (Script.transcript answer (⟨.api c, answer h (.api c)⟩ :: h) (match (answer h (.api c)).result with
      | .error (.api message) => pure (.refused 502 message)
      | .error _ => pure .crashed
      | .ok found => next found)).1, P e.1
    split
    · exact hlooked
    · exact hlooked
    · rename_i found hfound
      refine (hnext found ?_).transcript answer hlooked
      cases houtcome : answer h (.api c) with
      | refused e =>
        rw [houtcome] at hfound
        cases hfound
      | unread e =>
        rw [houtcome] at hfound
        cases hfound
      | returned a =>
        rw [houtcome] at hfound
        cases hfound
        rfl

end

end ProxmoxTool.Moderation.Admin
