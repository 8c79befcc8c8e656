import Mathlib.Data.List.Sort
import ProxmoxTool.Moderation.Client

/-!
# One poll

The steps of `run_watch_poll`: pruning, the watched accounts in queue order, new accounts and their welcomes, and the scan
for silent logins.  Each commits as it goes: `record_alert` commits the alert it inserts, a cursor is written after the
alerts.

What a poll meets is a `Client` and a `Bot`: the answers to its requests, whether the rate budget holds at a point
(`budget_ok`), and after how many items of a loop an exception that is no `MastodonAPIError` ends the poll (`interrupts`).
Such an exception rolls back what is not committed.
-/

namespace ProxmoxTool.Moderation

/-- Where the rate budget is asked, and where a loop over answers can be interrupted. -/
inductive Point
  | check (watch : WatchId)
  | newAccounts
  | silentScan
  deriving DecidableEq, Repr

structure Client where
  accountStatuses : AccountId → Option StatusId → Nat → Except ApiError (List Status)
  localAccounts : Option Time → Nat → Except ApiError (List AdminAccount)
  budgetOk : Point → Bool
  interrupts : Point → Option Nat

/-- How the sending of one welcome ends.  An exception may come before or after the message is posted. -/
inductive Sending
  | noBudget
  | failed
  | sent
  | interrupted (posted : Bool)
  deriving DecidableEq, Repr

/-- The welcome bot: its own account, if the token could be verified, and how each welcome ends. -/
structure Bot where
  verify : Option AccountId
  sending : AccountId → Sending

def rateLimited (e : ApiError) : Bool := e.httpStatus = some 429

/-- The account does not exist any more. -/
def ApiError.isGone (e : ApiError) : Bool := e.httpStatus = some 404 || e.httpStatus = some 410

def Db.saveWatch (db : Db) (w : Watch) : Db := { db with watches := replaceRow Watch.id w db.watches }

def Db.removeWatch (db : Db) (id : WatchId) : Db := { db with watches := db.watches.filter fun w => w.id ≠ id }

/-! ### Pruning -/

def alertRetentionDays : Int := 90

def Watch.expired (now : Time) (w : Watch) : Bool :=
  match w.expiresAt with
  | some t => t < now
  | none => false

/-- An acknowledged alert goes after `ALERT_RETENTION_DAYS`, any other after the retention of the moderation log. -/
def Alert.outdated (now : Time) (settings : WatchSettings) (a : Alert) : Bool :=
  match a.acknowledgedAt with
  | some t => t < now - days alertRetentionDays
  | none => a.createdAt < now - days settings.logRetentionDays

/-- `_prune`. -/
def prune (now : Time) (settings : WatchSettings) (db : Db) : Db :=
  { db with
    watches := db.watches.filter fun w => !w.expired now
    alerts := db.alerts.filter fun a => !a.outdated now settings }

/-! ### Watched accounts -/

section

variable (now clock : Time)

/-- The first look at an account asks for its newest status only. -/
def Watch.request (w : Watch) : Option StatusId × Nat :=
  match w.lastStatusId with
  | none => (none, 1)
  | some cursor => (some cursor, 40)

def Watch.named (w : Watch) (s : Status) : Watch := { w with acct := (truthy s.accountAcct).getD w.acct }

/-- One round of the loop of `_poll_watch`.  The commit of `record_alert` takes the row of the watch along as it is. -/
def alertStatus (st : Db × Watch) (s : Status) : Db × Watch :=
  let (db, w) := st
  match recordAlert true clock .watchedPost ⟨w.account, (truthy s.accountAcct).getD w.acct, none⟩ (some s) db with
  | (db, some _) => (db.saveWatch w, w.named s)
  | (db, none) => (db, w.named s)

/-- `_poll_watch` on the statuses it gets, newest first. -/
def pollWatch (statuses : List Status) (w : Watch) (db : Db) : Db × Watch :=
  match w.lastStatusId, statuses with
  | _, [] => (db, w)
  | none, newest :: _ => (db, { w.named newest with lastStatusId := some newest.id })
  | some _, newest :: _ =>
    let (db, w) := statuses.reverse.foldl (alertStatus clock) (db, w)
    (db, { w with lastStatusId := some newest.id })

/-- `_poll_watch` interrupted in its loop: the alerts are there, the cursor is not. -/
def pollWatchInterrupted (handled : Nat) (statuses : List Status) (w : Watch) (db : Db) : Db :=
  match w.lastStatusId with
  | none => db
  | some _ => ((statuses.reverse.take handled).foldl (alertStatus clock) (db, w)).1

inductive Checked
  | checked
  | removed
  | aborted
  deriving DecidableEq, Repr

/-- One round of the loop of `_check_watched`. -/
def checkWatch (reply : Except ApiError (List Status)) (interrupt : Option Nat) (w : Watch) (db : Db) : Db × Checked :=
  match reply with
  | .error e =>
    if rateLimited e then (db, .aborted)
    else if e.isGone then (db.removeWatch w.id, .removed)
    -- any other failure is this account's problem: the watch counts as checked
    else (db.saveWatch { w with lastCheckedAt := some now }, .checked)
  | .ok statuses => match interrupt with
    | some handled => (pollWatchInterrupted clock handled statuses w db, .aborted)
    | none =>
      let (db, w) := pollWatch clock statuses w db
      (db.saveWatch { w with lastCheckedAt := some now }, .checked)

/-- The order of the queue: never checked first, then the one checked longest ago, ties by id. -/
def Watch.before (a b : Watch) : Bool :=
  match a.lastCheckedAt, b.lastCheckedAt with
  | none, none => a.id ≤ b.id
  | none, some _ => true
  | some _, none => false
  | some s, some t => s < t || (s = t && a.id ≤ b.id)

def maxWatchRequestsPerRun : Nat := 100

def Db.queue (db : Db) : List Watch :=
  (db.watches.insertionSort fun a b => a.before b).take maxWatchRequestsPerRun

/-- The loop of `_check_watched`: the tables, whether it was aborted, and the watches whose check was completed. -/
def checkWatches (client : Client) : List Watch → Db → Db × Bool × List WatchId
  | [], db => (db, false, [])
  | w :: ws, db =>
    if !client.budgetOk (.check w.id) then (db, false, [])
    else
      let reply := client.accountStatuses w.account w.request.1 w.request.2
      match checkWatch now clock reply (client.interrupts (.check w.id)) w db with
      | (db, .aborted) => (db, true, [])
      | (db, .removed) => checkWatches client ws db
      | (db, .checked) =>
        let (db, aborted, checked) := checkWatches client ws db
        (db, aborted, w.id :: checked)

/-- `_check_watched`. -/
def checkWatched (client : Client) (db : Db) : Db × Bool × List WatchId := checkWatches now clock client db.queue db

/-! ### New accounts -/

/-- A new watch without a cursor, unless the account is watched. -/
def autoWatch (settings : WatchSettings) (a : AdminAccount) (db : Db) : Db :=
  if 0 < settings.autoWatchDays ∧ a.id ∉ db.watches.map Watch.account then
    { db with
      watches := db.watches ++ [{
        id := freshId Watch.id db.watches
        account := a.id
        acct := a.acct
        autoAdded := true
        expiresAt := some (now + days settings.autoWatchDays) }] }
  else db

/-- One round of the loop of `_discover_new_accounts`. -/
def discoverAccount (settings : WatchSettings) (db : Db) (a : AdminAccount) : Db :=
  autoWatch now settings a (recordAlert true clock .newAccount ⟨a.id, a.acct, none⟩ none db).1

/-- What `_discover_new_accounts` leaves: the tables, whether the poll goes on, `result["bootstrapped"]` and
`result["new_accounts"]`. -/
structure Discovery where
  db : Db
  aborted : Bool := false
  bootstrapped : Bool := false
  newAccounts : List AdminAccount := []

/-- `_discover_new_accounts` without a cursor: it is set to the newest account, if there is one. -/
def bootstrap (reply : Except ApiError (List AdminAccount)) (db : Db) : Discovery :=
  match reply with
  | .error e => { db := db, aborted := rateLimited e }
  | .ok accounts =>
    { db := match accounts.head?.bind AdminAccount.createdAt with
        | some newest => { db with newAccountCursor := some newest }
        | none => db
      bootstrapped := true }

/-- `_discover_new_accounts` with a cursor, on the accounts it gets, newest first. -/
def discoverSince (settings : WatchSettings) (cursor : Time) (reply : Except ApiError (List AdminAccount))
    (interrupt : Option Nat) (db : Db) : Discovery :=
  match reply with
  | .error e => { db := db, aborted := rateLimited e }
  | .ok [] => { db := db }
  | .ok (newest :: older) =>
    let accounts := (newest :: older).reverse
    match interrupt with
    | some handled => { db := (accounts.take handled).foldl (discoverAccount now clock settings) db, aborted := true }
    | none =>
      { db := { accounts.foldl (discoverAccount now clock settings) db with
          newAccountCursor := some (newest.createdAt.getD cursor) }
        newAccounts := accounts }

/-- `_discover_new_accounts`. -/
def discoverNewAccounts (client : Client) (settings : WatchSettings) (db : Db) : Discovery :=
  if !client.budgetOk .newAccounts then { db := db }
  else match db.newAccountCursor with
    | none => bootstrap (client.localAccounts none 1) db
    | some cursor =>
      discoverSince now clock settings cursor (client.localAccounts (some cursor) 2) (client.interrupts .newAccounts) db

/-! ### Welcomes -/

def maxWelcomesPerRun : Nat := 20

/-- The loop of `_send_welcomes`, after `welcomed` messages; the second component says whether the poll goes on. -/
def welcomeLoop (bot : Bot) : List AdminAccount → (welcomed : Nat) → Db → Db × Bool
  | [], _, db => (db, true)
  | a :: as, welcomed, db =>
    if maxWelcomesPerRun ≤ welcomed then (db, true)
    else if bot.verify = some a.id then welcomeLoop bot as welcomed db
    else if a.id ∈ db.welcomes then welcomeLoop bot as welcomed db
    else match bot.sending a.id with
      | .noBudget => (db, true)
      | .failed => welcomeLoop bot as welcomed db
      | .sent => welcomeLoop bot as (welcomed + 1)
          { db with welcomes := db.welcomes ++ [a.id], welcomed := db.welcomed ++ [a.id] }
      | .interrupted posted => (if posted then { db with welcomed := db.welcomed ++ [a.id] } else db, false)

/-- The order of `_send_welcomes`: by `created_at`, missing ones first. -/
def AdminAccount.older (a b : AdminAccount) : Bool :=
  match a.createdAt, b.createdAt with
  | none, _ => true
  | some _, none => false
  | some s, some t => s ≤ t

/-- `_send_welcomes`. -/
def sendWelcomes (bot : Bot) (d : Discovery) : Db × Bool :=
  if d.bootstrapped || d.newAccounts.isEmpty then (d.db, true)
  else welcomeLoop bot (d.newAccounts.insertionSort fun a b => a.older b) 0 d.db

/-- The two steps about new accounts; without a bot, or with welcomes switched off, there is no second one. -/
def newAccountsStep (client : Client) (bot : Option Bot) (settings : WatchSettings) (db : Db) : Db × Bool :=
  let d := discoverNewAccounts now clock client settings db
  if d.aborted then (d.db, false)
  else match bot with
    | none => (d.db, true)
    | some bot => sendWelcomes bot d

/-! ### Silent logins -/

/-- An account without posts that is old enough and has logged in lately. -/
def AdminAccount.silent (settings : WatchSettings) (a : AdminAccount) : Bool :=
  a.statusesCount.getD 0 = 0 && match a.createdAt, a.lastLoginAt with
    | some created, some login =>
      !(now - days settings.silentMinAgeDays < created) && !(login < now - days settings.silentLoginDays)
    | _, _ => false

/-- `date().isoformat()`, from the days since 1 March of year 0 in eras of 400 years. -/
def isoDate (t : Time) : Text :=
  let z := t / 86400 + 719468
  let day := z % 146097
  let year := (day - day / 1460 + day / 36524 - day / 146096) / 365
  let day := day - (365 * year + year / 4 - year / 100)
  let month := (5 * day + 2) / 153
  let padded (width : Nat) (n : Int) : Text := (natText n.toNat).leftpad width '0'
  padded 4 (z / 146097 * 400 + year + month / 10) ++ '-' :: padded 2 ((month + 2) % 12 + 1) ++ '-' :: padded 2 (day - (153 * month + 2) / 5 + 1)

/-- What the row of a silent login says. -/
def AdminAccount.silentExcerpt (a : AdminAccount) : Text :=
  "Created ".toList ++ (a.createdAt.elim [] isoDate) ++ ", last login ".toList ++ (a.lastLoginAt.elim [] isoDate) ++ ", 0 posts".toList

def recordSilent (db : Db) (a : AdminAccount) : Db :=
  (recordAlert false clock .silentLogin ⟨a.id, a.acct, some a.silentExcerpt⟩ none db).1

/-- The last scan was less than `SILENT_SCAN_MIN_HOURS` ago. -/
def Db.scannedLately (db : Db) : Bool :=
  match db.silentLastScanAt with
  | some last => now - last < hours 24
  | none => false

/-- `_scan_silent_logins` on the accounts it gets. -/
def scanAccounts (settings : WatchSettings) (reply : Except ApiError (List AdminAccount)) (interrupt : Option Nat)
    (db : Db) : Db :=
  match reply with
  | .error _ => db
  | .ok accounts =>
    let silent := accounts.filter (AdminAccount.silent now settings)
    match interrupt with
    | some handled => (silent.take handled).foldl (recordSilent clock) db
    | none => { silent.foldl (recordSilent clock) db with silentLastScanAt := some now }

/-- `_scan_silent_logins`; it comes last, so how it ends is of no consequence. -/
def scanSilentLogins (client : Client) (settings : WatchSettings) (db : Db) : Db :=
  if db.scannedLately now || !client.budgetOk .silentScan then db
  else scanAccounts now clock settings
    (client.localAccounts (some (now - days settings.silentScanWindowDays)) 10) (client.interrupts .silentScan) db

/-- `run_watch_poll`. -/
def runWatchPoll (client : Client) (bot : Option Bot) (settings : WatchSettings) (db : Db) : Db :=
  let (db, aborted, _) := checkWatched now clock client (prune now settings db)
  if aborted then db
  else match newAccountsStep now clock client bot settings db with
    | (db, false) => db
    | (db, true) => scanSilentLogins now clock client settings db

end

end ProxmoxTool.Moderation
