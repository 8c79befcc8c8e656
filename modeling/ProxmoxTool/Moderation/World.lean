import ProxmoxTool.Lib.System
import ProxmoxTool.Moderation.Effects

/-!
# Runs

The system of the watch poll: the tables, the Mastodon instance and the settings.  The instance moves (posts, registrations,
approvals), moderators act (they add and remove watches, acknowledge alerts, save settings), and the polls work step by step:
one event is one pruning, one check of one watch, the two steps about new accounts, or one scan.  The events of a poll may
come in any order and with anything in between; the order of the source is one of them.  Here a request and what is done with its
answer are one event; polls that overlap with their requests open are a system of their own.

A request gets the answer of the instance as it is, unless `Trouble` says that it fails or that the loop over the answer is
interrupted.

`history` and `discovered` record the run: for each watch the alerts raised before it was added and the account's statuses at
its first and at its latest successful check, and the accounts listed at the first and at the latest completed discovery.
-/

namespace ProxmoxTool.Moderation

/-- What goes wrong in a step: its request fails, or its loop is interrupted after some items. -/
structure Trouble where
  error : Option ApiError := none
  interrupt : Option Nat := none
  deriving DecidableEq, Repr

def Trouble.completes (t : Trouble) : Bool := t.error.isNone && t.interrupt.isNone

def Trouble.answer {α : Type} (t : Trouble) (x : Except ApiError α) : Except ApiError α :=
  match t.error with
  | some e => .error e
  | none => x

/-- A client of the instance. -/
def Instance.client (inst : Instance) (t : Trouble) : Client where
  accountStatuses account since limit := t.answer (.ok (inst.accountStatuses account since limit))
  localAccounts newerThan maxPages := t.answer (inst.localAccounts newerThan maxPages)
  budgetOk _ := true
  interrupts _ := t.interrupt

/-- Of a watch: the alerts raised before it was added, and the account's statuses at the first and at the latest successful
check. -/
structure History where
  base : List Subject := []
  seen : Option (List Status × List Status) := none

def History.look (h : History) (timeline : List Status) : History :=
  { h with seen := match h.seen with
      | none => some (timeline, timeline)
      | some (first, _) => some (first, timeline) }

structure World where
  db : Db := {}
  inst : Instance := {}
  settings : WatchSettings := .default
  history : WatchId → History := fun _ => {}
  discovered : Option (List AccountId × List AccountId) := none

inductive Event
  | post (account : AccountId) (s : Status)
  | register (m : Member)
  | approve (id : AccountId)
  | activity (id : AccountId) (lastLoginAt : Option Time) (statusesCount : Nat)
  | addWatch (account : AccountId) (acct : Text) (expiresAt : Option Time)
  | removeWatch (id : WatchId)
  | acknowledge (which : List Subject) (time : Time)
  | configure (settings : WatchSettings)
  | prune (now : Time)
  | check (id : WatchId) (now clock : Time) (t : Trouble)
  | newAccounts (now clock : Time) (t : Trouble) (bot : Option Bot)
  | scan (now clock : Time) (t : Trouble)

/-- The tables after a step.  A watch that was not there before starts its history. -/
def World.update (w : World) (db : Db) : World :=
  { w with
    db := db
    history := fun id => if id ∈ w.db.watches.map Watch.id then w.history id else { base := w.db.marks.raised } }

def World.look (w : World) (id : WatchId) (timeline : List Status) : World :=
  { w with history := fun i => if i = id then (w.history i).look timeline else w.history i }

def World.discover (w : World) (listed : List AccountId) : World :=
  { w with discovered := match w.discovered with
      | none => some (listed, listed)
      | some (first, _) => some (first, listed) }

def Instance.changeMember (inst : Instance) (id : AccountId) (f : Member → Member) : Instance :=
  { inst with members := inst.members.map fun m => if m.id = id then f m else m }

/-- `mastodon_watch_add`: the cursor is set to the newest status. -/
def addWatch (inst : Instance) (account : AccountId) (acct : Text) (expiresAt : Option Time) (db : Db) : Db :=
  { db with
    watches := db.watches ++ [{
      id := freshId Watch.id db.watches
      account := account
      acct := acct
      expiresAt := expiresAt
      lastStatusId := (inst.accountStatuses account none 1).head?.map Status.id }] }

/-- `mastodon_alert_ack` and `mastodon_alerts_ack_all`. -/
def acknowledge (which : List Subject) (time : Time) (db : Db) : Db :=
  { db with
    alerts := db.alerts.map fun a =>
      if a.subject ∈ which ∧ a.acknowledgedAt = none then { a with acknowledgedAt := some time } else a }

theorem marks_acknowledge (which : List Subject) (time : Time) (db : Db) : (acknowledge which time db).marks = db.marks := by
  unfold acknowledge Db.marks
  simp only [List.map_map, Marks.mk.injEq, and_true]
  refine List.map_congr_left fun a _ => ?_
  by_cases ha : a.subject ∈ which ∧ a.acknowledgedAt = none
  · simp [ha]
  · simp [ha]

def step (w : World) : Event → Option World
  | .post account s =>
    if (w.inst.timeline account).all fun x => x.id < s.id then
      some { w with inst := { w.inst with
        timeline := fun a => if a = account then s :: w.inst.timeline a else w.inst.timeline a } }
    else none
  | .register m =>
    if w.inst.members.all fun x => x.id ≠ m.id && x.created ≤ m.created then
      some { w with inst := { w.inst with members := m :: w.inst.members } }
    else none
  | .approve id => some { w with inst := w.inst.changeMember id fun m => { m with active := true } }
  | .activity id lastLoginAt statusesCount =>
    some { w with inst := w.inst.changeMember id fun m =>
      { m with lastLoginAt := lastLoginAt, statusesCount := statusesCount } }
  | .addWatch account acct expiresAt =>
    if account ∈ w.db.watches.map Watch.account then none
    else some (w.update (addWatch w.inst account acct expiresAt w.db))
  | .removeWatch id => some (w.update (w.db.removeWatch id))
  | .acknowledge which time => some (w.update (acknowledge which time w.db))
  | .configure settings => some { w with settings := settings }
  | .prune now => some (w.update (prune now w.settings w.db))
  | .check id now clock t => (w.db.watches.find? fun x => x.id = id).map fun watch =>
    let client := w.inst.client t
    let reply := client.accountStatuses watch.account watch.request.1 watch.request.2
    let w' := w.update (checkWatch now clock reply t.interrupt watch w.db).1
    if t.completes then w'.look id (w.inst.timeline watch.account) else w'
  | .newAccounts now clock t bot =>
    let client := w.inst.client t
    let w' := w.update (newAccountsStep now clock client bot w.settings w.db).1
    let completed := t.error.isNone && !(discoverNewAccounts now clock client w.settings w.db).aborted
    some (if completed then w'.discover (w.inst.listed.map AdminAccount.id) else w')
  | .scan now clock t => some (w.update (scanSilentLogins now clock (w.inst.client t) w.settings w.db))

/-- Everything starts with empty tables and an empty instance; both fill up as the run goes on. -/
def system : System World Event where
  init w := w.db = {} ∧ w.inst.members = [] ∧ (∀ a, w.inst.timeline a = []) ∧ w.discovered = none
  step := step

end ProxmoxTool.Moderation
