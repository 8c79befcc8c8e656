import Mathlib.Data.List.Sort
import ProxmoxTool.Updates.Outcome

/-!
# Scanning a guest

The model of `_scan_guest_locked` in `core/scanner.py` and of `chronically_behind` in `core/update_trends.py`, which ranks the
guests by the age of their pending rows.  A scan that fails writes a result and the status of the guest; one that succeeds
replaces the pending rows of the guest (`pending_scanGuest`) and touches no row of another guest.
-/

namespace ProxmoxTool.Scans

open Updates (Upgradable parseUpgradable Severity PackageStatus GuestStatus)

/-- A row of `UpdatePackage`.  Times are microseconds. -/
structure Package where
  guest : Nat
  packageName : Text
  currentVersion : Text
  availableVersion : Text
  severity : Severity
  discoveredAt : Option Int
  status : PackageStatus

inductive ScanStatus
  | success | error
  deriving DecidableEq

structure ScanResult where
  guest : Nat
  scannedAt : Int
  totalUpdates : Nat
  securityUpdates : Nat
  status : ScanStatus
  errorMessage : Option Text

structure Guest where
  id : Nat
  name : Text
  guestType : Text
  tags : List Nat
  status : GuestStatus
  lastScan : Option Int

/-- The tables; of an `UpdateHistory` row the guest and `applied_at`. -/
structure Database where
  guests : List Guest := []
  packages : List Package := []
  results : List ScanResult := []
  history : List (Nat × Int) := []

/-- What `_execute_on_guest` returns. -/
structure Output where
  upgradable : Option Text
  security : Option Text
  error : Option Text

/-- `if error`. -/
def Output.failed (out : Output) : Bool := out.error.any (· ≠ [])

def determineSeverity (packageName : Text) (securityOutput : Option Text) : Severity :=
  let listed := (splitLines (securityOutput.getD [])).any fun line =>
    match words line with
    | first :: second :: _ => (first = "Inst".toList || first = "Conf".toList) && second = packageName
    | _ => false
  if listed then .critical else .normal

/-- The row a scan adds for a package. -/
def foundRow (guest : Nat) (now : Int) (securityOutput : Option Text) (pkg : Upgradable) : Package where
  guest := guest
  packageName := pkg.name
  currentVersion := pkg.currentVersion
  availableVersion := pkg.availableVersion
  severity := determineSeverity pkg.name securityOutput
  discoveredAt := some now
  status := .pending

/-- The rows a successful scan adds. -/
def found (guest : Nat) (now : Int) (out : Output) : List Package :=
  (parseUpgradable (out.upgradable.getD [])).map (foundRow guest now out.security)

/-- `guest.status = status; guest.last_scan = now`. -/
def Database.setStatus (db : Database) (guest : Nat) (status : GuestStatus) (now : Int) : List Guest :=
  db.guests.map fun g => if g.id = guest then { g with status := status, lastScan := some now } else g

def Package.isPendingOf (guest : Nat) (row : Package) : Bool := row.guest = guest ∧ row.status = .pending

def Database.pending (db : Database) (guest : Nat) : List Package := db.packages.filter (Package.isPendingOf guest)

/-- The result row of a scan. -/
def scanResult (guest : Nat) (now : Int) (out : Output) : ScanResult :=
  if out.failed then
    { guest := guest, scannedAt := now, totalUpdates := 0, securityUpdates := 0, status := .error, errorMessage := out.error }
  else
    { guest := guest, scannedAt := now, totalUpdates := (found guest now out).length
      securityUpdates := (found guest now out).countP fun row => row.severity = .critical
      status := .success, errorMessage := none }

/-- What `_scan_guest_locked` leaves in the tables. -/
def scanGuest (guest : Nat) (now : Int) (out : Output) (db : Database) : Database :=
  if out.failed then { db with
    guests := db.setStatus guest .error now
    results := db.results ++ [scanResult guest now out] }
  else { db with
    guests := db.setStatus guest (if found guest now out = [] then .upToDate else .updatesAvailable) now
    packages := (db.packages.filter fun row => !row.isPendingOf guest) ++ found guest now out
    results := db.results ++ [scanResult guest now out] }

/-! ### The ranking -/

/-- `max(0, (now - then).days)`. -/
def daysSince (now time : Int) : Nat := ((now - time) / 86400000000).toNat

/-- The age in days of the oldest of some pending rows; 0 if none has a date. -/
def oldestPendingDays (now : Int) (rows : List Package) : Nat :=
  match (rows.filterMap Package.discoveredAt).min? with
  | some oldest => daysSince now oldest
  | none => 0

structure Behind where
  guest : Nat
  pendingCount : Nat
  pendingSecurityCount : Nat
  oldestPendingDays : Nat
  daysSinceLastUpdate : Option Nat

/-- The entry of a guest with the pending rows `rows`. -/
def behind (db : Database) (now : Int) (guest : Nat) (rows : List Package) : Behind where
  guest := guest
  pendingCount := rows.length
  pendingSecurityCount := rows.countP fun row => row.severity = .critical
  oldestPendingDays := oldestPendingDays now rows
  daysSinceLastUpdate :=
    (((db.history.filter fun entry => decide (entry.1 = guest)).map Prod.snd).max?).map (daysSince now)

/-- `chronically_behind`; the rows are grouped in the order in which the guests first occur. -/
def chronicallyBehind (db : Database) (guests : List Nat) (now : Int) : List Behind :=
  let rows := db.packages.filter fun row => decide (row.guest ∈ guests) && decide (row.status = .pending)
  let ids := (rows.map Package.guest).eraseDups
  (ids.map fun guest => behind db now guest (rows.filter fun row => decide (row.guest = guest))).insertionSort
    fun a b => b.oldestPendingDays ≤ a.oldestPendingDays

/-! ### The rows after a scan -/

theorem isPendingOf_foundRow (guest g : Nat) (now : Int) (security : Option Text) (pkg : Upgradable) :
    (foundRow guest now security pkg).isPendingOf g = decide (guest = g) := by
  simp [Package.isPendingOf, foundRow]

theorem filter_found (guest g : Nat) (now : Int) (out : Output) :
    (found guest now out).filter (Package.isPendingOf g) = if guest = g then found guest now out else [] := by
  split
  · rename_i h
    refine List.filter_eq_self.2 fun row hrow => ?_
    obtain ⟨pkg, -, rfl⟩ := List.mem_map.1 hrow
    rw [isPendingOf_foundRow, decide_eq_true h]
  · rename_i h
    refine List.filter_eq_nil_iff.2 fun row hrow => ?_
    obtain ⟨pkg, -, rfl⟩ := List.mem_map.1 hrow
    rw [isPendingOf_foundRow]
    simpa using h

/-- A failed scan leaves all pending rows, a successful one replaces those of its guest. -/
theorem pending_scanGuest (guest g : Nat) (now : Int) (out : Output) (db : Database) :
    (scanGuest guest now out db).pending g =
      if out.failed = false ∧ guest = g then found guest now out else db.pending g := by
  unfold scanGuest
  cases out.failed with
  | true => rfl
  | false =>
    unfold Database.pending
    simp only [Bool.false_eq_true, if_false, true_and, List.filter_append, List.filter_filter, filter_found]
    split
    · rename_i h
      subst h
      simp
    · rename_i h
      rw [List.append_nil]
      refine List.filter_congr fun row _ => ?_
      simp only [Package.isPendingOf]
      by_cases hg : row.guest = g
      · have : row.guest ≠ guest := fun heq => h (heq.symm.trans hg)
        simp [hg, Ne.symm h]
      · simp [hg]

/-- Every guest with a pending row among those asked for is ranked by its pending rows. -/
theorem mem_chronicallyBehind {db : Database} {guests : List Nat} {now : Int} {guest : Nat} (hg : guest ∈ guests)
    (hrows : db.pending guest ≠ []) : behind db now guest (db.pending guest) ∈ chronicallyBehind db guests now := by
  unfold chronicallyBehind
  rw [List.mem_insertionSort]
  obtain ⟨row, hrow⟩ := List.exists_mem_of_ne_nil _ hrows
  have hpend := List.mem_filter.1 hrow
  simp only [Package.isPendingOf, decide_eq_true_eq] at hpend
  refine List.mem_map.2 ⟨guest, ?_, ?_⟩
  · rw [List.mem_eraseDups]
    refine List.mem_map.2 ⟨row, List.mem_filter.2 ⟨hpend.1, ?_⟩, hpend.2.1⟩
    simp [hpend.2, hg]
  · refine congrArg (behind db now guest) ?_
    rw [List.filter_filter]
    refine List.filter_congr fun row _ => ?_
    by_cases heq : row.guest = guest
    · simp [Package.isPendingOf, heq, hg]
    · simp [Package.isPendingOf, heq]

end ProxmoxTool.Scans
