import Mathlib.Tactic.Common
import ProxmoxTool.Lib.Text

/-!
# What an apply records

Two implementations decide what a finished apt upgrade means for the database: the worker `_run_update_background` (single
and bulk apply) and the scheduler's `_run_auto_updates`, which goes through `apply_updates` and
`_reconcile_applied_updates`.  Both are modelled from the point where apt has exited with code 0; the second one re-lists
the upgradable packages and is given the output, or `none` when the re-listing failed.

`SameOutcome` compares both with the packages that apt really kept back.  The worker retires every pending row, so
it is right only when nothing was kept back (`sameOutcome_iff`).
-/

namespace ProxmoxTool.Updates

/-! ### `apt list --upgradable` -/

structure Upgradable where
  name : Text
  currentVersion : Text
  availableVersion : Text

/-- One line `package/source version arch [upgradable from: old_version]`. -/
def parseUpgradableLine (line : Text) : Option Upgradable :=
  if !line.contains '/' || hasSub "Listing...".toList line then none
  else
    let name := (partition '/' line).1
    let parts := words (partition '/' line).2.2
    let current := if hasSub "upgradable from:".toList line then
        strip (rstripChar ']' (afterLast "upgradable from: ".toList 0 line line))
      else "unknown".toList
    some { name := strip name, currentVersion := current, availableVersion := parts.getD 1 "unknown".toList }

def parseUpgradable (output : Text) : List Upgradable := ((strip output).splitOn '\n').filterMap parseUpgradableLine

/-! ### The rows -/

inductive Severity
  | critical | important | normal
deriving DecidableEq

inductive PackageStatus
  | pending | applied | skipped
deriving DecidableEq

structure UpdatePackage where
  name : Text
  severity : Severity
  status : PackageStatus
  appliedAt : Option Nat

inductive GuestStatus
  | unknown | upToDate | updatesAvailable | error
deriving DecidableEq

structure Guest where
  updates : List UpdatePackage
  status : GuestStatus

def UpdatePackage.isPending (pkg : UpdatePackage) : Bool := pkg.status = .pending

def Guest.pendingUpdates (guest : Guest) : List UpdatePackage := guest.updates.filter UpdatePackage.isPending

structure UpdateHistory where
  appliedAt : Nat
  packageCount : Nat
  securityCount : Nat
  packagesSummary : Option Text
  initiatedBy : Option Text

def summaryMaxPackages : Nat := 25

def recordUpdateHistory (appliedPkgs : List UpdatePackage) (initiatedBy : Option Text) (now : Nat) : UpdateHistory :=
  let names := (appliedPkgs.take summaryMaxPackages).map fun pkg => pkg.name
  let summary := joinText ", ".toList names ++
    (if appliedPkgs.length > summaryMaxPackages then
      ", and ".toList ++ natText (appliedPkgs.length - summaryMaxPackages) ++ " more".toList else [])
  { appliedAt := now, packageCount := appliedPkgs.length
    securityCount := appliedPkgs.countP fun pkg => pkg.severity = .critical
    packagesSummary := if summary = [] then none else some summary, initiatedBy := initiatedBy }

/-- `pkg.status = "applied"; pkg.applied_at = now`. -/
def UpdatePackage.apply (now : Nat) (pkg : UpdatePackage) : UpdatePackage :=
  { pkg with status := .applied, appliedAt := some now }

/-- Change the pending rows that meet `p`, in place. -/
def Guest.applyWhere (guest : Guest) (now : Nat) (p : UpdatePackage → Bool) : List UpdatePackage :=
  guest.updates.map fun pkg => if pkg.isPending && p pkg then pkg.apply now else pkg

/-- What an apply leaves behind: the guest's rows and status, and the history row if one is written. -/
structure Recorded where
  guest : Guest
  history : Option UpdateHistory

/-! ### The two paths after a zero exit -/

/-- The success path of `_run_update_background`, over SSH and over the guest agent alike. -/
def runUpdateBackground (guest : Guest) (initiatedBy : Option Text) (now : Nat) : Recorded :=
  { guest := { updates := guest.applyWhere now fun _ => true, status := .upToDate }
    history := some (recordUpdateHistory guest.pendingUpdates initiatedBy now) }

def reconcileAppliedUpdates (guest : Guest) (upgradableOutput : Option Text) (now : Nat) : Guest :=
  match upgradableOutput with
  -- a failed re-listing is no evidence: everything stays pending
  | none => guest
  | some output =>
    let stillUpgradable := (parseUpgradable output).map fun p => p.name
    let keptBack := guest.pendingUpdates.filter fun pkg => pkg.name ∈ stillUpgradable
    { updates := guest.applyWhere now fun pkg => pkg.name ∉ stillUpgradable
      status := if keptBack = [] then .upToDate else .updatesAvailable }

/-- The body of `_run_auto_updates` for a guest inside its window: a guest without pending rows is passed over, and the
history row is written from the rows that were pending before. -/
def runAutoUpdates (guest : Guest) (upgradableOutput : Option Text) (now : Nat) : Recorded :=
  if guest.pendingUpdates = [] then { guest := guest, history := none }
  else
    { guest := reconcileAppliedUpdates guest upgradableOutput now
      history := some (recordUpdateHistory guest.pendingUpdates (some "scheduler".toList) now) }

/-! ### Agreement -/

/-- The status a row should have after apt kept back the packages `kept`. -/
def settled (kept : List Text) (pkg : UpdatePackage) : PackageStatus :=
  if pkg.isPending && pkg.name ∉ kept then .applied else pkg.status

/-- How many rows went from pending to applied. -/
def movedCount (before after : List UpdatePackage) : Nat :=
  (before.zip after).countP fun x => x.1.isPending && x.2.status = .applied

/-- A path records what apt did: the packages no longer upgradable are applied, no others, and the history row
counts the rows that moved. -/
structure Faithful (guest : Guest) (kept : List Text) (r : Recorded) : Prop where
  rows : r.guest.updates.map (fun pkg => pkg.status) = guest.updates.map (settled kept)
  history : ∃ entry, r.history = some entry ∧ entry.packageCount = movedCount guest.updates r.guest.updates

/-- Both paths record what apt did, and the same status of the guest. -/
structure SameOutcome (guest : Guest) (kept : List Text) (relist : Option Text) (user : Option Text)
    (now now' : Nat) : Prop where
  worker : Faithful guest kept (runUpdateBackground guest user now)
  scheduler : Faithful guest kept (runAutoUpdates guest relist now')
  status : (runUpdateBackground guest user now).guest.status = (runAutoUpdates guest relist now').guest.status

/-- The rows that `applyWhere` moves are the pending rows that meet the condition. -/
private theorem movedCount_applyWhere (guest : Guest) (now : Nat) (p : UpdatePackage → Bool) :
    movedCount guest.updates (guest.applyWhere now p) = guest.pendingUpdates.countP p := by
  simp only [movedCount, Guest.applyWhere, Guest.pendingUpdates, List.countP_filter]
  induction guest.updates with
  | nil => rfl
  | cons pkg rest ih =>
    simp only [List.map_cons, List.zip_cons_cons, List.countP_cons, ih]
    cases hpend : pkg.isPending <;> cases hp : p pkg <;> simp_all [UpdatePackage.apply, UpdatePackage.isPending]

/-- `applyWhere` gives the rows the status they should have exactly when it spares the pending rows that were kept
back, and no other. -/
private theorem applyWhere_settled_iff (guest : Guest) (kept : List Text) (now : Nat) (p : UpdatePackage → Bool) :
    (guest.applyWhere now p).map (fun pkg => pkg.status) = guest.updates.map (settled kept) ↔
      ∀ pkg ∈ guest.pendingUpdates, p pkg = true ↔ pkg.name ∉ kept := by
  rw [Guest.applyWhere, List.map_map, List.map_inj_left]
  simp only [Guest.pendingUpdates, List.mem_filter, and_imp]
  refine forall₂_congr fun pkg _ => ?_
  cases hpend : pkg.isPending with
  | false => simp [settled, hpend]
  | true =>
    have hst : pkg.status = .pending := by simpa [UpdatePackage.isPending] using hpend
    cases hp : p pkg <;> by_cases hk : pkg.name ∈ kept <;> simp [settled, hpend, hp, hk, hst, UpdatePackage.apply]

private theorem worker_faithful_iff (guest : Guest) (kept : List Text) (user : Option Text) (now : Nat) :
    Faithful guest kept (runUpdateBackground guest user now) ↔ ∀ pkg ∈ guest.pendingUpdates, pkg.name ∉ kept := by
  constructor
  · intro h
    simpa using (applyWhere_settled_iff guest kept now _).mp h.rows
  · intro h
    refine ⟨(applyWhere_settled_iff guest kept now _).mpr (by simpa using h), _, rfl, ?_⟩
    rw [show (runUpdateBackground guest user now).guest.updates = guest.applyWhere now fun _ => true from rfl,
      movedCount_applyWhere, List.countP_true]
    rfl

/-- A failed re-listing leaves every row as it is. -/
private theorem rows_of_no_relist {guest : Guest} {kept : List Text}
    (h : guest.updates.map (fun pkg => pkg.status) = guest.updates.map (settled kept)) :
    ∀ pkg ∈ guest.pendingUpdates, pkg.name ∈ kept := by
  rw [List.map_inj_left] at h
  intro pkg hp
  obtain ⟨hmem, hpend⟩ := List.mem_filter.mp hp
  have := h pkg hmem
  by_contra hk
  have hst : pkg.status = .pending := by simpa [UpdatePackage.isPending] using hpend
  simp [settled, hpend, hk, hst] at this

/-- The worker and the scheduler record the same, right outcome exactly when some package was pending, apt kept none of
them back, and the re-listing could be read and shows none of them. -/
theorem sameOutcome_iff (guest : Guest) (kept : List Text) (relist user : Option Text) (now now' : Nat) :
    SameOutcome guest kept relist user now now' ↔
      guest.pendingUpdates ≠ [] ∧ (∀ pkg ∈ guest.pendingUpdates, pkg.name ∉ kept) ∧
        ∃ output, relist = some output ∧
          ∀ pkg ∈ guest.pendingUpdates, pkg.name ∉ (parseUpgradable output).map fun p => p.name := by
  constructor
  · rintro ⟨hw, hs, -⟩
    have hkept := (worker_faithful_iff guest kept user now).mp hw
    have hne : guest.pendingUpdates ≠ [] := by
      intro hnil
      obtain ⟨entry, hentry, -⟩ := hs.history
      simp [runAutoUpdates, hnil] at hentry
    refine ⟨hne, hkept, ?_⟩
    have hrows := hs.rows
    rw [runAutoUpdates, if_neg hne] at hrows
    cases relist with
    | none =>
      -- a pending row that stays pending must have been kept back, and none was
      obtain ⟨pkg, hpkg⟩ := List.exists_mem_of_ne_nil _ hne
      exact absurd (rows_of_no_relist hrows pkg hpkg) (hkept pkg hpkg)
    | some output =>
      refine ⟨output, rfl, fun pkg hpkg => ?_⟩
      simpa using ((applyWhere_settled_iff guest kept now' _).mp hrows pkg hpkg).mpr (hkept pkg hpkg)
  · rintro ⟨hne, hkept, output, rfl, hlist⟩
    have hback : guest.pendingUpdates.filter
        (fun pkg => pkg.name ∈ (parseUpgradable output).map fun p => p.name) = [] := by
      rw [List.filter_eq_nil_iff]
      intro pkg hpkg
      simpa using hlist pkg hpkg
    refine ⟨(worker_faithful_iff guest kept user now).mpr hkept, ⟨?_, ?_⟩, ?_⟩
    · rw [runAutoUpdates, if_neg hne]
      refine (applyWhere_settled_iff guest kept now' _).mpr fun pkg hpkg => ?_
      simp only [decide_eq_true_eq]
      exact iff_of_true (hlist pkg hpkg) (hkept pkg hpkg)
    · rw [runAutoUpdates, if_neg hne]
      refine ⟨_, rfl, ?_⟩
      simp only [reconcileAppliedUpdates, movedCount_applyWhere, recordUpdateHistory]
      refine (List.countP_eq_length.mpr fun pkg hpkg => ?_).symm
      simpa using hlist pkg hpkg
    · rw [runAutoUpdates, if_neg hne]
      simp only [reconcileAppliedUpdates, hback]
      rfl

/-- A guest with one pending package, which apt kept back. -/
def heldGuest : Guest :=
  { updates := [{ name := "curl".toList, severity := .normal, status := .pending, appliedAt := none }]
    status := .updatesAvailable }

/-- The worker retires a package that apt kept back, and the scheduler, which re-lists, does not. -/
theorem kept_back_recorded_applied : ¬ ∀ (guest : Guest) (kept : List Text) (relist user : Option Text) (now now' : Nat),
    SameOutcome guest kept relist user now now' := by
  intro h
  have hs := h heldGuest ["curl".toList] (some "curl/stable 8.5-1 amd64 [upgradable from: 8.4-1]".toList) none 0 0
  exact absurd hs.status (by decide)

end ProxmoxTool.Updates
