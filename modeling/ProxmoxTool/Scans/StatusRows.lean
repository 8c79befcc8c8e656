import ProxmoxTool.Scans.Scan

/-!
# The status of a guest and its pending rows

A scan replaces the pending rows of a guest by what apt lists, and a reconcile after an apply only takes rows away.  After the scan the
status and the rows agree with the list; after a reconcile they do exactly if every package listed had a row before (`status_rows_iff`), for
a package that is listed without a row is neither added nor counted as kept back.
-/

namespace ProxmoxTool.Scans

open Updates (parseUpgradable GuestStatus reconcileAppliedUpdates)

/-- The packages in an output of `apt list --upgradable`. -/
def listed (output : Text) : List Text := (parseUpgradable output).map fun pkg => pkg.name

/-- The packages with a pending row, of a guest with its rows. -/
def pendingNames (guest : Updates.Guest) : List Text := guest.pendingUpdates.map fun pkg => pkg.name

/-- The packages whose rows went from pending to applied. -/
def appliedBy (before after : Updates.Guest) : List Text :=
  ((before.updates.zip after.updates).filter fun rows => rows.1.isPending && rows.2.status = .applied).map fun rows => rows.1.name

/-- A status and the packages with a pending row, as a list says. -/
structure Agrees (status : GuestStatus) (pending listed : List Text) : Prop where
  status : status = .upToDate ↔ listed = []
  rows : ∀ name, name ∈ pending ↔ name ∈ listed

/-! ### A scan -/

theorem packageName_found (guest : Nat) (now : Int) (out : Output) :
    (found guest now out).map Package.packageName = listed (out.upgradable.getD []) := by
  rw [found, List.map_map]
  rfl

theorem agrees_scanGuest {guest : Nat} {now : Int} {out : Output} {db : Database} (hout : out.failed = false) {g : Guest}
    (hg : g ∈ (scanGuest guest now out db).guests) (hid : g.id = guest) :
    Agrees g.status (((scanGuest guest now out db).pending guest).map Package.packageName) (listed (out.upgradable.getD [])) := by
  have hpending : (scanGuest guest now out db).pending guest = found guest now out := by
    rw [pending_scanGuest, if_pos ⟨hout, rfl⟩]
  refine ⟨?_, fun name => by rw [hpending, packageName_found]⟩
  have hstatus : g.status = if found guest now out = [] then .upToDate else .updatesAvailable := by
    simp only [scanGuest, hout, Bool.false_eq_true, if_false, Database.setStatus, List.mem_map] at hg
    obtain ⟨g0, -, rfl⟩ := hg
    split_ifs at hid ⊢ with h0 <;> first | rfl | exact absurd hid h0
  rw [hstatus, ← packageName_found guest now, List.map_eq_nil_iff]
  split_ifs with h <;> simp [h]

/-! ### A reconcile -/

theorem pendingNames_reconcile (guest : Updates.Guest) (output : Text) (now : Nat) :
    pendingNames (reconcileAppliedUpdates guest (some output) now) = (pendingNames guest).filter fun name => name ∈ listed output := by
  change ((guest.applyWhere now fun pkg => pkg.name ∉ listed output).filter Updates.UpdatePackage.isPending).map _ =
    ((guest.updates.filter Updates.UpdatePackage.isPending).map _).filter _
  unfold Updates.Guest.applyWhere
  generalize listed output = names
  induction guest.updates with
  | nil => rfl
  | cons pkg rest ih =>
    rw [List.map_cons, List.filter_cons, List.filter_cons]
    cases hpend : pkg.isPending with
    | false => simpa [hpend] using ih
    | true =>
      by_cases hname : pkg.name ∈ names
      · simpa [hpend, hname] using ih
      · have happlied : (pkg.apply now).isPending = false := rfl
        simpa [hname, happlied] using ih

theorem status_reconcile_iff (guest : Updates.Guest) (output : Text) (now : Nat) :
    (reconcileAppliedUpdates guest (some output) now).status = .upToDate ↔ ∀ name ∈ pendingNames guest, name ∉ listed output := by
  simp only [reconcileAppliedUpdates, pendingNames, listed]
  split_ifs with h
  · rw [List.filter_eq_nil_iff] at h
    simpa using h
  · rw [List.filter_eq_nil_iff] at h
    simpa using h

/-- What a reconcile reports as applied is not listed, so it has no pending row left. -/
theorem not_mem_listed_of_appliedBy {guest : Updates.Guest} {output : Text} {now : Nat} {name : Text}
    (h : name ∈ appliedBy guest (reconcileAppliedUpdates guest (some output) now)) : name ∉ listed output := by
  obtain ⟨⟨before, after⟩, hmem, rfl⟩ := List.mem_map.1 h
  obtain ⟨hzip, hmoved⟩ := List.mem_filter.1 hmem
  have hpairs (f : Updates.UpdatePackage → Updates.UpdatePackage) :
      guest.updates.zip (guest.updates.map f) = guest.updates.map fun pkg => (pkg, f pkg) := by
    have h := List.zip_map' (f := id) (g := f) (l := guest.updates)
    rwa [List.map_id] at h
  change (before, after) ∈ guest.updates.zip (guest.applyWhere now fun pkg => pkg.name ∉ listed output) at hzip
  rw [Updates.Guest.applyWhere, hpairs] at hzip
  obtain ⟨pkg, -, hpkg⟩ := List.mem_map.1 hzip
  cases hpkg
  split_ifs at hmoved with hcond
  · simpa using (Bool.and_eq_true_iff.1 hcond).2
  · -- a row that is left as it is does not move from pending to applied
    simp only [Updates.UpdatePackage.isPending, Bool.and_eq_true, decide_eq_true_eq] at hmoved
    rw [hmoved.1] at hmoved
    cases hmoved.2

/-- After a reconcile the status and the rows are as the list says exactly if every package listed had a pending row. -/
theorem agrees_reconcile_iff (guest : Updates.Guest) (output : Text) (now : Nat) :
    Agrees (reconcileAppliedUpdates guest (some output) now).status (pendingNames (reconcileAppliedUpdates guest (some output) now))
      (listed output) ↔ ∀ name ∈ listed output, name ∈ pendingNames guest := by
  constructor
  · intro h name hname
    have hrow := (h.rows name).2 hname
    rw [pendingNames_reconcile] at hrow
    exact (List.mem_filter.1 hrow).1
  · intro h
    refine ⟨?_, fun name => ?_⟩
    · rw [status_reconcile_iff, List.eq_nil_iff_forall_not_mem]
      exact ⟨fun hnone name hname => hnone name (h name hname) hname, fun hnil name _ => hnil name⟩
    · rw [pendingNames_reconcile, List.mem_filter, decide_eq_true_eq]
      exact ⟨And.right, fun hname => ⟨h name hname, hname⟩⟩

/-- A scan leaves status and rows as the list says; a reconcile does, and has no package both applied and pending, exactly if every package
listed had a pending row. -/
theorem status_rows_iff (id : Nat) (time : Int) (out : Output) (db : Database) (guest : Updates.Guest) (output : Text) (now : Nat) :
    (out.failed = false → ∀ g ∈ (scanGuest id time out db).guests, g.id = id →
      Agrees g.status (((scanGuest id time out db).pending id).map Package.packageName) (listed (out.upgradable.getD []))) ∧
    (Agrees (reconcileAppliedUpdates guest (some output) now).status (pendingNames (reconcileAppliedUpdates guest (some output) now))
          (listed output) ∧
        (∀ name ∈ appliedBy guest (reconcileAppliedUpdates guest (some output) now),
          name ∉ pendingNames (reconcileAppliedUpdates guest (some output) now)) ↔
      ∀ name ∈ listed output, name ∈ pendingNames guest) := by
  refine ⟨fun hout g hg hid => agrees_scanGuest hout hg hid, ?_⟩
  rw [agrees_reconcile_iff]
  refine and_iff_left fun name happlied hpending => ?_
  rw [pendingNames_reconcile, List.mem_filter, decide_eq_true_eq] at hpending
  exact not_mem_listed_of_appliedBy happlied hpending.2

/-- A guest with one pending package. -/
def opensslGuest : Updates.Guest where
  updates := [{ name := "openssl".toList, severity := .critical, status := .pending, appliedAt := none }]
  status := .updatesAvailable

/-- What apt lists when `openssl` has been upgraded and `curl` has become upgradable since the scan. -/
def curlOnly : Text := "Listing...\ncurl/stable 8.5-1 amd64 [upgradable from: 8.4-1]\n".toList

theorem agrees_after_scan :
    Agrees .updatesAvailable
      (((scanGuest 7 0 ⟨some curlOnly, none, none⟩ { guests := [⟨7, [], [], [], .unknown, none⟩] }).pending 7).map Package.packageName)
      (listed curlOnly) :=
  (status_rows_iff 7 0 ⟨some curlOnly, none, none⟩ { guests := [⟨7, [], [], [], .unknown, none⟩] } opensslGuest curlOnly 0).1 rfl
    ⟨7, [], [], [], .updatesAvailable, some 0⟩ (List.Mem.head _) rfl

/-- A package that became upgradable between the scan and the apply leaves the guest up to date with an update waiting. -/
theorem upToDate_with_update_waiting :
    (reconcileAppliedUpdates opensslGuest (some curlOnly) 0).status = .upToDate ∧ listed curlOnly = ["curl".toList] ∧
      ¬ ∀ (guest : Updates.Guest) (output : Text) (now : Nat),
        Agrees (reconcileAppliedUpdates guest (some output) now).status (pendingNames (reconcileAppliedUpdates guest (some output) now))
            (listed output) := by
  have hstatus : (reconcileAppliedUpdates opensslGuest (some curlOnly) 0).status = .upToDate := by decide
  have hlisted : listed curlOnly = ["curl".toList] := by decide
  refine ⟨hstatus, hlisted, fun h => ?_⟩
  have hnil := (h opensslGuest curlOnly 0).status.1 hstatus
  rw [hlisted] at hnil
  cases hnil

end ProxmoxTool.Scans
