import ProxmoxTool.Lib.System
import ProxmoxTool.Scans.Scan

/-!
# First sightings

Runs of scans, with the successful scans of each guest kept next to the tables.  `firstSighting` is the time a package has
been listed since without a break; the claim of `discovered_at` is that the pending row of the package knows it
(`FirstSeen`).  What the row knows is the time of the last successful scan (`pending_eq`), so it knows the first sighting exactly
when that scan was as early (`firstSeen_iff`), and an age is kept over a run only while no package is listed twice.
-/

namespace ProxmoxTool.Scans

/-- A successful scan of a guest: its time and what was listed. -/
structure Sighting where
  guest : Nat
  time : Int
  out : Output

def Sighting.rows (scan : Sighting) : List Package := found scan.guest scan.time scan.out

def Sighting.lists (name : Text) (scan : Sighting) : Bool := scan.rows.any fun row => decide (row.packageName = name)

/-- The tables, and the successful scans, newest first. -/
structure State where
  db : Database := {}
  scans : List Sighting := []

/-- A scan of a guest; without an output it raises and is rolled back. -/
inductive Event
  | scan (guest : Nat) (now : Int) (out : Option Output)

def step (s : State) : Event → Option State
  | .scan _ _ none => some s
  | .scan guest now (some out) => some
    { db := scanGuest guest now out s.db
      scans := if out.failed then s.scans else ⟨guest, now, out⟩ :: s.scans }

/-- At the start nothing is pending and nothing has been scanned. -/
def system : System State Event where
  init s := (∀ guest, s.db.pending guest = []) ∧ s.scans = []
  step := step

/-- The successful scans of a guest, newest first. -/
def State.scansOf (s : State) (guest : Nat) : List Sighting := s.scans.filter fun scan => decide (scan.guest = guest)

/-- The time of the first of the latest scans in a row that list a package; `none` if the last one does not. -/
def firstSighting (name : Text) : List Sighting → Option Int
  | [] => none
  | scan :: older => if scan.lists name then some ((firstSighting name older).getD scan.time) else none

/-- The pending rows of a package. -/
def State.rowsOf (s : State) (guest : Nat) (name : Text) : List Package :=
  (s.db.pending guest).filter fun row => decide (row.packageName = name)

/-- The package has a pending row, and its pending rows were discovered at its first sighting. -/
def FirstSeen (s : State) (guest : Nat) (name : Text) : Prop :=
  s.rowsOf guest name ≠ [] ∧ ∀ row ∈ s.rowsOf guest name, row.discoveredAt = firstSighting name (s.scansOf guest)

/-- A successful scan lists a package that the one before it has listed only at the same time. -/
def Event.fresh (s : State) : Event → Prop
  | .scan _ _ none => True
  | .scan guest now (some out) => out.failed = false → ∀ last ∈ (s.scansOf guest).head?, ∀ name,
      last.lists name = true → Sighting.lists name ⟨guest, now, out⟩ = true → now = last.time

/-! ### Sightings -/

theorem firstSighting_append {name : Text} {newer older : List Sighting} {t : Int}
    (hnewer : ∀ scan ∈ newer, scan.lists name = true) (ht : firstSighting name older = some t) :
    firstSighting name (newer ++ older) = some t := by
  induction newer with
  | nil => exact ht
  | cons scan newer ih =>
    have hrest := ih fun scan' h => hnewer scan' (List.mem_cons_of_mem _ h)
    rw [List.cons_append, firstSighting, if_pos (hnewer scan List.mem_cons_self), hrest]
    rfl

theorem firstSighting_isSome {name : Text} {scans : List Sighting} :
    (firstSighting name scans).isSome = scans.head?.any (Sighting.lists name) := by
  cases scans with
  | nil => rfl
  | cons scan older =>
    rw [firstSighting, List.head?_cons, Option.any_some]
    cases scan.lists name with
    | true => rfl
    | false => rfl

/-! ### What the rows know -/

theorem scansOf_step {s s' : State} {guest g : Nat} {now : Int} {out : Output}
    (hs : step s (.scan guest now (some out)) = some s') :
    s'.scansOf g = if out.failed = false ∧ guest = g then ⟨guest, now, out⟩ :: s.scansOf g else s.scansOf g := by
  obtain rfl := Option.some.inj hs
  unfold State.scansOf
  cases out.failed with
  | true => simp
  | false =>
    by_cases hg : guest = g
    · simp [hg]
    · simp [hg]

/-- In every run the pending rows of a guest are those of its last successful scan. -/
theorem pending_eq {ok : State → Event → Prop} {s : State} (h : system.Reach ok s) (guest : Nat) :
    s.db.pending guest = (s.scansOf guest).head?.elim [] Sighting.rows := by
  have hinv : ∀ g, s.db.pending g = (s.scansOf g).head?.elim [] Sighting.rows := by
    refine System.Reach.invariant (I := fun s => ∀ g, s.db.pending g = (s.scansOf g).head?.elim [] Sighting.rows) ?_ ?_ h
    · rintro s ⟨hpending, hscans⟩ g
      rw [hpending g, State.scansOf, hscans]
      rfl
    · rintro s ⟨guest, now, out⟩ s' ih - hs g
      cases out with
      | none =>
        obtain rfl := Option.some.inj hs
        exact ih g
      | some out =>
        have hscans := scansOf_step (g := g) hs
        obtain rfl := Option.some.inj hs
        rw [hscans]
        refine (pending_scanGuest guest g now out s.db).trans ?_
        split
        · rfl
        · exact ih g
  exact hinv guest

theorem mem_rowsOf {ok : State → Event → Prop} {s : State} (h : system.Reach ok s) {guest : Nat} {name : Text}
    {row : Package} : row ∈ s.rowsOf guest name ↔
      ∃ last ∈ (s.scansOf guest).head?, row ∈ last.rows ∧ row.packageName = name := by
  rw [State.rowsOf, List.mem_filter, pending_eq h, decide_eq_true_eq]
  cases (s.scansOf guest).head? with
  | none => simp
  | some last => simp

theorem discoveredAt_of_mem_rows {scan : Sighting} {row : Package} (h : row ∈ scan.rows) :
    row.discoveredAt = some scan.time := by
  obtain ⟨pkg, -, rfl⟩ := List.mem_map.1 h
  rfl

theorem lists_iff {scan : Sighting} {name : Text} :
    scan.lists name = true ↔ ∃ row ∈ scan.rows, row.packageName = name := by
  simp [Sighting.lists]

/-- A pending package has been first seen when its rows say exactly when its first sighting was at the last successful
scan. -/
theorem firstSeen_iff {ok : State → Event → Prop} {s : State} (h : system.Reach ok s) {guest : Nat} {name : Text}
    {last : Sighting} (hlast : (s.scansOf guest).head? = some last) (hlists : last.lists name = true) :
    FirstSeen s guest name ↔ firstSighting name (s.scansOf guest) = some last.time := by
  obtain ⟨row, hrow, hname⟩ := lists_iff.1 hlists
  have hmem : row ∈ s.rowsOf guest name := (mem_rowsOf h).2 ⟨last, hlast, hrow, hname⟩
  constructor
  · rintro ⟨-, hrows⟩
    rw [← hrows row hmem]
    exact discoveredAt_of_mem_rows hrow
  · intro hfirst
    refine ⟨List.ne_nil_of_mem hmem, fun row' hrow' => ?_⟩
    obtain ⟨last', hlast', hrow'', -⟩ := (mem_rowsOf h).1 hrow'
    obtain rfl : last = last' := Option.some.inj (hlast.symm.trans hlast')
    rw [hfirst]
    exact discoveredAt_of_mem_rows hrow''

/-- While no package is listed twice, the first sighting of a pending package is at the last successful scan. -/
theorem firstSighting_of_fresh {s : State} (h : system.Reach (fun s e => e.fresh s) s) {guest : Nat} {name : Text}
    {last : Sighting} (hlast : (s.scansOf guest).head? = some last) (hlists : last.lists name = true) :
    firstSighting name (s.scansOf guest) = some last.time := by
  have hinv : ∀ g, ∀ last ∈ (s.scansOf g).head?, last.lists name = true →
      firstSighting name (s.scansOf g) = some last.time := by
    refine System.Reach.invariant (I := fun s => ∀ g, ∀ last ∈ (s.scansOf g).head?, last.lists name = true →
      firstSighting name (s.scansOf g) = some last.time) ?_ ?_ h
    · rintro s ⟨-, hscans⟩ g last hlast
      rw [State.scansOf, hscans] at hlast
      cases hlast
    · rintro s ⟨guest, now, out⟩ s' ih hfresh hs g last hlast hlists
      cases out with
      | none =>
        obtain rfl := Option.some.inj hs
        exact ih g last hlast hlists
      | some out =>
        rw [scansOf_step hs] at hlast ⊢
        split at hlast
        · rename_i hg
          obtain ⟨hok, rfl⟩ := hg
          obtain rfl := Option.some.inj hlast
          rw [if_pos ⟨hok, rfl⟩, firstSighting, if_pos hlists]
          cases hprev : firstSighting name (s.scansOf guest) with
          | none => rfl
          | some t =>
            -- the scan before has listed it too, and so it was at the same time
            have hsome : (s.scansOf guest).head?.any (Sighting.lists name) = true := by
              rw [← firstSighting_isSome, hprev]
              rfl
            obtain ⟨prev, hhead, hprevlists⟩ := (Option.any_eq_true _ _).1 hsome
            have ht := ih guest prev hhead hprevlists
            rw [hprev, Option.some.injEq] at ht
            have hnow := hfresh hok prev hhead name hprevlists hlists
            exact congrArg some (ht.trans hnow.symm)
        · rename_i hg
          rw [if_neg hg]
          exact ih g last hlast hlists
  exact hinv guest last hlast hlists

/-! ### Ages -/

theorem daysSince_mono {now now' time : Int} (h : now ≤ now') : daysSince now time ≤ daysSince now' time :=
  Int.toNat_le_toNat (Int.ediv_le_ediv (by decide) (Int.sub_le_sub_right h time))

theorem daysSince_anti {now time time' : Int} (h : time ≤ time') : daysSince now time' ≤ daysSince now time :=
  Int.toNat_le_toNat (Int.ediv_le_ediv (by decide) (Int.sub_le_sub_left h now))

/-- The age of rows that were all discovered at one time. -/
theorem oldestPendingDays_of_forall {now t : Int} {rows : List Package} (hne : rows ≠ [])
    (h : ∀ row ∈ rows, row.discoveredAt = some t) : oldestPendingDays now rows = daysSince now t := by
  have hmap : rows.filterMap Package.discoveredAt = List.replicate rows.length t := by
    refine List.eq_replicate_iff.2 ⟨?_, ?_⟩
    · rw [List.length_filterMap_eq_countP]
      refine List.countP_eq_length.2 fun row hrow => ?_
      rw [h row hrow]
      rfl
    · intro time htime
      obtain ⟨row, hrow, hsome⟩ := List.mem_filterMap.1 htime
      rw [h row hrow] at hsome
      exact (Option.some.inj hsome).symm
  have hmin : (List.replicate rows.length t).min? = some t := by
    refine List.min?_eq_some_iff.2 ⟨?_, fun time htime => ?_⟩
    · exact List.mem_replicate.2 ⟨fun h0 => hne (List.length_eq_zero_iff.1 h0), rfl⟩
    · rw [(List.mem_replicate.1 htime).2]
  rw [oldestPendingDays, hmap, hmin]

/-- The guest is at least as old as each of its pending rows. -/
theorem daysSince_le_oldestPendingDays {now t : Int} {rows : List Package} {row : Package} (hrow : row ∈ rows)
    (ht : row.discoveredAt = some t) : daysSince now t ≤ oldestPendingDays now rows := by
  have hmem : t ∈ rows.filterMap Package.discoveredAt := List.mem_filterMap.2 ⟨row, hrow, ht⟩
  unfold oldestPendingDays
  cases hmin : (rows.filterMap Package.discoveredAt).min? with
  | none =>
    rw [List.min?_eq_none_iff.1 hmin] at hmem
    cases hmem
  | some oldest => exact daysSince_anti ((List.min?_eq_some_iff.1 hmin).2 t hmem)

/-- What the claim of `discovered_at` comes to for a package whose first sighting was at `t`: the row knows it, and the ranking
at any time `now` counts at least from it. -/
structure Aged (s : State) (guest : Nat) (name : Text) (t : Int) : Prop where
  seen : FirstSeen s guest name
  age : ∀ now, oldestPendingDays now (s.rowsOf guest name) = daysSince now t
  ranked : ∀ guests now, guest ∈ guests → ∃ entry ∈ chronicallyBehind s.db guests now,
    entry.guest = guest ∧ daysSince now t ≤ entry.oldestPendingDays

theorem aged_of_fresh {s : State} (h : system.Reach (fun s e => e.fresh s) s) {guest : Nat} {name : Text} {t : Int}
    (ht : firstSighting name (s.scansOf guest) = some t) : Aged s guest name t := by
  have hsome : (s.scansOf guest).head?.any (Sighting.lists name) = true := by
    rw [← firstSighting_isSome, ht]
    rfl
  obtain ⟨last, hlast, hlists⟩ := (Option.any_eq_true _ _).1 hsome
  have hseen : FirstSeen s guest name := (firstSeen_iff h hlast hlists).2 (firstSighting_of_fresh h hlast hlists)
  have hrows : ∀ row ∈ s.rowsOf guest name, row.discoveredAt = some t := fun row hrow => (hseen.2 row hrow).trans ht
  refine ⟨hseen, fun now => oldestPendingDays_of_forall hseen.1 hrows, fun guests now hg => ?_⟩
  obtain ⟨row, hrow⟩ := List.exists_mem_of_ne_nil _ hseen.1
  have hpend : row ∈ s.db.pending guest := (List.mem_filter.1 hrow).1
  exact ⟨_, mem_chronicallyBehind hg (List.ne_nil_of_mem hpend), rfl,
    daysSince_le_oldestPendingDays hpend (hrows row hrow)⟩

/-- In every run that lists no package twice, a pending package keeps a row discovered at its first sighting; and if it stays
pending until a later state of a run, then it is still discovered there and its age has not decreased. -/
theorem first_sighting_kept {s s' : State} (h : system.Reach (fun s e => e.fresh s) s)
    (h' : system.Reach (fun s e => e.fresh s) s') {guest : Nat} {name : Text} {t : Int} {newer : List Sighting}
    (ht : firstSighting name (s.scansOf guest) = some t) (hext : s'.scansOf guest = newer ++ s.scansOf guest)
    (hnewer : ∀ scan ∈ newer, scan.lists name = true) :
    Aged s guest name t ∧ Aged s' guest name t ∧ ∀ now now', now ≤ now' →
      oldestPendingDays now (s.rowsOf guest name) ≤ oldestPendingDays now' (s'.rowsOf guest name) := by
  have haged : Aged s guest name t := aged_of_fresh h ht
  have haged' : Aged s' guest name t := aged_of_fresh h' (by rw [hext]; exact firstSighting_append hnewer ht)
  refine ⟨haged, haged', fun now now' hle => ?_⟩
  rw [haged.age, haged'.age]
  exact daysSince_mono hle

def day : Int := 86400000000

def curlOutput : Output := ⟨some "curl/stable 8.5-1 amd64 [upgradable from: 8.4-1]".toList, none, none⟩

/-- A guest with one pending package, whose next scan fails: the package is still ranked by its first sighting. -/
theorem aged_after_failure : ∃ s s' : State, s'.scansOf 1 = s.scansOf 1 ∧ Aged s' 1 "curl".toList 0 := by
  have h0 : system.Reach (fun s e => e.fresh s) {} := System.Reach.init ⟨fun _ => rfl, rfl⟩
  have h1 := h0.next (.scan 1 0 (some curlOutput)) (fun _ _ hlast => by cases hlast) rfl
  have h2 := h1.next (.scan 1 day (some ⟨none, none, some "timed out".toList⟩)) (fun hok => by cases hok) rfl
  have haged := @first_sighting_kept _ _ h1 h2 1 "curl".toList 0 [] (by decide +kernel) rfl (by simp)
  exact ⟨_, _, rfl, haged.2.1⟩

/-- A package listed on two days is discovered anew on the second: at the first it counts 29 days on the 29th, and after the
scan of the 30th none. -/
theorem age_forgotten :
    ((system.exec {} [.scan 1 0 (some curlOutput)]).map fun s =>
        (firstSighting "curl".toList (s.scansOf 1), (s.rowsOf 1 "curl".toList).map Package.discoveredAt,
          (chronicallyBehind s.db [1] (29 * day)).map Behind.oldestPendingDays)) = some (some 0, [some 0], [29]) ∧
    ((system.exec {} [.scan 1 0 (some curlOutput), .scan 1 (30 * day) (some curlOutput)]).map fun s =>
        (firstSighting "curl".toList (s.scansOf 1), (s.rowsOf 1 "curl".toList).map Package.discoveredAt,
          (chronicallyBehind s.db [1] (30 * day)).map Behind.oldestPendingDays)) =
      some (some 0, [some (30 * day)], [0]) := by
  refine ⟨?_, ?_⟩
  · decide +kernel
  · decide +kernel

end ProxmoxTool.Scans
