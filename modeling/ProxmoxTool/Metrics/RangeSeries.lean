import Mathlib.Order.Defs.LinearOrder
import Mathlib.Data.List.Pairwise
import ProxmoxTool.Lib.Dict
import ProxmoxTool.Lib.Text

/-!
# Series of range queries

How `clients/prometheus_query.py` puts the series of several range queries together.  `_range_single` splits a series into its
timestamps and its values, and what is built of them goes by positions: position `i` of every series stands under timestamp `i` of the first
series that is not empty.

The functions do the same to any values.  To say at which instant a value was measured they are run on values that carry their own timestamp
(`taggedAnswer`); the values are those of the run without (`snapshots_tagged`, `memory_tagged`).
-/

namespace ProxmoxTool.Metrics

section

/- Instants, the values of an answer, and the numbers they are read as. -/
variable {T R V : Type}

/-- The `results` of a range query, of each series the `values`; none if the query fails. -/
abbrev Answer (T R : Type) := Option (List (List (T × R)))

structure Range (T V : Type) where
  timestamps : List T
  values : List (Option V)

/-- The samples that `_range_single` takes. -/
def firstSeries : Answer T R → List (T × R)
  | some (values :: _) => values
  | _ => []

/-- `_range_single`.  `number` is `round(float(val), 2)`. -/
def rangeSingle (number : R → Option V) (answer : Answer T R) : Range T V :=
  let values := firstSeries answer
  ⟨values.map Prod.fst, values.map fun v => number v.2⟩

/-- `all_series` and `timestamps`. -/
structure Collected (T V : Type) where
  allSeries : Dict Text (List (Option V))
  timestamps : List T

def collectStep (number : R → Option V) (c : Collected T V) (query : Text × Answer T R) : Collected T V :=
  let result := rangeSingle number query.2
  ⟨c.allSeries.set query.1 result.values, if c.timestamps.isEmpty then result.timestamps else c.timestamps⟩

def collect (number : R → Option V) (queries : List (Text × Answer T R)) : Collected T V := queries.foldl (collectStep number) ⟨[], []⟩

/-- `captured_at`, and the values by their names.  No query has the name `captured_at`. -/
structure Snapshot (T V : Type) where
  capturedAt : T
  values : Dict Text (Option V)

/-- The list of snapshots, with the names that `short` makes. -/
def snapshots (short : Text → Text) (c : Collected T V) : List (Snapshot T V) :=
  c.timestamps.zipIdx.map fun ts => ⟨ts.1, Dict.setAll [] (c.allSeries.map fun series => (short series.1, series.2[ts.2]?.join))⟩

/-- `_run_snapshot_queries`, of the queries with their answers. -/
def runSnapshotQueries (number : R → Option V) (queries : List (Text × Answer T R)) : List (Snapshot T V) :=
  snapshots id (collect number queries)

/-- `t.replace(old, "")`, after `skip` characters that are part of an `old`. -/
def removeAll (old : Text) : Nat → Text → Text
  | _, [] => []
  | skip + 1, _ :: t => removeAll old skip t
  | 0, c :: t => if old.isPrefixOf (c :: t) then removeAll old (old.length - 1) t else c :: removeAll old 0 t

/-- `metric_name.split("\x7b")[0].replace("mstdnca_", "")`. -/
def shortName (metricName : Text) : Text := removeAll "mstdnca_".toList 0 (metricName.takeWhile (· ≠ '\x7b'))

/-- `get_service_metrics_history`, of the metric names with their answers. -/
def getServiceMetricsHistory (number : R → Option V) (metrics : List (Text × Answer T R)) : List (Snapshot T V) :=
  snapshots shortName (collect number metrics)

/-- The arithmetic of the charts: `x > 0`, `round(x / 1048576, 1)`, `round(x / y * 100, 2)`, the `0` before the first total, and of the
rates `x > y`, `x > n` and `round(x / n, 2)`. -/
structure Floats (V P : Type) where
  positive : V → Bool
  megabytes : V → P
  percent : V → V → P
  noMegabytes : P
  greater : V → V → Bool
  above : V → Nat → Bool
  scaled : V → Nat → V

/-- `mem_used_mb`, `mem_percent` and `mem_total_mb`. -/
structure Memory (P : Type) where
  usedMb : List (Option P)
  percent : List (Option P)
  totalMb : P

def memoryStep {P : Type} (f : Floats V P) (totals : List (Option V)) (m : Memory P) (used : Option V × Nat) : Memory P :=
  match used.1, totals[used.2]?.join with
  | some u, some total =>
    if f.positive total then ⟨m.usedMb ++ [some (f.megabytes u)], m.percent ++ [some (f.percent u total)], f.megabytes total⟩
    else ⟨m.usedMb ++ [none], m.percent ++ [none], m.totalMb⟩
  | _, _ => ⟨m.usedMb ++ [none], m.percent ++ [none], m.totalMb⟩

def memory {P : Type} (f : Floats V P) (used totals : List (Option V)) : Memory P :=
  used.zipIdx.foldl (memoryStep f totals) ⟨[], [], f.noMegabytes⟩

/-- `max(all_net, default=0)`. -/
def maxNet {P : Type} (f : Floats V P) : List V → Option V
  | [] => none
  | v :: vs => some (vs.foldl (fun m v => if f.greater v m then v else m) v)

/-- `net_unit` and `divisor`. -/
def netUnit {P : Type} (f : Floats V P) (allNet : List V) : Text × Nat :=
  match maxNet f allNet with
  | some m => if f.above m 1000000 then ("Mbps".toList, 125000) else if f.above m 1000 then ("KB/s".toList, 1024) else ("B/s".toList, 1)
  | none => ("B/s".toList, 1)

def overUnit {P : Type} (f : Floats V P) (divisor : Nat) (values : List (Option V)) : List (Option V) :=
  if divisor = 1 then values else values.map fun v => v.map fun v => f.scaled v divisor

/-- The labels are the local times of their instants. -/
structure GuestResult (T V P : Type) where
  labels : List T
  cpu : List (Option V)
  memPercent : List (Option P)
  memUsedMb : List (Option P)
  memTotalMb : P
  netin : List (Option V)
  netout : List (Option V)
  netUnit : Text
  source : Text

/-- `_build_guest_result`. -/
def buildGuestResult {P : Type} (f : Floats V P) (cpuData memUsed memTotal netin netout : Range T V) (source : Text) :
    GuestResult T V P :=
  let m := memory f memUsed.values memTotal.values
  let unit := netUnit f ((netin.values ++ netout.values).filterMap id)
  { labels := if cpuData.timestamps.isEmpty then memUsed.timestamps else cpuData.timestamps
    cpu := cpuData.values
    memPercent := m.percent
    memUsedMb := m.usedMb
    memTotalMb := m.totalMb
    netin := overUnit f unit.2 netin.values
    netout := overUnit f unit.2 netout.values
    netUnit := unit.1
    source := source }

end

/-! ### Values with their own timestamps -/

section

variable {T R V : Type}

def taggedAnswer (answer : Answer T R) : Answer T (T × R) :=
  answer.map fun results => results.map fun series => series.map fun v => (v.1, v)

def taggedNumber (number : R → Option V) (v : T × R) : Option (T × V) := (number v.2).map fun x => (v.1, x)

/-- A quotient of two values with their timestamps has both. -/
def taggedFloats {P : Type} (f : Floats V P) : Floats (T × V) (List T × P) where
  positive v := f.positive v.2
  megabytes v := ([v.1], f.megabytes v.2)
  percent used total := ([used.1, total.1], f.percent used.2 total.2)
  noMegabytes := ([], f.noMegabytes)
  greater v w := f.greater v.2 w.2
  above v n := f.above v.2 n
  scaled v n := (v.1, f.scaled v.2 n)

theorem firstSeries_tagged (answer : Answer T R) : firstSeries (taggedAnswer answer) = (firstSeries answer).map fun v => (v.1, v) := by
  rcases answer with _ | _ | ⟨values, results⟩ <;> rfl

/-- The same, without the timestamps of the values. -/
def Collected.untagged (c : Collected T (T × V)) : Collected T V :=
  ⟨c.allSeries.mapValues fun values => values.map fun v => v.map Prod.snd, c.timestamps⟩

def Snapshot.untagged (s : Snapshot T (T × V)) : Snapshot T V := ⟨s.capturedAt, s.values.mapValues fun v => v.map Prod.snd⟩

def taggedQueries (queries : List (Text × Answer T R)) : List (Text × Answer T (T × R)) :=
  queries.map fun query => (query.1, taggedAnswer query.2)

theorem rangeSingle_tagged (number : R → Option V) (answer : Answer T R) :
    (rangeSingle (taggedNumber number) (taggedAnswer answer)).timestamps = (rangeSingle number answer).timestamps ∧
      (rangeSingle (taggedNumber number) (taggedAnswer answer)).values.map (fun v => v.map Prod.snd) =
        (rangeSingle number answer).values := by
  unfold rangeSingle
  rw [firstSeries_tagged]
  dsimp only
  refine ⟨?_, ?_⟩
  · rw [List.map_map]
    rfl
  · rw [List.map_map, List.map_map]
    refine List.map_congr_left fun v _ => ?_
    change ((number v.2).map fun x => (v.1, x)).map Prod.snd = number v.2
    rw [Option.map_map]
    exact Option.map_id'

theorem collectStep_tagged (number : R → Option V) (c : Collected T (T × V)) (query : Text × Answer T R) :
    (collectStep (taggedNumber number) c (query.1, taggedAnswer query.2)).untagged = collectStep number c.untagged query := by
  obtain ⟨htimestamps, hvalues⟩ := rangeSingle_tagged number query.2
  unfold collectStep Collected.untagged
  dsimp only
  rw [Dict.mapValues_set, hvalues, htimestamps]

theorem collect_tagged (number : R → Option V) (queries : List (Text × Answer T R)) :
    (collect (taggedNumber number) (taggedQueries queries)).untagged = collect number queries := by
  have hfold : ∀ c : Collected T (T × V), ((taggedQueries queries).foldl (collectStep (taggedNumber number)) c).untagged =
      queries.foldl (collectStep number) c.untagged := by
    unfold taggedQueries
    induction queries with
    | nil => exact fun _ => rfl
    | cons query queries ih =>
      intro c
      rw [List.map_cons, List.foldl_cons, List.foldl_cons, ih, collectStep_tagged]
  exact hfold ⟨[], []⟩

/-- The snapshots are the ones with timestamps of their own, these left out. -/
theorem snapshots_tagged (short : Text → Text) (number : R → Option V) (queries : List (Text × Answer T R)) :
    (snapshots short (collect (taggedNumber number) (taggedQueries queries))).map Snapshot.untagged =
      snapshots short (collect number queries) := by
  rw [← collect_tagged number queries]
  unfold snapshots
  rw [List.map_map]
  refine List.map_congr_left fun ts _ => ?_
  change Snapshot.mk ts.1 (Dict.mapValues _ (Dict.setAll [] _)) = Snapshot.mk ts.1 (Dict.setAll [] _)
  rw [Dict.mapValues_setAll]
  refine congrArg (fun entries => Snapshot.mk ts.1 (Dict.setAll [] entries)) ?_
  unfold Collected.untagged Dict.mapValues
  rw [List.map_map, List.map_map]
  refine List.map_congr_left fun series _ => Prod.ext rfl ?_
  change (series.2[ts.2]?.join).map Prod.snd = (series.2.map fun v => v.map Prod.snd)[ts.2]?.join
  rw [List.getElem?_map]
  rcases series.2[ts.2]? with _ | _ | v <;> rfl

/-- The percentage at a position. -/
def memoryPercent {P : Type} (f : Floats V P) (totals : List (Option V)) (used : Option V × Nat) : Option P :=
  match used.1, totals[used.2]?.join with
  | some u, some total => if f.positive total then some (f.percent u total) else none
  | _, _ => none

theorem memory_percent {P : Type} (f : Floats V P) (used totals : List (Option V)) :
    (memory f used totals).percent = used.zipIdx.map (memoryPercent f totals) := by
  have hfold : ∀ (us : List (Option V × Nat)) (m : Memory P),
      (us.foldl (memoryStep f totals) m).percent = m.percent ++ us.map (memoryPercent f totals) := by
    intro us
    induction us with
    | nil => exact fun m => (List.append_nil _).symm
    | cons u us ih =>
      intro m
      have hstep : (memoryStep f totals m u).percent = m.percent ++ [memoryPercent f totals u] := by
        unfold memoryStep memoryPercent
        split
        · split_ifs <;> rfl
        · rfl
      rw [List.foldl_cons, ih, hstep, List.append_assoc, List.map_cons, List.singleton_append]
  exact hfold used.zipIdx ⟨[], [], f.noMegabytes⟩

/-- The percentages with the timestamps of what they are quotients of. -/
def taggedPercents {P : Type} (number : R → Option V) (f : Floats V P) (memUsed memTotal : Answer T R) : List (Option (List T × P)) :=
  (memory (taggedFloats f) (rangeSingle (taggedNumber number) (taggedAnswer memUsed)).values
    (rangeSingle (taggedNumber number) (taggedAnswer memTotal)).values).percent

theorem memory_tagged {P : Type} (number : R → Option V) (f : Floats V P) (memUsed memTotal : Answer T R) :
    (taggedPercents number f memUsed memTotal).map (fun p => p.map Prod.snd) =
      (memory f (rangeSingle number memUsed).values (rangeSingle number memTotal).values).percent := by
  unfold taggedPercents
  rw [memory_percent, memory_percent, ← (rangeSingle_tagged number memUsed).2, ← (rangeSingle_tagged number memTotal).2, List.map_map,
    List.zipIdx_map, List.map_map]
  refine List.map_congr_left fun u _ => ?_
  generalize (rangeSingle (taggedNumber number) (taggedAnswer memTotal)).values = totals
  obtain ⟨used, i⟩ := u
  change (memoryPercent (taggedFloats f) totals (used, i)).map Prod.snd =
    memoryPercent f (totals.map fun v => v.map Prod.snd) (used.map Prod.snd, i)
  unfold memoryPercent
  rw [List.getElem?_map]
  rcases totals[i]? with _ | _ | total
  · cases used <;> rfl
  · cases used <;> rfl
  · cases used with
    | none => rfl
    | some u =>
      change Option.map Prod.snd (if f.positive total.2 = true then _ else none) = if f.positive total.2 = true then _ else none
      split_ifs <;> rfl

theorem buildGuestResult_memPercent {P : Type} (number : R → Option V) (f : Floats V P)
    (cpuData memUsed memTotal netin netout : Answer T R) (source : Text) :
    (buildGuestResult f (rangeSingle number cpuData) (rangeSingle number memUsed) (rangeSingle number memTotal) (rangeSingle number netin)
        (rangeSingle number netout) source).memPercent =
      (taggedPercents number f memUsed memTotal).map fun p => p.map Prod.snd :=
  (memory_tagged number f memUsed memTotal).symm

end

/-! ### What the snapshots are -/

section

variable {T R V : Type} (number : R → Option V)

/-- The timestamps of the first series that is not empty. -/
def leadTimes (queries : List (Text × Answer T R)) : List T :=
  ((queries.map fun query => (firstSeries query.2).map Prod.fst).find? fun times => !times.isEmpty).getD []

theorem collect_timestamps (queries : List (Text × Answer T R)) : (collect number queries).timestamps = leadTimes queries := by
  have hfold : ∀ c : Collected T V, (queries.foldl (collectStep number) c).timestamps =
      if c.timestamps.isEmpty then leadTimes queries else c.timestamps := by
    induction queries with
    | nil =>
      intro c
      change c.timestamps = _
      cases hc : c.timestamps <;> rfl
    | cons query queries ih =>
      intro c
      rw [List.foldl_cons, ih]
      unfold collectStep leadTimes
      dsimp only
      rw [List.map_cons, List.find?_cons]
      cases hc : c.timestamps with
      | cons t ts => rfl
      | nil =>
        change (if ((firstSeries query.2).map Prod.fst).isEmpty then _ else (firstSeries query.2).map Prod.fst) = _
        cases hquery : (firstSeries query.2).map Prod.fst <;> rfl
  exact hfold ⟨[], []⟩

theorem collect_allSeries {queries : List (Text × Answer T R)} (hnames : (queries.map Prod.fst).Nodup) :
    (collect number queries).allSeries = queries.map fun query => (query.1, (rangeSingle number query.2).values) := by
  have hfold : ∀ c : Collected T V, (queries.foldl (collectStep number) c).allSeries =
      c.allSeries.setAll (queries.map fun query => (query.1, (rangeSingle number query.2).values)) := by
    clear hnames
    induction queries with
    | nil => exact fun _ => rfl
    | cons query queries ih => exact fun c => ih (collectStep number c query)
  refine (hfold ⟨[], []⟩).trans (Dict.setAll_of_nodup ?_)
  rwa [List.nil_append, List.map_map]

/-- The value at a position of a series. -/
def readAt (answer : Answer T R) (i : Nat) : Option V := (firstSeries answer)[i]?.bind fun v : T × R => number v.2

/-- Of distinct names, and of distinct ones as well when they are shortened, a snapshot has the value of every query at its position. -/
theorem mem_snapshots {short : Text → Text} {queries : List (Text × Answer T R)}
    (hshort : (queries.map fun query => short query.1).Nodup) {s : Snapshot T V} :
    s ∈ snapshots short (collect number queries) ↔ ∃ i t, (leadTimes queries)[i]? = some t ∧
      s = ⟨t, queries.map fun query => (short query.1, readAt number query.2 i)⟩ := by
  have hnames : (queries.map Prod.fst).Nodup := by
    have hcomp : queries.map (fun query => short query.1) = (queries.map Prod.fst).map short := by
      rw [List.map_map]
      rfl
    exact (hcomp ▸ hshort).of_map short
  unfold snapshots
  rw [collect_timestamps, collect_allSeries number hnames, List.mem_map]
  have hvalues : ∀ i, Dict.setAll [] ((queries.map fun query => (query.1, (rangeSingle number query.2).values)).map
      fun series => (short series.1, series.2[i]?.join)) =
        queries.map fun query => (short query.1, readAt number query.2 i) := by
    intro i
    rw [List.map_map, Dict.setAll_of_nodup]
    · rw [List.nil_append]
      refine List.map_congr_left fun query _ => Prod.ext rfl ?_
      change ((firstSeries query.2).map fun v : T × R => number v.2)[i]?.join = _
      unfold readAt
      rw [List.getElem?_map]
      cases (firstSeries query.2)[i]? <;> rfl
    · rw [List.nil_append, List.map_map]
      exact hshort
  constructor
  · rintro ⟨⟨t, i⟩, hmem, rfl⟩
    exact ⟨i, t, List.mem_zipIdx_iff_getElem?.1 hmem, by rw [hvalues]⟩
  · rintro ⟨i, t, ht, rfl⟩
    exact ⟨(t, i), List.mem_zipIdx_iff_getElem?.2 ht, by rw [hvalues]⟩

theorem leadTimes_tagged (queries : List (Text × Answer T R)) : leadTimes (taggedQueries queries) = leadTimes queries := by
  unfold leadTimes taggedQueries
  rw [List.map_map]
  refine congrArg (fun times => (List.find? (fun ts : List T => !ts.isEmpty) times).getD []) (List.map_congr_left fun query _ => ?_)
  change (firstSeries (taggedAnswer query.2)).map Prod.fst = _
  rw [firstSeries_tagged, List.map_map]
  rfl

theorem readAt_tagged (answer : Answer T R) (i : Nat) :
    readAt (taggedNumber number) (taggedAnswer answer) i =
      (firstSeries answer)[i]?.bind fun v : T × R => (number v.2).map fun x => (v.1, x) := by
  unfold readAt
  rw [firstSeries_tagged, List.getElem?_map]
  cases (firstSeries answer)[i]? <;> rfl

theorem readAt_tagged_eq_some {answer : Answer T R} {i : Nat} {t : T} {v : V} :
    readAt (taggedNumber number) (taggedAnswer answer) i = some (t, v) ↔
      ∃ r, (firstSeries answer)[i]? = some (t, r) ∧ number r = some v := by
  rw [readAt_tagged, Option.bind_eq_some_iff]
  constructor
  · rintro ⟨⟨t', r⟩, hread, hnumber⟩
    obtain ⟨v', hv', heq⟩ := Option.map_eq_some_iff.1 hnumber
    cases heq
    exact ⟨r, hread, hv'⟩
  · rintro ⟨r, hread, hnumber⟩
    exact ⟨(t, r), hread, Option.map_eq_some_iff.2 ⟨v, hnumber, rfl⟩⟩

/-- The snapshots with the timestamps of the values. -/
def taggedSnapshots (short : Text → Text) (queries : List (Text × Answer T R)) : List (Snapshot T (T × V)) :=
  snapshots short (collect (taggedNumber number) (taggedQueries queries))

theorem mem_taggedSnapshots {short : Text → Text} {queries : List (Text × Answer T R)}
    (hshort : (queries.map fun query => short query.1).Nodup) {s : Snapshot T (T × V)} :
    s ∈ taggedSnapshots number short queries ↔ ∃ i t, (leadTimes queries)[i]? = some t ∧
      s = ⟨t, queries.map fun query => (short query.1, readAt (taggedNumber number) (taggedAnswer query.2) i)⟩ := by
  have hshort' : ((taggedQueries queries).map fun query => short query.1).Nodup := by
    unfold taggedQueries
    rwa [List.map_map]
  have hmap : ∀ i, (taggedQueries queries).map (fun query => (short query.1, readAt (taggedNumber number) query.2 i)) =
      queries.map fun query => (short query.1, readAt (taggedNumber number) (taggedAnswer query.2) i) := by
    intro i
    unfold taggedQueries
    rw [List.map_map]
    rfl
  unfold taggedSnapshots
  rw [mem_snapshots (taggedNumber number) hshort', leadTimes_tagged]
  simp only [hmap]

end

/-! ### Values at their own time -/

section

variable {T R V : Type} (number : R → Option V)

/-- Every value of a snapshot was measured when the snapshot is said to be captured. -/
def InOwnTime (snaps : List (Snapshot T (T × V))) : Prop :=
  ∀ s ∈ snaps, ∀ n t v, (n, some (t, v)) ∈ s.values → t = s.capturedAt

/-- A value is in the snapshot of its timestamp if another series has a sample there. -/
def NoneDropped (short : Text → Text) (queries : List (Text × Answer T R)) (snaps : List (Snapshot T (T × V))) : Prop :=
  ∀ query ∈ queries, ∀ t r v, (t, r) ∈ firstSeries query.2 → number r = some v →
    (∃ other ∈ queries, other.1 ≠ query.1 ∧ t ∈ (firstSeries other.2).map Prod.fst) →
      ∃ s ∈ snaps, s.capturedAt = t ∧ (short query.1, some (t, v)) ∈ s.values

/-- At every position the numbers have the timestamp of the first series that is not empty, and behind of its end none has a timestamp that
another series has too. -/
def Aligned (queries : List (Text × Answer T R)) : Prop :=
  ∀ query ∈ queries, ∀ (i : Nat) (t : T) (r : R), (firstSeries query.2)[i]? = some (t, r) → (number r).isSome = true →
    (∀ l, (leadTimes queries)[i]? = some l → l = t) ∧
      ((∃ other ∈ queries, other.1 ≠ query.1 ∧ t ∈ (firstSeries other.2).map Prod.fst) → i < (leadTimes queries).length)

def Increasing [LT T] (answer : Answer T R) : Prop := ((firstSeries answer).map Prod.fst).Pairwise (· < ·)

theorem Increasing.position_eq [Preorder T] {answer : Answer T R} (h : Increasing answer) {i j : Nat} {t : T} {r r' : R}
    (hi : (firstSeries answer)[i]? = some (t, r)) (hj : (firstSeries answer)[j]? = some (t, r')) : i = j := by
  have hnodup : ((firstSeries answer).map Prod.fst).Nodup := List.Pairwise.imp (fun hlt => ne_of_lt hlt) h
  have hi' : ((firstSeries answer).map Prod.fst)[i]? = some t := by rw [List.getElem?_map, hi]; rfl
  have hj' : ((firstSeries answer).map Prod.fst)[j]? = some t := by rw [List.getElem?_map, hj]; rfl
  have hlt : i < ((firstSeries answer).map Prod.fst).length := (List.getElem?_eq_some_iff.1 hi').1
  exact (List.getElem?_inj hlt hnodup).1 (hi'.trans hj'.symm)

theorem snapshots_inOwnTime {short : Text → Text} {queries : List (Text × Answer T R)}
    (hshort : (queries.map fun query => short query.1).Nodup) :
    InOwnTime (taggedSnapshots number short queries) ↔ ∀ query ∈ queries, ∀ (i : Nat) (t : T) (r : R),
      (firstSeries query.2)[i]? = some (t, r) → (number r).isSome = true → ∀ l, (leadTimes queries)[i]? = some l → l = t := by
  constructor
  · intro h query hquery i t r hread hnumber l hl
    obtain ⟨v, hv⟩ := Option.isSome_iff_exists.1 hnumber
    have hvalue : readAt (taggedNumber number) (taggedAnswer query.2) i = some (t, v) :=
      (readAt_tagged_eq_some number).2 ⟨r, hread, hv⟩
    refine (h _ ((mem_taggedSnapshots number hshort).2 ⟨i, l, hl, rfl⟩) (short query.1) t v ?_).symm
    exact List.mem_map.2 ⟨query, hquery, by rw [hvalue]⟩
  · intro h s hs n t v hmem
    obtain ⟨i, l, hl, rfl⟩ := (mem_taggedSnapshots number hshort).1 hs
    obtain ⟨query, hquery, heq⟩ := List.mem_map.1 hmem
    obtain ⟨r, hread, hnumber⟩ := (readAt_tagged_eq_some number).1 (Prod.ext_iff.1 heq).2
    exact (h query hquery i t r hread (by rw [hnumber]; rfl) l hl).symm

/-- A snapshot has the value of a query under its name. -/
theorem mem_snapshot_values {short : Text → Text} {queries : List (Text × Answer T R)}
    (hshort : (queries.map fun query => short query.1).Nodup) {query : Text × Answer T R} (hquery : query ∈ queries) {i : Nat}
    {x : Option (T × V)} :
    (short query.1, x) ∈ queries.map (fun query => (short query.1, readAt (taggedNumber number) (taggedAnswer query.2) i)) ↔
      readAt (taggedNumber number) (taggedAnswer query.2) i = x := by
  constructor
  · intro h
    obtain ⟨query', hquery', heq⟩ := List.mem_map.1 h
    have hsame : query' = query := List.inj_on_of_nodup_map hshort hquery' hquery (Prod.ext_iff.1 heq).1
    rw [← hsame]
    exact (Prod.ext_iff.1 heq).2
  · rintro rfl
    exact List.mem_map_of_mem hquery

theorem snapshots_aligned [Preorder T] {short : Text → Text} {queries : List (Text × Answer T R)}
    (hshort : (queries.map fun query => short query.1).Nodup) (hincreasing : ∀ query ∈ queries, Increasing query.2) :
    (InOwnTime (taggedSnapshots number short queries) ∧ NoneDropped number short queries (taggedSnapshots number short queries)) ↔
      Aligned number queries := by
  rw [snapshots_inOwnTime number hshort]
  constructor
  · rintro ⟨hown, hdropped⟩ query hquery i t r hread hnumber
    refine ⟨hown query hquery i t r hread hnumber, fun hother => ?_⟩
    obtain ⟨v, hv⟩ := Option.isSome_iff_exists.1 hnumber
    obtain ⟨s, hs, hcaptured, hmem⟩ := hdropped query hquery t r v (List.mem_of_getElem? hread) hv hother
    obtain ⟨j, l, hl, rfl⟩ := (mem_taggedSnapshots number hshort).1 hs
    -- the value has its own timestamp, so it is the one at its position
    obtain ⟨r', hread', -⟩ := (readAt_tagged_eq_some number).1 ((mem_snapshot_values number hshort hquery).1 hmem)
    rw [(hincreasing query hquery).position_eq hread hread']
    exact (List.getElem?_eq_some_iff.1 hl).1
  · intro h
    refine ⟨fun query hquery i t r hread hnumber => (h query hquery i t r hread hnumber).1, ?_⟩
    intro query hquery t r v hmem hnumber hother
    obtain ⟨i, hread⟩ := List.mem_iff_getElem?.1 hmem
    obtain ⟨hlead, hlt⟩ := h query hquery i t r hread (by rw [hnumber]; rfl)
    have hl := List.getElem?_eq_getElem (hlt hother)
    refine ⟨_, (mem_taggedSnapshots number hshort).2 ⟨i, _, hl, rfl⟩, hlead _ hl, ?_⟩
    exact (mem_snapshot_values number hshort hquery).2 ((readAt_tagged_eq_some number).2 ⟨r, hread, hnumber⟩)

/-- The two values of every percentage are of one instant. -/
def OfOneInstant {P : Type} (percents : List (Option (List T × P))) : Prop :=
  ∀ ts p, some (ts, p) ∈ percents → ∀ t ∈ ts, ∀ t' ∈ ts, t = t'

/-- Where the used memory and a positive total stand at one position they have the same timestamp. -/
def MemoryAligned {P : Type} (f : Floats V P) (memUsed memTotal : Answer T R) : Prop :=
  ∀ (i : Nat) (t t' : T) (r r' : R), (firstSeries memUsed)[i]? = some (t, r) → (firstSeries memTotal)[i]? = some (t', r') →
    (number r).isSome = true → (∃ total, number r' = some total ∧ f.positive total = true) → t = t'

theorem values_getElem?_join (answer : Answer T R) (i : Nat) : (rangeSingle number answer).values[i]?.join = readAt number answer i := by
  change ((firstSeries answer).map fun v : T × R => number v.2)[i]?.join = _
  unfold readAt
  rw [List.getElem?_map]
  cases (firstSeries answer)[i]? <;> rfl

theorem mem_taggedPercents {P : Type} (f : Floats V P) {memUsed memTotal : Answer T R} {ts : List T} {p : P} :
    some (ts, p) ∈ taggedPercents number f memUsed memTotal ↔ ∃ i t t' u total,
      readAt (taggedNumber number) (taggedAnswer memUsed) i = some (t, u) ∧
      readAt (taggedNumber number) (taggedAnswer memTotal) i = some (t', total) ∧ f.positive total = true ∧
      ts = [t, t'] ∧ p = f.percent u total := by
  unfold taggedPercents
  rw [memory_percent, List.mem_map]
  constructor
  · rintro ⟨⟨used, i⟩, hmem, hpercent⟩
    have hused : readAt (taggedNumber number) (taggedAnswer memUsed) i = used := by
      rw [← values_getElem?_join, List.mem_zipIdx_iff_getElem?.1 hmem]
      rfl
    unfold memoryPercent at hpercent
    rw [values_getElem?_join] at hpercent
    cases used with
    | none => cases hpercent
    | some u =>
      cases htotal : readAt (taggedNumber number) (taggedAnswer memTotal) i with
      | none =>
        rw [htotal] at hpercent
        cases hpercent
      | some total =>
        rw [htotal] at hpercent
        change (if f.positive total.2 then some ([u.1, total.1], f.percent u.2 total.2) else none) = _ at hpercent
        by_cases hpositive : f.positive total.2 = true
        · rw [if_pos hpositive] at hpercent
          cases hpercent
          exact ⟨i, u.1, total.1, u.2, total.2, hused, htotal, hpositive, rfl, rfl⟩
        · rw [if_neg hpositive] at hpercent
          cases hpercent
  · rintro ⟨i, t, t', u, total, hused, htotal, hpositive, rfl, rfl⟩
    have hmem : (rangeSingle (taggedNumber number) (taggedAnswer memUsed)).values[i]? = some (some (t, u)) := by
      rw [← values_getElem?_join] at hused
      exact Option.join_eq_some_iff.1 hused
    refine ⟨(some (t, u), i), List.mem_zipIdx_iff_getElem?.2 hmem, ?_⟩
    unfold memoryPercent
    rw [values_getElem?_join, htotal]
    exact if_pos hpositive

theorem percents_aligned {P : Type} (f : Floats V P) (memUsed memTotal : Answer T R) :
    OfOneInstant (taggedPercents number f memUsed memTotal) ↔ MemoryAligned number f memUsed memTotal := by
  constructor
  · rintro h i t t' r r' hused htotal hnumber ⟨total, hnumber', hpositive⟩
    obtain ⟨u, hu⟩ := Option.isSome_iff_exists.1 hnumber
    refine h [t, t'] (f.percent u total) ?_ t List.mem_cons_self t' (List.mem_cons_of_mem _ List.mem_cons_self)
    exact (mem_taggedPercents number f).2 ⟨i, t, t', u, total, (readAt_tagged_eq_some number).2 ⟨r, hused, hu⟩,
      (readAt_tagged_eq_some number).2 ⟨r', htotal, hnumber'⟩, hpositive, rfl, rfl⟩
  · intro h ts p hmem
    obtain ⟨i, t, t', u, total, hused, htotal, hpositive, rfl, -⟩ := (mem_taggedPercents number f).1 hmem
    obtain ⟨r, hread, hnumber⟩ := (readAt_tagged_eq_some number).1 hused
    obtain ⟨r', hread', hnumber'⟩ := (readAt_tagged_eq_some number).1 htotal
    have heq : t = t' := h i t t' r r' hread hread' (by rw [hnumber]; rfl) ⟨total, hnumber', hpositive⟩
    subst heq
    simp

/-- The values of the snapshots, which are those of `_run_snapshot_queries` and `get_service_metrics_history`, are all at their own time and
none is dropped just if the series stand at the same positions as the first one, and every percentage of `_build_guest_result` is of one
instant just if used and total memory stand at the same positions. -/
theorem values_in_own_time_iff [Preorder T] {P : Type} (f : Floats V P) {queries metrics : List (Text × Answer T R)}
    (hqueries : (queries.map Prod.fst).Nodup) (hmetrics : (metrics.map fun metric => shortName metric.1).Nodup)
    (hincreasing : ∀ query ∈ queries ++ metrics, Increasing query.2) (cpuData memUsed memTotal netin netout : Answer T R) (source : Text) :
    ((taggedSnapshots number id queries).map Snapshot.untagged = runSnapshotQueries number queries ∧
      (InOwnTime (taggedSnapshots number id queries) ∧ NoneDropped number id queries (taggedSnapshots number id queries) ↔
        Aligned number queries)) ∧
    ((taggedSnapshots number shortName metrics).map Snapshot.untagged = getServiceMetricsHistory number metrics ∧
      (InOwnTime (taggedSnapshots number shortName metrics) ∧
        NoneDropped number shortName metrics (taggedSnapshots number shortName metrics) ↔ Aligned number metrics)) ∧
    (buildGuestResult f (rangeSingle number cpuData) (rangeSingle number memUsed) (rangeSingle number memTotal) (rangeSingle number netin)
        (rangeSingle number netout) source).memPercent = (taggedPercents number f memUsed memTotal).map (fun p => p.map Prod.snd) ∧
      (OfOneInstant (taggedPercents number f memUsed memTotal) ↔ MemoryAligned number f memUsed memTotal) := by
  refine ⟨⟨snapshots_tagged id number queries, ?_⟩, ⟨snapshots_tagged shortName number metrics, ?_⟩, ?_, ?_⟩
  · exact snapshots_aligned number hqueries fun query hquery => hincreasing query (List.mem_append_left _ hquery)
  · exact snapshots_aligned number hmetrics fun metric hmetric => hincreasing metric (List.mem_append_right _ hmetric)
  · exact buildGuestResult_memPercent number f cpuData memUsed memTotal netin netout source
  · exact percents_aligned number f memUsed memTotal

end

/-! ### A rate that starts later -/

/-- Of whole numbers. -/
def wholeNumbers : Floats Nat Nat where
  positive v := decide (0 < v)
  megabytes v := v / 1048576
  percent used total := used * 100 / total
  noMegabytes := 0
  greater v w := decide (w < v)
  above v n := decide (n < v)
  scaled v n := v / n

/-- A gauge from the beginning, and a rate that needs two samples. -/
def memoryAndOps : List (Text × Answer Nat Nat) :=
  [("used_memory_bytes".toList, some [[(0, 700), (60, 710), (120, 720)]]), ("ops_per_sec".toList, some [[(60, 5), (120, 9)]])]

def memoryAndOpsMetrics : List (Text × Answer Nat Nat) :=
  [("mstdnca_redis_memory_used_bytes".toList, some [[(0, 700), (60, 710), (120, 720)]]),
    ("mstdnca_redis_ops_per_sec".toList, some [[(60, 5), (120, 9)]])]

theorem ops_shown_early :
    runSnapshotQueries some memoryAndOps =
      [⟨0, [("used_memory_bytes".toList, some 700), ("ops_per_sec".toList, some 5)]⟩,
        ⟨60, [("used_memory_bytes".toList, some 710), ("ops_per_sec".toList, some 9)]⟩,
        ⟨120, [("used_memory_bytes".toList, some 720), ("ops_per_sec".toList, none)]⟩] ∧
    ¬InOwnTime (taggedSnapshots some id memoryAndOps) ∧ ¬NoneDropped some id memoryAndOps (taggedSnapshots some id memoryAndOps) ∧
    ¬InOwnTime (taggedSnapshots some shortName memoryAndOpsMetrics) ∧
    ¬OfOneInstant (taggedPercents some wholeNumbers (some [[(0, 700), (60, 710)]]) (some [[(60, 1000)]])) := by
  have hsnaps : taggedSnapshots some id memoryAndOps =
      [⟨0, [("used_memory_bytes".toList, some (0, 700)), ("ops_per_sec".toList, some (60, 5))]⟩,
        ⟨60, [("used_memory_bytes".toList, some (60, 710)), ("ops_per_sec".toList, some (120, 9))]⟩,
        ⟨120, [("used_memory_bytes".toList, some (120, 720)), ("ops_per_sec".toList, none)]⟩] := rfl
  have hshort : taggedSnapshots some shortName memoryAndOpsMetrics =
      [⟨0, [("redis_memory_used_bytes".toList, some (0, 700)), ("redis_ops_per_sec".toList, some (60, 5))]⟩,
        ⟨60, [("redis_memory_used_bytes".toList, some (60, 710)), ("redis_ops_per_sec".toList, some (120, 9))]⟩,
        ⟨120, [("redis_memory_used_bytes".toList, some (120, 720)), ("redis_ops_per_sec".toList, none)]⟩] := rfl
  have hpercents : taggedPercents some wholeNumbers (some [[(0, 700), (60, 710)]]) (some [[(60, 1000)]]) =
      [some ([0, 60], 70), none] := rfl
  rw [hsnaps, hshort, hpercents]
  refine ⟨rfl, fun h => ?_, fun h => ?_, fun h => ?_, fun h => ?_⟩
  · have htime : 60 = 0 := h _ List.mem_cons_self "ops_per_sec".toList 60 5 (List.mem_cons_of_mem _ List.mem_cons_self)
    cases htime
  · obtain ⟨s, hs, htime, hmem⟩ := h ("ops_per_sec".toList, some [[(60, 5), (120, 9)]]) (List.mem_cons_of_mem _ List.mem_cons_self) 60 5 5
      List.mem_cons_self rfl ⟨_, List.mem_cons_self, by decide, by decide⟩
    simp only [List.mem_cons, List.not_mem_nil, or_false] at hs
    rcases hs with rfl | rfl | rfl
    · cases htime
    · exact absurd hmem (by decide)
    · cases htime
  · have htime : 60 = 0 := h _ List.mem_cons_self "redis_ops_per_sec".toList 60 5 (List.mem_cons_of_mem _ List.mem_cons_self)
    cases htime
  · have htime : 0 = 60 := h [0, 60] 70 List.mem_cons_self 0 List.mem_cons_self 60 (List.mem_cons_of_mem _ List.mem_cons_self)
    cases htime

/-- Two gauges, the second with its last sample behind of the end of the first. -/
def memoryAndClients : List (Text × Answer Nat Nat) :=
  [("used_memory_bytes".toList, some [[(0, 700), (60, 710)]]), ("connected_clients".toList, some [[(0, 3), (60, 4), (120, 4)]])]

theorem memoryAndClients_aligned : Aligned some memoryAndClients := by
  have hlead : leadTimes memoryAndClients = [0, 60] := rfl
  intro query hquery i t r hread _
  rw [hlead]
  rcases List.mem_cons.1 hquery with rfl | hquery
  · match i with
    | 0 =>
      cases hread
      exact ⟨fun l hl => (Option.some.inj hl).symm, fun _ => by decide⟩
    | 1 =>
      cases hread
      exact ⟨fun l hl => (Option.some.inj hl).symm, fun _ => by decide⟩
    | i + 2 => cases hread
  · rw [List.mem_singleton.1 hquery] at hread ⊢
    match i with
    | 0 =>
      cases hread
      exact ⟨fun l hl => (Option.some.inj hl).symm, fun _ => by decide⟩
    | 1 =>
      cases hread
      exact ⟨fun l hl => (Option.some.inj hl).symm, fun _ => by decide⟩
    | 2 =>
      cases hread
      exact ⟨nofun, fun hother => absurd hother (by decide)⟩
    | i + 3 => cases hread

theorem clients_in_own_time :
    (InOwnTime (taggedSnapshots some id memoryAndClients) ∧
      NoneDropped some id memoryAndClients (taggedSnapshots some id memoryAndClients)) ∧
      ¬Aligned some memoryAndOpsMetrics := by
  have hincreasing : ∀ query ∈ memoryAndClients ++ memoryAndOpsMetrics, Increasing query.2 := by
    unfold Increasing
    decide
  have hnames : (memoryAndClients.map Prod.fst).Nodup := by decide
  have hshorts : (memoryAndOpsMetrics.map fun metric => shortName metric.1).Nodup := by decide
  obtain ⟨⟨-, hclients⟩, ⟨-, hops⟩, -⟩ := values_in_own_time_iff some wholeNumbers hnames hshorts hincreasing none none none none none
    "redis_exporter".toList
  refine ⟨hclients.2 memoryAndClients_aligned, fun h => ?_⟩
  have htime : 60 = 0 := (hops.2 h).1
    ⟨0, [("redis_memory_used_bytes".toList, some (0, 700)), ("redis_ops_per_sec".toList, some (60, 5))]⟩ List.mem_cons_self "redis_ops_per_sec".toList 60 5
    (List.mem_cons_of_mem _ List.mem_cons_self)
  cases htime

end ProxmoxTool.Metrics
