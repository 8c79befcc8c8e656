import Mathlib
import ProxmoxTool.Lib.Dict
import ProxmoxTool.Lib.Rows
import ProxmoxTool.Lib.Text

/-!
# The history of a service's metrics

`save_service_snapshot` of `routes/services.py` adds a row for each reading of a service and prunes the rows to the 288 newest of the service;
the history routes read them when there is no Prometheus.  The writer orders by time downwards and the readers upwards before they cut, so a
reader with a limit shows the oldest rows that are stored (`sqliteHistory_eq`), which are the newest just if there are no more of them than
the limit (`history_newest_iff`).
-/

namespace ProxmoxTool.Metrics

/-- What the snapshots do to the values of a reading: `None`, `0`, text, `str`, `.rstrip("%")`, `_safe_int`, `_safe_float` and truth. -/
structure Readings (V : Type) where
  none : V
  zero : V
  text : Text → V
  isText : V → Bool
  str : V → V
  rstripPercent : V → V
  safeInt : V → V
  safeFloat : V → V
  truthy : V → Bool

section

variable {T V : Type} [DecidableEq V] (py : Readings V)

/-- `data.get(key, default)`. -/
def reading (data : Dict Text V) (key : String) (default : V) : V := (data.get? key.toList).getD default

/-- The snapshot of the reading, of the services that have a history. -/
def snapshotData (stype : Text) (data : Dict Text V) : Option (Dict Text V) :=
  if stype = "postgresql".toList ∧ reading data "type" py.none = py.text "postgresql".toList then
    some [("total_connections".toList, py.safeInt (reading data "total_connections" py.none)),
      ("cache_hit_ratio".toList, py.safeFloat (py.rstripPercent (py.str (reading data "cache_hit_ratio" (py.text []))))),
      ("active_queries".toList, py.safeInt (reading data "active_queries" py.none)),
      ("lock_waits".toList, reading data "lock_waits" py.zero),
      ("total_commits".toList, py.safeInt (reading data "total_commits" py.none)),
      ("total_rollbacks".toList, py.safeInt (reading data "total_rollbacks" py.none))]
  else if stype = "jitsi-videobridge2".toList ∧ py.truthy (reading data "rest_api_disabled" py.none) = false then
    some [("conferences".toList, reading data "conferences" py.zero), ("participants".toList, reading data "participants" py.zero),
      ("stress_level".toList, reading data "stress_level" py.zero), ("bit_rate_download".toList, reading data "bit_rate_download" py.zero)]
  else if stype = "redis".toList ∧ reading data "type" py.none = py.text "redis".toList then
    let hitRatioRaw := reading data "hit_ratio" (py.text "N/A".toList)
    some [("used_memory_bytes".toList, py.safeInt (reading data "used_memory_bytes" py.none)),
      ("connected_clients".toList, py.safeInt (reading data "connected_clients" py.none)),
      ("ops_per_sec".toList, py.safeInt (reading data "ops_per_sec" py.none)),
      ("hit_ratio".toList, py.safeFloat (py.str (if py.isText hitRatioRaw then py.rstripPercent hitRatioRaw else hitRatioRaw))),
      ("evicted_keys".toList, py.safeInt (reading data "evicted_keys" py.none))]
  else none

/-- A row of `service_metric_snapshots`. -/
structure MetricRow (T V : Type) where
  id : Nat
  serviceId : Nat
  capturedAt : T
  data : Dict Text V

/-- A call of `save_service_snapshot`, with the time it reads from the clock and whether the database raises. -/
structure SaveCall (T V : Type) where
  serviceId : Nat
  serviceName : Text
  data : Dict Text V
  now : T
  raises : Bool

def rowsOf (serviceId : Nat) (table : List (MetricRow T V)) : List (MetricRow T V) := table.filter fun r => r.serviceId = serviceId

variable [LinearOrder T]

def newestFirst (a b : MetricRow T V) : Bool := decide (b.capturedAt ≤ a.capturedAt)

def oldestFirst (a b : MetricRow T V) : Bool := decide (a.capturedAt ≤ b.capturedAt)

/-- The ids of the rows of a service behind of the 288 newest. -/
def oldIds (serviceId : Nat) (table : List (MetricRow T V)) : List Nat :=
  (((rowsOf serviceId table).mergeSort newestFirst).drop 288).map MetricRow.id

/-- `save_service_snapshot`. -/
def saveServiceSnapshot (table : List (MetricRow T V)) (c : SaveCall T V) : List (MetricRow T V) :=
  match snapshotData py c.serviceName c.data with
  | none => table
  | some data =>
    if c.raises then table
    else
      let added := table ++ [⟨freshId MetricRow.id table, c.serviceId, c.now, data⟩]
      let old := oldIds c.serviceId added
      if old.isEmpty then added else added.filter fun r => decide (r.id ∉ old)

def saveAll (calls : List (SaveCall T V)) : List (MetricRow T V) := calls.foldl (saveServiceSnapshot py) []

/-- A snapshot of a history: `captured_at` and the other entries. -/
structure HistoryEntry (T V : Type) where
  capturedAt : T
  data : Dict Text V

def MetricRow.entry (r : MetricRow T V) : HistoryEntry T V := ⟨r.capturedAt, r.data⟩

/-- `LIMIT`, which a negative number lifts. -/
def limitRows {α : Type} (limit : Int) (rows : List α) : List α := if limit < 0 then rows else rows.take limit.toNat

/-- The fallback of the history routes. -/
def sqliteHistory (table : List (MetricRow T V)) (serviceId : Nat) (limit : Int) : List (HistoryEntry T V) :=
  (limitRows (min limit 288) ((rowsOf serviceId table).mergeSort oldestFirst)).map MetricRow.entry

/-- A history route without Prometheus, for services of one name. -/
def metricsHistory (wanted : Text) (table : List (MetricRow T V)) (serviceId : Nat) (serviceName : Text) (limit : Int) :
    Option (List (HistoryEntry T V)) :=
  if serviceName = wanted then some (sqliteHistory table serviceId limit) else none

/-- `pg_metrics_history`. -/
def pgMetricsHistory (table : List (MetricRow T V)) (serviceId : Nat) (serviceName : Text) (limit : Int) :
    Option (List (HistoryEntry T V)) :=
  metricsHistory "postgresql".toList table serviceId serviceName limit

/-- `redis_metrics_history`. -/
def redisMetricsHistory (table : List (MetricRow T V)) (serviceId : Nat) (serviceName : Text) (limit : Int) :
    Option (List (HistoryEntry T V)) :=
  metricsHistory "redis".toList table serviceId serviceName limit

/-! ### What has been saved -/

/-- What a call saves for a service. -/
def SaveCall.saves (serviceId : Nat) (c : SaveCall T V) : Option (HistoryEntry T V) :=
  if c.serviceId = serviceId ∧ c.raises = false then (snapshotData py c.serviceName c.data).map fun data => ⟨c.now, data⟩ else none

/-- The snapshots of a service that have been saved, the oldest first. -/
def savedEntries (serviceId : Nat) (calls : List (SaveCall T V)) : List (HistoryEntry T V) := calls.filterMap (SaveCall.saves py serviceId)

/-- The clock of each service goes forward. -/
def Forward (calls : List (SaveCall T V)) : Prop := calls.Pairwise fun c c' => c.serviceId = c'.serviceId → c.now < c'.now

end

/-! ### Rows in order -/

section

variable {T V : Type} [LinearOrder T]

theorem mergeSort_oldestFirst {l : List (MetricRow T V)} (h : l.Pairwise fun a b => a.capturedAt < b.capturedAt) :
    l.mergeSort oldestFirst = l :=
  List.mergeSort_of_pairwise (h.imp fun hlt => decide_eq_true (le_of_lt hlt))

theorem mergeSort_newestFirst {l : List (MetricRow T V)} (h : l.Pairwise fun a b => a.capturedAt < b.capturedAt) :
    l.mergeSort newestFirst = l.reverse := by
  have hsorted : (l.mergeSort newestFirst).Pairwise fun a b => newestFirst a b = true := by
    refine List.pairwise_mergeSort (fun a b c hab hbc => ?_) (fun a b => ?_) l
    · exact decide_eq_true (le_trans (of_decide_eq_true hbc) (of_decide_eq_true hab))
    · unfold newestFirst
      rcases le_total a.capturedAt b.capturedAt with hle | hle <;> simp [hle]
  have hreverse : l.reverse.Pairwise fun a b => newestFirst a b = true := by
    rw [List.pairwise_reverse]
    exact h.imp fun hlt => decide_eq_true (le_of_lt hlt)
  have hperm : (l.mergeSort newestFirst).Perm l.reverse := (List.mergeSort_perm l newestFirst).trans l.reverse_perm.symm
  refine hperm.eq_of_pairwise (fun a b ha hb hab hba => ?_) hsorted hreverse
  -- two rows of one time are the same
  have hsame : a.capturedAt = b.capturedAt := le_antisymm (of_decide_eq_true hba) (of_decide_eq_true hab)
  have hnodup : (l.map MetricRow.capturedAt).Nodup := by
    rw [List.Nodup, List.pairwise_map]
    exact h.imp fun hlt => ne_of_lt hlt
  exact List.inj_on_of_nodup_map hnodup ((List.mergeSort_perm l newestFirst).subset ha) (List.mem_reverse.1 hb) hsame

end

/-! ### What is stored -/

section

variable {T V : Type} [DecidableEq V] (py : Readings V) [LinearOrder T]

/-- Distinct ids, and of every service the newest of what has been saved. -/
structure Stored (calls : List (SaveCall T V)) (table : List (MetricRow T V)) : Prop where
  ids : (table.map MetricRow.id).Nodup
  rows : ∀ s, (rowsOf s table).map MetricRow.entry = (savedEntries py s calls).rtake 288

theorem savedEntries_forward {calls : List (SaveCall T V)} (h : Forward calls) (s : Nat) :
    (savedEntries py s calls).Pairwise fun a b => a.capturedAt < b.capturedAt := by
  refine List.pairwise_filterMap.2 (h.imp fun hnow e he e' he' => ?_)
  unfold SaveCall.saves at he he'
  split_ifs at he with hc
  split_ifs at he' with hc'
  obtain ⟨d, -, rfl⟩ := Option.map_eq_some_iff.1 he
  obtain ⟨d', -, rfl⟩ := Option.map_eq_some_iff.1 he'
  exact hnow (hc.1.trans hc'.1.symm)

theorem Stored.sorted {calls : List (SaveCall T V)} {table : List (MetricRow T V)} (h : Stored py calls table) (hforward : Forward calls)
    (s : Nat) : (rowsOf s table).Pairwise fun a b => a.capturedAt < b.capturedAt := by
  have hentries : ((rowsOf s table).map MetricRow.entry).Pairwise fun a b => a.capturedAt < b.capturedAt := by
    rw [h.rows s]
    exact (savedEntries_forward py hforward s).sublist (List.drop_sublist _ _)
  rw [List.pairwise_map] at hentries
  exact hentries

omit [LinearOrder T] in
theorem savedEntries_concat (s : Nat) (calls : List (SaveCall T V)) (c : SaveCall T V) :
    savedEntries py s (calls ++ [c]) = savedEntries py s calls ++ (c.saves py s).toList := by
  unfold savedEntries
  rw [List.filterMap_append]
  cases hsaves : c.saves py s <;> simp [hsaves]

omit [DecidableEq V] [LinearOrder T] in
theorem rowsOf_concat (s : Nat) (table : List (MetricRow T V)) (row : MetricRow T V) :
    rowsOf s (table ++ [row]) = rowsOf s table ++ if row.serviceId = s then [row] else [] := by
  unfold rowsOf
  rw [List.filter_append, List.filter_singleton]
  simp

omit [LinearOrder T] in
/-- A call that saves nothing leaves all as it is. -/
theorem Stored.unsaved {calls : List (SaveCall T V)} {table : List (MetricRow T V)} {c : SaveCall T V} (h : Stored py calls table)
    (hsaves : ∀ s, c.saves py s = none) : Stored py (calls ++ [c]) table := by
  refine ⟨h.ids, fun s => ?_⟩
  rw [savedEntries_concat, hsaves, h.rows]
  exact congrArg (List.rtake · 288) (List.append_nil _).symm

/-- A row is added, and of its service the 288 newest rows stay. -/
theorem Stored.saved {calls : List (SaveCall T V)} {table : List (MetricRow T V)} {c : SaveCall T V} {row : MetricRow T V}
    (h : Stored py calls table) (hforward : Forward (calls ++ [c])) (hid : row.id = freshId MetricRow.id table)
    (hsaves : ∀ s, c.saves py s = if row.serviceId = s then some row.entry else none) :
    Stored py (calls ++ [c]) ((table ++ [row]).filter fun r => decide (r.id ∉ oldIds row.serviceId (table ++ [row]))) := by
  have hids : ((table ++ [row]).map MetricRow.id).Nodup := nodup_append_fresh MetricRow.id h.ids hid
  have hown : rowsOf row.serviceId (table ++ [row]) = rowsOf row.serviceId table ++ [row] := by
    rw [rowsOf_concat, if_pos rfl]
  have hentries : savedEntries py row.serviceId (calls ++ [c]) = savedEntries py row.serviceId calls ++ [row.entry] := by
    rw [savedEntries_concat, hsaves, if_pos rfl]
    rfl
  have hsorted : (rowsOf row.serviceId (table ++ [row])).Pairwise fun a b => a.capturedAt < b.capturedAt := by
    have hmap : ((rowsOf row.serviceId (table ++ [row])).map MetricRow.entry).Pairwise fun a b => a.capturedAt < b.capturedAt := by
      rw [hown, List.map_append, h.rows]
      refine (savedEntries_forward py hforward row.serviceId).sublist ?_
      rw [hentries]
      exact (List.drop_sublist _ _).append (List.Sublist.refl _)
    rw [List.pairwise_map] at hmap
    exact hmap
  have hold : oldIds row.serviceId (table ++ [row]) = ((rowsOf row.serviceId (table ++ [row])).reverse.drop 288).map MetricRow.id := by
    unfold oldIds
    rw [mergeSort_newestFirst hsorted]
  have hfilter : ∀ s, rowsOf s ((table ++ [row]).filter fun r => decide (r.id ∉ oldIds row.serviceId (table ++ [row]))) =
      (rowsOf s (table ++ [row])).filter fun r => decide (r.id ∉ oldIds row.serviceId (table ++ [row])) := by
    intro s
    unfold rowsOf
    rw [List.filter_filter, List.filter_filter]
    exact List.filter_congr fun r _ => Bool.and_comm _ _
  refine ⟨hids.sublist (List.filter_sublist.map _), fun s => ?_⟩
  rw [hfilter]
  by_cases hs : row.serviceId = s
  · subst hs
    have hnodup : ((rowsOf row.serviceId (table ++ [row])).map MetricRow.id).Nodup := hids.sublist (List.filter_sublist.map _)
    rw [hold, filter_not_mem_drop_reverse MetricRow.id hnodup, List.rtake, List.map_drop, hown, hentries, ← rtake_rtake_concat, ← h.rows,
      List.map_append, List.rtake, List.length_append, List.length_append, List.length_map]
    rfl
  · have hother : rowsOf s (table ++ [row]) = rowsOf s table := by
      rw [rowsOf_concat, if_neg hs, List.append_nil]
    have hkept : (rowsOf s table).filter (fun r => decide (r.id ∉ oldIds row.serviceId (table ++ [row]))) = rowsOf s table := by
      refine List.filter_eq_self.2 fun r hr => ?_
      rw [decide_eq_true_eq, hold, List.mem_map]
      rintro ⟨r', hr', heq⟩
      obtain ⟨hmem, hservice⟩ := List.mem_filter.1 hr
      obtain ⟨hmem', hservice'⟩ := List.mem_filter.1 (List.mem_reverse.1 (List.mem_of_mem_drop hr'))
      have hsame : r' = r := eq_of_id_eq MetricRow.id hids hmem' (List.mem_append_left _ hmem) heq
      rw [hsame] at hservice'
      exact hs ((of_decide_eq_true hservice').symm.trans (of_decide_eq_true hservice))
    rw [hother, hkept, h.rows, savedEntries_concat, hsaves, if_neg hs]
    exact congrArg (List.rtake · 288) (List.append_nil _).symm

/-- What one call does. -/
theorem saveServiceSnapshot_stored {calls : List (SaveCall T V)} {table : List (MetricRow T V)} {c : SaveCall T V}
    (h : Stored py calls table) (hforward : Forward (calls ++ [c])) : Stored py (calls ++ [c]) (saveServiceSnapshot py table c) := by
  unfold saveServiceSnapshot
  cases hdata : snapshotData py c.serviceName c.data with
  | none => exact h.unsaved py fun s => by simp [SaveCall.saves, hdata]
  | some data =>
    dsimp only
    by_cases hraises : c.raises = true
    · rw [if_pos hraises]
      exact h.unsaved py fun s => by simp [SaveCall.saves, hraises]
    · rw [if_neg hraises]
      have hsaves : ∀ s, c.saves py s = if c.serviceId = s then some (MetricRow.entry ⟨freshId MetricRow.id table, c.serviceId, c.now, data⟩)
          else none := by
        intro s
        unfold SaveCall.saves
        rw [hdata]
        by_cases hs : c.serviceId = s
        · rw [if_pos hs, if_pos ⟨hs, Bool.not_eq_true _ ▸ hraises⟩]
          rfl
        · rw [if_neg hs, if_neg fun h => hs h.1]
      have hid : MetricRow.id (⟨freshId MetricRow.id table, c.serviceId, c.now, data⟩ : MetricRow T V) = freshId MetricRow.id table := rfl
      have hstored := h.saved py hforward hid hsaves
      split_ifs with hempty
      · -- nothing is old
        rw [List.isEmpty_iff.1 hempty] at hstored
        rwa [List.filter_eq_self.2 fun r _ => decide_eq_true List.not_mem_nil] at hstored
      · exact hstored

theorem saveAll_stored {calls : List (SaveCall T V)} (hforward : Forward calls) : Stored py calls (saveAll py calls) := by
  induction calls using List.reverseRecOn with
  | nil => exact ⟨List.nodup_nil, fun _ => (List.rtake_nil 288).symm⟩
  | append_singleton calls c ih =>
    have hfold : saveAll py (calls ++ [c]) = saveServiceSnapshot py (saveAll py calls) c := List.foldl_append
    rw [hfold]
    exact saveServiceSnapshot_stored py (ih (List.pairwise_append.1 hforward).1) hforward

/-! ### What the history shows -/

/-- The fallback shows the oldest of what is stored. -/
theorem sqliteHistory_eq {calls : List (SaveCall T V)} (hforward : Forward calls) (s : Nat) {limit : Int} (hlimit : 1 ≤ limit) :
    sqliteHistory (saveAll py calls) s limit = ((savedEntries py s calls).rtake 288).take (min limit 288).toNat := by
  have hstored := saveAll_stored py hforward
  unfold sqliteHistory limitRows
  rw [mergeSort_oldestFirst (hstored.sorted py hforward s), if_neg (by omega), List.map_take, hstored.rows]

theorem sqliteHistory_newest_iff {calls : List (SaveCall T V)} (hforward : Forward calls) (s : Nat) {limit : Int} (hlimit : 1 ≤ limit) :
    sqliteHistory (saveAll py calls) s limit = (savedEntries py s calls).rtake (min limit 288).toNat ↔
      min ((savedEntries py s calls).length : Int) 288 ≤ limit := by
  rw [sqliteHistory_eq py hforward s hlimit]
  have hshown : (savedEntries py s calls).rtake (min limit 288).toNat = ((savedEntries py s calls).rtake 288).rtake (min limit 288).toNat := by
    rw [List.rtake_eq_reverse_take_reverse, List.rtake_eq_reverse_take_reverse, List.rtake_eq_reverse_take_reverse, List.reverse_reverse,
      List.take_take, Nat.min_eq_left (by omega)]
  have hnodup : ((savedEntries py s calls).rtake 288).Nodup := by
    have hsorted := (savedEntries_forward py hforward s).sublist (List.drop_sublist ((savedEntries py s calls).length - 288) _)
    exact hsorted.imp fun hlt heq => absurd (congrArg HistoryEntry.capturedAt heq) (ne_of_lt hlt)
  have hlength : ((savedEntries py s calls).rtake 288).length = min (savedEntries py s calls).length 288 := by
    rw [List.rtake, List.length_drop]
    omega
  rw [hshown, take_eq_rtake_iff hnodup (by omega), hlength]
  omega

/-- After every run of calls the table has of each service the 288 newest snapshots, and the fallback of the two routes shows the newest that
the limit allows just if no more are stored. -/
theorem history_newest_iff {calls : List (SaveCall T V)} (hforward : Forward calls) (s : Nat) :
    (rowsOf s (saveAll py calls)).map MetricRow.entry = (savedEntries py s calls).rtake 288 ∧
    ∀ limit : Int, 1 ≤ limit →
      (pgMetricsHistory (saveAll py calls) s "postgresql".toList limit = some ((savedEntries py s calls).rtake (min limit 288).toNat) ↔
        min ((savedEntries py s calls).length : Int) 288 ≤ limit) ∧
      (redisMetricsHistory (saveAll py calls) s "redis".toList limit = some ((savedEntries py s calls).rtake (min limit 288).toNat) ↔
        min ((savedEntries py s calls).length : Int) 288 ≤ limit) := by
  refine ⟨(saveAll_stored py hforward).rows s, fun limit hlimit => ?_⟩
  have hiff := sqliteHistory_newest_iff py hforward s hlimit
  unfold pgMetricsHistory redisMetricsHistory metricsHistory
  rw [if_pos rfl, if_pos rfl, Option.some.injEq]
  exact ⟨hiff, hiff⟩

end

/-! ### More readings than the limit -/

/-- Readings of texts only. -/
def textReadings : Readings Text where
  none := []
  zero := ['0']
  text := id
  isText _ := true
  str := id
  rstripPercent t := (t.reverse.dropWhile (· = '%')).reverse
  safeInt := id
  safeFloat := id
  truthy t := !t.isEmpty

/-- A reading of a database at an instant. -/
def postgresReading (i : Nat) : SaveCall Nat Text := ⟨1, "postgresql".toList, [("type".toList, "postgresql".toList)], i, false⟩

/-- Readings at the first `n` instants. -/
def readings (n : Nat) : List (SaveCall Nat Text) := (List.range n).map postgresReading

theorem forward_readings (n : Nat) : Forward (readings n) := by
  refine List.pairwise_map.2 (List.Pairwise.imp ?_ List.pairwise_lt_range)
  exact fun hlt _ => hlt

theorem length_savedEntries_readings (n : Nat) : (savedEntries textReadings 1 (readings n)).length = n := by
  have hsaves : ∀ i : Nat, ∃ e, (postgresReading i).saves textReadings 1 = some e := fun i => ⟨_, rfl⟩
  choose e he using hsaves
  have hcomp : SaveCall.saves textReadings 1 ∘ postgresReading = some ∘ e := funext he
  unfold savedEntries readings
  rw [List.filterMap_map, hcomp, List.filterMap_eq_map, List.length_map, List.length_range]

/-- The default limit is 144. -/
theorem oldest_of_145 : ¬∀ limit : Int, 1 ≤ limit →
    pgMetricsHistory (saveAll textReadings (readings 145)) 1 "postgresql".toList limit =
      some ((savedEntries textReadings 1 (readings 145)).rtake (min limit 288).toNat) := by
  intro h
  have hshown := h 144 (by omega)
  unfold pgMetricsHistory metricsHistory at hshown
  rw [if_pos rfl, Option.some.injEq, sqliteHistory_newest_iff textReadings (forward_readings 145) 1 (by omega),
    length_savedEntries_readings] at hshown
  omega

theorem newest_of_145 :
    pgMetricsHistory (saveAll textReadings (readings 145)) 1 "postgresql".toList 288 =
        some ((savedEntries textReadings 1 (readings 145)).rtake 288) ∧
      pgMetricsHistory (saveAll textReadings (readings 145)) 1 "postgresql".toList 144 ≠
        some ((savedEntries textReadings 1 (readings 145)).rtake 144) := by
  obtain ⟨-, hshown⟩ := history_newest_iff textReadings (forward_readings 145) 1
  refine ⟨(hshown 288 (by omega)).1.2 ?_, fun h => ?_⟩
  · rw [length_savedEntries_readings]
    omega
  · have hle := (hshown 144 (by omega)).1.1 h
    rw [length_savedEntries_readings] at hle
    omega

end ProxmoxTool.Metrics
