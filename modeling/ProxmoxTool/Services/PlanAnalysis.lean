import Mathlib
import ProxmoxTool.Lib.Text

/-!
# Findings in a query plan

`_analyze_pg_plan` of `routes/services.py` walks a plan of PostgreSQL, as `EXPLAIN (ANALYZE, BUFFERS, FORMAT JSON)` prints it, and reports
what ten rules find in its nodes, each rule once for a relation or a node type.

The walk carries the findings and the keys that have been reported, and a flag for what is below a join.  After it the keys are those of all
nodes (`walk_recorded`), if it comes to an end at all: it raises at a `Plans` that is null and below the interpreter's limit of frames
(`walk_isSome_iff`).  The rule for sorts asks the sort method for the disk, which stands in a field of its own.  So the analysis is complete
of the plans without these (`analyze_complete_iff`).
-/

namespace ProxmoxTool.Services.PgPlan

inductive SortMethod
  | stillInProgress
  | topNHeapsort
  | quicksort
  | externalSort
  | externalMerge
  deriving DecidableEq

def SortMethod.text : SortMethod → Text
  | .stillInProgress => "still in progress".toList
  | .topNHeapsort => "top-N heapsort".toList
  | .quicksort => "quicksort".toList
  | .externalSort => "external sort".toList
  | .externalMerge => "external merge".toList

inductive SpaceType
  | memory
  | disk
  deriving DecidableEq

/-- `Sort Method`, `Sort Space Used` and `Sort Space Type`, which come together. -/
structure SortInfo where
  method : SortMethod
  spaceUsed : Rat
  spaceType : SpaceType
  deriving DecidableEq

/-- The fields of a node that the rules read.  A text that is missing is empty. -/
structure Node where
  nodeType : Text
  relation : Text := []
  actualRows : Option Rat := none
  actualLoops : Option Rat := none
  actualTotalTime : Option Rat := none
  planRows : Option Rat := none
  planWidth : Option Rat := none
  sort : Option SortInfo := none
  hashBatches : Option Rat := none
  tempRead : Option Rat := none
  tempWritten : Option Rat := none
  lossyBlocks : Option Rat := none
  exactBlocks : Option Rat := none
  rowsRemoved : Option Rat := none
  workersPlanned : Option Rat := none
  workersLaunched : Option Rat := none
  deriving DecidableEq

/-- A plan: a node with its `Plans`, which are none if they are missing; a node whose `Plans` are null; a value that is no object. -/
inductive Plan
  | node (fields : Node) (plans : List Plan)
  | nullPlans (fields : Node)
  | noObject

/-- `node.get(key, default) or default`. -/
def orElse (value : Option Rat) (default : Rat) : Rat :=
  match value with
  | some x => if x = 0 then default else x
  | none => default

def Node.rows (n : Node) : Rat := orElse n.actualRows 0

def Node.loops (n : Node) : Rat := orElse n.actualLoops 1

def Node.totalTime (n : Node) : Rat := orElse n.actualTotalTime 0 * n.loops

def Node.fraction (n : Node) : Rat := orElse n.rowsRemoved 0 / (orElse n.rowsRemoved 0 + n.rows)

/-- `_JOIN_TYPES`. -/
def joinTypes : List Text := ["Hash Join".toList, "Merge Join".toList, "Nested Loop".toList]

inductive Rule
  | seqScanInJoin
  | sortSpillToDisk
  | hashSpillToDisk
  | tempBlocksUsage
  | nestedLoopHighLoops
  | correlatedSubplanLoops
  | bitmapHeapRecheck
  | indexLowSelectivity
  | workerMismatch
  | wideRows
  deriving DecidableEq

namespace Rule

/-- In the order of the source. -/
def all : List Rule :=
  [seqScanInJoin, sortSpillToDisk, hashSpillToDisk, tempBlocksUsage, nestedLoopHighLoops, correlatedSubplanLoops, bitmapHeapRecheck,
    indexLowSelectivity, workerMismatch, wideRows]

def text : Rule → Text
  | seqScanInJoin => "seq_scan_in_join".toList
  | sortSpillToDisk => "sort_spill_to_disk".toList
  | hashSpillToDisk => "hash_spill_to_disk".toList
  | tempBlocksUsage => "temp_blocks_usage".toList
  | nestedLoopHighLoops => "nested_loop_high_loops".toList
  | correlatedSubplanLoops => "correlated_subplan_loops".toList
  | bitmapHeapRecheck => "bitmap_heap_recheck".toList
  | indexLowSelectivity => "index_low_selectivity".toList
  | workerMismatch => "worker_mismatch".toList
  | wideRows => "wide_rows".toList

/-- The condition of a rule. -/
def fires (inJoin : Bool) (n : Node) : Rule → Bool
  | seqScanInJoin => n.nodeType = "Seq Scan".toList && inJoin && decide (n.rows > 10000)
  | sortSpillToDisk => n.nodeType = "Sort".toList && decide ("disk".toList <:+: (n.sort.elim [] fun s => s.method.text.map Char.toLower))
  | hashSpillToDisk => n.nodeType = "Hash".toList && decide (orElse n.hashBatches 1 > 1)
  | tempBlocksUsage => decide (orElse n.tempRead 0 > 0) || decide (orElse n.tempWritten 0 > 0)
  | nestedLoopHighLoops => n.nodeType = "Nested Loop".toList && decide (n.loops > 1000) && decide (n.totalTime > 5000)
  | correlatedSubplanLoops => decide ("Subquery".toList <:+: n.nodeType) && decide (n.loops > 100)
  | bitmapHeapRecheck => n.nodeType = "Bitmap Heap Scan".toList && decide (orElse n.lossyBlocks 0 > 0) && decide (orElse n.exactBlocks 0 = 0)
  | indexLowSelectivity =>
    (decide ("Index Scan".toList <:+ n.nodeType) || n.nodeType = "Index Only Scan".toList) && decide (orElse n.rowsRemoved 0 > n.rows) &&
      decide (n.rows > 0) && decide (n.fraction > 1 / 2)
  | workerMismatch =>
    decide (orElse n.workersPlanned 0 > 0) && n.workersLaunched.any fun launched => decide (launched < orElse n.workersPlanned 0)
  | wideRows => decide (orElse n.planWidth 0 > 2000) && decide (n.rows > 1000)

/-- What the findings of a rule are told apart by. -/
def keyOf (n : Node) : Rule → Text
  | tempBlocksUsage | workerMismatch => n.nodeType
  | nestedLoopHighLoops => []
  | wideRows => if n.relation = [] then n.nodeType else n.relation
  | _ => n.relation

end Rule

/-- `{x:,}`, `{x}`, `{x:,.0f}`, `{x:.1f}` and `{x:.0%}`. -/
structure Format where
  commas : Rat → Text
  plain : Rat → Text
  rounded : Rat → Text
  oneDecimal : Rat → Text
  percent : Rat → Text

structure Finding where
  severity : Text
  rule : Text
  message : Text
  recommendation : Text
  deriving DecidableEq

def Rule.severity : Rule → Text
  | .seqScanInJoin | .sortSpillToDisk => "critical".toList
  | .indexLowSelectivity | .wideRows => "info".toList
  | _ => "warning".toList

def Rule.message (f : Format) (n : Node) : Rule → Text
  | .seqScanInJoin =>
    "Sequential scan on \"".toList ++ n.relation ++ "\" (".toList ++ f.commas n.rows ++ " rows) inside a join.".toList
  | .sortSpillToDisk =>
    "Sort spilled to disk (".toList ++ (n.sort.elim [] fun s => s.method.text) ++ ", ".toList ++
      f.commas (n.sort.elim 0 fun s => s.spaceUsed) ++ " kB used).".toList
  | .hashSpillToDisk => "Hash join used ".toList ++ f.plain (orElse n.hashBatches 1) ++ " batches — spilled to disk.".toList
  | .tempBlocksUsage =>
    "Temporary I/O detected: ".toList ++ f.commas (orElse n.tempRead 0) ++ " blocks read, ".toList ++ f.commas (orElse n.tempWritten 0) ++
      " blocks written in ".toList ++ n.nodeType ++ ".".toList
  | .nestedLoopHighLoops =>
    "Nested loop executed ".toList ++ f.commas n.loops ++ " times with ".toList ++ f.rounded n.totalTime ++ " ms total time.".toList
  | .correlatedSubplanLoops =>
    "Subquery executed ".toList ++ f.commas n.loops ++ " times — likely a correlated subquery.".toList
  | .bitmapHeapRecheck =>
    "Bitmap heap scan on \"".toList ++ n.relation ++ "\" used ".toList ++ f.commas (orElse n.lossyBlocks 0) ++
      " lossy pages — all rows rechecked.".toList
  | .indexLowSelectivity =>
    "Index scan on \"".toList ++ n.relation ++ "\" removed ".toList ++ f.commas (orElse n.rowsRemoved 0) ++ " rows, returning only ".toList ++
      f.commas n.rows ++ " (".toList ++ f.percent n.fraction ++ " filtered out).".toList
  | .workerMismatch =>
    "Only ".toList ++ f.plain (n.workersLaunched.getD 0) ++ " of ".toList ++ f.plain (orElse n.workersPlanned 0) ++
      " planned parallel workers launched.".toList
  | .wideRows =>
    "Node producing ".toList ++ f.commas n.rows ++ " rows of ".toList ++ f.plain (orElse n.planWidth 0) ++ " bytes each (".toList ++
      f.oneDecimal (orElse n.planRows 0 * orElse n.planWidth 0 / 1024 / 1024) ++ " MB estimated).".toList

def Rule.recommendation : Rule → Text
  | .seqScanInJoin => "Add an index on the join column(s) used against this table.".toList
  | .sortSpillToDisk => "Increase work_mem to allow in-memory sorts for this query.".toList
  | .hashSpillToDisk => "Increase work_mem to allow the hash table to fit in memory.".toList
  | .tempBlocksUsage => "Increase work_mem or restructure the query to reduce temporary disk usage.".toList
  | .nestedLoopHighLoops => "Consider rewriting as a hash join or merge join, or add an index on the inner table.".toList
  | .correlatedSubplanLoops => "Rewrite as a JOIN or use a CTE to avoid repeated subquery execution.".toList
  | .bitmapHeapRecheck => "Increase work_mem so the bitmap fits in memory and avoids lossy storage.".toList
  | .indexLowSelectivity => "Consider a partial or composite index to improve selectivity.".toList
  | .workerMismatch => "Check max_worker_processes, max_parallel_workers, and system CPU availability.".toList
  | .wideRows => "Select only required columns to reduce row width and memory pressure.".toList

section

variable (f : Format)

def finding (n : Node) (rule : Rule) : Finding := ⟨rule.severity, rule.text, rule.message f n, rule.recommendation⟩

/-- The findings of a node with their keys. -/
def nodeReports (inJoin : Bool) (n : Node) : List ((Rule × Text) × Finding) :=
  (Rule.all.filter (Rule.fires inJoin n)).map fun rule => ((rule, rule.keyOf n), finding f n rule)

/-- `findings` and `seen`. -/
structure Walked where
  findings : List Finding := []
  seen : List (Rule × Text) := []

def report (w : Walked) (r : (Rule × Text) × Finding) : Walked :=
  if r.1 ∈ w.seen then w else ⟨w.findings ++ [r.2], w.seen ++ [r.1]⟩

/-- `_walk_node`; none if it raises, for a `Plans` that is null or because no frames are left. -/
def walk : Nat → Bool → Walked → Plan → Option Walked
  | 0, _, _, _ => none
  | _ + 1, _, w, .noObject => some w
  | _ + 1, _, _, .nullPlans _ => none
  | frames + 1, inJoin, w, .node n plans =>
    plans.foldlM (walk frames (inJoin || decide (n.nodeType ∈ joinTypes))) ((nodeReports f inJoin n).foldl report w)

def parseError : Finding :=
  ⟨"info".toList, "parse_error".toList, "Could not parse plan JSON.".toList,
    "Check that EXPLAIN (FORMAT JSON) executed successfully.".toList⟩

/-- `_analyze_pg_plan`, of the `Plan` of each element of the list, if it has one. -/
def analyze (frames : Nat) (tops : List (Option Plan)) : List Finding :=
  if tops = [] then [parseError]
  else
    match (tops.filterMap id).foldlM (walk f frames false) {} with
    | some w => w.findings
    | none => [parseError]

end

/-! ### What there is to find -/

/-- A node of a plan; the flags say whether the plan and the node are below a join. -/
inductive Plan.Has : Plan → Bool → Bool → Node → Prop
  | here (n : Node) (plans : List Plan) (inJoin : Bool) : Has (.node n plans) inJoin inJoin n
  | hereNull (n : Node) (inJoin : Bool) : Has (.nullPlans n) inJoin inJoin n
  | child {n : Node} {plans : List Plan} {inJoin : Bool} {child : Plan} {inJoin' : Bool} {n' : Node} (hchild : child ∈ plans)
      (h : Has child (inJoin || decide (n.nodeType ∈ joinTypes)) inJoin' n') : Has (.node n plans) inJoin inJoin' n'

/-- A sort that has spilled to the disk. -/
def Node.spilled (n : Node) : Prop := n.nodeType = "Sort".toList ∧ ∃ s, n.sort = some s ∧ s.spaceType = .disk

/-- The condition of a rule, as PostgreSQL says it. -/
def Rule.Meets (inJoin : Bool) (n : Node) (rule : Rule) : Prop :=
  if rule = .sortSpillToDisk then n.spilled else rule.fires inJoin n = true

/-- A node of one of the plans. -/
def HasNode (tops : List (Option Plan)) (inJoin : Bool) (n : Node) : Prop := ∃ root, some root ∈ tops ∧ root.Has false inJoin n

/-- The findings are those of distinct keys, each from a node that meets its rule, and these are the keys of all nodes. -/
def Complete (f : Format) (tops : List (Option Plan)) (findings : List Finding) : Prop :=
  ∃ keys : List (Rule × Text), keys.Nodup ∧
    (∀ key, key ∈ keys ↔ ∃ inJoin n, HasNode tops inJoin n ∧ key.1.Meets inJoin n ∧ key.1.keyOf n = key.2) ∧
    List.Forall₂ (fun key found => ∃ inJoin n, HasNode tops inJoin n ∧ key.1.Meets inJoin n ∧ key.1.keyOf n = key.2 ∧
      found = finding f n key.1) keys findings

/-- No `Plans` is null, and the plan is at most so deep. -/
inductive Plan.Walkable : Nat → Plan → Prop
  | noObject (frames : Nat) : Walkable (frames + 1) .noObject
  | node {frames : Nat} (n : Node) {plans : List Plan} (h : ∀ child ∈ plans, Walkable frames child) : Walkable (frames + 1) (.node n plans)

/-! ### Reports -/

section

variable {f : Format}

theorem SortMethod.no_disk (method : SortMethod) : ¬"disk".toList <:+: method.text.map Char.toLower := by
  cases method <;> decide +kernel

/-- The rule for sorts never fires. -/
theorem Rule.fires_sort (inJoin : Bool) (n : Node) : Rule.sortSpillToDisk.fires inJoin n = false := by
  have hdisk : ¬"disk".toList <:+: (n.sort.elim [] fun s => s.method.text.map Char.toLower) := by
    cases n.sort with
    | none => exact fun h => absurd (List.infix_nil.1 h) (by decide)
    | some s => exact s.method.no_disk
  change (_ && decide _) = false
  rw [decide_eq_false hdisk, Bool.and_false]

theorem Rule.meets_of_fires {inJoin : Bool} {n : Node} {rule : Rule} (h : rule.fires inJoin n = true) : rule.Meets inJoin n := by
  unfold Rule.Meets
  by_cases hsort : rule = .sortSpillToDisk
  · rw [hsort, Rule.fires_sort] at h
    cases h
  · rw [if_neg hsort]
    exact h

theorem Rule.mem_all (rule : Rule) : rule ∈ Rule.all := by
  cases rule <;> decide

theorem mem_nodeReports {inJoin : Bool} {n : Node} {key : Rule × Text} {found : Finding} :
    (key, found) ∈ nodeReports f inJoin n ↔ key.1.fires inJoin n = true ∧ key.1.keyOf n = key.2 ∧ found = finding f n key.1 := by
  unfold nodeReports
  rw [List.mem_map]
  constructor
  · rintro ⟨rule, hrule, heq⟩
    cases heq
    exact ⟨(List.mem_filter.1 hrule).2, rfl, rfl⟩
  · rintro ⟨hfires, hkey, rfl⟩
    exact ⟨key.1, List.mem_filter.2 ⟨key.1.mem_all, hfires⟩, Prod.ext (Prod.ext rfl hkey) rfl⟩

/-- The keys are distinct and stand for the findings, in their order. -/
structure Recorded (R : Rule × Text → Finding → Prop) (w : Walked) : Prop where
  nodup : w.seen.Nodup
  findings : List.Forall₂ R w.seen w.findings

theorem report_recorded {R : Rule × Text → Finding → Prop} {w : Walked} (h : Recorded R w) {r : (Rule × Text) × Finding} (hr : R r.1 r.2) :
    Recorded R (report w r) ∧ ∀ key, key ∈ (report w r).seen ↔ key ∈ w.seen ∨ key = r.1 := by
  unfold report
  by_cases hseen : r.1 ∈ w.seen
  · rw [if_pos hseen]
    refine ⟨h, fun key => ⟨.inl, ?_⟩⟩
    rintro (hkey | rfl)
    · exact hkey
    · exact hseen
  · rw [if_neg hseen]
    refine ⟨⟨?_, List.rel_append h.findings (.cons hr .nil)⟩, fun key => ?_⟩
    · rw [List.nodup_append]
      refine ⟨h.nodup, List.nodup_singleton _, fun a ha b hb hab => hseen ?_⟩
      rwa [← List.mem_singleton.1 hb, ← hab]
    · rw [List.mem_append, List.mem_singleton]

theorem foldl_report_recorded {R : Rule × Text → Finding → Prop} {rs : List ((Rule × Text) × Finding)} (hrs : ∀ r ∈ rs, R r.1 r.2) :
    ∀ {w : Walked}, Recorded R w →
      Recorded R (rs.foldl report w) ∧ ∀ key, key ∈ (rs.foldl report w).seen ↔ key ∈ w.seen ∨ ∃ found, (key, found) ∈ rs := by
  induction rs with
  | nil => exact fun h => ⟨h, fun key => by simp⟩
  | cons r rs ih =>
    intro w h
    obtain ⟨hreport, hkeys⟩ := report_recorded h (hrs r List.mem_cons_self)
    obtain ⟨hrest, hkeys'⟩ := ih (fun r hr => hrs r (List.mem_cons_of_mem _ hr)) hreport
    refine ⟨hrest, fun key => ?_⟩
    rw [List.foldl_cons, hkeys', hkeys, or_assoc]
    refine or_congr_right ⟨?_, ?_⟩
    · rintro (rfl | ⟨found, hfound⟩)
      · exact ⟨r.2, List.mem_cons_self⟩
      · exact ⟨found, List.mem_cons_of_mem _ hfound⟩
    · rintro ⟨found, hfound⟩
      rcases List.mem_cons.1 hfound with heq | hfound
      · exact .inl (Prod.ext_iff.1 heq).1
      · exact .inr ⟨found, hfound⟩

/-! ### The walk -/

/-- A node of the plan reports the key. -/
def Plan.Reports (f : Format) (p : Plan) (inJoin : Bool) (key : Rule × Text) : Prop :=
  ∃ inJoin' n found, p.Has inJoin inJoin' n ∧ (key, found) ∈ nodeReports f inJoin' n

/-- What a walk adds for each of some plans. -/
theorem foldlM_recorded {R : Rule × Text → Finding → Prop} {step : Walked → Plan → Option Walked} {Q : Plan → Rule × Text → Prop}
    {ps : List Plan} (hstep : ∀ p ∈ ps, ∀ w w', step w p = some w' → Recorded R w →
      Recorded R w' ∧ ∀ key, key ∈ w'.seen ↔ key ∈ w.seen ∨ Q p key) :
    ∀ {w w' : Walked}, ps.foldlM step w = some w' → Recorded R w →
      Recorded R w' ∧ ∀ key, key ∈ w'.seen ↔ key ∈ w.seen ∨ ∃ p ∈ ps, Q p key := by
  induction ps with
  | nil =>
    intro w w' h hw
    cases h
    exact ⟨hw, fun key => by simp⟩
  | cons p ps ih =>
    intro w w' h hw
    rw [List.foldlM_cons] at h
    obtain ⟨v, hv, hrest⟩ := Option.bind_eq_some_iff.1 h
    obtain ⟨hrecorded, hkeys⟩ := hstep p List.mem_cons_self w v hv hw
    obtain ⟨hrecorded', hkeys'⟩ := ih (fun q hq => hstep q (List.mem_cons_of_mem _ hq)) hrest hrecorded
    refine ⟨hrecorded', fun key => ?_⟩
    rw [hkeys', hkeys, or_assoc, List.exists_mem_cons_iff]

theorem walk_recorded {R : Rule × Text → Finding → Prop} {frames : Nat} :
    ∀ {p : Plan} {inJoin : Bool} {w w' : Walked}, walk f frames inJoin w p = some w' → Recorded R w →
      (∀ inJoin' n, p.Has inJoin inJoin' n → ∀ r ∈ nodeReports f inJoin' n, R r.1 r.2) →
      Recorded R w' ∧ ∀ key, key ∈ w'.seen ↔ key ∈ w.seen ∨ p.Reports f inJoin key := by
  induction frames with
  | zero =>
    intro p inJoin w w' h
    cases h
  | succ frames ih =>
    intro p inJoin w w' h hw hR
    cases p with
    | noObject =>
      cases h
      refine ⟨hw, fun key => ⟨.inl, ?_⟩⟩
      rintro (hkey | ⟨_, _, _, hhas, _⟩)
      · exact hkey
      · cases hhas
    | nullPlans n => cases h
    | node n plans =>
      change plans.foldlM (walk f frames _) _ = some w' at h
      obtain ⟨hnode, hnodeKeys⟩ := foldl_report_recorded (hR inJoin n (.here n plans inJoin)) hw
      obtain ⟨hrecorded, hkeys⟩ := foldlM_recorded (R := R) (Q := fun p key => p.Reports f (inJoin || decide (n.nodeType ∈ joinTypes)) key)
        (fun child hchild v v' hv hv' => ih hv hv' fun inJoin' n' hhas => hR inJoin' n' (.child hchild hhas)) h hnode
      refine ⟨hrecorded, fun key => ?_⟩
      rw [hkeys, hnodeKeys, or_assoc]
      refine or_congr_right ⟨?_, ?_⟩
      · rintro (⟨found, hfound⟩ | ⟨child, hchild, inJoin', n', found, hhas, hfound⟩)
        · exact ⟨inJoin, n, found, .here n plans inJoin, hfound⟩
        · exact ⟨inJoin', n', found, .child hchild hhas, hfound⟩
      · rintro ⟨inJoin', n', found, hhas, hfound⟩
        cases hhas with
        | here => exact .inl ⟨found, hfound⟩
        | child hchild hhas => exact .inr ⟨_, hchild, inJoin', n', found, hhas, hfound⟩

theorem foldlM_isSome_iff {step : Walked → Plan → Option Walked} {Q : Plan → Prop} {ps : List Plan}
    (hstep : ∀ p ∈ ps, ∀ w, (step w p).isSome = true ↔ Q p) (w : Walked) : (ps.foldlM step w).isSome = true ↔ ∀ p ∈ ps, Q p := by
  induction ps generalizing w with
  | nil => simp
  | cons p ps ih =>
    rw [List.foldlM_cons, List.forall_mem_cons]
    have hfirst := hstep p List.mem_cons_self w
    cases hp : step w p with
    | none =>
      rw [hp] at hfirst
      exact ⟨fun h => absurd h (by simp), fun h => absurd (hfirst.2 h.1) (by simp)⟩
    | some v =>
      rw [hp] at hfirst
      have hQ : Q p := hfirst.1 rfl
      have hrest := ih (fun q hq => hstep q (List.mem_cons_of_mem _ hq)) v
      exact ⟨fun h => ⟨hQ, hrest.1 h⟩, fun h => hrest.2 h.2⟩

theorem walk_isSome_iff {frames : Nat} : ∀ {p : Plan} {inJoin : Bool} {w : Walked},
    (walk f frames inJoin w p).isSome = true ↔ p.Walkable frames := by
  induction frames with
  | zero =>
    intro p inJoin w
    refine ⟨fun h => ?_, fun h => ?_⟩
    · cases h
    · cases h
  | succ frames ih =>
    intro p inJoin w
    cases p with
    | noObject => exact ⟨fun _ => .noObject frames, fun _ => rfl⟩
    | nullPlans n =>
      refine ⟨fun h => ?_, fun h => ?_⟩
      · cases h
      · cases h
    | node n plans =>
      refine (foldlM_isSome_iff (Q := fun child => child.Walkable frames) (fun child _ v => ih) _).trans
        ⟨fun h => .node n h, fun h => ?_⟩
      cases h with
      | node _ h => exact h

theorem foldlM_walk_isSome_iff {frames : Nat} {inJoin : Bool} {ps : List Plan} {w : Walked} :
    (ps.foldlM (walk f frames inJoin) w).isSome = true ↔ ∀ p ∈ ps, p.Walkable frames := by
  refine foldlM_isSome_iff (Q := fun p => p.Walkable frames) (fun p _ v => ?_) w
  exact walk_isSome_iff

/-! ### The analysis -/

theorem forall₂_exists_of_mem_left {α β : Type} {R : α → β → Prop} {l : List α} {l' : List β} (h : List.Forall₂ R l l') {a : α} (ha : a ∈ l) :
    ∃ b ∈ l', R a b := by
  induction h with
  | nil => cases ha
  | cons hfirst _ ih =>
    rcases List.mem_cons.1 ha with rfl | ha
    · exact ⟨_, List.mem_cons_self, hfirst⟩
    · obtain ⟨b, hb, hR⟩ := ih ha
      exact ⟨b, List.mem_cons_of_mem _ hb, hR⟩

theorem forall₂_exists_of_mem_right {α β : Type} {R : α → β → Prop} {l : List α} {l' : List β} (h : List.Forall₂ R l l') {b : β}
    (hb : b ∈ l') : ∃ a ∈ l, R a b :=
  forall₂_exists_of_mem_left h.flip hb

theorem Rule.text_ne_parseError (rule : Rule) : rule.text ≠ parseError.rule := by
  cases rule <;> decide +kernel

theorem Rule.text_injective : Function.Injective Rule.text := by
  intro rule rule' h
  cases rule <;> cases rule' <;> first | rfl | exact absurd h (by decide +kernel)

/-- A walk to the end reports what the nodes meet, spilled sorts apart. -/
theorem analyze_of_walkable {frames : Nat} {tops : List (Option Plan)} (hne : tops ≠ [])
    (hwalkable : ∀ root, some root ∈ tops → root.Walkable frames) :
    ∃ w, analyze f frames tops = w.findings ∧
      Recorded (fun key found => ∃ inJoin n, HasNode tops inJoin n ∧ (key, found) ∈ nodeReports f inJoin n) w ∧
      ∀ key, key ∈ w.seen ↔ ∃ inJoin n found, HasNode tops inJoin n ∧ (key, found) ∈ nodeReports f inJoin n := by
  have hroots : ∀ root, root ∈ tops.filterMap id ↔ some root ∈ tops := by
    intro root
    rw [List.mem_filterMap]
    simp
  have hsome : ((tops.filterMap id).foldlM (walk f frames false) {}).isSome = true :=
    foldlM_walk_isSome_iff.2 fun root hroot => hwalkable root ((hroots root).1 hroot)
  obtain ⟨w, hw⟩ := Option.isSome_iff_exists.1 hsome
  have hempty : Recorded (fun key found => ∃ inJoin n, HasNode tops inJoin n ∧ (key, found) ∈ nodeReports f inJoin n) {} :=
    ⟨List.nodup_nil, .nil⟩
  obtain ⟨hrecorded, hkeys⟩ := foldlM_recorded (Q := fun root key => root.Reports f false key)
    (fun root hroot v v' hv hv' => walk_recorded hv hv' fun inJoin n hhas r hr =>
      ⟨inJoin, n, ⟨root, (hroots root).1 hroot, hhas⟩, hr⟩) hw hempty
  refine ⟨w, ?_, hrecorded, fun key => ?_⟩
  · unfold analyze
    rw [if_neg hne, hw]
  · rw [hkeys]
    constructor
    · rintro (hkey | ⟨root, hroot, inJoin, n, found, hhas, hfound⟩)
      · cases hkey
      · exact ⟨inJoin, n, found, ⟨root, (hroots root).1 hroot, hhas⟩, hfound⟩
    · rintro ⟨inJoin, n, found, ⟨root, hroot, hhas⟩, hfound⟩
      exact .inr ⟨root, (hroots root).2 hroot, inJoin, n, found, hhas, hfound⟩

theorem analyze_of_not_walkable {frames : Nat} {tops : List (Option Plan)} {root : Plan} (hroot : some root ∈ tops)
    (h : ¬root.Walkable frames) : analyze f frames tops = [parseError] := by
  have hnone : (tops.filterMap id).foldlM (walk f frames false) {} = none := by
    rw [← Option.not_isSome_iff_eq_none, foldlM_walk_isSome_iff]
    exact fun hall => h (hall root (List.mem_filterMap.2 ⟨some root, hroot, rfl⟩))
  unfold analyze
  rw [if_neg (List.ne_nil_of_mem hroot), hnone]

/-- The analysis is complete of a plan just if no `Plans` in it is null, it is not deeper than the frames that are left, and no sort of it has
spilled to the disk. -/
theorem analyze_complete_iff (f : Format) (frames : Nat) {tops : List (Option Plan)} (hne : tops ≠ []) :
    Complete f tops (analyze f frames tops) ↔
      (∀ root, some root ∈ tops → root.Walkable frames) ∧ ∀ inJoin n, HasNode tops inJoin n → ¬n.spilled := by
  constructor
  · rintro ⟨keys, -, hkeys, hfindings⟩
    have hwalkable : ∀ root, some root ∈ tops → root.Walkable frames := by
      intro root hroot
      by_contra hnot
      rw [analyze_of_not_walkable hroot hnot] at hfindings
      cases hfindings with
      | cons hfirst _ =>
        obtain ⟨inJoin, n, -, -, -, hfound⟩ := hfirst
        exact Rule.text_ne_parseError _ (congrArg Finding.rule hfound).symm
    refine ⟨hwalkable, fun inJoin n hhas hspilled => ?_⟩
    obtain ⟨w, hanalyze, hrecorded, -⟩ := analyze_of_walkable hne hwalkable
    have hkey : (Rule.sortSpillToDisk, Rule.sortSpillToDisk.keyOf n) ∈ keys :=
      (hkeys _).2 ⟨inJoin, n, hhas, (if_pos rfl).mpr hspilled, rfl⟩
    -- the finding of the key comes from a rule that fires
    obtain ⟨found, hfound, inJoin', n', -, -, -, heq⟩ := forall₂_exists_of_mem_left hfindings hkey
    rw [hanalyze] at hfound
    obtain ⟨key, -, inJoin'', n'', -, hreport⟩ := forall₂_exists_of_mem_right hrecorded.findings hfound
    obtain ⟨hfires, -, heq'⟩ := mem_nodeReports.1 hreport
    have hrule : Rule.sortSpillToDisk = key.1 := Rule.text_injective (congrArg Finding.rule (heq.symm.trans heq'))
    rw [← hrule, Rule.fires_sort] at hfires
    cases hfires
  · rintro ⟨hwalkable, hspilled⟩
    obtain ⟨w, hanalyze, hrecorded, hkeys⟩ := analyze_of_walkable (f := f) hne hwalkable
    have hfires : ∀ {inJoin n} {rule : Rule}, HasNode tops inJoin n → rule.Meets inJoin n → rule.fires inJoin n = true := by
      intro inJoin n rule hhas hmeets
      unfold Rule.Meets at hmeets
      by_cases hsort : rule = .sortSpillToDisk
      · rw [if_pos hsort] at hmeets
        exact absurd hmeets (hspilled inJoin n hhas)
      · rwa [if_neg hsort] at hmeets
    refine ⟨w.seen, hrecorded.nodup, fun key => ?_, ?_⟩
    · rw [hkeys]
      constructor
      · rintro ⟨inJoin, n, found, hhas, hreport⟩
        obtain ⟨hfire, hkey, -⟩ := mem_nodeReports.1 hreport
        exact ⟨inJoin, n, hhas, Rule.meets_of_fires hfire, hkey⟩
      · rintro ⟨inJoin, n, hhas, hmeets, hkey⟩
        exact ⟨inJoin, n, _, hhas, mem_nodeReports.2 ⟨hfires hhas hmeets, hkey, rfl⟩⟩
    · rw [hanalyze]
      refine hrecorded.findings.imp fun key found ⟨inJoin, n, hhas, hreport⟩ => ?_
      obtain ⟨hfire, hkey, heq⟩ := mem_nodeReports.1 hreport
      exact ⟨inJoin, n, hhas, Rule.meets_of_fires hfire, hkey, heq⟩

/-- Digits in groups of three, from the last to the first. -/
def grouped : Text → Text
  | a :: b :: c :: d :: rest => a :: b :: c :: ',' :: grouped (d :: rest)
  | digits => digits

/-- How whole numbers are written. -/
def wholeNumbers : Format where
  commas x := (grouped (toString x.num.natAbs).toList.reverse).reverse
  plain x := (toString x.num.natAbs).toList
  rounded x := (grouped (toString x.num.natAbs).toList.reverse).reverse
  oneDecimal x := (toString x.num.natAbs).toList ++ ".0".toList
  percent x := (toString (x * 100).num.natAbs).toList ++ "%".toList

/-- A scan of 50000 rows below a join, with a hash of four batches beside it. -/
def joinPlan : Plan :=
  .node { nodeType := "Hash Join".toList }
    [.node { nodeType := "Seq Scan".toList, relation := "statuses".toList, actualRows := some 50000 } [],
      .node { nodeType := "Hash".toList, hashBatches := some 4 } []]

theorem joinPlan_complete : Complete wholeNumbers [some joinPlan] (analyze wholeNumbers 900 [some joinPlan]) := by
  refine (analyze_complete_iff wholeNumbers 900 (by simp)).2 ⟨fun root hroot => ?_, fun inJoin n ⟨root, hroot, hhas⟩ hspilled => ?_⟩
  · cases List.mem_singleton.1 hroot
    refine .node _ fun child hchild => ?_
    rcases List.mem_pair.1 hchild with rfl | rfl
    · exact .node _ fun _ hnone => nomatch hnone
    · exact .node _ fun _ hnone => nomatch hnone
  · cases List.mem_singleton.1 hroot
    obtain ⟨-, s, hsort, -⟩ := hspilled
    cases hhas with
    | here => cases hsort
    | child hchild hhas =>
      rcases List.mem_pair.1 hchild with rfl | rfl
      · cases hhas with
        | here => cases hsort
        | child hnone _ => cases hnone
      · cases hhas with
        | here => cases hsort
        | child hnone _ => cases hnone

/-- A sort of 52428 kB on the disk. -/
def spilledSort : Node := { nodeType := "Sort".toList, sort := some ⟨.externalMerge, 52428, .disk⟩ }

/-- It meets its rule, and nothing is found in it.  A hash of four batches meets its rule, and a null `Plans` hides it. -/
theorem spilledSort_missed :
    analyze wholeNumbers 900 [some (.node { nodeType := "Hash".toList, hashBatches := some 4 } [.nullPlans spilledSort])] = [parseError] ∧
      analyze wholeNumbers 900 [some (.node spilledSort [])] = [] ∧ ¬Complete wholeNumbers [some (.node spilledSort [])] [] := by
  refine ⟨by decide +kernel, by decide +kernel, ?_⟩
  rintro ⟨keys, -, hkeys, hfindings⟩
  cases hfindings
  have hmeets : Rule.sortSpillToDisk.Meets false spilledSort := (if_pos rfl).mpr ⟨rfl, _, rfl, rfl⟩
  exact absurd ((hkeys (.sortSpillToDisk, [])).2 ⟨false, spilledSort, ⟨_, List.mem_singleton_self _, .here _ _ _⟩, hmeets, rfl⟩)
    List.not_mem_nil

end

end ProxmoxTool.Services.PgPlan
