import Mathlib
import ProxmoxTool.Lib.Dict
import ProxmoxTool.Lib.Text

/-!
# The life of an exported series

The collection loops call one `update_*` function of `clients/prometheus_exporter.py` per entity, and nobody tells the exporter when a refresh
is complete: `_prune_cycle` takes a pause of more than 30 seconds between two calls of a group for the end of a cycle, and removes then what
the cycle that ended did not touch.  So a series is there as long as no cycle that has ended, after the one that last wrote it, went by without
a call for its labels (`exported_iff`).  The cycles are read off the times of the calls alone (`cycles`); the calls of the other groups may
come in between.
-/

namespace ProxmoxTool.Metrics

/-! ### The gauges and their groups -/

inductive Group | host | guest | service | apt
  deriving DecidableEq

inductive Collector
  | hostCpu | hostMemUsed | hostMemTotal | hostRootfs | hostUptime
  | guestCpu | guestMemUsed | guestMemTotal | guestNetIn | guestNetOut | guestPower
  | svcUp | svcMemory
  | aptPending | aptSecurity | aptReboot
  deriving DecidableEq

/-- `_HOST_COLLECTORS` and the other three lists. -/
def Group.collectors : Group → List Collector
  | .host => [.hostCpu, .hostMemUsed, .hostMemTotal, .hostRootfs, .hostUptime]
  | .guest => [.guestCpu, .guestMemUsed, .guestMemTotal, .guestNetIn, .guestNetOut, .guestPower]
  | .service => [.svcUp, .svcMemory]
  | .apt => [.aptPending, .aptSecurity, .aptReboot]

def Collector.group : Collector → Group
  | .hostCpu | .hostMemUsed | .hostMemTotal | .hostRootfs | .hostUptime => .host
  | .guestCpu | .guestMemUsed | .guestMemTotal | .guestNetIn | .guestNetOut | .guestPower => .guest
  | .svcUp | .svcMemory => .service
  | .aptPending | .aptSecurity | .aptReboot => .apt

theorem mem_collectors {g : Group} {c : Collector} : c ∈ g.collectors ↔ c.group = g := by
  cases g <;> cases c <;> decide

/-- What the updates do to numbers: `round(x * 100, 2)`, `round(x / y * 100, 2)`, truth, and the value that `Gauge.set` keeps; `none` is
raised. -/
structure Numbers (V : Type) where
  zero : V
  one : V
  percent : V → Option V
  share : V → V → Option V
  truthy : V → Bool
  gauge : V → Option V

abbrev Labels := List Text

/-- One line of an update: `collector.labels(…).set(value)`, where a value that cannot be had is raised once the series is there, or a line
that raises before. -/
inductive Write (V : Type)
  | set (collector : Collector) (value : Option V)
  | raise

/-- `memory` and `rootfs` are objects or missing; a null there, which raises, is left out. -/
structure HostStatus (V : Type) where
  cpu : Option V
  memoryUsed : Option V
  memoryTotal : Option V
  rootfsUsed : Option V
  rootfsTotal : Option V
  uptime : Option V

structure GuestStatus (V : Type) where
  cpu : Option V
  maxcpu : Option V
  mem : Option V
  maxmem : Option V
  netin : Option V
  netout : Option V
  status : Option Text

inductive Update (V : Type)
  | host (hostId : Nat) (hostName hostType : Text) (status : HostStatus V)
  | guest (guestId : Nat) (guestName guestType hostName : Text) (vmid : Nat) (status : GuestStatus V)
  | service (serviceId : Nat) (serviceName guestName unitName status : Text) (memoryBytes : Option V)
  | apt (guestId : Nat) (guestName : Text) (pending security : V) (rebootRequired : Bool)

section

variable {V : Type} (py : Numbers V)

def Update.group : Update V → Group
  | .host .. => .host
  | .guest .. => .guest
  | .service .. => .service
  | .apt .. => .apt

def Update.labels : Update V → Labels
  | .host hostId hostName hostType _ => [(toString hostId).toList, hostName, hostType]
  | .guest guestId guestName guestType hostName vmid _ =>
    [(toString guestId).toList, guestName, guestType, hostName, (toString vmid).toList]
  | .service serviceId serviceName guestName unitName _ _ => [(toString serviceId).toList, serviceName, guestName, unitName]
  | .apt guestId guestName _ _ _ => [(toString guestId).toList, guestName]

/-- `if value is not None: collector.labels(…).set(value)`. -/
def writeSome (collector : Collector) (value : Option V) : List (Write V) := (value.map fun v => .set collector (py.gauge v)).toList

def writeFlag (collector : Collector) (flag : Bool) : Write V := .set collector (py.gauge (if flag then py.one else py.zero))

def updateHostMetrics (status : HostStatus V) : List (Write V) :=
  (status.cpu.map fun cpu => Write.set .hostCpu ((py.percent cpu).bind py.gauge)).toList ++
    writeSome py .hostMemUsed status.memoryUsed ++ writeSome py .hostMemTotal status.memoryTotal ++
    (match status.rootfsTotal with
      | none => []
      | some total =>
        if py.truthy total then
          -- `rootfs["used"]` is looked up before the labels are
          match status.rootfsUsed.bind fun used => py.share used total with
          | none => [.raise]
          | some pct => [.set .hostRootfs (py.gauge pct)]
        else []) ++
    writeSome py .hostUptime status.uptime

def updateGuestMetrics (status : GuestStatus V) : List (Write V) :=
  let maxcpu := if py.truthy (status.maxcpu.getD py.one) then status.maxcpu.getD py.one else py.one
  (status.cpu.map fun cpu => Write.set .guestCpu ((py.share cpu maxcpu).bind py.gauge)).toList ++
    writeSome py .guestMemUsed status.mem ++ writeSome py .guestMemTotal status.maxmem ++
    writeSome py .guestNetIn status.netin ++ writeSome py .guestNetOut status.netout ++
    [writeFlag py .guestPower (status.status.getD "unknown".toList = "running".toList)]

def updateServiceHealth (status : Text) (memoryBytes : Option V) : List (Write V) :=
  writeFlag py .svcUp (status = "running".toList ∨ status = "active".toList) :: writeSome py .svcMemory memoryBytes

def updateAptMetrics (pending security : V) (rebootRequired : Bool) : List (Write V) :=
  [.set .aptPending (py.gauge pending), .set .aptSecurity (py.gauge security), writeFlag py .aptReboot rebootRequired]

def Update.writes : Update V → List (Write V)
  | .host _ _ _ status => updateHostMetrics py status
  | .guest _ _ _ _ _ status => updateGuestMetrics py status
  | .service _ _ _ _ status memoryBytes => updateServiceHealth py status memoryBytes
  | .apt _ _ pending security rebootRequired => updateAptMetrics py pending security rebootRequired

/-! ### The exporter -/

/-- `_CYCLE_GAP_SECONDS`. -/
def cycleGapSeconds : Rat := 30

/-- `_cycle_state[group]`. -/
structure CycleState where
  cycleStart : Rat
  lastCall : Rat
  seen : Dict Labels Rat

structure Exporter (V : Type) where
  cycleState : Dict Group CycleState := []
  series : Dict (Collector × Labels) V := []

def removeLabels (collectors : List Collector) (series : Dict (Collector × Labels) V) (labels : Labels) : Dict (Collector × Labels) V :=
  collectors.foldl (fun series collector => series.pop (collector, labels)) series

/-- The labels that the cycle which ends now did not touch; none if no cycle ends. -/
def CycleState.stale (state : CycleState) (now : Rat) : List Labels :=
  if cycleGapSeconds < now - state.lastCall then (state.seen.filter fun entry => entry.2 < state.cycleStart).map Prod.fst else []

def CycleState.refresh (state : CycleState) (now : Rat) (labels : Labels) : CycleState where
  cycleStart := if cycleGapSeconds < now - state.lastCall then now else state.cycleStart
  lastCall := now
  seen := ((state.stale now).foldl Dict.pop state.seen).set labels now

/-- `_cycle_state.setdefault(group, …)`. -/
def Exporter.stateOf (exporter : Exporter V) (group : Group) (now : Rat) : CycleState :=
  (exporter.cycleState.get? group).getD ⟨now, now, []⟩

def pruneCycle (exporter : Exporter V) (group : Group) (labels : Labels) (now : Rat) : Exporter V where
  cycleState := exporter.cycleState.set group ((exporter.stateOf group now).refresh now labels)
  series := ((exporter.stateOf group now).stale now).foldl (removeLabels group.collectors) exporter.series

/-- The lines of an update up to the first that raises. -/
def performWrites (labels : Labels) : List (Write V) → Dict (Collector × Labels) V → Dict (Collector × Labels) V
  | [], series => series
  | .raise :: _, series => series
  | .set collector (some v) :: rest, series => performWrites labels rest (series.set (collector, labels) v)
  | .set collector none :: _, series => series.set (collector, labels) ((series.get? (collector, labels)).getD py.zero)

/-- A call, made at `now` with the lock held. -/
structure Call (V : Type) where
  now : Rat
  update : Update V

def Exporter.step (exporter : Exporter V) (call : Call V) : Exporter V :=
  let pruned := pruneCycle exporter call.update.group call.update.labels call.now
  { pruned with series := performWrites py call.update.labels (call.update.writes py) pruned.series }

def exporterAfter (calls : List (Call V)) : Exporter V := calls.foldl (Exporter.step py) {}

/-! ### The cycles of a group -/

/-- The calls, cut where the next one comes more than `_CYCLE_GAP_SECONDS` later. -/
def cycles (calls : List (Call V)) : List (List (Call V)) := calls.splitBy fun a b => decide (b.now - a.now ≤ cycleGapSeconds)

def callsOf (group : Group) (calls : List (Call V)) : List (Call V) := calls.filter fun x => x.update.group = group

/-- The lines of an update that are reached, each with the value it sets. -/
def reached : List (Write V) → List (Collector × Option V)
  | [] => []
  | .raise :: _ => []
  | .set collector (some v) :: rest => (collector, some v) :: reached rest
  | .set collector none :: _ => [(collector, none)]

def Call.WritesTo (x : Call V) (c : Collector) (l : Labels) : Prop :=
  x.update.labels = l ∧ ∃ value, (c, value) ∈ reached (x.update.writes py)

def Touched (l : Labels) (cycle : List (Call V)) : Prop := ∃ x ∈ cycle, x.update.labels = l

/-- Cutting a list with one more element at its end. -/
theorem splitBy_concat {α : Type} {r : α → α → Bool} {l : List α} {init : List (List α)} {last : List α}
    (hsplit : l.splitBy r = init ++ [last]) (x : α) : ∃ y ∈ last.getLast?, l.getLast? = some y ∧
      (l ++ [x]).splitBy r = if r y x then init ++ [last ++ [x]] else init ++ [last] ++ [[x]] := by
  obtain ⟨hflat, hnil, hchains, hcuts⟩ := List.splitBy_eq_iff.1 hsplit
  have hne : last ≠ [] := fun h => hnil (h ▸ List.mem_append_right init List.mem_cons_self)
  have hlast : last.getLast? = some (last.getLast hne) := List.getLast?_eq_some_getLast hne
  have hl : l.getLast? = some (last.getLast hne) := by
    rw [hflat, List.flatten_append, List.flatten_singleton, List.getLast?_append, hlast, Option.some_or]
  refine ⟨last.getLast hne, hlast, hl, ?_⟩
  split
  · rename_i hr
    refine List.splitBy_eq_iff.2 ⟨?_, ?_, ?_, ?_⟩
    · rw [hflat, List.flatten_append, List.flatten_append, List.flatten_singleton, List.flatten_singleton, List.append_assoc]
    · intro hmem
      rcases List.mem_append.1 hmem with hmem | hmem
      · exact hnil (List.mem_append_left _ hmem)
      · exact List.append_ne_nil_of_right_ne_nil last (List.cons_ne_nil x []) (List.mem_singleton.1 hmem).symm
    · intro m hmem
      rcases List.mem_append.1 hmem with hmem | hmem
      · exact hchains m (List.mem_append_left _ hmem)
      · rw [List.mem_singleton.1 hmem]
        refine List.isChain_append.2 ⟨hchains last (List.mem_append_right init List.mem_cons_self), List.isChain_singleton x, ?_⟩
        intro a ha b hb
        rw [hlast] at ha
        cases ha
        cases hb
        exact hr
    · have hcuts := List.isChain_append.1 hcuts
      refine List.isChain_append.2 ⟨hcuts.1, List.isChain_singleton _, fun a ha b hb => ?_⟩
      cases hb
      obtain ⟨hane, hbne, hcut⟩ := hcuts.2.2 a ha last rfl
      exact ⟨hane, List.append_ne_nil_of_left_ne_nil hne [x], (List.head_append_of_ne_nil hbne).symm ▸ hcut⟩
  · rename_i hr
    rw [List.splitBy_append_cons [] fun y hy => ?_, hsplit]
    · rfl
    · rw [hl] at hy
      cases hy
      exact Bool.not_eq_true _ ▸ hr

/-- Cycles, the newest first, in which the series has been written and not been removed since. -/
def Present (c : Collector) (l : Labels) : List (List (Call V)) → Prop
  | [] => False
  | cycle :: older => (∃ x ∈ cycle, x.WritesTo py c l) ∨ Present c l older ∧ ∀ ended ∈ older.head?, Touched l ended

theorem present_iff {c : Collector} {l : Labels} {cs : List (List (Call V))} : Present py c l cs.reverse ↔
    ∃ older k newer, cs = older ++ k :: newer ∧ (∃ x ∈ k, x.WritesTo py c l) ∧ ∀ ended ∈ (k :: newer).dropLast, Touched l ended := by
  induction cs using List.reverseRecOn with
  | nil =>
    refine ⟨False.elim, ?_⟩
    rintro ⟨older, k, newer, heq, -⟩
    exact absurd heq.symm (List.append_ne_nil_of_right_ne_nil older (List.cons_ne_nil k newer))
  | append_singleton cs cycle ih =>
    rw [List.reverse_concat, Present, ih, List.head?_reverse]
    constructor
    · rintro (hwrites | ⟨⟨older, k, newer, rfl, hwrites, htouched⟩, hlast⟩)
      · exact ⟨cs, cycle, [], rfl, hwrites, List.forall_mem_nil _⟩
      · refine ⟨older, k, newer ++ [cycle], by rw [List.append_assoc, List.cons_append], hwrites, ?_⟩
        rw [← List.cons_append, List.dropLast_concat]
        intro ended hended
        rw [← List.dropLast_append_getLast (List.cons_ne_nil k newer), List.mem_append, List.mem_singleton] at hended
        rcases hended with hended | rfl
        · exact htouched ended hended
        · exact hlast _ (by rw [List.getLast?_append_cons, List.getLast?_eq_some_getLast (List.cons_ne_nil k newer)]; rfl)
    · rintro ⟨older, k, newer, heq, hwrites, htouched⟩
      rcases List.eq_nil_or_concat' newer with rfl | ⟨init, last, rfl⟩
      · obtain ⟨rfl, hcycle⟩ := List.append_inj' heq rfl
        cases hcycle
        exact .inl hwrites
      · rw [← List.cons_append, ← List.append_assoc] at heq
        obtain ⟨rfl, -⟩ := List.append_inj' heq rfl
        rw [← List.cons_append, List.dropLast_concat] at htouched
        refine .inr ⟨⟨older, k, init, rfl, hwrites, fun j hj => htouched j (List.mem_of_mem_dropLast hj)⟩, fun ended hended => ?_⟩
        rw [List.getLast?_append_cons] at hended
        exact htouched ended (List.mem_of_getLast? hended)

/-! ### What a call does to the series -/

theorem get?_pop_self {κ ν : Type} [DecidableEq κ] (d : Dict κ ν) (k : κ) : (d.pop k).get? k = none := by
  by_contra h
  obtain ⟨v, hv⟩ := Option.ne_none_iff_exists'.1 h
  exact Dict.not_mem_keys_pop d k (List.mem_map_of_mem (Dict.mem_of_get? hv))

theorem get?_foldl_pop_of_mem {κ ν : Type} [DecidableEq κ] {ks : List κ} {k : κ} (hk : k ∈ ks) (d : Dict κ ν) :
    (ks.foldl Dict.pop d).get? k = none := by
  induction ks using List.reverseRecOn with
  | nil => cases hk
  | append_singleton ks k' ih =>
    rw [List.foldl_concat]
    by_cases heq : k = k'
    · rw [heq, get?_pop_self]
    · rw [Dict.get?_pop_of_ne heq, ih ((List.mem_append.1 hk).resolve_right fun h => heq (List.mem_singleton.1 h))]

theorem get?_foldl_pop_of_not_mem {κ ν : Type} [DecidableEq κ] {ks : List κ} {k : κ} (hk : k ∉ ks) (d : Dict κ ν) :
    (ks.foldl Dict.pop d).get? k = d.get? k := by
  induction ks using List.reverseRecOn with
  | nil => rfl
  | append_singleton ks k' ih =>
    rw [List.mem_append, not_or, List.mem_singleton] at hk
    rw [List.foldl_concat, Dict.get?_pop_of_ne hk.2, ih hk.1]

/-- The series that are removed with the labels. -/
def staleSeries (collectors : List Collector) (stale : List Labels) : List (Collector × Labels) :=
  stale.flatMap fun labels => collectors.map fun collector => (collector, labels)

theorem mem_staleSeries {collectors : List Collector} {stale : List Labels} {c : Collector} {l : Labels} :
    (c, l) ∈ staleSeries collectors stale ↔ c ∈ collectors ∧ l ∈ stale := by
  unfold staleSeries
  simp only [List.mem_flatMap, List.mem_map, Prod.mk.injEq]
  constructor
  · rintro ⟨labels, hlabels, collector, hcollector, rfl, rfl⟩
    exact ⟨hcollector, hlabels⟩
  · rintro ⟨hc, hl⟩
    exact ⟨l, hl, c, hc, rfl, rfl⟩

theorem foldl_removeLabels (collectors : List Collector) (stale : List Labels) (series : Dict (Collector × Labels) V) :
    stale.foldl (removeLabels collectors) series = (staleSeries collectors stale).foldl Dict.pop series := by
  unfold staleSeries
  induction stale generalizing series with
  | nil => rfl
  | cons labels stale ih =>
    rw [List.foldl_cons, ih, List.flatMap_cons, List.foldl_append, List.foldl_map]
    rfl

/-- The lines of an update leave the other labels, and the collectors that they do not reach. -/
theorem get?_performWrites_of_ne {labels : Labels} {c : Collector} {l : Labels} (writes : List (Write V))
    (h : ¬ (labels = l ∧ ∃ value, (c, value) ∈ reached writes)) (series : Dict (Collector × Labels) V) :
    (performWrites py labels writes series).get? (c, l) = series.get? (c, l) := by
  induction writes generalizing series with
  | nil => rfl
  | cons w rest ih =>
    cases w with
    | raise => rfl
    | set collector value =>
      have hne : (c, l) ≠ (collector, labels) := by
        rintro heq
        cases heq
        cases value with
        | none => exact h ⟨rfl, none, List.mem_cons_self⟩
        | some v => exact h ⟨rfl, some v, List.mem_cons_self⟩
      cases value with
      | none => exact Dict.get?_set_of_ne hne series _
      | some v =>
        have hrest : ¬ (labels = l ∧ ∃ value, (c, value) ∈ reached rest) := by
          rintro ⟨hl, value, hmem⟩
          exact h ⟨hl, value, List.mem_cons_of_mem _ hmem⟩
        exact (ih hrest _).trans (Dict.get?_set_of_ne hne series v)

/-- A series that the lines reach is there afterwards, and one that is there stays. -/
theorem isSome_get?_performWrites {c : Collector} {l : Labels} (writes : List (Write V)) (series : Dict (Collector × Labels) V)
    (h : (series.get? (c, l)).isSome = true ∨ ∃ value, (c, value) ∈ reached writes) :
    ((performWrites py l writes series).get? (c, l)).isSome = true := by
  induction writes generalizing series with
  | nil =>
    rcases h with h | ⟨value, hmem⟩
    · exact h
    · cases hmem
  | cons w rest ih =>
    cases w with
    | raise =>
      rcases h with h | ⟨value, hmem⟩
      · exact h
      · cases hmem
    | set collector value =>
      by_cases hc : c = collector
      · cases value with
        | none => rw [performWrites, hc, Dict.get?_set_self]; rfl
        | some v => exact ih _ (.inl (by rw [hc, Dict.get?_set_self]; rfl))
      · have hne : (c, l) ≠ (collector, l) := fun heq => hc (Prod.mk.inj heq).1
        cases value with
        | none =>
          rw [performWrites, Dict.get?_set_of_ne hne]
          rcases h with h | ⟨value, hmem⟩
          · exact h
          · exact absurd (Prod.mk.inj (List.mem_singleton.1 hmem)).1 hc
        | some v =>
          refine ih _ ?_
          rw [Dict.get?_set_of_ne hne]
          refine h.imp_right fun hreached => ?_
          obtain ⟨value, hmem⟩ := hreached
          exact ⟨value, (List.mem_cons.1 hmem).resolve_left fun heq => hc (Prod.mk.inj heq).1⟩

theorem isSome_performWrites_iff {labels : Labels} {c : Collector} {l : Labels} (writes : List (Write V))
    (series : Dict (Collector × Labels) V) : ((performWrites py labels writes series).get? (c, l)).isSome = true ↔
      (labels = l ∧ ∃ value, (c, value) ∈ reached writes) ∨ (series.get? (c, l)).isSome = true := by
  by_cases h : labels = l ∧ ∃ value, (c, value) ∈ reached writes
  · obtain ⟨rfl, hreached⟩ := h
    exact iff_of_true (isSome_get?_performWrites py writes series (.inr hreached)) (.inl ⟨rfl, hreached⟩)
  · rw [get?_performWrites_of_ne py writes h, or_iff_right h]

/-- The line sets a gauge of the group, if it sets one. -/
def Write.Of (g : Group) : Write V → Prop
  | .set collector _ => collector.group = g
  | .raise => True

theorem mem_map_set {collector : Collector} {value : Option V} {f : V → Option V} {w : Write V}
    (hw : w ∈ (value.map fun v => Write.set collector (f v)).toList) : w.Of collector.group := by
  obtain ⟨v, -, rfl⟩ := Option.map_eq_some_iff.1 (Option.mem_toList.1 hw)
  rfl

theorem mem_writeSome {collector : Collector} {value : Option V} {w : Write V} (hw : w ∈ writeSome py collector value) :
    w.Of collector.group := mem_map_set hw

/-- An update sets gauges of its own group only. -/
theorem writes_of (u : Update V) : ∀ w ∈ u.writes py, w.Of u.group := by
  intro w hw
  cases u with
  | host hostId hostName hostType status =>
    change w ∈ updateHostMetrics py status at hw
    unfold updateHostMetrics at hw
    simp only [List.mem_append] at hw
    rcases hw with (((hw | hw) | hw) | hw) | hw
    · exact mem_map_set hw
    · exact mem_writeSome py hw
    · exact mem_writeSome py hw
    · split at hw
      · cases hw
      · split at hw
        · split at hw
          · rw [List.mem_singleton.1 hw]
            trivial
          · rw [List.mem_singleton.1 hw]
            rfl
        · cases hw
    · exact mem_writeSome py hw
  | guest guestId guestName guestType hostName vmid status =>
    change w ∈ updateGuestMetrics py status at hw
    unfold updateGuestMetrics at hw
    simp only [List.mem_append] at hw
    rcases hw with ((((hw | hw) | hw) | hw) | hw) | hw
    · exact mem_map_set hw
    · exact mem_writeSome py hw
    · exact mem_writeSome py hw
    · exact mem_writeSome py hw
    · exact mem_writeSome py hw
    · rw [List.mem_singleton.1 hw]
      rfl
  | service serviceId serviceName guestName unitName status memoryBytes =>
    rcases List.mem_cons.1 hw with rfl | hw
    · rfl
    · exact mem_writeSome py hw
  | apt guestId guestName pending security rebootRequired =>
    rcases List.mem_cons.1 hw with rfl | hw
    · rfl
    · rcases List.mem_cons.1 hw with rfl | hw
      · rfl
      · rw [List.mem_singleton.1 hw]
        rfl

theorem group_of_mem_reached {g : Group} {c : Collector} {value : Option V} {writes : List (Write V)} (h : ∀ w ∈ writes, w.Of g)
    (hmem : (c, value) ∈ reached writes) : c.group = g := by
  induction writes with
  | nil => cases hmem
  | cons w rest ih =>
    obtain ⟨hw, hrest⟩ := List.forall_mem_cons.1 h
    cases w with
    | raise => cases hmem
    | set collector v =>
      cases v with
      | none =>
        cases List.mem_singleton.1 hmem
        exact hw
      | some v =>
        rcases List.mem_cons.1 hmem with heq | hmem
        · cases heq
          exact hw
        · exact ih hrest hmem

theorem Call.WritesTo.group {x : Call V} {c : Collector} {l : Labels} (h : x.WritesTo py c l) : c.group = x.update.group := by
  obtain ⟨-, value, hmem⟩ := h
  exact group_of_mem_reached (writes_of py x.update) hmem

/-! ### What the state of a group knows of the running cycle -/

structure CycleState.Of (state : CycleState) (cycle : List (Call V)) : Prop where
  last : ∀ x ∈ cycle.getLast?, state.lastCall = x.now
  start_le : state.cycleStart ≤ state.lastCall
  nodup : (state.seen.map Prod.fst).Nodup
  seen_le : ∀ l ts, state.seen.get? l = some ts → ts ≤ state.lastCall
  current : ∀ l ts, state.seen.get? l = some ts → (state.cycleStart ≤ ts ↔ Touched l cycle)
  touched : ∀ l, Touched l cycle → (state.seen.get? l).isSome = true

section

variable {state : CycleState} {cycle : List (Call V)} {x : Call V}

theorem stale_of_gap_le {now : Rat} (hgap : ¬ cycleGapSeconds < now - state.lastCall) : state.stale now = [] := if_neg hgap

/-- What is stale when the next cycle begins. -/
theorem CycleState.Of.mem_stale (h : state.Of cycle) {now : Rat} (hgap : cycleGapSeconds < now - state.lastCall) {l : Labels} :
    l ∈ state.stale now ↔ (state.seen.get? l).isSome = true ∧ ¬ Touched l cycle := by
  unfold CycleState.stale
  rw [if_pos hgap, List.mem_map]
  constructor
  · rintro ⟨⟨l', ts⟩, hmem, rfl⟩
    obtain ⟨hentry, hbefore⟩ := List.mem_filter.1 hmem
    have hget := Dict.get?_of_mem h.nodup hentry
    refine ⟨by rw [hget]; rfl, fun htouched => ?_⟩
    exact absurd ((h.current l' ts hget).2 htouched) (not_le.2 (of_decide_eq_true hbefore))
  · rintro ⟨hsome, hnot⟩
    obtain ⟨ts, hget⟩ := Option.isSome_iff_exists.1 hsome
    refine ⟨(l, ts), List.mem_filter.2 ⟨Dict.mem_of_get? hget, decide_eq_true ?_⟩, rfl⟩
    exact not_le.1 fun hle => hnot ((h.current l ts hget).1 hle)

theorem nodup_foldl_pop {κ ν : Type} [DecidableEq κ] {d : Dict κ ν} (h : (d.map Prod.fst).Nodup) (ks : List κ) :
    ((ks.foldl Dict.pop d).map Prod.fst).Nodup := by
  induction ks generalizing d with
  | nil => exact h
  | cons k ks ih => exact ih ((List.filter_sublist.map Prod.fst).nodup h)

theorem seen_refresh_self (state : CycleState) (now : Rat) (labels : Labels) :
    (state.refresh now labels).seen.get? labels = some now := Dict.get?_set_self _ labels now

theorem seen_refresh_of_mem {now : Rat} {labels l : Labels} (hne : l ≠ labels) (hmem : l ∈ state.stale now) :
    (state.refresh now labels).seen.get? l = none :=
  (Dict.get?_set_of_ne hne _ now).trans (get?_foldl_pop_of_mem hmem state.seen)

theorem seen_refresh_of_not_mem {now : Rat} {labels l : Labels} (hne : l ≠ labels) (hmem : l ∉ state.stale now) :
    (state.refresh now labels).seen.get? l = state.seen.get? l :=
  (Dict.get?_set_of_ne hne _ now).trans (get?_foldl_pop_of_not_mem hmem state.seen)

theorem touched_singleton {l : Labels} : Touched l [x] ↔ x.update.labels = l := by
  unfold Touched
  simp only [List.mem_singleton, exists_eq_left]

theorem touched_append {l : Labels} : Touched l (cycle ++ [x]) ↔ Touched l cycle ∨ x.update.labels = l := by
  unfold Touched
  simp only [List.mem_append, List.mem_singleton, or_and_right, exists_or, exists_eq_left]

/-- Before the first call of a group. -/
theorem of_nil (now : Rat) : CycleState.Of (V := V) ⟨now, now, []⟩ [] := by
  refine ⟨fun x hx => ?_, le_rfl, List.nodup_nil, fun l ts hget => ?_, fun l ts hget => ?_, fun l htouched => ?_⟩
  · cases hx
  · cases hget
  · cases hget
  · obtain ⟨x, hx, -⟩ := htouched
    cases hx

/-- A call of the running cycle. -/
theorem CycleState.Of.same (h : state.Of cycle) (hle : state.lastCall ≤ x.now) (hgap : ¬ cycleGapSeconds < x.now - state.lastCall) :
    (state.refresh x.now x.update.labels).Of (cycle ++ [x]) := by
  have hstart : (state.refresh x.now x.update.labels).cycleStart = state.cycleStart := if_neg hgap
  have hnone : ∀ l, l ∉ state.stale x.now := fun l hmem => List.not_mem_nil (stale_of_gap_le hgap ▸ hmem)
  refine ⟨fun y hy => ?_, ?_, ?_, fun l ts hget => ?_, fun l ts hget => ?_, fun l htouched => ?_⟩
  · rw [List.getLast?_concat] at hy
    cases hy
    rfl
  · exact hstart ▸ h.start_le.trans hle
  · exact Dict.nodup_keys_set (nodup_foldl_pop h.nodup _) _ _
  · by_cases hne : l = x.update.labels
    · rw [hne, seen_refresh_self] at hget
      exact le_of_eq (Option.some.inj hget).symm
    · rw [seen_refresh_of_not_mem hne (hnone l)] at hget
      exact (h.seen_le l ts hget).trans hle
  · rw [hstart, touched_append]
    by_cases hne : l = x.update.labels
    · rw [hne, seen_refresh_self] at hget
      cases hget
      exact iff_of_true (h.start_le.trans hle) (.inr hne.symm)
    · rw [seen_refresh_of_not_mem hne (hnone l)] at hget
      rw [h.current l ts hget, or_iff_left fun heq => hne heq.symm]
  · by_cases hne : l = x.update.labels
    · rw [hne, seen_refresh_self]
      rfl
    · rw [seen_refresh_of_not_mem hne (hnone l)]
      exact h.touched l ((touched_append.1 htouched).resolve_right fun heq => hne heq.symm)

/-- The first call of the next cycle. -/
theorem CycleState.Of.next (h : state.Of cycle) (hgap : cycleGapSeconds < x.now - state.lastCall) :
    (state.refresh x.now x.update.labels).Of [x] := by
  have hlt : state.lastCall < x.now := sub_pos.1 (lt_trans (by unfold cycleGapSeconds; norm_num) hgap)
  have hstart : (state.refresh x.now x.update.labels).cycleStart = x.now := if_pos hgap
  have hseen : ∀ l ts, l ≠ x.update.labels → (state.refresh x.now x.update.labels).seen.get? l = some ts →
      state.seen.get? l = some ts := by
    intro l ts hne hget
    by_cases hmem : l ∈ state.stale x.now
    · rw [seen_refresh_of_mem hne hmem] at hget
      cases hget
    · rwa [seen_refresh_of_not_mem hne hmem] at hget
  refine ⟨fun y hy => ?_, le_of_eq hstart, ?_, fun l ts hget => ?_, fun l ts hget => ?_, fun l htouched => ?_⟩
  · cases hy
    rfl
  · exact Dict.nodup_keys_set (nodup_foldl_pop h.nodup _) _ _
  · by_cases hne : l = x.update.labels
    · rw [hne, seen_refresh_self] at hget
      exact le_of_eq (Option.some.inj hget).symm
    · exact (h.seen_le l ts (hseen l ts hne hget)).trans hlt.le
  · rw [hstart, touched_singleton]
    by_cases hne : l = x.update.labels
    · rw [hne, seen_refresh_self] at hget
      cases hget
      exact iff_of_true le_rfl hne.symm
    · refine iff_of_false ?_ fun heq => hne heq.symm
      exact not_le.2 ((h.seen_le l ts (hseen l ts hne hget)).trans_lt hlt)
  · rw [← touched_singleton.1 htouched, seen_refresh_self]
    rfl

end

/-! ### Runs -/

section

variable {e : Exporter V} {x : Call V} {g : Group}

/-- The exporter after cycles of the group, of which `cycle` is running; it is empty before the first call of the group. -/
structure Tracks (g : Group) (e : Exporter V) (cycle : List (Call V)) (older : List (List (Call V))) : Prop where
  state : ∀ now, (e.stateOf g now).Of cycle
  unused : cycle = [] → ∀ now, (e.stateOf g now).lastCall = now
  seen : ∀ now c l, c.group = g → (e.series.get? (c, l)).isSome = true → ((e.stateOf g now).seen.get? l).isSome = true
  series : ∀ c l, c.group = g → ((e.series.get? (c, l)).isSome = true ↔ Present py c l (cycle :: older))

theorem series_step_iff (e : Exporter V) (x : Call V) (c : Collector) (l : Labels) :
    ((e.step py x).series.get? (c, l)).isSome = true ↔ x.WritesTo py c l ∨
      ((pruneCycle e x.update.group x.update.labels x.now).series.get? (c, l)).isSome = true :=
  isSome_performWrites_iff py _ _

theorem series_prune_of_not_mem {c : Collector} {l : Labels} (hmem : ¬ (c.group = g ∧ l ∈ (e.stateOf g x.now).stale x.now))
    (labels : Labels) :
    (pruneCycle e g labels x.now).series.get? (c, l) = e.series.get? (c, l) := by
  unfold pruneCycle
  rw [foldl_removeLabels, get?_foldl_pop_of_not_mem]
  rwa [mem_staleSeries, mem_collectors]

theorem series_prune_of_mem {c : Collector} {l : Labels} (hc : c.group = g) (hmem : l ∈ (e.stateOf g x.now).stale x.now) (labels : Labels) :
    (pruneCycle e g labels x.now).series.get? (c, l) = none := by
  unfold pruneCycle
  rw [foldl_removeLabels, get?_foldl_pop_of_mem]
  exact mem_staleSeries.2 ⟨mem_collectors.2 hc, hmem⟩

theorem stateOf_step_self (e : Exporter V) (x : Call V) (now : Rat) :
    (e.step py x).stateOf x.update.group now = (e.stateOf x.update.group x.now).refresh x.now x.update.labels := by
  unfold Exporter.stateOf Exporter.step pruneCycle
  rw [Dict.get?_set_self, Option.getD_some]
  rfl

theorem stateOf_step_of_ne (hne : g ≠ x.update.group) (now : Rat) : (e.step py x).stateOf g now = e.stateOf g now := by
  unfold Exporter.stateOf Exporter.step pruneCycle
  rw [Dict.get?_set_of_ne hne]

/-- A call of another group. -/
theorem series_step_of_ne (hne : g ≠ x.update.group) {c : Collector} (hc : c.group = g) (l : Labels) :
    ((e.step py x).series.get? (c, l)).isSome = (e.series.get? (c, l)).isSome := by
  have hprune := series_prune_of_not_mem (e := e) (x := x) (g := x.update.group) (c := c) (l := l)
    (fun h => hne (hc.symm.trans h.1)) x.update.labels
  rw [Bool.eq_iff_iff, series_step_iff, hprune]
  exact or_iff_right fun hwrites => hne (hc.symm.trans hwrites.group)

theorem Tracks.other {cycle : List (Call V)} {older : List (List (Call V))} (h : Tracks py g e cycle older) (hne : g ≠ x.update.group) :
    Tracks py g (e.step py x) cycle older := by
  refine ⟨fun now => ?_, fun hnil now => ?_, fun now c l hc hsome => ?_, fun c l hc => ?_⟩
  · rw [stateOf_step_of_ne py hne]
    exact h.state now
  · rw [stateOf_step_of_ne py hne]
    exact h.unused hnil now
  · rw [stateOf_step_of_ne py hne]
    exact h.seen now c l hc (by rwa [series_step_of_ne py hne hc] at hsome)
  · rw [series_step_of_ne py hne hc]
    exact h.series c l hc

theorem present_next {c : Collector} {l : Labels} {cycle : List (Call V)} {older : List (List (Call V))} :
    Present py c l ([x] :: cycle :: older) ↔ x.WritesTo py c l ∨ Present py c l (cycle :: older) ∧ Touched l cycle := by
  rw [Present, List.head?_cons]
  simp only [List.mem_singleton, exists_eq_left, Option.mem_def, Option.some.injEq, forall_eq']

/-- What is known of the last call holds of the time in the state, if it holds of the present as well. -/
theorem Tracks.lastCall {cycle : List (Call V)} {older : List (List (Call V))} (h : Tracks py g e cycle older) {now : Rat} {P : Rat → Prop}
    (hnow : cycle = [] → P now) (hlast : ∀ y ∈ cycle.getLast?, P y.now) : P (e.stateOf g now).lastCall := by
  cases hcycle : cycle.getLast? with
  | none =>
    have hnil := List.getLast?_eq_none_iff.1 hcycle
    rw [h.unused hnil now]
    exact hnow hnil
  | some y =>
    rw [(h.state now).last y hcycle]
    exact hlast y hcycle

theorem Tracks.same {cycle : List (Call V)} {older : List (List (Call V))} (h : Tracks py x.update.group e cycle older)
    (hlast : ∀ y ∈ cycle.getLast?, y.now ≤ x.now ∧ ¬ cycleGapSeconds < x.now - y.now) :
    Tracks py x.update.group (e.step py x) (cycle ++ [x]) older := by
  obtain ⟨hle, hgap⟩ : (e.stateOf x.update.group x.now).lastCall ≤ x.now ∧
      ¬ cycleGapSeconds < x.now - (e.stateOf x.update.group x.now).lastCall := by
    refine h.lastCall py (P := fun t => t ≤ x.now ∧ ¬ cycleGapSeconds < x.now - t) (fun _ => ⟨le_rfl, ?_⟩) hlast
    rw [sub_self]
    exact not_lt.2 (by unfold cycleGapSeconds; norm_num)
  have hnone : ∀ l, l ∉ (e.stateOf x.update.group x.now).stale x.now := fun l hmem => List.not_mem_nil (stale_of_gap_le hgap ▸ hmem)
  have hprune : ∀ c l, (pruneCycle e x.update.group x.update.labels x.now).series.get? (c, l) = e.series.get? (c, l) :=
    fun c l => series_prune_of_not_mem (fun hmem => hnone l hmem.2) x.update.labels
  refine ⟨fun now => ?_, fun hnil => ?_, fun now c l hc hsome => ?_, fun c l hc => ?_⟩
  · rw [stateOf_step_self]
    exact (h.state x.now).same hle hgap
  · exact absurd hnil (List.append_ne_nil_of_right_ne_nil cycle (List.cons_ne_nil x []))
  · rw [stateOf_step_self]
    by_cases hne : l = x.update.labels
    · rw [hne, seen_refresh_self]
      rfl
    · rw [seen_refresh_of_not_mem hne (hnone l)]
      rw [series_step_iff, hprune] at hsome
      exact h.seen x.now c l hc (hsome.resolve_left fun hwrites => hne hwrites.1.symm)
  · rw [series_step_iff, hprune, h.series c l hc, Present, Present]
    simp only [List.mem_append, List.mem_singleton, or_and_right, exists_or, exists_eq_left]
    rw [← or_assoc, or_comm (a := x.WritesTo py c l)]

theorem Tracks.next {cycle : List (Call V)} {older : List (List (Call V))} (h : Tracks py x.update.group e cycle older) (hne : cycle ≠ [])
    (hlast : ∀ y ∈ cycle.getLast?, cycleGapSeconds < x.now - y.now) : Tracks py x.update.group (e.step py x) [x] (cycle :: older) := by
  have hof := h.state x.now
  have hgap : cycleGapSeconds < x.now - (e.stateOf x.update.group x.now).lastCall :=
    h.lastCall py (P := fun t => cycleGapSeconds < x.now - t) (fun hnil => absurd hnil hne) hlast
  have hprune : ∀ c l, c.group = x.update.group →
      (((pruneCycle e x.update.group x.update.labels x.now).series.get? (c, l)).isSome = true ↔
        (e.series.get? (c, l)).isSome = true ∧ Touched l cycle) := by
    intro c l hc
    by_cases hmem : l ∈ (e.stateOf x.update.group x.now).stale x.now
    · rw [series_prune_of_mem hc hmem]
      exact iff_of_false Bool.false_ne_true fun hyes => ((hof.mem_stale hgap).1 hmem).2 hyes.2
    · rw [series_prune_of_not_mem fun h => hmem h.2]
      refine ⟨fun hsome => ⟨hsome, ?_⟩, And.left⟩
      by_contra hnot
      exact hmem ((hof.mem_stale hgap).2 ⟨h.seen x.now c l hc hsome, hnot⟩)
  refine ⟨fun now => ?_, fun hnil => ?_, fun now c l hc hsome => ?_, fun c l hc => ?_⟩
  · rw [stateOf_step_self]
    exact hof.next hgap
  · cases hnil
  · rw [stateOf_step_self]
    by_cases hne : l = x.update.labels
    · rw [hne, seen_refresh_self]
      rfl
    · rw [series_step_iff, hprune c l hc] at hsome
      obtain ⟨-, htouched⟩ := hsome.resolve_left fun hwrites => hne hwrites.1.symm
      rw [seen_refresh_of_not_mem hne fun hmem => ((hof.mem_stale hgap).1 hmem).2 htouched]
      exact hof.touched l htouched
  · rw [series_step_iff, hprune c l hc, h.series c l hc, present_next]

end

/-- The exporter keeps track of the cycles of each group. -/
theorem tracks_exporterAfter (g : Group) {calls : List (Call V)} (hclock : calls.Pairwise fun a b => a.now ≤ b.now) :
    (callsOf g calls = [] ∧ Tracks py g (exporterAfter py calls) [] []) ∨
      ∃ older cycle, cycles (callsOf g calls) = older ++ [cycle] ∧ Tracks py g (exporterAfter py calls) cycle older.reverse := by
  induction calls using List.reverseRecOn with
  | nil =>
    refine .inl ⟨rfl, fun now => of_nil now, fun _ _ => rfl, fun _ _ _ _ hsome => absurd hsome Bool.false_ne_true, fun c l _ => ?_⟩
    exact iff_of_false Bool.false_ne_true (by simp [Present])
  | append_singleton calls x ih =>
    have hstep : exporterAfter py (calls ++ [x]) = (exporterAfter py calls).step py x := List.foldl_concat ..
    have hbefore := List.pairwise_append.1 hclock
    have ih := ih hbefore.1
    rw [hstep]
    by_cases hg : x.update.group = g
    · subst hg
      have hcalls : callsOf x.update.group (calls ++ [x]) = callsOf x.update.group calls ++ [x] := by
        simp [callsOf]
      rw [hcalls]
      refine .inr ?_
      rcases ih with ⟨hnil, htracks⟩ | ⟨older, cycle, hcycles, htracks⟩
      · exact ⟨[], [x], by rw [hnil]; rfl, htracks.same py fun y hy => by cases hy⟩
      · obtain ⟨y, hy, hlast, hsplit⟩ := splitBy_concat hcycles x
        have hmem : y ∈ calls := (List.mem_filter.1 (List.mem_of_getLast? hlast)).1
        have hle := hbefore.2.2 y hmem x List.mem_cons_self
        have hall : ∀ z ∈ cycle.getLast?, z = y := fun z hz => Option.some.inj (hz.symm.trans hy)
        unfold cycles
        rw [hsplit]
        split
        · rename_i hwithin
          refine ⟨older, cycle ++ [x], rfl, htracks.same py fun z hz => ?_⟩
          rw [hall z hz]
          exact ⟨hle, not_lt.2 (of_decide_eq_true hwithin)⟩
        · rename_i hwithin
          refine ⟨older ++ [cycle], [x], rfl, ?_⟩
          rw [List.reverse_concat]
          refine htracks.next py (List.ne_nil_of_mem (List.mem_of_getLast? hy)) fun z hz => ?_
          rw [hall z hz]
          exact not_le.1 fun h => hwithin (decide_eq_true h)
    · have hcalls : callsOf g (calls ++ [x]) = callsOf g calls := by
        simp [callsOf, hg]
      rw [hcalls]
      rcases ih with ⟨hnil, htracks⟩ | ⟨older, cycle, hcycles, htracks⟩
      · exact .inl ⟨hnil, htracks.other py (Ne.symm hg)⟩
      · exact .inr ⟨older, cycle, hcycles, htracks.other py (Ne.symm hg)⟩

end

/-! ### A service that is deleted -/

def integerReadings : Numbers Int where
  zero := 0
  one := 1
  percent x := some (x * 100)
  share x y := if y = 0 then none else some (x * 100 / y)
  truthy x := decide (x ≠ 0)
  gauge := some

def checkedAt (now : Rat) (serviceId : Nat) (serviceName : Text) : Call Int :=
  ⟨now, .service serviceId serviceName "web".toList "nginx.service".toList "running".toList none⟩

/-- Two services are checked, and one minute and two minutes later only the first. -/
def deletedRun : List (Call Int) :=
  [checkedAt 0 1 "nginx".toList, checkedAt 1 2 "puma".toList, checkedAt 60 1 "nginx".toList, checkedAt 120 1 "nginx".toList]

end ProxmoxTool.Metrics
