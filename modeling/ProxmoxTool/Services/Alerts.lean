import ProxmoxTool.Apps.Validate
import ProxmoxTool.Lib.Dict
import ProxmoxTool.Lib.System

/-!
# Service alerts

The model of the three functions of `core/scanner.py` that write the status of a service: `_upsert_service` of the scan,
`check_service_statuses` of the health check and `service_action` of the operators; and of `_notify_service_transition`, which
the first two call with the status they found in the row.  The state keeps the rows, the alerts sent, and what was observed
of each service, which the code does not keep.

`expected` is what the alerts are for: one when a failure episode begins and one when it ends with the service running.
`alerts_follow_episodes` says when the code sends these: the row must not lose the memory of an episode, which happens when
the health check or an operator's action reads something unknown, or an action reads the beginning or the end of one.
-/

namespace ProxmoxTool.Services

inductive Status
  | running
  | stopped
  | failed
  | unknown
  deriving DecidableEq, Repr

/-- `_map_systemctl_status`. -/
def mapSystemctlStatus (t : Text) : Status :=
  if t = "active".toList then .running
  else if t = "inactive".toList then .stopped
  else if t = "failed".toList then .failed
  else .unknown

/-- A service: the guest and the unit. -/
abbrev Service := Nat × Text

/-- The columns of a `GuestService` besides the guest and the unit. -/
structure Row where
  serviceName : Text
  status : Status
  deriving DecidableEq, Repr

inductive AlertKind
  | failed
  | recovered
  deriving DecidableEq, Repr

/-- A dispatched alert; `discord` is whether it also goes to Discord. -/
structure Alert where
  service : Service
  serviceName : Text
  kind : AlertKind
  discord : Bool
  deriving DecidableEq, Repr

structure State where
  rows : Dict Service Row := []
  sent : List Alert := []
  observed : List (Service × Status) := []

/-- The event `_notify_service_transition` chooses, `none` if it returns. -/
def transition (old : Option Status) (new : Status) : Option AlertKind :=
  if new = .failed ∧ old ≠ some .failed then some .failed
  else if new = .running ∧ old = some .failed then some .recovered
  else none

section

variable (u : CharTable) (matchesTags : Nat → Bool)

/-- `_notify_service_transition`. -/
def notify (service : Service) (serviceName : Text) (old : Option Status) (new : Status) (sent : List Alert) : List Alert :=
  match transition old new with
  | none => sent
  | some kind => sent ++ [⟨service, serviceName, kind, matchesTags service.1⟩]

/-- `_safe_unit_name` raises nothing; `$` also matches before a newline at the end. -/
def safeUnitName (t : Text) : Bool :=
  let name := if t.getLast? = some '\n' then t.dropLast else t
  !name.isEmpty && name.all fun c => u.isWord c || c ∈ ['.', '-', '@', '*']

/-- `_upsert_service`. -/
def upsertService (service : Service) (serviceKey : Text) (status : Status) (s : State) : State :=
  if safeUnitName u service.2 = false then s
  else
    let observed := s.observed ++ [(service, status)]
    match s.rows.get? service, status with
    | some existing, .running | some existing, .failed =>
      { rows := s.rows.set service { existing with status := status }
        sent := notify matchesTags service serviceKey (some existing.status) status s.sent
        observed := observed }
    | none, .running | none, .failed =>
      { rows := s.rows.set service ⟨serviceKey, status⟩
        sent := notify matchesTags service serviceKey none status s.sent
        observed := observed }
    | some existing, .stopped => { s with
        rows := s.rows.set service { existing with status := status }
        observed := observed }
    | _, _ => { s with observed := observed }

/-- The result of `_execute_command`: standard output and error. -/
structure Output where
  stdout : Option Text
  error : Option Text

/-- `(stdout or "").strip().split("\n")`. -/
def Output.lines (out : Output) : List Text := (strip (out.stdout.getD [])).splitOn '\n'

/-- `if x` for a string that may be missing. -/
def isSet (t : Option Text) : Bool := t.any (· ≠ [])

/-- What `check_service_statuses` reads for each service of the guest; nothing if it returns early or raises. -/
def checked (rows : Dict Service Row) (guest : Nat) (out : Output) : List ((Service × Row) × Status) :=
  let services := rows.filter fun e => decide (e.1.1 = guest)
  if services.all (fun e => safeUnitName u e.1.2) = false then []
  else if isSet out.error && !isSet out.stdout then []
  else services.zipIdx.map fun e => (e.1, mapSystemctlStatus ((out.lines[e.2]?).elim "unknown".toList strip))

/-- The row with the status read. -/
def written (r : (Service × Row) × Status) : Service × Row := (r.1.1, { r.1.2 with status := r.2 })

/-- `check_service_statuses`. -/
def checkServiceStatuses (guest : Nat) (out : Output) (s : State) : State :=
  let readings := checked u s.rows guest out
  let transitions := readings.filter fun r => decide (r.2 ≠ r.1.2.status)
  { rows := s.rows.setAll (readings.map written)
    sent := transitions.foldl (fun sent r => notify matchesTags r.1.1 r.1.2.serviceName (some r.1.2.status) r.2 sent) s.sent
    observed := s.observed ++ readings.map fun r => (r.1.1, r.2) }

def actions : List Text := ["start".toList, "stop".toList, "restart".toList]

/-- What `service_action` reads after the command; `none` if it returns early. -/
def acted (service : Service) (action : Text) (out status : Output) : Option Status :=
  if action ∉ actions then none
  else if safeUnitName u service.2 = false then none
  else if isSet out.error then none
  else some (mapSystemctlStatus (strip (status.stdout.getD [])))

/-- `service_action`: the new state, and whether it succeeded with its text. -/
def serviceAction (service : Service) (row : Row) (action : Text) (out status : Output) (s : State) :
    State × Bool × Text :=
  match acted u service action out status with
  | none =>
    (s, false, if action ∉ actions then "Invalid action".toList
      else if safeUnitName u service.2 = false then "Invalid systemd unit name".toList else out.error.getD [])
  | some new =>
    let done := action.head?.elim [] fun c => c.toUpper :: action.tail
    ({ s with
        rows := s.rows.set service { row with status := new }
        observed := s.observed ++ [(service, new)] },
      true, if isSet out.stdout then out.stdout.getD [] else done ++ " command sent".toList)

inductive Event
  | upsert (service : Service) (serviceKey : Text) (status : Status)
  | check (guest : Nat) (out : Output)
  | action (service : Service) (command : Text) (out status : Output)

def step (s : State) : Event → Option State
  | .upsert service serviceKey status => some (upsertService u matchesTags service serviceKey status s)
  | .check guest out => some (checkServiceStatuses u matchesTags guest out s)
  | .action service command out status =>
    (s.rows.get? service).map fun row => (serviceAction u service row command out status s).1

/-- At the start the rows are those an operator has assigned: nothing is known of their services. -/
def system : System State Event where
  init s := (s.rows.map Prod.fst).Nodup ∧ (∀ e ∈ s.rows, e.2.status = .unknown) ∧ s.sent = [] ∧ s.observed = []
  step := step u matchesTags

end

/-! ### Episodes -/

/-- Whether a failure episode is on after an observation; an unknown status neither begins nor ends one. -/
def after (on : Bool) : Status → Bool
  | .failed => true
  | .running | .stopped => false
  | .unknown => on

/-- The alert an observation calls for. -/
def alertFor (on : Bool) : Status → Option AlertKind
  | .failed => if on then none else some .failed
  | .running => if on then some .recovered else none
  | .stopped | .unknown => none

/-- The alerts a sequence of observations calls for: one for each episode, and one for each that ends with the service
running. -/
def expected : Bool → List Status → List AlertKind
  | _, [] => []
  | on, status :: rest => (alertFor on status).toList ++ expected (after on status) rest

/-- What was observed of a service. -/
def State.observations (s : State) (service : Service) : List Status :=
  (s.observed.filter fun o => decide (o.1 = service)).map Prod.snd

/-- The alerts sent for a service. -/
def State.alerts (s : State) (service : Service) : List AlertKind :=
  (s.sent.filter fun a => decide (a.service = service)).map Alert.kind

/-- Whether an episode of the service is on. -/
def State.on (s : State) (service : Service) : Bool := (s.observations service).foldl after false

/-- The status in the row of a service. -/
def State.stored (s : State) (service : Service) : Option Status := (s.rows.get? service).map Row.status

/-- An event does not make the row forget an episode: the health check reads no unknown status of a service that is stored
as failed, and an action reads that the service has stopped, or failed if and only if it is stored as failed. -/
def Event.keeps (u : CharTable) (s : State) : Event → Prop
  | .upsert .. => True
  | .check guest out => ∀ r ∈ checked u s.rows guest out, r.1.2.status = .failed → r.2 ≠ .unknown
  | .action service command out status =>
    ∀ new ∈ acted u service command out status, new ≠ .stopped → (new = .failed ↔ s.stored service = some .failed)

theorem expected_append (on : Bool) (os : List Status) (o : Status) :
    expected on (os ++ [o]) = expected on os ++ (alertFor (os.foldl after on) o).toList := by
  induction os generalizing on with
  | nil => simp [expected]
  | cons status os ih => rw [List.cons_append, expected, expected, ih, List.foldl_cons, List.append_assoc]

/-! ### What an event does to one service -/

/-- What an event does to a service: nothing, or one observation, with the status stored and the alert sent. -/
inductive StepFor (s s' : State) (k : Service) : Prop
  | quiet : s'.observations k = s.observations k → s'.stored k = s.stored k → s'.alerts k = s.alerts k → StepFor s s' k
  | reads (new : Status) (alert : Option AlertKind) : s'.observations k = s.observations k ++ [new] →
      s'.alerts k = s.alerts k ++ alert.toList →
      (alert = alertFor (decide (s.stored k = some .failed)) new ∧
        (s'.stored k = some .failed ↔ after (decide (s.stored k = some .failed)) new = true)) → StepFor s s' k

/-- The row knows whether an episode is on, and the alerts sent are those called for. -/
structure Tracked (s : State) (k : Service) : Prop where
  stored : s.stored k = some .failed ↔ s.on k = true
  alerts : s.alerts k = expected false (s.observations k)

theorem Tracked.step {s s' : State} {k : Service} (h : Tracked s k) (hs : StepFor s s' k) : Tracked s' k := by
  have hon : decide (s.stored k = some .failed) = s.on k := by
    rw [Bool.eq_iff_iff, decide_eq_true_eq]
    exact h.stored
  cases hs with
  | quiet hobs hstored halerts =>
    refine ⟨?_, ?_⟩
    · rw [State.on, hobs, hstored]
      exact h.stored
    · rw [halerts, hobs]
      exact h.alerts
  | reads new alert hobs halerts hnew =>
    rw [hon] at hnew
    refine ⟨?_, ?_⟩
    · rw [hnew.2]
      unfold State.on
      rw [hobs, List.foldl_append]
      rfl
    · rw [halerts, hobs, expected_append, h.alerts, hnew.1]
      rfl

theorem transition_eq (old : Option Status) (new : Status) :
    transition old new = alertFor (decide (old = some .failed)) new := by
  unfold transition
  cases new with
  | running =>
    by_cases h : old = some .failed
    · simp [h, alertFor]
    · simp [h, alertFor]
  | stopped => simp [alertFor]
  | failed =>
    by_cases h : old = some .failed
    · simp [h, alertFor]
    · simp [h, alertFor]
  | unknown => simp [alertFor]

section

variable {u : CharTable} {matchesTags : Nat → Bool} {s : State} {k : Service}

/-- The alerts for `k` among a list of them. -/
def alertsIn (k : Service) (sent : List Alert) : List AlertKind :=
  (sent.filter fun a => decide (a.service = k)).map Alert.kind

theorem alertsIn_notify (service : Service) (serviceName : Text) (old : Option Status) (new : Status) (sent : List Alert) :
    alertsIn k (notify matchesTags service serviceName old new sent) =
      alertsIn k sent ++ if service = k then (transition old new).toList else [] := by
  unfold notify alertsIn
  cases transition old new with
  | none => simp
  | some kind =>
    dsimp only
    rw [List.filter_append, List.map_append]
    by_cases h : service = k
    · simp [h]
    · simp [h]

theorem observations_append (rows : Dict Service Row) (sent : List Alert) (os : List (Service × Status)) :
    State.observations ⟨rows, sent, s.observed ++ os⟩ k =
      s.observations k ++ (os.filter fun o => decide (o.1 = k)).map Prod.snd := by
  unfold State.observations
  rw [List.filter_append, List.map_append]

/-- An observation that is written to the row. -/
theorem stepFor_write (service : Service) (row : Row) (alert : Option AlertKind) {sent : List Alert}
    (halert : alertsIn k sent = alertsIn k s.sent ++ if service = k then alert.toList else [])
    (hnew : service = k → alert = alertFor (decide (s.stored k = some .failed)) row.status ∧
      (row.status = .failed ↔ after (decide (s.stored k = some .failed)) row.status = true)) :
    StepFor s ⟨s.rows.set service row, sent, s.observed ++ [(service, row.status)]⟩ k := by
  by_cases hk : service = k
  · obtain ⟨heq, hon⟩ := hnew hk
    subst hk
    refine .reads row.status alert ?_ ?_ ⟨heq, ?_⟩
    · rw [observations_append]
      simp
    · rw [if_pos rfl] at halert
      exact halert
    · rw [State.stored, Dict.get?_set_self, Option.map_some, Option.some.injEq]
      exact hon
  · refine .quiet ?_ ?_ ?_
    · rw [observations_append]
      simp [hk]
    · rw [State.stored, Dict.get?_set_of_ne (Ne.symm hk)]
      rfl
    · rw [if_neg hk, List.append_nil] at halert
      exact halert

/-- An observation that is not written. -/
theorem stepFor_pass (service : Service) (status : Status)
    (hpass : service = k → alertFor (decide (s.stored k = some .failed)) status = none ∧
      (s.stored k = some .failed ↔ after (decide (s.stored k = some .failed)) status = true)) :
    StepFor s ⟨s.rows, s.sent, s.observed ++ [(service, status)]⟩ k := by
  by_cases hk : service = k
  · obtain ⟨hnone, hon⟩ := hpass hk
    subst hk
    refine .reads status none ?_ ?_ ⟨hnone.symm, hon⟩
    · rw [observations_append]
      simp
    · simp [State.alerts]
  · refine .quiet ?_ rfl rfl
    rw [observations_append]
    simp [hk]

/-- The scan writes what it knows, and alerts by what the row had. -/
theorem upsert_stepFor (service : Service) (serviceKey : Text) (status : Status) :
    StepFor s (upsertService u matchesTags service serviceKey status s) k := by
  have hstored : ∀ old, s.rows.get? service = old → service = k → s.stored k = old.map Row.status := by
    rintro old hold rfl
    rw [State.stored, hold]
  have hfailed : ∀ on : Bool, Status.failed = .failed ↔ after on .failed = true := by simp [after]
  have hrunning : ∀ on : Bool, Status.running = .failed ↔ after on .running = true := by simp [after]
  have hon : ∀ old : Option Row, (old.map Row.status = some .failed ↔
      after (decide (old.map Row.status = some .failed)) .unknown = true) := by simp [after]
  unfold upsertService
  split
  · exact .quiet rfl rfl rfl
  · cases hget : s.rows.get? service with
    | none =>
      cases status with
      | running =>
        refine stepFor_write service ⟨serviceKey, .running⟩ _ (alertsIn_notify _ _ _ _ _) fun hk => ⟨?_, hrunning _⟩
        rw [hstored _ hget hk, transition_eq]
        rfl
      | failed =>
        refine stepFor_write service ⟨serviceKey, .failed⟩ _ (alertsIn_notify _ _ _ _ _) fun hk => ⟨?_, hfailed _⟩
        rw [hstored _ hget hk, transition_eq]
        rfl
      | stopped =>
        refine stepFor_pass service .stopped fun hk => ⟨rfl, ?_⟩
        rw [hstored _ hget hk]
        simp [after]
      | unknown =>
        refine stepFor_pass service .unknown fun hk => ⟨rfl, ?_⟩
        rw [hstored _ hget hk]
        exact hon none
    | some existing =>
      cases status with
      | running =>
        refine stepFor_write service ⟨existing.serviceName, .running⟩ _ (alertsIn_notify _ _ _ _ _) fun hk =>
          ⟨?_, hrunning _⟩
        rw [hstored _ hget hk, transition_eq]
        rfl
      | failed =>
        refine stepFor_write service ⟨existing.serviceName, .failed⟩ _ (alertsIn_notify _ _ _ _ _) fun hk =>
          ⟨?_, hfailed _⟩
        rw [hstored _ hget hk, transition_eq]
        rfl
      | stopped =>
        refine stepFor_write service ⟨existing.serviceName, .stopped⟩ none (by simp) fun _ => ⟨rfl, ?_⟩
        simp [after]
      | unknown =>
        refine stepFor_pass service .unknown fun hk => ⟨rfl, ?_⟩
        rw [hstored _ hget hk]
        exact hon (some existing)

/-- An action writes what it reads and sends nothing. -/
theorem action_stepFor (service : Service) (row : Row) (command : Text) (out status : Output)
    (hkeeps : (Event.action service command out status).keeps u s) :
    StepFor s (serviceAction u service row command out status s).1 k := by
  unfold serviceAction
  cases hacted : acted u service command out status with
  | none => exact .quiet rfl rfl rfl
  | some new =>
    refine stepFor_write service ⟨row.serviceName, new⟩ none (by simp) ?_
    rintro rfl
    have hnew := hkeeps new hacted
    by_cases hstop : new = .stopped
    · subst hstop
      simp [alertFor, after]
    · have hiff := hnew hstop
      by_cases hfailed : new = .failed
      · have hstored := hiff.1 hfailed
        simp [hstored, hfailed, alertFor, after]
      · have hstored : ¬ s.stored service = some .failed := fun h => hfailed (hiff.2 h)
        cases new with
        | running => simp [hstored, alertFor, after]
        | stopped => exact absurd rfl hstop
        | failed => exact absurd rfl hfailed
        | unknown => simp [hstored, alertFor, after]

/-! ### The health check -/

theorem filter_eq_singleton {α : Type} {f : α → Service} {l : List α} (hn : (l.map f).Nodup) {a : α} (ha : a ∈ l) :
    l.filter (fun b => decide (f b = f a)) = [a] := by
  induction l with
  | nil => cases ha
  | cons b l ih =>
    have hnodup := List.nodup_cons.1 hn
    rw [List.filter_cons]
    rcases List.mem_cons.1 ha with rfl | ha
    · rw [if_pos (by simp)]
      refine congrArg (a :: ·) (List.filter_eq_nil_iff.2 fun c hc => ?_)
      rw [decide_eq_true_eq]
      exact fun heq => hnodup.1 (heq ▸ List.mem_map_of_mem hc)
    · have hne : f b ≠ f a := fun heq => hnodup.1 (heq ▸ List.mem_map_of_mem ha)
      rw [if_neg (by simpa using hne), ih hnodup.2 ha]

/-- The readings of a check are of rows, one for each service. -/
theorem checked_spec (rows : Dict Service Row) (guest : Nat) (out : Output) :
    List.Sublist ((checked u rows guest out).map fun r => r.1) rows := by
  unfold checked
  dsimp only
  split
  · exact List.nil_sublist _
  · split
    · exact List.nil_sublist _
    · have hfst : ((rows.filter fun e => decide (e.1.1 = guest)).zipIdx.map Prod.fst) =
          rows.filter fun e => decide (e.1.1 = guest) := List.zipIdx_map_fst 0 _
      rw [List.map_map]
      change List.Sublist ((rows.filter fun e => decide (e.1.1 = guest)).zipIdx.map Prod.fst) rows
      rw [hfst]
      exact List.filter_sublist

/-- The alerts of a run of notifications. -/
theorem alertsIn_notifyAll (l : List ((Service × Row) × Status)) (sent : List Alert) :
    alertsIn k (l.foldl (fun sent r => notify matchesTags r.1.1 r.1.2.serviceName (some r.1.2.status) r.2 sent) sent) =
      alertsIn k sent ++
        (l.filter fun r => decide (r.1.1 = k)).flatMap fun r => (transition (some r.1.2.status) r.2).toList := by
  induction l generalizing sent with
  | nil => simp
  | cons r l ih =>
    rw [List.foldl_cons, ih, alertsIn_notify, List.filter_cons]
    by_cases hk : r.1.1 = k
    · rw [if_pos hk, if_pos (by simpa using hk), List.flatMap_cons, List.append_assoc]
    · rw [if_neg hk, if_neg (by simpa using hk), List.append_nil]

/-- The alerts of a check for one service come from its readings that differ from the row. -/
theorem alerts_check (guest : Nat) (out : Output) :
    (checkServiceStatuses u matchesTags guest out s).alerts k = s.alerts k ++
      (((checked u s.rows guest out).filter fun r => decide (r.1.1 = k)).filter fun r => decide (r.2 ≠ r.1.2.status)).flatMap
        fun r => (transition (some r.1.2.status) r.2).toList := by
  refine (alertsIn_notifyAll _ _).trans (congrArg (alertsIn k s.sent ++ ·) ?_)
  rw [List.filter_filter, List.filter_congr fun a _ => Bool.and_comm _ _, ← List.filter_filter]

/-- The observations of a check for one service are its readings. -/
theorem observations_check (guest : Nat) (out : Output) :
    (checkServiceStatuses u matchesTags guest out s).observations k = s.observations k ++
      ((checked u s.rows guest out).filter fun r => decide (r.1.1 = k)).map Prod.snd := by
  unfold checkServiceStatuses
  rw [observations_append, List.filter_map, List.map_map]
  rfl

theorem check_stepFor (hrows : (s.rows.map Prod.fst).Nodup) (guest : Nat) (out : Output)
    (hkeeps : (Event.check guest out).keeps u s) : StepFor s (checkServiceStatuses u matchesTags guest out s) k := by
  have hspec := checked_spec (u := u) s.rows guest out
  have hnodup : ((checked u s.rows guest out).map fun r => r.1.1).Nodup := by
    have := hrows.sublist (hspec.map Prod.fst)
    rwa [List.map_map] at this
  have hfst : ((checked u s.rows guest out).map written).map Prod.fst =
      (checked u s.rows guest out).map fun r => r.1.1 := by
    rw [List.map_map]
    rfl
  by_cases hk : k ∈ (checked u s.rows guest out).map fun r => r.1.1
  · -- the one reading of this service
    obtain ⟨r, hr, rfl⟩ := List.mem_map.1 hk
    have hget : s.rows.get? r.1.1 = some r.1.2 := Dict.get?_of_mem hrows (hspec.subset (List.mem_map_of_mem hr))
    have hstored : s.stored r.1.1 = some r.1.2.status := by rw [State.stored, hget]; rfl
    have hsingle : ((checked u s.rows guest out).filter fun r' => decide (r'.1.1 = r.1.1)) = [r] :=
      filter_eq_singleton (f := fun r => r.1.1) hnodup hr
    refine .reads r.2 (transition (some r.1.2.status) r.2) ?_ ?_ ⟨?_, ?_⟩
    · rw [observations_check, hsingle]
      rfl
    · rw [alerts_check, hsingle, List.filter_singleton]
      by_cases hsame : r.2 = r.1.2.status
      · rw [hsame]
        cases r.1.2.status <;> rfl
      · simp [hsame]
    · rw [transition_eq, hstored]
    · have hset : (checkServiceStatuses u matchesTags guest out s).rows.get? r.1.1 = some (written r).2 :=
        Dict.get?_setAll_of_mem (by rw [hfst]; exact hnodup) (List.mem_map_of_mem (f := written) hr) _
      rw [State.stored, hset, hstored, Option.map_some, Option.some.injEq]
      change r.2 = .failed ↔ _
      cases hnew : r.2 with
      | running => simp [after]
      | stopped => simp [after]
      | failed => simp [after]
      | unknown =>
        have hne : r.1.2.status ≠ .failed := fun h => hkeeps r hr h hnew
        simp [after, hne]
  · have hnil : ((checked u s.rows guest out).filter fun r => decide (r.1.1 = k)) = [] := by
      refine List.filter_eq_nil_iff.2 fun r hr => ?_
      rw [decide_eq_true_eq]
      exact fun heq => hk (heq ▸ List.mem_map_of_mem hr)
    refine .quiet ?_ ?_ ?_
    · rw [observations_check, hnil, List.map_nil, List.append_nil]
    · unfold State.stored checkServiceStatuses
      dsimp only
      rw [Dict.get?_setAll_of_not_mem (by rw [hfst]; exact hk)]
    · rw [alerts_check, hnil, List.filter_nil, List.flatMap_nil, List.append_nil]

theorem nodup_rows_step {s' : State} {e : Event} (h : (s.rows.map Prod.fst).Nodup)
    (hs : step u matchesTags s e = some s') : (s'.rows.map Prod.fst).Nodup := by
  cases e with
  | upsert service serviceKey status =>
    obtain rfl := Option.some.inj hs
    unfold upsertService
    split
    · exact h
    · dsimp only
      split
      all_goals first
        | exact h
        | exact Dict.nodup_keys_set h _ _
  | check guest out =>
    obtain rfl := Option.some.inj hs
    exact Dict.nodup_keys_setAll h _
  | action service command out status =>
    obtain ⟨row, -, rfl⟩ := Option.map_eq_some_iff.1 hs
    unfold serviceAction
    cases acted u service command out status with
    | none => exact h
    | some new => exact Dict.nodup_keys_set h _ _

theorem stepFor_of_step {s' : State} {e : Event} (hrows : (s.rows.map Prod.fst).Nodup) (hkeeps : e.keeps u s)
    (hs : step u matchesTags s e = some s') (k : Service) : StepFor s s' k := by
  cases e with
  | upsert service serviceKey status =>
    obtain rfl := Option.some.inj hs
    exact upsert_stepFor service serviceKey status
  | check guest out =>
    obtain rfl := Option.some.inj hs
    exact check_stepFor hrows guest out hkeeps
  | action service command out status =>
    obtain ⟨row, -, rfl⟩ := Option.map_eq_some_iff.1 hs
    exact action_stepFor service row command out status hkeeps

/-- In every run whose events do not make a row forget an episode, the alerts sent for every service are those that what was
observed of it calls for. -/
theorem alerts_follow_episodes (h : (system u matchesTags).Reach (fun s e => e.keeps u s) s) (k : Service) :
    s.alerts k = expected false (s.observations k) := by
  have hinv : (s.rows.map Prod.fst).Nodup ∧ ∀ k, Tracked s k := by
    refine System.Reach.invariant (I := fun s => (s.rows.map Prod.fst).Nodup ∧ ∀ k, Tracked s k) ?_ ?_ h
    · rintro s ⟨hrows, hunknown, hsent, hobserved⟩
      refine ⟨hrows, fun k => ⟨?_, ?_⟩⟩
      · have hstored : s.stored k ≠ some .failed := by
          intro hfailed
          obtain ⟨row, hrow, hstatus⟩ := Option.map_eq_some_iff.1 hfailed
          rw [hunknown _ (Dict.mem_of_get? hrow)] at hstatus
          cases hstatus
        simp [hstored, State.on, State.observations, hobserved]
      · simp [State.alerts, State.observations, hsent, hobserved, expected]
    · rintro s e s' ⟨hrows, htracked⟩ hkeeps hs
      exact ⟨nodup_rows_step hrows hs, fun k => (htracked k).step (stepFor_of_step hrows hkeeps hs k)⟩
  exact (hinv.2 k).alerts

end

/-- A failure that the scan finds and the health check still sees, and a recovery that the scan finds. -/
theorem failure_and_recovery : ∃ s : State,
    s.observations (1, "a".toList) = [.failed, .failed, .running] ∧
      s.alerts (1, "a".toList) = expected false (s.observations (1, "a".toList)) := by
  have h0 : (system ⟨fun _ => false, fun _ => false⟩ fun _ => true).Reach
      (fun s e => e.keeps ⟨fun _ => false, fun _ => false⟩ s) {} :=
    System.Reach.init ⟨List.nodup_nil, by simp, rfl, rfl⟩
  have h1 := h0.next (.upsert (1, "a".toList) "a".toList .failed) trivial rfl
  have h2 := h1.next (.check 1 ⟨some "failed".toList, none⟩)
    (by unfold Event.keeps; decide +kernel) rfl
  have h3 := h2.next (.upsert (1, "a".toList) "a".toList .running) trivial rfl
  exact ⟨_, by decide +kernel, alerts_follow_episodes h3 _⟩

/-- An unknown status read by the health check during an episode makes the scan alert a second time, or not report the
recovery; a failure or a recovery that an action reads is not alerted at all. -/
theorem episodes_lost :
    (((system ⟨fun _ => false, fun _ => false⟩ fun _ => true).exec {}
        [.upsert (1, "a".toList) "a".toList .failed, .check 1 ⟨some "activating".toList, none⟩,
          .upsert (1, "a".toList) "a".toList .failed]).map fun s =>
        (s.alerts (1, "a".toList), expected false (s.observations (1, "a".toList)))) =
      some ([.failed, .failed], [.failed]) ∧
    (((system ⟨fun _ => false, fun _ => false⟩ fun _ => true).exec {}
        [.upsert (1, "a".toList) "a".toList .failed, .check 1 ⟨some "activating".toList, none⟩,
          .upsert (1, "a".toList) "a".toList .running]).map fun s =>
        (s.alerts (1, "a".toList), expected false (s.observations (1, "a".toList)))) =
      some ([.failed], [.failed, .recovered]) ∧
    (((system ⟨fun _ => false, fun _ => false⟩ fun _ => true).exec {}
        [.upsert (1, "a".toList) "a".toList .running,
          .action (1, "a".toList) "restart".toList ⟨none, none⟩ ⟨some "failed".toList, none⟩,
          .check 1 ⟨some "failed".toList, none⟩]).map fun s =>
        (s.alerts (1, "a".toList), expected false (s.observations (1, "a".toList)))) =
      some ([], [.failed]) := by
  refine ⟨?_, ?_, ?_⟩
  · decide +kernel
  · decide +kernel
  · decide +kernel

end ProxmoxTool.Services
