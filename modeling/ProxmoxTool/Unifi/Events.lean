import Mathlib
import ProxmoxTool.Lib.Dedupe
import ProxmoxTool.Lib.System
import ProxmoxTool.Lib.Text

/-!
# The log of the UniFi controller

`_poll_unifi_events` and `_purge_old_unifi_logs` of `core/scheduler.py`.  A poll reads the lists of events and of alarms, each newest
first, and stores what is among the first `UNIFI_POLL_MAX_EVENTS` and has an `_id` that no stored row has; a purge deletes rows older
than a cutoff.  The rows are the only memory of what has been stored.

In a run the controller records events, polls succeed or fail for one list or both, and rows are purged, in any order.  A list has
everything that is new since the last successful poll, and any part of what is older.  `recorded_once_iff` says which runs store every
event once.
-/

namespace ProxmoxTool.Unifi

def unifiPollMaxEvents : ℕ := 500

/-- An element of a list of the controller; `datetime` is `none` where there is none that can be parsed. -/
structure Evt (T : Type) where
  id : Text
  datetime : Option T
  key : Text
  msg : Text
  srcIp : Option Text
  src : Option Text
  dstIp : Option Text
  dst : Option Text
  sport : Option ℤ
  dport : Option ℤ
  proto : Option Text
  iface : Option Text
  host : Option Text
  deriving DecidableEq

/-- A row of `unifi_log_entries`. -/
structure UnifiLogEntry (T : Type) where
  timestamp : T
  source : Text
  logType : Text
  action : Text
  srcIp : Option Text
  dstIp : Option Text
  srcPort : Option ℤ
  dstPort : Option ℤ
  protocol : Option Text
  interface : Option Text
  ruleId : Option Text
  mac : Option Text
  msg : Option Text

inductive Endpoint
  | event
  | alarm
  deriving DecidableEq

def Endpoint.logType : Endpoint → Text
  | .event => "system".toList
  | .alarm => "firewall".toList

section

variable {T : Type}

def truthy (t : Option Text) : Option Text := t.filter fun t => !t.isEmpty

def Evt.entry (evt : Evt T) (logType : Text) (now : T) : UnifiLogEntry T where
  timestamp := evt.datetime.getD now
  source := "api".toList
  logType := logType
  action := if "_Blocked".toList.isSuffixOf evt.key then "block".toList else "allow".toList
  srcIp := truthy evt.srcIp <|> truthy evt.src
  dstIp := truthy evt.dstIp <|> truthy evt.dst
  srcPort := evt.sport
  dstPort := evt.dport
  protocol := evt.proto
  interface := evt.iface
  ruleId := if evt.id = [] then none else some evt.id
  mac := evt.host
  msg := if evt.msg = [] then none else some (evt.msg.take 512)

/-- The `rule_id` of the rows with the source `api`. -/
def ruleIds (rows : List (UnifiLogEntry T)) : List Text :=
  (rows.filter fun row => row.source = "api".toList).filterMap UnifiLogEntry.ruleId

/-- The loop over a batch, with the set `known`. -/
def newEntries (logType : Text) (now : T) (known : List Text) : List (Evt T) → List (UnifiLogEntry T)
  | [] => []
  | evt :: batch =>
    if evt.id ≠ [] ∧ evt.id ∈ known then newEntries logType now known batch
    else evt.entry logType now :: newEntries logType now (if evt.id = [] then known else evt.id :: known) batch

def keys (batch : List (Evt T)) : List Text := (batch.map Evt.id).filter fun id => !id.isEmpty

/-- What a poll adds for one list. -/
def pollEndpoint (e : Endpoint) (now : T) (raw : Option (List (Evt T))) (rows : List (UnifiLogEntry T)) : List (UnifiLogEntry T) :=
  let batch := (raw.getD []).take unifiPollMaxEvents
  let known := (ruleIds rows).filter fun id => id ∈ keys batch
  newEntries e.logType now known batch

/-- The rows that `_poll_unifi_events` adds; the second lookup sees what the first list has added. -/
def pollUnifiEvents (raw : Endpoint → Option (List (Evt T))) (now : T) (rows : List (UnifiLogEntry T)) : List (UnifiLogEntry T) :=
  let events := pollEndpoint .event now (raw .event) rows
  events ++ pollEndpoint .alarm now (raw .alarm) (rows ++ events)

/-- `_purge_old_unifi_logs`. -/
def purgeOldUnifiLogs [LinearOrder T] (cutoff : T) (rows : List (UnifiLogEntry T)) : List (UnifiLogEntry T) :=
  rows.filter fun row => !decide (row.timestamp < cutoff)

/-! ### Runs -/

/-- One list of the controller: what has arrived since the last successful poll and what was there before, both newest first, and what of
this has arrived in the run. -/
structure Feed (T : Type) where
  fresh : List (Evt T) := []
  past : List (Evt T)
  taken : List (Evt T) := []

/-- The controller may answer with this list: nothing new is missing, anything old may be. -/
def Feed.Lists (f : Feed T) (raw : List (Evt T)) : Prop :=
  f.fresh <+: raw ∧ (raw.drop f.fresh.length).Sublist f.past

instance [DecidableEq T] (f : Feed T) (raw : List (Evt T)) : Decidable (f.Lists raw) := inferInstanceAs (Decidable (_ ∧ _))

def Feed.polled (f : Feed T) : Feed T := { fresh := [], past := f.fresh ++ f.past, taken := f.fresh ++ f.taken }

/-- `inserted` has the keys of all rows that were ever stored. -/
structure State (T : Type) where
  rows : List (UnifiLogEntry T) := []
  inserted : List Text := []
  feeds : Endpoint → Feed T

/-- No list has an answer where its request fails; a poll that raises is rolled back. -/
inductive Event (T : Type)
  | arrive (e : Endpoint) (evt : Evt T)
  | poll (raw : Endpoint → Option (List (Evt T))) (now : T) (raises : Bool)
  | purge (cutoff : T)

def State.arrive (s : State T) (e : Endpoint) (evt : Evt T) : Option (State T) :=
  if (s.feeds e).fresh.length < unifiPollMaxEvents then
    some { s with feeds := Function.update s.feeds e { s.feeds e with fresh := evt :: (s.feeds e).fresh } }
  else none

/-- The poll stores what it adds, and what is in an answered list is old afterwards. -/
def State.poll (s : State T) (raw : Endpoint → Option (List (Evt T))) (now : T) : State T where
  rows := s.rows ++ pollUnifiEvents raw now s.rows
  inserted := s.inserted ++ ruleIds (pollUnifiEvents raw now s.rows)
  feeds e := if (raw e).isSome then (s.feeds e).polled else s.feeds e

/-- At most `UNIFI_POLL_MAX_EVENTS` arrive between two successful polls of a list. -/
def step [LinearOrder T] (s : State T) : Event T → Option (State T)
  | .arrive e evt => s.arrive e evt
  | .poll raw now raises =>
    if (∀ list ∈ raw .event, (s.feeds .event).Lists list) ∧ (∀ list ∈ raw .alarm, (s.feeds .alarm).Lists list) then
      some (if raises then s else s.poll raw now)
    else none
  | .purge cutoff => some { s with rows := purgeOldUnifiLogs cutoff s.rows }

/-- The run begins with no rows, and with anything in the lists of the controller. -/
def State.start (past : Endpoint → List (Evt T)) : State T where
  feeds e := { past := past e }

/-- A system of its own for every start. -/
def system [LinearOrder T] (past : Endpoint → List (Evt T)) : System (State T) (Event T) where
  init s := s = State.start past
  step := step

/-- No key was stored twice, and what had arrived before the last successful poll has been stored. -/
structure RecordedOnce (s : State T) : Prop where
  once : s.inserted.Nodup
  stored : ∀ e, ∀ evt ∈ (s.feeds e).taken, evt.id ≠ [] → evt.id ∈ s.inserted

/-- The batch of a list. -/
def batch (raw : Option (List (Evt T))) : List (Evt T) := (raw.getD []).take unifiPollMaxEvents

/-- A poll that does not raise finds the row of every event in its batches that has been stored. -/
def Remembers (s : State T) : Event T → Prop
  | .poll raw _ false => ∀ e, ∀ evt ∈ batch (raw e), evt.id ≠ [] → evt.id ∈ s.inserted → evt.id ∈ ruleIds s.rows
  | _ => True

/-! ### What a poll stores -/

theorem ruleIds_append (rows rows' : List (UnifiLogEntry T)) : ruleIds (rows ++ rows') = ruleIds rows ++ ruleIds rows' := by
  unfold ruleIds
  rw [List.filter_append, List.filterMap_append]

theorem mem_keys {xs : List (Evt T)} {id : Text} : id ∈ keys xs ↔ id ≠ [] ∧ ∃ evt ∈ xs, evt.id = id := by
  simp [keys, and_comm]

theorem ruleIds_entry (evt : Evt T) (logType : Text) (now : T) (rows : List (UnifiLogEntry T)) :
    ruleIds (evt.entry logType now :: rows) = if evt.id = [] then ruleIds rows else evt.id :: ruleIds rows := by
  have hkept : (evt.entry logType now :: rows).filter (fun row => row.source = "api".toList) =
      evt.entry logType now :: rows.filter fun row => row.source = "api".toList :=
    List.filter_cons_of_pos (decide_eq_true rfl)
  unfold ruleIds
  rw [hkept]
  by_cases hid : evt.id = []
  · have hnone : (evt.entry logType now).ruleId = none := if_pos hid
    rw [if_pos hid, List.filterMap_cons_none hnone]
  · have hsome : (evt.entry logType now).ruleId = some evt.id := if_neg hid
    rw [if_neg hid, List.filterMap_cons_some hsome]

theorem raiseAll_append (m : Marks Text) (xs ys : List Text) : m.raiseAll (xs ++ ys) = (m.raiseAll xs).raiseAll ys :=
  List.foldl_append

/-- The loop raises the keys of its batch, where `known` says of these what has a row. -/
theorem raiseAll_keys (logType : Text) (now : T) {xs : List (Evt T)} {known : List Text} {m : Marks Text}
    (hknown : ∀ id ∈ keys xs, id ∈ known ↔ id ∈ m.standing) :
    m.raiseAll (keys xs) = ⟨m.standing ++ ruleIds (newEntries logType now known xs),
      m.raised ++ ruleIds (newEntries logType now known xs)⟩ := by
  induction xs generalizing known m with
  | nil => simp [keys, newEntries, ruleIds]
  | cons evt xs ih =>
    by_cases hid : evt.id = []
    · have hkeys : keys (evt :: xs) = keys xs := by simp [keys, hid]
      rw [hkeys] at hknown ⊢
      rw [newEntries, if_neg fun h => h.1 hid, if_pos hid, ruleIds_entry, if_pos hid]
      exact ih hknown
    · have hkeys : keys (evt :: xs) = evt.id :: keys xs := by simp [keys, hid]
      rw [hkeys] at hknown ⊢
      have hrest : ∀ id ∈ keys xs, id ∈ known ↔ id ∈ m.standing := fun id hmem => hknown id (List.mem_cons_of_mem _ hmem)
      have hevt := hknown evt.id List.mem_cons_self
      rw [Marks.raiseAll_cons, Marks.raise, newEntries]
      by_cases hin : evt.id ∈ known
      · rw [if_pos (hevt.1 hin), if_pos ⟨hid, hin⟩]
        exact ih hrest
      · rw [if_neg fun h => hin (hevt.2 h), if_neg fun h => hin h.2, if_neg hid, ruleIds_entry, if_neg hid]
        have hgrown : ∀ id ∈ keys xs, id ∈ evt.id :: known ↔ id ∈ m.standing ++ [evt.id] := by
          intro id hmem
          rw [List.mem_cons, List.mem_append, List.mem_singleton, hrest id hmem, or_comm]
        have happend : ∀ ys : List Text, ys ++ [evt.id] ++ ruleIds (newEntries logType now (evt.id :: known) xs) =
            ys ++ evt.id :: ruleIds (newEntries logType now (evt.id :: known) xs) := fun ys => List.append_assoc _ _ _
        have hraise := @ih (evt.id :: known) ⟨m.standing ++ [evt.id], m.raised ++ [evt.id]⟩ hgrown
        rwa [happend, happend] at hraise

/-- The keys of both batches. -/
def batchKeys (raw : Endpoint → Option (List (Evt T))) : List Text := keys (batch (raw .event)) ++ keys (batch (raw .alarm))

/-- The keys that have a row, and all that were stored. -/
def State.marks (s : State T) : Marks Text := ⟨ruleIds s.rows, s.inserted⟩

theorem raiseAll_pollEndpoint (e : Endpoint) (now : T) (raw : Option (List (Evt T))) (rows : List (UnifiLogEntry T))
    (inserted : List Text) :
    Marks.raiseAll ⟨ruleIds rows, inserted⟩ (keys (batch raw)) =
      ⟨ruleIds (rows ++ pollEndpoint e now raw rows), inserted ++ ruleIds (pollEndpoint e now raw rows)⟩ := by
  rw [ruleIds_append]
  refine raiseAll_keys e.logType now fun id hid => ?_
  rw [List.mem_filter]
  exact and_iff_left (decide_eq_true hid)

theorem marks_poll (s : State T) (raw : Endpoint → Option (List (Evt T))) (now : T) :
    (s.poll raw now).marks = s.marks.raiseAll (batchKeys raw) := by
  rw [batchKeys, raiseAll_append]
  unfold State.marks
  rw [raiseAll_pollEndpoint .event now, raiseAll_pollEndpoint .alarm now]
  unfold State.poll pollUnifiEvents
  dsimp only
  rw [ruleIds_append (pollEndpoint _ _ _ _), List.append_assoc, List.append_assoc]

/-! ### Every event once -/

section

/-- A row is of something stored, and what is new fits into a batch. -/
structure Inv (s : State T) : Prop extends RecordedOnce s where
  standing : ∀ id ∈ ruleIds s.rows, id ∈ s.inserted
  fits : ∀ e, (s.feeds e).fresh.length ≤ unifiPollMaxEvents

variable {s : State T} {raw : Endpoint → Option (List (Evt T))} {now : T}

theorem mem_batchKeys {id : Text} : id ∈ batchKeys raw ↔ id ≠ [] ∧ ∃ e, ∃ evt ∈ batch (raw e), evt.id = id := by
  unfold batchKeys
  rw [List.mem_append, mem_keys, mem_keys]
  constructor
  · rintro (⟨hid, h⟩ | ⟨hid, h⟩)
    · exact ⟨hid, .event, h⟩
    · exact ⟨hid, .alarm, h⟩
  · rintro ⟨hid, e, h⟩
    cases e with
    | event => exact .inl ⟨hid, h⟩
    | alarm => exact .inr ⟨hid, h⟩

theorem nodup_inserted_poll : (s.poll raw now).inserted.Nodup ↔
    s.inserted.Nodup ∧ ∀ id ∈ batchKeys raw, id ∈ s.inserted → id ∈ ruleIds s.rows := by
  have hnodup : (s.marks.raiseAll (batchKeys raw)).raised.Nodup ↔ _ := Marks.nodup_raiseAll s.marks (batchKeys raw)
  rw [← marks_poll s raw now] at hnodup
  exact hnodup

theorem mem_inserted_poll {id : Text} :
    id ∈ (s.poll raw now).inserted ↔ id ∈ s.inserted ∨ id ∈ batchKeys raw ∧ id ∉ ruleIds s.rows := by
  have hmem : id ∈ (s.marks.raiseAll (batchKeys raw)).raised ↔ _ := Marks.mem_raised_raiseAll
  rw [← marks_poll s raw now] at hmem
  exact hmem

/-- What is new comes first, and fits. -/
theorem fresh_in_batch {f : Feed T} {list : List (Evt T)} (hlists : f.Lists list) (hfits : f.fresh.length ≤ unifiPollMaxEvents)
    {evt : Evt T} (hevt : evt ∈ f.fresh) : evt ∈ batch (some list) := by
  obtain ⟨older, rfl⟩ := hlists.1
  have htake : batch (some (f.fresh ++ older)) = f.fresh ++ older.take (unifiPollMaxEvents - f.fresh.length) := by
    unfold batch
    rw [Option.getD_some, List.take_append, List.take_of_length_le hfits]
  rw [htake]
  exact List.mem_append_left _ hevt

theorem Inv.poll (hI : Inv s) (hlists : ∀ e, ∀ list ∈ raw e, (s.feeds e).Lists list) (hok : Remembers s (.poll raw now false)) :
    Inv (s.poll raw now) where
  once := by
    refine nodup_inserted_poll.2 ⟨hI.once, fun id hkey hmem => ?_⟩
    obtain ⟨hid, e, evt, hevt, rfl⟩ := mem_batchKeys.1 hkey
    exact hok e evt hevt hid hmem
  stored e evt hevt hid := by
    by_cases hrow : evt.id ∈ ruleIds s.rows
    · exact mem_inserted_poll.2 (.inl (hI.standing _ hrow))
    · by_cases hpolled : (raw e).isSome
      · have hfeed : (s.poll raw now).feeds e = (s.feeds e).polled := if_pos hpolled
        obtain ⟨list, hlist⟩ := Option.isSome_iff_exists.1 hpolled
        rw [hfeed] at hevt
        rcases List.mem_append.1 hevt with hfresh | htaken
        · have hbatch := fresh_in_batch (hlists e list hlist) (hI.fits e) hfresh
          rw [← hlist] at hbatch
          exact mem_inserted_poll.2 (.inr ⟨mem_batchKeys.2 ⟨hid, e, evt, hbatch, rfl⟩, hrow⟩)
        · exact mem_inserted_poll.2 (.inl (hI.stored e evt htaken hid))
      · have hfeed : (s.poll raw now).feeds e = s.feeds e := if_neg hpolled
        rw [hfeed] at hevt
        exact mem_inserted_poll.2 (.inl (hI.stored e evt hevt hid))
  standing id hid := by
    have hmarks := marks_poll s raw now
    have hmem : id ∈ (s.poll raw now).marks.standing := hid
    rw [hmarks, Marks.mem_standing_raiseAll] at hmem
    have hraised : id ∈ (s.poll raw now).marks.raised := by
      rw [hmarks, Marks.mem_raised_raiseAll]
      by_cases hrow : id ∈ ruleIds s.rows
      · exact .inl (hI.standing id hrow)
      · exact .inr ⟨hmem.resolve_left hrow, hrow⟩
    exact hraised
  fits e := by
    by_cases hpolled : (raw e).isSome
    · have hfeed : (s.poll raw now).feeds e = (s.feeds e).polled := if_pos hpolled
      rw [hfeed]
      exact Nat.zero_le _
    · have hfeed : (s.poll raw now).feeds e = s.feeds e := if_neg hpolled
      rw [hfeed]
      exact hI.fits e

theorem Inv.arrive (hI : Inv s) {e : Endpoint} {evt : Evt T} {s' : State T} (hstep : s.arrive e evt = some s') : Inv s' := by
  obtain ⟨hroom, rfl⟩ := System.of_guard hstep
  refine { once := hI.once, standing := hI.standing, stored := fun e' evt' hevt hid => ?_, fits := fun e' => ?_ }
  · dsimp only at hevt
    by_cases he : e' = e
    · subst he
      rw [Function.update_self] at hevt
      exact hI.stored e' evt' hevt hid
    · rw [Function.update_of_ne he] at hevt
      exact hI.stored e' evt' hevt hid
  · dsimp only
    by_cases he : e' = e
    · subst he
      rw [Function.update_self]
      exact hroom
    · rw [Function.update_of_ne he]
      exact hI.fits e'

variable [LinearOrder T]

theorem Inv.purge (hI : Inv s) (cutoff : T) : Inv { s with rows := purgeOldUnifiLogs cutoff s.rows } := by
  refine { hI with standing := fun id hid => hI.standing id ?_ }
  unfold ruleIds at hid ⊢
  exact ((List.filter_sublist.filter _).filterMap _).subset hid

theorem lists_of_step {raises : Bool} {s' : State T} (hstep : step s (.poll raw now raises) = some s') :
    (∀ e, ∀ list ∈ raw e, (s.feeds e).Lists list) ∧ (if raises then s else s.poll raw now) = s' := by
  obtain ⟨hlists, rfl⟩ := System.of_guard hstep
  refine ⟨fun e => ?_, rfl⟩
  cases e with
  | event => exact hlists.1
  | alarm => exact hlists.2

theorem Inv.step {e : Event T} (hI : Inv s) (hok : Remembers s e) {s' : State T} (hstep : step s e = some s') : Inv s' := by
  cases e with
  | arrive e evt => exact hI.arrive hstep
  | poll raw now raises =>
    obtain ⟨hlists, rfl⟩ := lists_of_step hstep
    cases raises with
    | true => exact hI
    | false => exact hI.poll hlists hok
  | purge cutoff =>
    cases hstep
    exact hI.purge cutoff

/-- A poll that finds a stored event without its row stores it again. -/
theorem not_recordedOnce_of_forgotten {e : Event T} (hok : ¬Remembers s e) {s' : State T} (hstep : step s e = some s') :
    ¬RecordedOnce s' := by
  match e, hok, hstep with
  | .arrive _ _, hok, _ => exact absurd trivial hok
  | .purge _, hok, _ => exact absurd trivial hok
  | .poll _ _ true, hok, _ => exact absurd trivial hok
  | .poll raw now false, hok, hstep =>
    obtain ⟨-, rfl⟩ := lists_of_step hstep
    simp only [Remembers, not_forall] at hok
    obtain ⟨e, evt, hevt, hid, hmem, hrow⟩ := hok
    intro hrecorded
    exact hrow ((nodup_inserted_poll.1 hrecorded.once).2 evt.id (mem_batchKeys.2 ⟨hid, e, evt, hevt, rfl⟩) hmem)

/-- The events are recorded once, in every state of a run, exactly if no poll meets an event whose row a purge has deleted. -/
theorem recorded_once_iff (past : Endpoint → List (Evt T)) (es : List (Event T)) :
    (system past).Always RecordedOnce (State.start past) es ↔ (system past).Meets Remembers (State.start past) es := by
  have hstart : Inv (State.start past) :=
    { once := List.nodup_nil
      stored := fun e evt hevt _ => absurd hevt List.not_mem_nil
      standing := fun id hid => absurd hid List.not_mem_nil
      fits := fun e => Nat.zero_le _ }
  exact System.always_iff_meets (fun s hI => hI.toRecordedOnce) (fun s e s' hI hok hstep => hI.step hok hstep)
    (fun s e s' _ hok hstep => not_recordedOnce_of_forgotten hok hstep) hstart es

end

end

/-! ### An event that the controller keeps longer than the tool -/

def oldEvent : Evt ℕ where
  id := "65a1".toList
  datetime := some 0
  key := "EVT_WU_Connected".toList
  msg := "connected".toList
  srcIp := none
  src := none
  dstIp := none
  dst := none
  sport := none
  dport := none
  proto := none
  iface := none
  host := none

/-- The list of events has the one event, and there are no alarms. -/
def oldList : Endpoint → Option (List (Evt ℕ))
  | .event => some [oldEvent]
  | .alarm => some []

/-- The event is stored, its row is purged, and the next poll stores it again. -/
theorem purged_event_stored_again :
    ∃ s, (system fun _ => []).exec (State.start fun _ => [])
        [.arrive .event oldEvent, .poll oldList 1 false, .purge 10, .poll oldList 20 false] = some s ∧
      s.inserted = ["65a1".toList, "65a1".toList] ∧ ¬RecordedOnce s := by
  refine ⟨_, rfl, by decide, fun hrecorded => ?_⟩
  exact absurd hrecorded.once (by decide)

end ProxmoxTool.Unifi
