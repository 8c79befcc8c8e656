import ProxmoxTool.Lib.System
import ProxmoxTool.Lib.Text

/-!
# Snapshots before an apply

The model of `guest_requires_snapshot` and `auto_snapshot_if_needed` in `routes/guests.py` and of their callers in
`routes/api.py`: the request `apply` and the orchestrator `_run_bulk_update`.  Proxmox is the environment: a snapshot it is
asked for is a task that runs on its own and completes or fails later, and operators take and delete snapshots.  Time is in
seconds, and the clocks agree.

The gate does not wait for the task.  `gated_starts_protected` says what the environment must do for an upgrade to start under
a snapshot that is there (`Event.safe`).
-/

namespace ProxmoxTool.SnapshotGate

inductive SnapState
  | running | complete | failed | deleted
  deriving DecidableEq

/-- A snapshot with the state of its task; `listed` is whether Proxmox lists it. -/
structure Snapshot where
  guest : Nat
  name : Text
  snaptime : Int
  state : SnapState
  listed : Bool

structure Guest where
  guestType : Text
  vmid : Option Nat
  hasHost : Bool
  requireSnapshot : Option Text

/-- The guest is linked to Proxmox. -/
def Guest.linked (guest : Guest) : Bool := guest.hasHost && guest.vmid.any (· ≠ 0)

/-- The snapshot, by its number, that let a request pass: one that was listed, or the one it has asked for. -/
inductive Evidence
  | recent (snap : Nat)
  | created (snap : Nat)
  deriving DecidableEq

def Evidence.snap : Evidence → Nat
  | .recent snap => snap
  | .created snap => snap

/-- An apply that is under way; `gated` is whether the request had to pass the gate: of a non-admin, on a linked guest that
requires a snapshot. -/
structure Job where
  gated : Bool
  evidence : Option Evidence

/-- The run of the orchestrator: the guests to come and the one it works on. -/
structure Bulk where
  enforceSnapshot : Bool
  todo : List Nat
  current : Option Nat

/-- A start of the upgrade command: whether its request was gated, and whether a snapshot was there. -/
structure Start where
  gated : Bool
  isProtected : Bool

structure State where
  time : Int := 0
  guests : Nat → Option Guest := fun _ => none
  requireSnapshotBeforeAction : Option Text := none
  snapshots : List Snapshot := []
  jobs : Nat → Option Job := fun _ => none
  bulk : Option Bulk := none
  starts : List Start := []

structure User where
  isAdmin : Bool
  canUpdate : Bool
  mayAccess : Nat → Bool

/-- What the calls to Proxmox answer: whether one raises before the snapshots are listed, whether the node is found, whether
the list can be read, and the task id or the error of the new snapshot; and the timestamp of its name. -/
structure Answers where
  raised : Bool
  nodeFound : Bool
  listRead : Bool
  created : Except Text Text
  timestamp : Text

def guestRequiresSnapshot (setting : Option Text) (guest : Guest) : Bool :=
  if guest.requireSnapshot = some "yes".toList then true
  else if guest.requireSnapshot = some "no".toList then false
  else setting.getD "false".toList = "true".toList

/-- The listed snapshots of a guest with their numbers. -/
def listSnapshots (s : State) (g : Nat) : List (Snapshot × Nat) :=
  s.snapshots.zipIdx.filter fun e => decide (e.1.guest = g) && e.1.listed

/-- The first listed snapshot that was taken within the last hour. -/
def recentSnapshot (s : State) (g : Nat) : Option (Snapshot × Nat) :=
  (listSnapshots s g).find? fun e => decide (s.time - 3600 ≤ e.1.snaptime)

/-- What the gate returns, with the snapshot it relies on and the snapshots there are afterwards. -/
structure Gate where
  ok : Bool
  message : Text
  evidence : Option Evidence
  snapshots : List Snapshot

/-- `auto_snapshot_if_needed`; `none` if it raises. -/
def autoSnapshotIfNeeded (s : State) (g : Nat) (guest : Guest) (a : Answers) : Option Gate :=
  if guest.linked = false then
    some ⟨true, "No Proxmox host configured, skipping snapshot".toList, none, s.snapshots⟩
  else if a.raised then none
  else if a.nodeFound = false then
    some ⟨false, "Could not find ".toList ++ guest.guestType ++ '/' :: natText (guest.vmid.getD 0) ++
      " on any node".toList, none, s.snapshots⟩
  else match if a.listRead then recentSnapshot s g else none with
    | some (snap, i) =>
      some ⟨true, "Recent snapshot '".toList ++ snap.name ++ "' exists, skipping".toList, some (.recent i), s.snapshots⟩
    | none => match a.created with
      | .ok upid => some ⟨true, upid, some (.created s.snapshots.length),
          s.snapshots ++ [⟨g, "auto-".toList ++ a.timestamp, s.time, .running, false⟩]⟩
      | .error message => some ⟨false, message, none, s.snapshots⟩

/-- The gate of a request; `enforce` is whether it is of a non-admin. -/
def gate (s : State) (g : Nat) (guest : Guest) (enforce : Bool) (a : Answers) : Option Gate :=
  if enforce && guestRequiresSnapshot s.requireSnapshotBeforeAction guest then autoSnapshotIfNeeded s g guest a
  else some ⟨true, [], none, s.snapshots⟩

/-- Reserve the slot of a guest for a request that has passed the gate. -/
def reserve (s : State) (g : Nat) (guest : Guest) (enforce : Bool) (passed : Gate) : State :=
  { s with
    snapshots := passed.snapshots
    jobs := Function.update s.jobs g (some
      ⟨enforce && guestRequiresSnapshot s.requireSnapshotBeforeAction guest && guest.linked, passed.evidence⟩) }

inductive Reply
  | notFound | forbidden | noPermission | serverError
  | snapshotFailed (message : Text)
  | alreadyRunning | started

/-- The request `apply`. -/
def apply (s : State) (u : User) (g : Nat) (a : Answers) : State × Reply :=
  match s.guests g with
  | none => (s, .notFound)
  | some guest =>
    if u.mayAccess g = false then (s, .forbidden)
    else if u.canUpdate = false then (s, .noPermission)
    else match gate s g guest (!u.isAdmin) a with
      | none => (s, .serverError)
      | some passed =>
        if passed.ok = false then ({ s with snapshots := passed.snapshots }, .snapshotFailed passed.message)
        else if (s.jobs g).isSome then ({ s with snapshots := passed.snapshots }, .alreadyRunning)
        else (reserve s g guest (!u.isAdmin) passed, .started)

/-- The request `apply_all` on the guests it has selected. -/
def applyAll (s : State) (u : User) (targets : List Nat) : State :=
  if u.canUpdate = false ∨ s.bulk.isSome ∨ targets = [] then s
  else { s with bulk := some ⟨!u.isAdmin, targets, none⟩ }

/-- One guest of the orchestrator's loop up to the call of the worker. -/
def bulkNext (s : State) (b : Bulk) (a : Answers) : State :=
  match b.todo with
  | [] => { s with bulk := none }
  | g :: rest =>
    let skipped := { s with bulk := some { b with todo := rest } }
    match s.guests g with
    | none => skipped
    | some guest => match gate s g guest b.enforceSnapshot a with
      | none => skipped
      | some passed =>
        if passed.ok = false ∨ (s.jobs g).isSome then { skipped with snapshots := passed.snapshots }
        else { reserve s g guest b.enforceSnapshot passed with bulk := some { b with todo := rest, current := some g } }

/-- There is a completed snapshot of the guest, taken within the last hour or by the request itself. -/
def isProtected (s : State) (g : Nat) (evidence : Option Evidence) : Bool :=
  s.snapshots.zipIdx.any fun e => decide (e.1.guest = g) && decide (e.1.state = .complete) &&
    (decide (s.time - 3600 ≤ e.1.snaptime) || decide (evidence = some (.created e.2)))

/-- What happens: requests and the orchestrator; the worker of a guest, which starts the upgrade command and ends; Proxmox,
which ends a task or begins to list a snapshot; and operators. -/
inductive Event
  | apply (u : User) (g : Nat) (a : Answers)
  | applyAll (u : User) (targets : List Nat)
  | bulkNext (a : Answers)
  | start (g : Nat)
  | finish (g : Nat)
  | taskEnds (i : Nat) (ok listed : Bool)
  | list (i : Nat)
  | snapshot (g : Nat) (name : Text)
  | delete (i : Nat)
  | tick (seconds : Nat)
  | setting (value : Option Text)
  | edit (g : Nat) (guest : Option Guest)

/-- Change snapshot number `i`. -/
def State.modifySnapshot (s : State) (i : Nat) (f : Snapshot → Snapshot) : State :=
  { s with snapshots := s.snapshots.modify i f }

def Snapshot.ended (ok listed : Bool) (snap : Snapshot) : Snapshot :=
  if snap.state = .running then { snap with state := if ok then .complete else .failed, listed := listed } else snap

def step (s : State) : Event → Option State
  | .apply u g a => some (apply s u g a).1
  | .applyAll u targets => some (applyAll s u targets)
  | .bulkNext a => s.bulk.bind fun b => if b.current = none then some (bulkNext s b a) else none
  | .start g => (s.jobs g).map fun job =>
    { s with starts := s.starts ++ [⟨job.gated, isProtected s g job.evidence⟩] }
  | .finish g => some { s with
    jobs := Function.update s.jobs g none
    bulk := s.bulk.map fun b => if b.current = some g then { b with current := none } else b }
  | .taskEnds i ok listed => some (s.modifySnapshot i (Snapshot.ended ok listed))
  | .list i => some (s.modifySnapshot i fun snap =>
    if snap.state = .deleted then snap else { snap with listed := true })
  | .snapshot g name => some { s with snapshots := s.snapshots ++ [⟨g, name, s.time, .running, false⟩] }
  | .delete i => some (s.modifySnapshot i fun snap => { snap with state := .deleted, listed := false })
  | .tick seconds => some { s with time := s.time + seconds }
  | .setting value => some { s with requireSnapshotBeforeAction := value }
  | .edit g guest => some { s with guests := Function.update s.guests g guest }

/-- At the start nothing is under way. -/
def system : System State Event where
  init s := (∀ g, s.jobs g = none) ∧ s.bulk = none ∧ s.starts = []
  step := step

/-- A request for the guest relies on no snapshot that is not complete. -/
def passesSafely (s : State) (g : Nat) : Prop := ∀ e ∈ recentSnapshot s g, e.1.state = .complete

/-- What the environment must do: the snapshot that lets a request of a non-admin pass is complete; the task a request has started has
neither failed nor is it running when the upgrade starts, and the snapshot that let it pass is then not older than an hour; and
nobody deletes a snapshot that an apply under way relies on. -/
def Event.safe (s : State) : Event → Prop
  | .apply u g a => u.isAdmin = false → a.listRead = true → passesSafely s g
  | .bulkNext a => ∀ b ∈ s.bulk, b.enforceSnapshot = true → a.listRead = true → ∀ g ∈ b.todo.head?, passesSafely s g
  | .start g => ∀ job ∈ s.jobs g, ∀ e ∈ job.evidence, ∀ snap ∈ s.snapshots[e.snap]?,
      match e with
      | .recent _ => s.time - 3600 ≤ snap.snaptime
      | .created _ => snap.state ≠ .running ∧ snap.state ≠ .failed
  | .delete i => ∀ g, ∀ job ∈ s.jobs g, ∀ e ∈ job.evidence, e.snap ≠ i
  | _ => True

/-! ### What an apply relies on -/

/-- The snapshot a request relies on is there: one of the guest, not deleted, and complete if it was there before. -/
def Relied (snapshots : List Snapshot) (g : Nat) (e : Evidence) : Prop :=
  ∃ snap, snapshots[e.snap]? = some snap ∧ snap.guest = g ∧ snap.state ≠ .deleted ∧
    (e = .recent e.snap → snap.state = .complete)

theorem Relied.append {snapshots : List Snapshot} {g : Nat} {e : Evidence} (h : Relied snapshots g e)
    (new : List Snapshot) : Relied (snapshots ++ new) g e := by
  obtain ⟨snap, hsnap, hrest⟩ := h
  refine ⟨snap, ?_, hrest⟩
  rw [List.getElem?_append_left (List.getElem?_eq_some_iff.1 hsnap).1]
  exact hsnap

/-- A change that keeps the guest, does not delete and does not undo a completed snapshot. -/
theorem Relied.modify {snapshots : List Snapshot} {g : Nat} {e : Evidence} (h : Relied snapshots g e) {i : Nat}
    {f : Snapshot → Snapshot} (hf : i = e.snap → ∀ snap, (f snap).guest = snap.guest ∧
      (snap.state ≠ .deleted → (f snap).state ≠ .deleted) ∧ (snap.state = .complete → (f snap).state = .complete)) :
    Relied (snapshots.modify i f) g e := by
  obtain ⟨snap, hsnap, hguest, hstate, hrecent⟩ := h
  by_cases hi : i = e.snap
  · obtain ⟨hf1, hf2, hf3⟩ := hf hi snap
    refine ⟨f snap, ?_, hf1.trans hguest, hf2 hstate, fun he => hf3 (hrecent he)⟩
    rw [List.getElem?_modify, hsnap]
    exact congrArg some (if_pos hi)
  · refine ⟨snap, ?_, hguest, hstate, hrecent⟩
    rw [List.getElem?_modify, hsnap]
    exact congrArg some (if_neg hi)

theorem recentSnapshot_spec {s : State} {g : Nat} {snap : Snapshot} {i : Nat} (h : recentSnapshot s g = some (snap, i)) :
    s.snapshots[i]? = some snap ∧ snap.guest = g := by
  obtain ⟨hmem, hcond⟩ := List.mem_filter.1 (List.mem_of_find?_eq_some h)
  rw [Bool.and_eq_true, decide_eq_true_eq] at hcond
  exact ⟨List.mem_zipIdx_iff_getElem?.1 hmem, hcond.1⟩

/-- What the gate does: it may add a snapshot, and a request for a linked guest passes only with a snapshot it relies on. -/
structure GateSpec (s : State) (g : Nat) (gated : Bool) (safe : Prop) (passed : Gate) : Prop where
  snapshots : ∃ new, passed.snapshots = s.snapshots ++ new
  evidence : passed.ok = true → gated = true → passed.evidence.isSome = true
  relied : safe → ∀ e, passed.evidence = some e → Relied passed.snapshots g e

theorem autoSnapshotIfNeeded_spec {s : State} {g : Nat} {guest : Guest} {a : Answers} {passed : Gate}
    (h : autoSnapshotIfNeeded s g guest a = some passed) :
    GateSpec s g guest.linked (a.listRead = true → passesSafely s g) passed := by
  have hnone : ∀ (ok : Bool) (message : Text), (ok = true → guest.linked = false) →
      GateSpec s g guest.linked (a.listRead = true → passesSafely s g) ⟨ok, message, none, s.snapshots⟩ := by
    refine fun ok message hok => ⟨⟨[], (List.append_nil _).symm⟩, fun htrue hlinked => ?_, fun _ e he => by cases he⟩
    rw [hok htrue] at hlinked
    cases hlinked
  unfold autoSnapshotIfNeeded at h
  split at h
  · rename_i hlinked
    obtain rfl := Option.some.inj h
    exact hnone _ _ fun _ => hlinked
  · split at h
    · cases h
    · split at h
      · obtain rfl := Option.some.inj h
        exact hnone _ _ fun hok => by cases hok
      · split at h
        · rename_i snap i hrecent
          obtain rfl := Option.some.inj h
          refine ⟨⟨[], (List.append_nil _).symm⟩, fun _ _ => rfl, fun hsafe e he => ?_⟩
          obtain rfl := Option.some.inj he
          have hread : a.listRead = true ∧ recentSnapshot s g = some (snap, i) := by
            split at hrecent
            · rename_i hread
              exact ⟨hread, hrecent⟩
            · cases hrecent
          obtain ⟨hsnap, hguest⟩ := recentSnapshot_spec hread.2
          have hcomplete : snap.state = .complete := hsafe hread.1 _ hread.2
          exact ⟨snap, hsnap, hguest, by rw [hcomplete]; decide, fun _ => hcomplete⟩
        · split at h
          · -- the new snapshot is the last one, and its task is running
            obtain rfl := Option.some.inj h
            refine ⟨⟨_, rfl⟩, fun _ _ => rfl, fun _ e he => ?_⟩
            obtain rfl := Option.some.inj he
            exact ⟨_, List.getElem?_concat_length, rfl, (fun h => by cases h), fun he => by cases he⟩
          · obtain rfl := Option.some.inj h
            exact hnone _ _ fun hok => by cases hok

theorem gate_spec {s : State} {g : Nat} {guest : Guest} {enforce : Bool} {a : Answers} {passed : Gate}
    (h : gate s g guest enforce a = some passed) :
    GateSpec s g (enforce && guestRequiresSnapshot s.requireSnapshotBeforeAction guest && guest.linked)
      (enforce = true → a.listRead = true → passesSafely s g) passed := by
  unfold gate at h
  split at h
  · rename_i hon
    have hspec := autoSnapshotIfNeeded_spec h
    rw [hon, Bool.true_and]
    exact ⟨hspec.snapshots, hspec.evidence, fun hsafe => hspec.relied (hsafe (Bool.and_eq_true_iff.1 hon).1)⟩
  · rename_i hoff
    obtain rfl := Option.some.inj h
    rw [Bool.eq_false_iff.2 hoff, Bool.false_and]
    exact ⟨⟨[], (List.append_nil _).symm⟩, (fun _ hgated => by cases hgated), fun _ e he => by cases he⟩

/-! ### Runs -/

/-- Every apply under way that had to pass the gate relies on a snapshot, and every start so far was protected. -/
structure Gated (s : State) : Prop where
  evidence : ∀ g job, s.jobs g = some job → job.gated = true → job.evidence.isSome = true
  relied : ∀ g job e, s.jobs g = some job → job.evidence = some e → Relied s.snapshots g e
  starts : ∀ st ∈ s.starts, st.gated = true → st.isProtected = true

/-- The snapshots may change as long as what is relied on stays. -/
theorem Gated.of_relied {s s' : State} (h : Gated s) (hjobs : s'.jobs = s.jobs) (hstarts : s'.starts = s.starts)
    (hrelied : ∀ g job e, s.jobs g = some job → job.evidence = some e → Relied s.snapshots g e → Relied s'.snapshots g e) :
    Gated s' := by
  refine ⟨?_, ?_, ?_⟩
  · rw [hjobs]
    exact h.evidence
  · intro g job e hjob he
    rw [hjobs] at hjob
    exact hrelied g job e hjob he (h.relied g job e hjob he)
  · rw [hstarts]
    exact h.starts

theorem Gated.passed {s : State} (h : Gated s) {g : Nat} {gated : Bool} {safe : Prop} {passed : Gate} (hspec : GateSpec s g gated safe passed)
    {s' : State} (hjobs : s'.jobs = s.jobs) (hstarts : s'.starts = s.starts) (hsnaps : s'.snapshots = passed.snapshots) :
    Gated s' := by
  obtain ⟨new, hnew⟩ := hspec.snapshots
  refine h.of_relied hjobs hstarts fun g job e _ _ hr => ?_
  rw [hsnaps, hnew]
  exact hr.append new

theorem jobs_reserve (s : State) (g : Nat) (guest : Guest) (enforce : Bool) (passed : Gate) :
    (reserve s g guest enforce passed).jobs = Function.update s.jobs g (some
      ⟨enforce && guestRequiresSnapshot s.requireSnapshotBeforeAction guest && guest.linked, passed.evidence⟩) := rfl

theorem Gated.reserve {s : State} (h : Gated s) {g : Nat} {guest : Guest} {enforce : Bool} {safe : Prop} {passed : Gate}
    (hspec : GateSpec s g (enforce && guestRequiresSnapshot s.requireSnapshotBeforeAction guest && guest.linked) safe passed)
    (hok : passed.ok = true) (hsafe : safe) : Gated (reserve s g guest enforce passed) := by
  obtain ⟨new, hnew⟩ := hspec.snapshots
  refine ⟨?_, ?_, h.starts⟩
  · intro g' job hjob hgated
    rw [jobs_reserve] at hjob
    by_cases hg : g' = g
    · rw [hg, Function.update_self] at hjob
      obtain rfl := Option.some.inj hjob
      exact hspec.evidence hok hgated
    · rw [Function.update_of_ne hg] at hjob
      exact h.evidence g' job hjob hgated
  · intro g' job e hjob he
    rw [jobs_reserve] at hjob
    by_cases hg : g' = g
    · subst hg
      rw [Function.update_self] at hjob
      obtain rfl := Option.some.inj hjob
      exact hspec.relied hsafe e he
    · rw [Function.update_of_ne hg] at hjob
      have hold := h.relied g' job e hjob he
      change Relied passed.snapshots g' e
      rw [hnew]
      exact hold.append new

theorem Gated.apply {s : State} (h : Gated s) {u : User} {g : Nat} {a : Answers}
    (hsafe : u.isAdmin = false → a.listRead = true → passesSafely s g) :
    Gated (apply s u g a).1 := by
  unfold SnapshotGate.apply
  split
  · exact h
  · rename_i guest hguest
    split
    · exact h
    · split
      · exact h
      · split
        · exact h
        · rename_i passed hpassed
          have hspec := gate_spec hpassed
          split
          · exact h.passed hspec rfl rfl rfl
          · rename_i hok
            split
            · exact h.passed hspec rfl rfl rfl
            · exact h.reserve hspec (by simpa using hok) fun henforce => hsafe (by simpa using henforce)

theorem Gated.bulkNext {s : State} (h : Gated s) {b : Bulk} {a : Answers}
    (hsafe : b.enforceSnapshot = true → a.listRead = true → ∀ g ∈ b.todo.head?, passesSafely s g) :
    Gated (bulkNext s b a) := by
  have hsame : ∀ b' : Option Bulk, Gated { s with bulk := b' } := fun b' => h.of_relied rfl rfl fun _ _ _ _ _ hr => hr
  unfold SnapshotGate.bulkNext
  split
  · exact hsame _
  · rename_i g rest htodo
    dsimp only
    split
    · exact hsame _
    · rename_i guest hguest
      split
      · exact hsame _
      · rename_i passed hpassed
        have hspec := gate_spec hpassed
        split
        · exact h.passed hspec rfl rfl rfl
        · rename_i hok
          have hreserved := h.reserve hspec (by simpa using fun hf => hok (Or.inl hf)) fun henforce hread =>
            hsafe henforce hread g (by rw [htodo]; rfl)
          exact hreserved.of_relied rfl rfl fun _ _ _ _ _ hr => hr

/-- An upgrade starts under the snapshot it relies on. -/
theorem isProtected_of_relied {s : State} {g : Nat} {job : Job} {e : Evidence} (hjob : s.jobs g = some job)
    (he : job.evidence = some e) (hr : Relied s.snapshots g e) (hsafe : (Event.start g).safe s) :
    isProtected s g job.evidence = true := by
  obtain ⟨snap, hsnap, hguest, hstate, hrecent⟩ := hr
  have hstart := hsafe job hjob e he snap hsnap
  refine List.any_eq_true.2 ⟨(snap, e.snap), List.mem_zipIdx_iff_getElem?.2 hsnap, ?_⟩
  rw [he]
  cases e with
  | recent i =>
    have hcomplete := hrecent rfl
    simp [hguest, hcomplete, hstart]
  | created i =>
    have hcomplete : snap.state = .complete := by
      cases hs : snap.state with
      | running => exact absurd hs hstart.1
      | complete => rfl
      | failed => exact absurd hs hstart.2
      | deleted => exact absurd hs hstate
    simp [hguest, hcomplete, Evidence.snap]

theorem Gated.step {s s' : State} (h : Gated s) {e : Event} (hsafe : e.safe s) (hs : step s e = some s') : Gated s' := by
  cases e with
  | apply u g a =>
    obtain rfl := Option.some.inj hs
    exact h.apply hsafe
  | applyAll u targets =>
    obtain rfl := Option.some.inj hs
    unfold applyAll
    split
    · exact h
    · exact h.of_relied rfl rfl fun _ _ _ _ _ hr => hr
  | bulkNext a =>
    obtain ⟨b, hb, hnext⟩ := Option.bind_eq_some_iff.1 hs
    split at hnext
    · obtain rfl := Option.some.inj hnext
      exact h.bulkNext (hsafe b hb)
    · cases hnext
  | start g =>
    obtain ⟨job, hjob, rfl⟩ := Option.map_eq_some_iff.1 hs
    refine ⟨h.evidence, h.relied, fun st hst hgated => ?_⟩
    rcases List.mem_append.1 hst with hst | hst
    · exact h.starts st hst hgated
    · obtain rfl := List.mem_singleton.1 hst
      obtain ⟨e, he⟩ := Option.isSome_iff_exists.1 (h.evidence g job hjob hgated)
      exact isProtected_of_relied hjob he (h.relied g job e hjob he) hsafe
  | finish g =>
    obtain rfl := Option.some.inj hs
    have hjobs : ∀ g' job, Function.update s.jobs g none g' = some job → s.jobs g' = some job := by
      intro g' job hjob
      by_cases hg : g' = g
      · subst hg
        rw [Function.update_self] at hjob
        cases hjob
      · rwa [Function.update_of_ne hg] at hjob
    exact ⟨fun g' job hjob => h.evidence g' job (hjobs g' job hjob),
      fun g' job e hjob => h.relied g' job e (hjobs g' job hjob), h.starts⟩
  | taskEnds i ok listed =>
    obtain rfl := Option.some.inj hs
    refine h.of_relied rfl rfl fun g job e _ _ hr => hr.modify fun _ snap => ?_
    unfold Snapshot.ended
    by_cases hrun : snap.state = .running
    · cases ok with
      | true => simp [hrun]
      | false => simp [hrun]
    · simp [hrun]
  | list i =>
    obtain rfl := Option.some.inj hs
    refine h.of_relied rfl rfl fun g job e _ _ hr => hr.modify fun _ snap => ?_
    by_cases hdel : snap.state = .deleted
    · simp [hdel]
    · simp [hdel]
  | snapshot g name =>
    obtain rfl := Option.some.inj hs
    exact h.of_relied rfl rfl fun _ _ _ _ _ hr => hr.append _
  | delete i =>
    obtain rfl := Option.some.inj hs
    refine h.of_relied rfl rfl fun g job e hjob he hr => hr.modify fun hi => ?_
    exact absurd hi.symm (hsafe g job hjob e he)
  | tick | setting | edit =>
    obtain rfl := Option.some.inj hs
    exact h.of_relied rfl rfl fun _ _ _ _ _ hr => hr

/-- In every run whose environment is as `Event.safe` says, every upgrade of a request that had to pass the gate starts under a
completed snapshot. -/
theorem gated_starts_protected {s : State} (h : system.Reach (fun s e => e.safe s) s) {st : Start} (hst : st ∈ s.starts)
    (hgated : st.gated = true) : st.isProtected = true := by
  have hinv : Gated s := by
    refine System.Reach.invariant (I := Gated) ?_ (fun s e s' hs hsafe he => hs.step hsafe he) h
    rintro s ⟨hjobs, -, hstarts⟩
    refine ⟨fun g job hjob => ?_, fun g job e hjob => ?_, fun st hst => ?_⟩
    · rw [hjobs g] at hjob
      cases hjob
    · rw [hjobs g] at hjob
      cases hjob
    · rw [hstarts] at hst
      cases hst
  exact hinv.starts st hst hgated

def member : User := ⟨false, true, fun _ => true⟩

def strictWorld : State := { guests := fun _ => some ⟨"vm".toList, some 100, true, some "yes".toList⟩ }

def accepted : Answers := ⟨false, true, true, .ok "UPID:pve".toList, "20240101-000000".toList⟩

/-- The task of the gate completes before the upgrade starts. -/
theorem completed_in_time : ∃ s : State, s.starts.length = 1 ∧
    ∀ st ∈ s.starts, st.gated = true ∧ st.isProtected = true := by
  have h0 : system.Reach (fun s e => e.safe s) strictWorld := System.Reach.init ⟨fun _ => rfl, rfl, rfl⟩
  have h1 := h0.next (.apply member 1 accepted) (fun _ _ e he => by cases he) rfl
  have h2 := h1.next (.taskEnds 0 true true) trivial rfl
  have h3 := h2.next (.start 1) (by
    intro job hjob e he snap hsnap
    cases hjob
    cases he
    cases hsnap
    exact ⟨by decide +kernel, by decide +kernel⟩) rfl
  obtain ⟨s, hs, hstarts⟩ : ∃ s, system.Reach (fun s e => e.safe s) s ∧ s.starts.map Start.gated = [true] :=
    ⟨_, h3, by decide +kernel⟩
  refine ⟨s, ?_, fun st hst => ?_⟩
  · rw [← List.length_map Start.gated, hstarts]
    rfl
  · have hgated : st.gated = true := by
      have hmem : st.gated ∈ s.starts.map Start.gated := List.mem_map_of_mem hst
      rw [hstarts] at hmem
      exact List.mem_singleton.1 hmem
    exact ⟨hgated, gated_starts_protected hs hst hgated⟩

/-- The upgrade starts while the task is still running, after it has failed, or because of a listed snapshot whose task is still
running. -/
theorem unprotected_starts :
    ((system.exec strictWorld [.apply member 1 accepted, .start 1]).map fun s =>
      s.starts.map fun st => (st.gated, st.isProtected)) = some [(true, false)] ∧
    ((system.exec strictWorld [.apply member 1 accepted, .taskEnds 0 false false, .start 1]).map fun s =>
      s.starts.map fun st => (st.gated, st.isProtected)) = some [(true, false)] ∧
    ((system.exec strictWorld [.snapshot 1 "manual".toList, .list 0, .applyAll member [1], .bulkNext accepted,
      .start 1]).map fun s => s.starts.map fun st => (st.gated, st.isProtected)) = some [(true, false)] := by
  refine ⟨?_, ?_, ?_⟩
  · decide +kernel
  · decide +kernel
  · decide +kernel

end ProxmoxTool.SnapshotGate
