import ProxmoxTool.Lib.Slots
import ProxmoxTool.Lib.System
import ProxmoxTool.Updates.Bulk

/-!
# Applying updates to hosts

The in-memory job table `_apply_jobs`, the bulk record `_bulk_apply`, and the threads that work on them: the single-host
request `apply_updates`, the assistant's `_handle_manage_host_updates` (apply), the bulk request `apply_all_updates`,
the worker `_run_apply` and the bulk orchestrator `_run_bulk_apply`.  Every lock-protected section of the source is one
step; the choices of the environment (which hosts have pending packages, whether a credential is there, how apt ends)
are in the label.

A job record carries the number of the reservation that created it.  The source does not have this number: its
threads find the record through the table by host id, and the number is there to say whose record they find.
-/

namespace ProxmoxTool.HostApply

abbrev HostId := Nat

/-- A record of `_apply_jobs`. -/
structure Job where
  id : Nat
  log : List Text
  running : Bool
  success : Option Bool
  cancelled : Bool

def newJob (id : Nat) : Job := { id := id, log := [], running := true, success := none, cancelled := false }

/-- Where a thread stands.  `j` is the number of the record that was created for it, `b` the batch whose items the
orchestrator copied, `i` the index of the item it is at, `todo` the items after it. -/
inductive Proc
  | idle
  | single (h : HostId)
  | tool (h : HostId)
  | toolConfirmed (h : HostId)
  | reserved (h : HostId) (j : Nat)
  | working (h : HostId) (j : Nat)
  | bulkRequest
  | bulkChecked
  | bulkStarted
  | bulkNext (b : Nat) (todo : List (Nat × HostId))
  | bulkItem (b i : Nat) (h : HostId) (todo : List (Nat × HostId))
  | bulkReserved (b i : Nat) (h : HostId) (j : Nat) (todo : List (Nat × HostId))
  | bulkWorking (b i : Nat) (h : HostId) (j : Nat) (todo : List (Nat × HostId))
  | bulkWorked (b i : Nat) (h : HostId) (j : Nat) (todo : List (Nat × HostId))
  | bulkRead (b i : Nat) (h : HostId) (j : Nat) (ok : Bool) (todo : List (Nat × HostId))
  | bulkReleased (b i : Nat) (ok : Bool) (todo : List (Nat × HostId))
  | finished

structure State where
  jobs : HostId → Option Job
  nextJob : Nat
  bulk : Bulk
  procs : Nat → Proc

def State.initial : State :=
  { jobs := fun _ => none, nextJob := 0, bulk := Bulk.empty, procs := fun _ => .idle }

/-! ### The lock-protected sections -/

/-- `existing and existing.get("running")`. -/
def slotRunning (s : State) (h : HostId) : Bool := (s.jobs h).any fun job => job.running

/-- `_apply_jobs[host_id] = {…}`: a new record, whatever was there. -/
def State.setJob (s : State) (h : HostId) : State :=
  { s with jobs := Function.update s.jobs h (some (newJob s.nextJob)), nextJob := s.nextJob + 1 }

/-- Change the record of `h` in place, if there is one. -/
def State.modifyJob (s : State) (h : HostId) (f : Job → Job) : State :=
  { s with jobs := Function.update s.jobs h ((s.jobs h).map f) }

def State.setProc (s : State) (p : Nat) (x : Proc) : State := { s with procs := Function.update s.procs p x }

/-- The last section of `_run_apply`. -/
def endJob (ok : Bool) (job : Job) : Job := { job with running := false, success := some ok }

/-- The `finally` section of `_run_bulk_apply`. -/
def releaseJob (job : Job) : Job :=
  if job.running then { job with running := false, success := job.success <|> some false } else job

def cancelJob (job : Job) : Job := if job.running then { job with cancelled := true } else job

/-! ### The threads -/

/-- A step of thread `p`.  `arrive` starts a request; `reserve` is the check-and-set of the two single-host entry
points; `crash` is an exception that escapes `_run_apply`, `bulkAbort` one that escapes the orchestrator's loop. -/
inductive Label
  | arrive (p : Nat) (x : Proc)
  | toolConfirm (p : Nat)
  | reserve (p : Nat)
  | start (p : Nat)
  | log (p : Nat) (chunk : Text)
  | finish (p : Nat) (ok : Bool)
  | crash (p : Nat)
  | cancel (h : HostId)
  | bulkCheck (p : Nat)
  | bulkFill (p : Nat) (hosts : List HostId)
  | bulkBegin (p : Nat)
  | bulkTake (p : Nat)
  | bulkSkip (p : Nat)
  | bulkReserve (p : Nat)
  | bulkReadSuccess (p : Nat)
  | bulkRelease (p : Nat)
  | bulkRecord (p : Nat)
  | bulkClose (p : Nat)
  | bulkAbort (p : Nat)

/-- The three kinds of requests. -/
def Proc.isRequest : Proc → Bool
  | .single _ => true
  | .tool _ => true
  | .bulkRequest => true
  | _ => false

/-- The host a thread inside `_run_apply` works on. -/
def Proc.workHost : Proc → Option HostId
  | .working h _ => some h
  | .bulkWorking _ _ h _ _ => some h
  | _ => none

def step (s : State) : Label → Option State
  | .arrive p x => match s.procs p with
    | .idle => if x.isRequest then some (s.setProc p x) else none
    | _ => none
  | .toolConfirm p => match s.procs p with
    | .tool h => some (s.setProc p (if slotRunning s h then .finished else .toolConfirmed h))
    | _ => none
  | .reserve p => match s.procs p with
    | .single h => some (if slotRunning s h then s.setProc p .finished else (s.setJob h).setProc p (.reserved h s.nextJob))
    | .toolConfirmed h =>
      some (if slotRunning s h then s.setProc p .finished else (s.setJob h).setProc p (.reserved h s.nextJob))
    | _ => none
  | .start p => match s.procs p with
    | .reserved h j => some (s.setProc p (.working h j))
    | .bulkReserved b i h j todo => some (s.setProc p (.bulkWorking b i h j todo))
    | _ => none
  | .log p chunk => match (s.procs p).workHost with
    | some h => some (s.modifyJob h fun job => { job with log := job.log ++ [chunk] })
    | none => none
  | .finish p ok => match s.procs p with
    | .working h _ => some ((s.modifyJob h (endJob ok)).setProc p .finished)
    | .bulkWorking b i h j todo => some ((s.modifyJob h (endJob ok)).setProc p (.bulkWorked b i h j todo))
    | _ => none
  | .crash p => match s.procs p with
    -- an exception that escapes leaves the record running
    | .working _ _ => some (s.setProc p .finished)
    | .bulkWorking b i h j todo => some (s.setProc p (.bulkRead b i h j false todo))
    | _ => none
  | .cancel h => some (s.modifyJob h cancelJob)
  | .bulkCheck p => match s.procs p with
    | .bulkRequest => some (s.setProc p (if s.bulk.running then .finished else .bulkChecked))
    | _ => none
  | .bulkFill p hosts => match s.procs p with
    -- the flag is not read again under the lock
    | .bulkChecked =>
      some (if hosts = [] then s.setProc p .finished else { s with bulk := s.bulk.fill hosts }.setProc p .bulkStarted)
    | _ => none
  | .bulkBegin p => match s.procs p with
    | .bulkStarted => some (s.setProc p (.bulkNext s.bulk.batch (s.bulk.items.zipIdx.map fun x => (x.2, x.1.target))))
    | _ => none
  | .bulkTake p => match s.procs p with
    | .bulkNext b ((i, h) :: todo) => some ({ s with bulk := s.bulk.setItem b i .running }.setProc p (.bulkItem b i h todo))
    | _ => none
  | .bulkSkip p => match s.procs p with
    | .bulkItem b i _ todo =>
      some ({ s with bulk := (s.bulk.setItem b i .skipped (some "No SSH credential configured".toList)).countDone }.setProc p
        (.bulkNext b todo))
    | _ => none
  | .bulkReserve p => match s.procs p with
    -- whatever record the host has is replaced
    | .bulkItem b i h todo => some ((s.setJob h).setProc p (.bulkReserved b i h s.nextJob todo))
    | _ => none
  | .bulkReadSuccess p => match s.procs p with
    | .bulkWorked b i h j todo =>
      some (s.setProc p (.bulkRead b i h j ((s.jobs h).any fun job => job.success = some true) todo))
    | _ => none
  | .bulkRelease p => match s.procs p with
    | .bulkRead b i h _ ok todo => some ((s.modifyJob h releaseJob).setProc p (.bulkReleased b i ok todo))
    | _ => none
  | .bulkRecord p => match s.procs p with
    | .bulkReleased b i ok todo =>
      some ({ s with bulk := (s.bulk.setItem b i (if ok then .success else .failed)).countDone }.setProc p (.bulkNext b todo))
    | _ => none
  | .bulkClose p => match s.procs p with
    | .bulkNext _ [] => some ({ s with bulk := s.bulk.close }.setProc p .finished)
    | _ => none
  | .bulkAbort p => match s.procs p with
    | .bulkItem _ _ _ _ => some ({ s with bulk := s.bulk.close }.setProc p .finished)
    | _ => none

def system : System State Label := { init := fun s => s = State.initial, step := step }

/-! ### The properties -/

/-- The record a thread between its reservation and the end of its `_run_apply` counts on: host and number. -/
def Proc.holding : Proc → Option (HostId × Nat)
  | .reserved h j => some (h, j)
  | .working h j => some (h, j)
  | .bulkReserved _ _ h j _ => some (h, j)
  | .bulkWorking _ _ h j _ => some (h, j)
  | _ => none

/-- A bulk run is active from taking the bulk slot to giving it back. -/
def Proc.inBulk : Proc → Bool
  | .bulkStarted | .bulkNext .. | .bulkItem .. | .bulkReserved .. | .bulkWorking .. | .bulkWorked .. | .bulkRead ..
  | .bulkReleased .. => true
  | _ => false

/-- One upgrade at a time: at most one thread is inside `_run_apply` for a host, at most one bulk run is active, the
record found under a working thread's host is the one created for it, still running and without a result, and the bulk
counter stays in range. -/
structure Exclusive (s : State) : Prop where
  worker : ∀ p q h, (s.procs p).workHost = some h → (s.procs q).workHost = some h → p = q
  bulk : ∀ p q, (s.procs p).inBulk = true → (s.procs q).inBulk = true → p = q
  record : ∀ p h j, (s.procs p).holding = some (h, j) →
    ∃ job, s.jobs h = some job ∧ job.id = j ∧ job.running = true ∧ job.success = none
  done : s.bulk.done ≤ s.bulk.total

/-- The step does not take the branch that goes wrong: the orchestrator reserves a host only while no job of that host
is running, `apply_all_updates` takes the bulk slot only while it is free, and the orchestrator's `finally` section does
not meet another run's running record. -/
def Clear (s : State) : Label → Prop
  | .bulkReserve p => ∀ b i h todo, s.procs p = .bulkItem b i h todo → slotRunning s h = false
  | .bulkFill _ _ => s.bulk.running = false
  | .bulkRelease p => ∀ b i h j ok todo, s.procs p = .bulkRead b i h j ok todo →
      ∀ job, s.jobs h = some job → job.running = true → job.id = j
  | _ => True

/-! ### What a step changes -/

@[simp] private theorem setProc_procs (s : State) (p q : Nat) (x : Proc) :
    (s.setProc p x).procs q = if q = p then x else s.procs q := by
  simp [State.setProc, Function.update_apply]

@[simp] private theorem setProc_jobs (s : State) (p : Nat) (x : Proc) : (s.setProc p x).jobs = s.jobs := rfl
@[simp] private theorem setProc_nextJob (s : State) (p : Nat) (x : Proc) : (s.setProc p x).nextJob = s.nextJob := rfl
@[simp] private theorem setProc_bulk (s : State) (p : Nat) (x : Proc) : (s.setProc p x).bulk = s.bulk := rfl
@[simp] private theorem setJob_procs (s : State) (h : HostId) : (s.setJob h).procs = s.procs := rfl
@[simp] private theorem setJob_nextJob (s : State) (h : HostId) : (s.setJob h).nextJob = s.nextJob + 1 := rfl
@[simp] private theorem setJob_bulk (s : State) (h : HostId) : (s.setJob h).bulk = s.bulk := rfl
@[simp] private theorem modifyJob_procs (s : State) (h : HostId) (f : Job → Job) : (s.modifyJob h f).procs = s.procs := rfl
@[simp] private theorem modifyJob_nextJob (s : State) (h : HostId) (f : Job → Job) :
    (s.modifyJob h f).nextJob = s.nextJob := rfl
@[simp] private theorem modifyJob_bulk (s : State) (h : HostId) (f : Job → Job) : (s.modifyJob h f).bulk = s.bulk := rfl

/-- The record a thread still counts on or may still release: host and number. -/
def Proc.jobId : Proc → Option (HostId × Nat)
  | .bulkWorked _ _ h j _ => some (h, j)
  | .bulkRead _ _ h j _ _ => some (h, j)
  | x => x.holding

/-- How many items a thread of the bulk run has still to count. -/
def Proc.remaining (k : Bulk) : Proc → Nat
  | .bulkStarted => k.items.length
  | .bulkNext _ todo => todo.length
  | .bulkItem _ _ _ todo => todo.length + 1
  | .bulkReserved _ _ _ _ todo => todo.length + 1
  | .bulkWorking _ _ _ _ todo => todo.length + 1
  | .bulkWorked _ _ _ _ todo => todo.length + 1
  | .bulkRead _ _ _ _ _ todo => todo.length + 1
  | .bulkReleased _ _ _ todo => todo.length + 1
  | _ => 0

/-- The record a holder counts on is in the table, running and without a result. -/
def State.Live (s : State) (h : HostId) (j : Nat) : Prop :=
  ∃ job, s.jobs h = some job ∧ job.id = j ∧ job.running = true ∧ job.success = none

/-- The half of the invariant about job records. -/
def JobInv (s : State) : Prop := Slots.Inv Proc.holding Proc.jobId s.Live s.nextJob s.procs

/-- The half of the invariant about the bulk run. -/
structure BulkInv (s : State) : Prop where
  flag : ∀ p, (s.procs p).inBulk = true → s.bulk.running = true
  one : ∀ p q, (s.procs p).inBulk = true → (s.procs q).inBulk = true → p = q
  left : ∀ p, (s.procs p).inBulk = true → s.bulk.done + (s.procs p).remaining s.bulk ≤ s.bulk.total
  done : s.bulk.done ≤ s.bulk.total

private theorem jobId_of_holding {x : Proc} {y : HostId × Nat} (h : x.holding = some y) : x.jobId = some y := by
  cases x <;> simp_all [Proc.holding, Proc.jobId]

private theorem holding_of_workHost {x : Proc} {h : HostId} (hx : x.workHost = some h) : ∃ j, x.holding = some (h, j) := by
  cases x <;> simp_all [Proc.workHost, Proc.holding]

private theorem live_unique (s : State) : ∀ h i j, s.Live h i → s.Live h j → i = j := by
  rintro h i j ⟨job, hj, rfl, -, -⟩ ⟨job', hj', rfl, -, -⟩
  rw [hj] at hj'
  rw [Option.some.inj hj']

private theorem JobInv.holder_unique {s : State} (hI : JobInv s) {p q : Nat} {h : HostId} {j k : Nat}
    (hp : (s.procs p).holding = some (h, j)) (hq : (s.procs q).holding = some (h, k)) : p = q :=
  Slots.Inv.holder_unique hI (fun _ _ => jobId_of_holding) (live_unique s) hp hq

private theorem JobInv.setProc {s : State} (hI : JobInv s) {p : Nat} {x : Proc}
    (hh : x.holding = none ∨ x.holding = (s.procs p).holding)
    (hj : x.jobId = none ∨ x.jobId = (s.procs p).jobId) : JobInv (s.setProc p x) :=
  Slots.Inv.move hI hh hj

/-- A record changes in place; whoever still counts on it finds it running and without a result. -/
private theorem JobInv.modifyJob {s : State} (hI : JobInv s) {h : HostId} {f : Job → Job}
    (hf : ∀ p j job, (s.procs p).holding = some (h, j) → s.jobs h = some job → job.running = true → job.success = none →
      (f job).id = job.id ∧ (f job).running = true ∧ (f job).success = none) : JobInv (s.modifyJob h f) := by
  refine Slots.Inv.change hI ?_
  rintro p h' j hp ⟨job, hj, hid, hr, hs⟩
  by_cases hh : h' = h
  · subst hh
    obtain ⟨fid, fr, fs⟩ := hf p j job hp hj hr hs
    exact ⟨f job, by simp [State.modifyJob, hj], fid.trans hid, fr, fs⟩
  · exact ⟨job, by simp [State.modifyJob, hh, hj], hid, hr, hs⟩

/-- A reservation while no record of the host is running. -/
private theorem JobInv.reserve {s : State} (hI : JobInv s) {p : Nat} {h : HostId} {x : Proc}
    (hfree : slotRunning s h = false) (hh : x.holding = some (h, s.nextJob)) :
    JobInv ((s.setJob h).setProc p x) := by
  refine Slots.Inv.reserve hI (fun _ _ => jobId_of_holding) ?_ hh ?_ ?_
  · intro q j hq
    obtain ⟨job, hjob, -, hr, -⟩ := hI.record q h j hq
    simp [slotRunning, hjob, hr] at hfree
  · exact ⟨newJob s.nextJob, by simp [State.setJob], rfl, rfl, rfl⟩
  · rintro h' j - hne ⟨job, hjob, rest⟩
    exact ⟨job, by simpa [State.setJob, Function.update_apply, hne] using hjob, rest⟩

/-- The end of a thread's `_run_apply`: it writes its result into the record and counts on it no longer. -/
private theorem JobInv.finish {s : State} (hI : JobInv s) {p : Nat} {h : HostId} {j : Nat} {x : Proc} (f : Job → Job)
    (hp : (s.procs p).holding = some (h, j)) (hx : x.holding = none)
    (hj : x.jobId = none ∨ x.jobId = (s.procs p).jobId) : JobInv ((s.modifyJob h f).setProc p x) := by
  refine JobInv.modifyJob (s := s.setProc p x) (hI.setProc (.inl hx) hj) ?_
  intro q k job hq
  by_cases hqp : q = p
  · simp [hqp, hx] at hq
  · exact absurd (hI.holder_unique (by simpa [hqp] using hq) hp) hqp

private theorem JobInv.release {s : State} (hI : JobInv s) {p b i : Nat} {h : HostId} {j : Nat} {ok : Bool}
    {todo : List (Nat × HostId)} (hp : s.procs p = .bulkRead b i h j ok todo)
    (hc : ∀ job, s.jobs h = some job → job.running = true → job.id = j) :
    JobInv ((s.modifyJob h releaseJob).setProc p (.bulkReleased b i ok todo)) := by
  refine (hI.modifyJob ?_).setProc (.inl rfl) (.inl rfl)
  intro q k job hq hjob hr _
  obtain ⟨job', hjob', hid, -, -⟩ := hI.record q h k hq
  obtain rfl : job = job' := by simpa [hjob] using hjob'
  obtain rfl : j = k := (hc job hjob hr).symm.trans hid
  obtain rfl : q = p := hI.sole q p h h j (jobId_of_holding hq) (by simp [hp, Proc.jobId])
  simp [hp, Proc.holding] at hq

/-- One step of the job half. -/
private theorem JobInv.step {s s' : State} {e : Label} (hI : JobInv s) (hc : Clear s e) (hs : step s e = some s') :
    JobInv s' := by
  cases e with
  | arrive p x =>
    simp only [HostApply.step] at hs
    split at hs
    · split at hs
      · obtain rfl := Option.some.inj hs
        cases x <;> first | exact hI.setProc (.inl rfl) (.inl rfl) | simp_all [Proc.isRequest]
      · cases hs
    · cases hs
  | log p chunk =>
    simp only [HostApply.step] at hs
    split at hs
    · obtain rfl := Option.some.inj hs
      exact hI.modifyJob fun _ _ _ _ _ hr hn => ⟨rfl, hr, hn⟩
    · cases hs
  | cancel h =>
    obtain rfl := Option.some.inj hs
    refine hI.modifyJob fun _ _ job _ _ hr hn => ?_
    simp [cancelJob, hr, hn]
  | reserve p =>
    simp only [HostApply.step] at hs
    split at hs
    · obtain rfl := Option.some.inj hs
      split
      · exact hI.setProc (.inl rfl) (.inl rfl)
      · exact hI.reserve (by simp_all) rfl
    · obtain rfl := Option.some.inj hs
      split
      · exact hI.setProc (.inl rfl) (.inl rfl)
      · exact hI.reserve (by simp_all) rfl
    · cases hs
  | bulkReserve p =>
    simp only [HostApply.step] at hs
    split at hs
    · obtain rfl := Option.some.inj hs
      exact hI.reserve (hc _ _ _ _ ‹_›) rfl
    · cases hs
  | finish p ok =>
    simp only [HostApply.step] at hs
    split at hs
    · rename_i hp
      obtain rfl := Option.some.inj hs
      exact hI.finish _ (by rw [hp]; rfl) rfl (.inl rfl)
    · rename_i hp
      obtain rfl := Option.some.inj hs
      exact hI.finish _ (by rw [hp]; rfl) rfl (.inr (by rw [hp]; rfl))
    · cases hs
  | bulkRelease p =>
    simp only [HostApply.step] at hs
    split at hs
    · obtain rfl := Option.some.inj hs
      exact hI.release ‹_› (hc _ _ _ _ _ _ ‹_›)
    · cases hs
  | toolConfirm p | start p | crash p | bulkCheck p | bulkFill p | bulkBegin p | bulkTake p | bulkSkip p
  | bulkReadSuccess p | bulkRecord p | bulkClose p | bulkAbort p =>
    -- the thread moves within what it counted on, or lets go of it; at most the bulk record changes besides
    simp only [HostApply.step] at hs
    split at hs
    all_goals rename_i hp
    all_goals
      first
      | (obtain rfl := Option.some.inj hs
         try split
         all_goals exact hI.setProc (by simp [hp, Proc.holding]) (by simp [hp, Proc.jobId, Proc.holding]))
      | cases hs

/-! ### The bulk half -/

/-- `BulkInv` does not read the job table. -/
private theorem BulkInv.jobs {s s' : State} (hI : BulkInv s) (hp : s'.procs = s.procs) (hb : s'.bulk = s.bulk) :
    BulkInv s' := by
  refine ⟨?_, ?_, ?_, ?_⟩
  · rw [hp, hb]; exact hI.flag
  · rw [hp]; exact hI.one
  · rw [hp, hb]; exact hI.left
  · rw [hb]; exact hI.done

/-- A thread moves to a place outside the bulk run. -/
private theorem BulkInv.leave {s : State} (hI : BulkInv s) {p : Nat} {x : Proc} (hx : x.inBulk = false) :
    BulkInv (s.setProc p x) := by
  have back : ∀ q, ((s.setProc p x).procs q).inBulk = true → (s.setProc p x).procs q = s.procs q := by
    intro q hq
    by_cases hqp : q = p
    · simp [hqp, hx] at hq
    · simp [hqp]
  refine ⟨fun q hq => hI.flag q (back q hq ▸ hq), fun q r hq hr => hI.one q r (back q hq ▸ hq) (back r hr ▸ hr),
    fun q hq => ?_, hI.done⟩
  rw [back q hq]
  exact hI.left q (back q hq ▸ hq)

/-- The one thread of the bulk run moves, and the bulk record with it. -/
private theorem BulkInv.move {s : State} (hI : BulkInv s) {p : Nat} {x : Proc} {k : Bulk}
    (hp : (s.procs p).inBulk = true) (hr : x.inBulk = true → k.running = true)
    (hl : x.inBulk = true → k.done + x.remaining k ≤ k.total) (hd : k.done ≤ k.total) :
    BulkInv ({ s with bulk := k }.setProc p x) := by
  have alone : ∀ q, (({ s with bulk := k } : State).setProc p x |>.procs q).inBulk = true → q = p ∧ x.inBulk = true := by
    intro q hq
    by_cases hqp : q = p
    · exact ⟨hqp, by simpa [hqp] using hq⟩
    · exact absurd (hI.one q p (by simpa [hqp] using hq) hp) hqp
  refine ⟨fun q hq => hr (alone q hq).2, fun q r hq hr' => ?_, fun q hq => ?_, hd⟩
  · rw [(alone q hq).1, (alone r hr').1]
  · obtain ⟨rfl, hx⟩ := alone q hq
    simpa using hl hx

/-- The bulk slot is taken while it is free. -/
private theorem BulkInv.fill {s : State} (hI : BulkInv s) {p : Nat} {hosts : List HostId} (hfree : s.bulk.running = false) :
    BulkInv ({ s with bulk := s.bulk.fill hosts }.setProc p .bulkStarted) := by
  have alone : ∀ q, (({ s with bulk := s.bulk.fill hosts } : State).setProc p .bulkStarted |>.procs q).inBulk = true →
      q = p := by
    intro q hq
    by_contra hqp
    have := hI.flag q (by simpa [hqp] using hq)
    simp [hfree] at this
  refine ⟨fun q _ => rfl, fun q r hq hr => ?_, fun q hq => ?_, by simp [Bulk.fill]⟩
  · rw [alone q hq, alone r hr]
  · obtain rfl := alone q hq
    simp [Proc.remaining, Bulk.fill]

/-- The one thread of the bulk run goes on to an item it has still to count. -/
private theorem BulkInv.advance {s : State} (hI : BulkInv s) {p : Nat} {x : Proc} (hp : (s.procs p).inBulk = true)
    (hx : x.remaining s.bulk ≤ (s.procs p).remaining s.bulk) : BulkInv (s.setProc p x) :=
  hI.move hp (fun _ => hI.flag p hp) (fun _ => Nat.le_trans (Nat.add_le_add_left hx _) (hI.left p hp)) hI.done

/-- The one thread of the bulk run counts an item. -/
private theorem BulkInv.count {s : State} (hI : BulkInv s) {p b : Nat} {todo : List (Nat × HostId)} {k : Bulk}
    (hp : (s.procs p).inBulk = true) (hrem : (s.procs p).remaining s.bulk = todo.length + 1)
    (hr : k.running = s.bulk.running) (ht : k.total = s.bulk.total) (hd : k.done = s.bulk.done) :
    BulkInv ({ s with bulk := k.countDone }.setProc p (.bulkNext b todo)) := by
  have hleft := hI.left p hp
  rw [hrem] at hleft
  refine hI.move hp (fun _ => hr.trans (hI.flag p hp)) (fun _ => ?_) ?_
  · simp only [Proc.remaining, Bulk.countDone, hd, ht]; omega
  · simp only [Bulk.countDone, hd, ht]; omega

/-- The bulk slot is given back. -/
private theorem BulkInv.close {s : State} (hI : BulkInv s) {p : Nat} (hp : (s.procs p).inBulk = true) :
    BulkInv ({ s with bulk := s.bulk.close }.setProc p .finished) :=
  hI.move hp (fun h => absurd h (by simp [Proc.inBulk])) (fun h => absurd h (by simp [Proc.inBulk])) hI.done

private theorem BulkInv.step {s s' : State} {e : Label} (hI : BulkInv s) (hc : Clear s e) (hs : step s e = some s') :
    BulkInv s' := by
  have setJob : ∀ h, BulkInv (s.setJob h) := fun h => hI.jobs rfl rfl
  have modifyJob : ∀ h f, BulkInv (s.modifyJob h f) := fun h f => hI.jobs rfl rfl
  cases e with
  | arrive p x =>
    simp only [HostApply.step] at hs
    split at hs
    · split at hs
      · obtain rfl := Option.some.inj hs
        refine hI.leave ?_
        cases x <;> simp_all [Proc.isRequest, Proc.inBulk]
      · cases hs
    · cases hs
  | log p chunk =>
    simp only [HostApply.step] at hs
    split at hs
    · obtain rfl := Option.some.inj hs
      exact modifyJob _ _
    · cases hs
  | cancel h =>
    obtain rfl := Option.some.inj hs
    exact modifyJob _ _
  | toolConfirm p | bulkCheck p =>
    simp only [HostApply.step] at hs
    split at hs
    · obtain rfl := Option.some.inj hs
      split <;> exact hI.leave rfl
    · cases hs
  | reserve p =>
    simp only [HostApply.step] at hs
    split at hs
    · obtain rfl := Option.some.inj hs
      split
      · exact hI.leave rfl
      · exact (setJob _).leave rfl
    · obtain rfl := Option.some.inj hs
      split
      · exact hI.leave rfl
      · exact (setJob _).leave rfl
    · cases hs
  | start p =>
    simp only [HostApply.step] at hs
    split at hs
    · obtain rfl := Option.some.inj hs
      exact hI.leave rfl
    · rename_i hp
      obtain rfl := Option.some.inj hs
      exact hI.advance (by rw [hp]; rfl) (by rw [hp]; exact le_rfl)
    · cases hs
  | finish p ok =>
    simp only [HostApply.step] at hs
    split at hs
    · obtain rfl := Option.some.inj hs
      exact (modifyJob _ _).leave rfl
    · rename_i hp
      obtain rfl := Option.some.inj hs
      exact (modifyJob _ _).advance (by simp [hp, Proc.inBulk]) (by simp [hp, Proc.remaining])
    · cases hs
  | crash p =>
    simp only [HostApply.step] at hs
    split at hs
    · obtain rfl := Option.some.inj hs
      exact hI.leave rfl
    · rename_i hp
      obtain rfl := Option.some.inj hs
      exact hI.advance (by rw [hp]; rfl) (by rw [hp]; exact le_rfl)
    · cases hs
  | bulkFill p hosts =>
    simp only [HostApply.step] at hs
    split at hs
    · obtain rfl := Option.some.inj hs
      split
      · exact hI.leave rfl
      · exact hI.fill hc
    · cases hs
  | bulkBegin p =>
    simp only [HostApply.step] at hs
    split at hs
    · rename_i hp
      obtain rfl := Option.some.inj hs
      exact hI.advance (by rw [hp]; rfl) (by simp [hp, Proc.remaining])
    · cases hs
  | bulkTake p =>
    simp only [HostApply.step] at hs
    split at hs
    · rename_i hp
      obtain rfl := Option.some.inj hs
      have hb : (s.procs p).inBulk = true := by rw [hp]; rfl
      have hleft := hI.left p hb
      refine hI.move hb (fun _ => by simpa using hI.flag p hb) (fun _ => ?_) (by simpa using hI.done)
      simpa [hp, Proc.remaining] using hleft
    · cases hs
  | bulkReserve p =>
    simp only [HostApply.step] at hs
    split at hs
    · rename_i hp
      obtain rfl := Option.some.inj hs
      exact (setJob _).advance (by simp [hp, Proc.inBulk]) (by simp [hp, Proc.remaining])
    · cases hs
  | bulkReadSuccess p =>
    simp only [HostApply.step] at hs
    split at hs
    · rename_i hp
      obtain rfl := Option.some.inj hs
      exact hI.advance (by rw [hp]; rfl) (by rw [hp]; exact le_rfl)
    · cases hs
  | bulkRelease p =>
    simp only [HostApply.step] at hs
    split at hs
    · rename_i hp
      obtain rfl := Option.some.inj hs
      exact (modifyJob _ _).advance (by simp [hp, Proc.inBulk]) (by simp [hp, Proc.remaining])
    · cases hs
  | bulkSkip p | bulkRecord p =>
    simp only [HostApply.step] at hs
    split at hs
    · rename_i hp
      obtain rfl := Option.some.inj hs
      exact hI.count (by rw [hp]; rfl) (by rw [hp]; rfl) (Bulk.setItem_running ..) (Bulk.setItem_total ..) (Bulk.setItem_done ..)
    · cases hs
  | bulkClose p | bulkAbort p =>
    simp only [HostApply.step] at hs
    split at hs
    · rename_i hp
      obtain rfl := Option.some.inj hs
      exact hI.close (by rw [hp]; rfl)
    · cases hs

/-! ### Runs -/

/-- In every run in which the orchestrator reserves and releases only hosts without another running job and the bulk slot
is taken only while it is free, the upgrades are exclusive in every state. -/
theorem exclusive_of_clear {s : State} (h : system.Reach Clear s) : Exclusive s := by
  have hinv : JobInv s ∧ BulkInv s := by
    refine h.invariant (I := fun s => JobInv s ∧ BulkInv s) ?_ ?_
    · rintro s rfl
      exact ⟨⟨by simp [State.initial, Proc.holding], by simp [State.initial, Proc.jobId, Proc.holding],
        by simp [State.initial, Proc.jobId, Proc.holding]⟩, ⟨by simp [State.initial, Proc.inBulk],
        by simp [State.initial, Proc.inBulk], by simp [State.initial, Proc.inBulk], by simp [State.initial, Bulk.empty]⟩⟩
    · intro s e s' hI hc hs
      exact ⟨hI.1.step hc hs, hI.2.step hc hs⟩
  refine ⟨?_, hinv.2.one, hinv.1.record, hinv.2.done⟩
  intro p q h hp hq
  obtain ⟨j, hj⟩ := holding_of_workHost hp
  obtain ⟨k, hk⟩ := holding_of_workHost hq
  exact hinv.1.holder_unique hj hk

/-- A bulk run on host 1 beside a single-host run on host 2. -/
theorem bulk_beside_single_exclusive : ∃ s, system.Reach Clear s ∧ Exclusive s ∧
    (s.procs 0).workHost = some 2 ∧ (s.procs 1).workHost = some 1 := by
  have r0 : system.Reach Clear State.initial := .init rfl
  have r1 := ((r0.next (.arrive 0 (.single 2)) trivial rfl).next (.reserve 0) trivial rfl).next (.start 0) trivial rfl
  have r2 := (r1.next (.arrive 1 .bulkRequest) trivial rfl).next (.bulkCheck 1) trivial rfl
  have r3 := ((r2.next (.bulkFill 1 [1]) rfl rfl).next (.bulkBegin 1) trivial rfl).next (.bulkTake 1) trivial rfl
  have r4 := (r3.next (.bulkReserve 1) (by intro b i h todo hp; cases hp; rfl) rfl).next (.start 1) trivial rfl
  exact ⟨_, r4, exclusive_of_clear r4, rfl, rfl⟩

/-- `_run_bulk_apply` reserves a host whose single-host job is running: host 1 is upgraded by two threads at once. -/
theorem not_always_exclusive : ¬ ∀ s, system.Reachable s → Exclusive s := by
  intro h
  have r : system.exec State.initial [.arrive 0 (.single 1), .reserve 0, .start 0, .arrive 1 .bulkRequest, .bulkCheck 1,
      .bulkFill 1 [1], .bulkBegin 1, .bulkTake 1, .bulkReserve 1, .start 1] = some _ := rfl
  have hx := h _ (System.reachable_of_exec rfl r)
  exact absurd (hx.worker 0 1 1 rfl rfl) (by decide)

end ProxmoxTool.HostApply
