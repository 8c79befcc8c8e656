import ProxmoxTool.Lib.Slots
import ProxmoxTool.Lib.System
import ProxmoxTool.Updates.Bulk

/-!
# Applying updates to guests

The job table `_update_jobs` with its `UpdateJob` objects, the bulk record `_bulk_update`, and the threads that work on
them: the request `apply`, the worker `_run_update_background`, the request `apply_all` with its orchestrator
`_run_bulk_update`, `update_cancel`, and the scheduler's `_run_auto_updates`, which upgrades through the scanner's
`apply_updates` and does not look at the table.

Jobs are objects: the table maps a guest to the number of its current job, and a thread that has looked its job up
keeps the number.  `finishes` counts the calls of `UpdateJob.finish` and is not in the source.  Closing an SSH client is
taken not to raise.
-/

namespace ProxmoxTool.GuestApply

abbrev GuestId := Nat

structure UpdateJob where
  guest : GuestId
  log : List Text
  running : Bool
  success : Option Bool
  cancelRequested : Bool
  cancelled : Bool
  finishes : Nat

def UpdateJob.new (g : GuestId) : UpdateJob :=
  { guest := g, log := [], running := true, success := none, cancelRequested := false, cancelled := false, finishes := 0 }

def UpdateJob.append (chunk : Text) (job : UpdateJob) : UpdateJob := { job with log := job.log ++ [chunk] }

def UpdateJob.finish (ok : Bool) (job : UpdateJob) : UpdateJob :=
  { job with
    running := false, success := some ok, cancelled := job.cancelled || (!ok && job.cancelRequested)
    finishes := job.finishes + 1 }

/-- Who called `_run_update_background`: the thread of a single-guest request, or the orchestrator with the guests
after this one. -/
inductive Caller
  | single
  | bulk (todo : List GuestId)

inductive Proc
  | idle
  | single (g : GuestId)
  | reserved (c : Caller) (g : GuestId) (j : Nat)
  | work (c : Caller) (g : GuestId) (j : Nat)
  | apt (c : Caller) (g : GuestId) (j : Nat)
  | cancelRequest (g : GuestId)
  | cancelling (j : Nat)
  | bulkRequest
  | bulkChecked
  | bulkNext (todo : List GuestId)
  | bulkItem (g : GuestId) (todo : List GuestId)
  | bulkWorked (g : GuestId) (j : Nat) (todo : List GuestId)
  | bulkRead (g : GuestId) (j : Nat) (ok : Bool) (todo : List GuestId)
  | bulkReleasing (g : GuestId) (j : Nat) (ok : Bool) (todo : List GuestId)
  | bulkReleased (g : GuestId) (ok : Bool) (todo : List GuestId)
  | tickNext (todo : List GuestId)
  | tickApt (g : GuestId) (todo : List GuestId)
  | finished

structure State where
  jobs : Nat → Option UpdateJob
  nextJob : Nat
  table : GuestId → Option Nat
  bulk : Bulk
  ticking : Bool
  procs : Nat → Proc

def State.initial : State :=
  { jobs := fun _ => none, nextJob := 0, table := fun _ => none, bulk := Bulk.empty, ticking := false
    procs := fun _ => .idle }

/-- `existing and existing.running` for the job in the table. -/
def slotRunning (s : State) (g : GuestId) : Bool :=
  ((s.table g).bind s.jobs).any fun job => job.running

/-- `_update_jobs[guest_id] = UpdateJob(…)`. -/
def State.setJob (s : State) (g : GuestId) : State :=
  { s with
    jobs := Function.update s.jobs s.nextJob (some (UpdateJob.new g)), nextJob := s.nextJob + 1
    table := Function.update s.table g (some s.nextJob) }

def State.modifyJob (s : State) (j : Nat) (f : UpdateJob → UpdateJob) : State :=
  { s with jobs := Function.update s.jobs j ((s.jobs j).map f) }

def State.setProc (s : State) (p : Nat) (x : Proc) : State := { s with procs := Function.update s.procs p x }

/-! ### The threads -/

/-- A step of thread `p`.  The guests a bulk request or a tick selects, the reasons to skip one and how apt ends are the
environment's choice; `crash` is an exception that escapes `_run_update_background`, `bulkAbort` one that escapes the
orchestrator's loop; `tickClose` ends a tick, at its end or by an exception. -/
inductive Label
  | arrive (p : Nat) (x : Proc)
  | reserve (p : Nat)
  | begin (p : Nat)
  | append (p : Nat) (chunk : Text)
  | aptBegin (p : Nat)
  | aptEnd (p : Nat)
  | finish (p : Nat) (ok : Bool)
  | crash (p : Nat)
  | cancelLook (p : Nat)
  | cancelSet (p : Nat)
  | bulkCheck (p : Nat)
  | bulkFill (p : Nat) (guests : List GuestId)
  | bulkTake (p : Nat)
  | bulkSkip (p : Nat) (reason : Text)
  | bulkReserve (p : Nat)
  | bulkReadSuccess (p : Nat)
  | bulkLook (p : Nat)
  | bulkFinish (p : Nat)
  | bulkRecord (p : Nat)
  | bulkClose (p : Nat)
  | bulkAbort (p : Nat)
  | tick (p : Nat) (guests : List GuestId)
  | tickSkip (p : Nat)
  | tickApt (p : Nat)
  | tickAptEnd (p : Nat)
  | tickClose (p : Nat)

def Proc.isRequest : Proc → Bool
  | .single _ => true
  | .cancelRequest _ => true
  | .bulkRequest => true
  | _ => false

/-- Where a thread goes on after `_run_update_background` has returned. -/
def Caller.returned : Caller → GuestId → Nat → Proc
  | .single, _, _ => .finished
  | .bulk todo, g, j => .bulkWorked g j todo

/-- Where a thread goes on after an exception has escaped `_run_update_background`. -/
def Caller.raised : Caller → GuestId → Nat → Proc
  | .single, _, _ => .finished
  | .bulk todo, g, j => .bulkRead g j false todo

def step (s : State) : Label → Option State
  | .arrive p x => match s.procs p with
    | .idle => if x.isRequest then some (s.setProc p x) else none
    | _ => none
  | .reserve p => match s.procs p with
    | .single g =>
      some (if slotRunning s g then s.setProc p .finished else (s.setJob g).setProc p (.reserved .single g s.nextJob))
    | _ => none
  | .begin p => match s.procs p with
    -- the worker finds its job through the table
    | .reserved c g j => match s.table g with
      | some i => some (s.setProc p (.work c g i))
      | none => some (s.setProc p (c.returned g j))
    | _ => none
  | .append p chunk => match s.procs p with
    | .work _ _ j => some (s.modifyJob j (UpdateJob.append chunk))
    | .apt _ _ j => some (s.modifyJob j (UpdateJob.append chunk))
    | _ => none
  | .aptBegin p => match s.procs p with
    | .work c g j => some (s.setProc p (.apt c g j))
    | _ => none
  | .aptEnd p => match s.procs p with
    | .apt c g j => some (s.setProc p (.work c g j))
    | _ => none
  | .finish p ok => match s.procs p with
    | .work c g j => some ((s.modifyJob j (UpdateJob.finish ok)).setProc p (c.returned g j))
    | _ => none
  | .crash p => match s.procs p with
    | .work c g j => some (s.setProc p (c.raised g j))
    | _ => none
  | .cancelLook p => match s.procs p with
    | .cancelRequest g => match s.table g with
      | some j => some (s.setProc p (if (s.jobs j).any fun job => job.running then .cancelling j else .finished))
      | none => some (s.setProc p .finished)
    | _ => none
  | .cancelSet p => match s.procs p with
    | .cancelling j => some ((s.modifyJob j fun job => { job with cancelRequested := true }).setProc p .finished)
    | _ => none
  | .bulkCheck p => match s.procs p with
    | .bulkRequest => some (s.setProc p (if s.bulk.running then .finished else .bulkChecked))
    | _ => none
  | .bulkFill p guests => match s.procs p with
    -- unlike the bulk run of the hosts, the flag is read again under the lock
    | .bulkChecked =>
      some (if guests = [] || s.bulk.running then s.setProc p .finished
        else { s with bulk := s.bulk.fill guests }.setProc p (.bulkNext guests))
    | _ => none
  | .bulkTake p => match s.procs p with
    | .bulkNext (g :: todo) => some ({ s with bulk := s.bulk.setItemOf g .running }.setProc p (.bulkItem g todo))
    | _ => none
  | .bulkSkip p reason => match s.procs p with
    | .bulkItem g todo =>
      some ({ s with bulk := (s.bulk.setItemOf g .skipped (some reason)).countDone }.setProc p (.bulkNext todo))
    | _ => none
  | .bulkReserve p => match s.procs p with
    | .bulkItem g todo =>
      some (if slotRunning s g then
        { s with
          bulk := (s.bulk.setItemOf g .skipped
            (some "An update is already running for this guest".toList)).countDone }.setProc p (.bulkNext todo)
      else (s.setJob g).setProc p (.reserved (.bulk todo) g s.nextJob))
    | _ => none
  | .bulkReadSuccess p => match s.procs p with
    | .bulkWorked g j todo =>
      some (s.setProc p (.bulkRead g j (((s.table g).bind s.jobs).any fun job => job.success = some true) todo))
    | _ => none
  | .bulkLook p => match s.procs p with
    | .bulkRead g _ ok todo => match s.table g with
      | some i => some (s.setProc p
          (if (s.jobs i).any fun job => job.running then .bulkReleasing g i ok todo else .bulkReleased g ok todo))
      | none => some (s.setProc p (.bulkReleased g ok todo))
    | _ => none
  | .bulkFinish p => match s.procs p with
    | .bulkReleasing g j ok todo =>
      some ((s.modifyJob j (UpdateJob.finish false)).setProc p (.bulkReleased g ok todo))
    | _ => none
  | .bulkRecord p => match s.procs p with
    | .bulkReleased g ok todo =>
      some ({ s with bulk := (s.bulk.setItemOf g (if ok then .success else .failed)).countDone }.setProc p
        (.bulkNext todo))
    | _ => none
  | .bulkClose p => match s.procs p with
    | .bulkNext [] => some ({ s with bulk := s.bulk.close }.setProc p .finished)
    | _ => none
  | .bulkAbort p => match s.procs p with
    | .bulkItem _ _ => some ({ s with bulk := s.bulk.close }.setProc p .finished)
    | _ => none
  | .tick p guests => match s.procs p with
    | .idle => if s.ticking then none else some ({ s with ticking := true }.setProc p (.tickNext guests))
    | _ => none
  | .tickSkip p => match s.procs p with
    | .tickNext (_ :: todo) => some (s.setProc p (.tickNext todo))
    | _ => none
  | .tickApt p => match s.procs p with
    -- the table of jobs is not looked at
    | .tickNext (g :: todo) => some (s.setProc p (.tickApt g todo))
    | _ => none
  | .tickAptEnd p => match s.procs p with
    | .tickApt _ todo => some (s.setProc p (.tickNext todo))
    | _ => none
  | .tickClose p => match s.procs p with
    | .tickNext _ => some ({ s with ticking := false }.setProc p .finished)
    | _ => none

def system : System State Label := { init := fun s => s = State.initial, step := step }

/-! ### The properties -/

/-- The guest on which a thread is executing the apt upgrade command. -/
def Proc.aptGuest : Proc → Option GuestId
  | .apt _ g _ => some g
  | .tickApt g _ => some g
  | _ => none

/-- At most one thread is executing apt on a guest, and a job is finished at most once and then is not running. -/
structure OneUpgrade (s : State) : Prop where
  apt : ∀ p q g, (s.procs p).aptGuest = some g → (s.procs q).aptGuest = some g → p = q
  once : ∀ j job, s.jobs j = some job → job.finishes ≤ 1
  recorded : ∀ j job, s.jobs j = some job → job.success ≠ none → job.finishes = 1 ∧ job.running = false

/-- The step does not take a branch that goes wrong: a worker starts apt on a guest only while no tick is executing
apt there, a tick only while nobody is, and the orchestrator's `finally` section does not find another request's
running job. -/
def Clear (s : State) : Label → Prop
  | .aptBegin p => ∀ c g j, s.procs p = .work c g j → ∀ q todo, s.procs q ≠ .tickApt g todo
  | .tickApt p => ∀ g todo, s.procs p = .tickNext (g :: todo) → ∀ q, (s.procs q).aptGuest ≠ some g
  | .bulkLook p => ∀ g j ok todo, s.procs p = .bulkRead g j ok todo →
      ∀ i job, s.table g = some i → s.jobs i = some job → job.running = true → i = j
  | _ => True

/-! ### The invariant -/

/-- The job a thread counts on being the running one of its guest. -/
def Proc.holding : Proc → Option (GuestId × Nat)
  | .reserved _ g j => some (g, j)
  | .work _ g j => some (g, j)
  | .apt _ g j => some (g, j)
  | .bulkReleasing g j _ _ => some (g, j)
  | _ => none

/-- The job a thread counts on or may still release. -/
def Proc.jobId : Proc → Option (GuestId × Nat)
  | .bulkWorked g j _ => some (g, j)
  | .bulkRead g j _ _ => some (g, j)
  | x => x.holding

/-- Job `j` is in the table for `g` and running. -/
def State.Live (s : State) (g : GuestId) (j : Nat) : Prop :=
  s.table g = some j ∧ ∃ job, s.jobs j = some job ∧ job.running = true

/-- A job is running and was never finished, or it was finished once. -/
def UpdateJob.Sound (job : UpdateJob) : Prop :=
  (job.running = true ∧ job.finishes = 0 ∧ job.success = none) ∨
    (job.running = false ∧ job.finishes = 1 ∧ job.success ≠ none)

structure Inv (s : State) : Prop where
  slots : Slots.Inv Proc.holding Proc.jobId s.Live s.nextJob s.procs
  sound : ∀ j job, s.jobs j = some job → job.Sound
  tick : ∀ p q g todo, s.procs p = .tickApt g todo → (s.procs q).aptGuest = some g → p = q

private theorem jobId_of_holding (x : Proc) (y : GuestId × Nat) (h : x.holding = some y) : x.jobId = some y := by
  cases x <;> simp_all [Proc.holding, Proc.jobId]

private theorem live_unique (s : State) (g : GuestId) (i j : Nat) (hi : s.Live g i) (hj : s.Live g j) : i = j :=
  Option.some.inj (hi.1.symm.trans hj.1)

private theorem setProc_procs (s : State) (p q : Nat) (x : Proc) :
    (s.setProc p x).procs q = if q = p then x else s.procs q := by
  simp [State.setProc, Function.update_apply]

/-- Ticks stay alone on their guest when a thread moves to a place where it executes apt only where it already did. -/
private theorem tick_setProc {s : State} {p : Nat} {x : Proc}
    (hI : ∀ p q g todo, s.procs p = .tickApt g todo → (s.procs q).aptGuest = some g → p = q)
    (hx : x.aptGuest = none) : ∀ q r g todo, (s.setProc p x).procs q = .tickApt g todo →
      ((s.setProc p x).procs r).aptGuest = some g → q = r := by
  intro q r g todo hq hr
  rw [setProc_procs] at hq hr
  split at hq
  · simp [hq, Proc.aptGuest] at hx
  · split at hr
    · simp [hr] at hx
    · exact hI q r g todo hq hr

/-- A thread moves outside apt and counts on nothing it did not count on before. -/
private theorem Inv.setProc {s : State} (hI : Inv s) {p : Nat} {x : Proc}
    (hh : x.holding = none ∨ x.holding = (s.procs p).holding) (hj : x.jobId = none ∨ x.jobId = (s.procs p).jobId)
    (hx : x.aptGuest = none) : Inv (s.setProc p x) :=
  ⟨hI.slots.move hh hj, hI.sound, tick_setProc hI.tick hx⟩

/-- The same while the bulk record or the scheduler's flag changes. -/
private theorem Inv.record {s : State} (hI : Inv s) {k : Bulk} {b : Bool} {p : Nat} {x : Proc} (hh : x.holding = none)
    (hj : x.jobId = none) (hx : x.aptGuest = none) : Inv ({ s with bulk := k, ticking := b }.setProc p x) :=
  ⟨hI.slots.move (.inl hh) (.inl hj), hI.sound, tick_setProc hI.tick hx⟩

private theorem Inv.reserve {s : State} (hI : Inv s) {p : Nat} {g : GuestId} {x : Proc} (hfree : slotRunning s g = false)
    (hh : x.holding = some (g, s.nextJob)) (hx : x.aptGuest = none) : Inv ((s.setJob g).setProc p x) := by
  refine ⟨Slots.Inv.reserve hI.slots jobId_of_holding ?_ hh ?_ ?_, ?_, tick_setProc hI.tick hx⟩
  · intro q j hq
    obtain ⟨ht, job, hjob, hr⟩ := hI.slots.record q g j hq
    simp [slotRunning, ht, hjob, hr] at hfree
  · exact ⟨by simp [State.setJob, State.setProc], UpdateJob.new g, by simp [State.setJob, State.setProc], rfl⟩
  · rintro g' j hlt hne ⟨ht, job, hjob, hr⟩
    have hjn : j ≠ s.nextJob := Nat.ne_of_lt hlt
    exact ⟨by simpa [State.setJob, State.setProc, hne] using ht, job,
      by simpa [State.setJob, State.setProc, hjn] using hjob, hr⟩
  · intro j job hjob
    by_cases hjn : j = s.nextJob
    · obtain rfl : UpdateJob.new g = job := by simpa [State.setJob, State.setProc, hjn] using hjob
      exact .inl ⟨rfl, rfl, rfl⟩
    · exact hI.sound j job (by simpa [State.setJob, State.setProc, hjn] using hjob)

/-- A job changes in what the invariant does not read. -/
private theorem Inv.modifyJob {s : State} (hI : Inv s) {i : Nat} {f : UpdateJob → UpdateJob}
    (hf : ∀ job, (f job).running = job.running ∧ (f job).finishes = job.finishes ∧ (f job).success = job.success) :
    Inv (s.modifyJob i f) := by
  refine ⟨hI.slots.change ?_, ?_, hI.tick⟩
  · rintro p g j - ⟨ht, job, hjob, hr⟩
    by_cases hji : j = i
    · subst hji
      exact ⟨ht, f job, by simp [State.modifyJob, hjob], (hf job).1.trans hr⟩
    · exact ⟨ht, job, by simp [State.modifyJob, hji, hjob], hr⟩
  · intro j job hjob
    by_cases hji : j = i
    · subst hji
      obtain ⟨job', hjob', rfl⟩ : ∃ job', s.jobs j = some job' ∧ f job' = job := by
        simpa [State.modifyJob] using hjob
      obtain ⟨hr, hn, hs⟩ := hf job'
      simpa only [UpdateJob.Sound, hr, hn, hs] using hI.sound j job' hjob'
    · exact hI.sound j job (by simpa [State.modifyJob, hji] using hjob)

/-- The holder of a job finishes it and counts on it no longer. -/
private theorem Inv.finish {s : State} (hI : Inv s) {p : Nat} {g : GuestId} {j : Nat} {x : Proc} (ok : Bool)
    (hp : (s.procs p).holding = some (g, j)) (hh : x.holding = none)
    (hj : x.jobId = none ∨ x.jobId = (s.procs p).jobId) (hx : x.aptGuest = none) :
    Inv ((s.modifyJob j (UpdateJob.finish ok)).setProc p x) := by
  obtain ⟨-, mine, hmine, hrun⟩ := hI.slots.record p g j hp
  refine ⟨(hI.slots.move (.inl hh) hj).change ?_, ?_, tick_setProc hI.tick hx⟩
  · rintro q g' k hq ⟨ht, job, hjob, hr⟩
    have hqp : q ≠ p := by
      rintro rfl
      simp [hh] at hq
    have hq : (s.procs q).holding = some (g', k) := by simpa [hqp] using hq
    have hkj : k ≠ j := by
      rintro rfl
      exact hqp (hI.slots.sole q p g' g k (jobId_of_holding _ _ hq) (jobId_of_holding _ _ hp))
    exact ⟨ht, job, by simpa [State.modifyJob, State.setProc, hkj] using hjob, hr⟩
  · intro k job hjob
    by_cases hkj : k = j
    · obtain rfl : UpdateJob.finish ok mine = job := by
        simpa [State.modifyJob, State.setProc, hkj, hmine] using hjob
      rcases hI.sound j mine hmine with ⟨-, hn, -⟩ | ⟨hr, -, -⟩
      · exact .inr ⟨rfl, by simp [UpdateJob.finish, hn], by simp [UpdateJob.finish]⟩
      · simp [hr] at hrun
    · exact hI.sound k job (by simpa [State.modifyJob, State.setProc, hkj] using hjob)

/-- A worker that holds its guest's job starts apt while no tick is executing apt there. -/
private theorem Inv.aptBegin {s : State} (hI : Inv s) {p : Nat} {c : Caller} {g : GuestId} {j : Nat}
    (hp : s.procs p = .work c g j) (hc : ∀ q todo, s.procs q ≠ .tickApt g todo) : Inv (s.setProc p (.apt c g j)) := by
  refine ⟨hI.slots.move (.inr (by rw [hp]; rfl)) (.inr (by rw [hp]; rfl)), hI.sound, ?_⟩
  intro q r g' todo hq hr
  rw [setProc_procs] at hq hr
  split at hq
  · cases hq
  · split at hr
    · obtain rfl : g = g' := by simpa [Proc.aptGuest] using hr
      exact absurd hq (hc q todo)
    · exact hI.tick q r g' todo hq hr

/-- A tick starts apt on a guest where nobody is executing it. -/
private theorem Inv.tickApt {s : State} (hI : Inv s) {p : Nat} {g : GuestId} {todo : List GuestId}
    (hc : ∀ q, (s.procs q).aptGuest ≠ some g) : Inv (s.setProc p (.tickApt g todo)) := by
  refine ⟨hI.slots.move (.inl rfl) (.inl rfl), hI.sound, ?_⟩
  intro q r g' todo' hq hr
  rw [setProc_procs] at hq hr
  split at hq
  · obtain ⟨rfl, rfl⟩ : g = g' ∧ todo = todo' := by simpa using hq
    split at hr
    · simp_all
    · exact absurd hr (hc r)
  · split at hr
    · obtain rfl : g = g' := by simpa [Proc.aptGuest] using hr
      exact absurd (by rw [hq]; rfl) (hc q)
    · exact hI.tick q r g' todo' hq hr

private theorem Inv.step {s s' : State} {e : Label} (hI : Inv s) (hc : Clear s e) (hs : step s e = some s') :
    Inv s' := by
  cases e with
  | arrive p x =>
    simp only [GuestApply.step] at hs
    split at hs
    · split at hs
      · obtain rfl := Option.some.inj hs
        cases x <;> first | exact hI.setProc (.inl rfl) (.inl rfl) rfl | simp_all [Proc.isRequest]
      · cases hs
    · cases hs
  | reserve p | bulkReserve p =>
    simp only [GuestApply.step] at hs
    split at hs
    · obtain rfl := Option.some.inj hs
      split
      · exact hI.record rfl rfl rfl
      · exact hI.reserve (by simp_all) rfl rfl
    · cases hs
  | begin p =>
    simp only [GuestApply.step] at hs
    split at hs
    · rename_i c g j hp
      obtain ⟨ht, -⟩ := hI.slots.record p g j (by rw [hp]; rfl)
      rw [ht] at hs
      obtain rfl := Option.some.inj hs
      exact hI.setProc (.inr (by rw [hp]; rfl)) (.inr (by rw [hp]; rfl)) rfl
    · cases hs
  | append p chunk =>
    simp only [GuestApply.step] at hs
    split at hs
    · obtain rfl := Option.some.inj hs
      exact hI.modifyJob fun _ => ⟨rfl, rfl, rfl⟩
    · obtain rfl := Option.some.inj hs
      exact hI.modifyJob fun _ => ⟨rfl, rfl, rfl⟩
    · cases hs
  | aptBegin p =>
    simp only [GuestApply.step] at hs
    split at hs
    · obtain rfl := Option.some.inj hs
      exact hI.aptBegin ‹_› (hc _ _ _ ‹_›)
    · cases hs
  | aptEnd p =>
    simp only [GuestApply.step] at hs
    split at hs
    · rename_i hp
      obtain rfl := Option.some.inj hs
      exact hI.setProc (.inr (by rw [hp]; rfl)) (.inr (by rw [hp]; rfl)) rfl
    · cases hs
  | finish p ok =>
    simp only [GuestApply.step] at hs
    split at hs
    · rename_i c g j hp
      obtain rfl := Option.some.inj hs
      cases c with
      | single => exact hI.finish ok (by rw [hp]; rfl) rfl (.inl rfl) rfl
      | bulk todo => exact hI.finish ok (by rw [hp]; rfl) rfl (.inr (by rw [hp]; rfl)) rfl
    · cases hs
  | crash p =>
    simp only [GuestApply.step] at hs
    split at hs
    · rename_i c g j hp
      obtain rfl := Option.some.inj hs
      cases c with
      | single => exact hI.setProc (.inl rfl) (.inl rfl) rfl
      | bulk todo => exact hI.setProc (.inl rfl) (.inr (by rw [hp]; rfl)) rfl
    · cases hs
  | cancelLook p =>
    simp only [GuestApply.step] at hs
    split at hs
    · split at hs
      · obtain rfl := Option.some.inj hs
        split <;> exact hI.setProc (.inl rfl) (.inl rfl) rfl
      · obtain rfl := Option.some.inj hs
        exact hI.setProc (.inl rfl) (.inl rfl) rfl
    · cases hs
  | cancelSet p =>
    simp only [GuestApply.step] at hs
    split at hs
    · obtain rfl := Option.some.inj hs
      refine Inv.setProc (hI.modifyJob ?_) (.inl rfl) (.inl rfl) rfl
      exact fun _ => ⟨rfl, rfl, rfl⟩
    · cases hs
  | bulkCheck p | bulkFill p =>
    simp only [GuestApply.step] at hs
    split at hs
    · obtain rfl := Option.some.inj hs
      split <;> exact hI.record rfl rfl rfl
    · cases hs
  | bulkReadSuccess p =>
    simp only [GuestApply.step] at hs
    split at hs
    · rename_i hp
      obtain rfl := Option.some.inj hs
      exact hI.setProc (.inl rfl) (.inr (by rw [hp]; rfl)) rfl
    · cases hs
  | bulkLook p =>
    simp only [GuestApply.step] at hs
    split at hs
    · rename_i g j ok todo hp
      split at hs
      · rename_i i ht
        obtain rfl := Option.some.inj hs
        split
        · rename_i hrun
          obtain ⟨job, hjob, hr⟩ := (Option.any_eq_true _ _).mp hrun
          obtain rfl := hc g j ok todo hp i job ht hjob hr
          refine ⟨hI.slots.retake ?_ (.inr (by rw [hp]; rfl)), hI.sound, tick_setProc hI.tick rfl⟩
          rintro g' j' hx
          obtain ⟨rfl, rfl⟩ : g = g' ∧ i = j' := by simpa [Proc.holding] using hx
          exact ⟨ht, job, hjob, hr⟩
        · exact hI.setProc (.inl rfl) (.inl rfl) rfl
      · obtain rfl := Option.some.inj hs
        exact hI.setProc (.inl rfl) (.inl rfl) rfl
    · cases hs
  | bulkFinish p =>
    simp only [GuestApply.step] at hs
    split at hs
    · rename_i hp
      obtain rfl := Option.some.inj hs
      exact hI.finish false (by rw [hp]; rfl) rfl (.inl rfl) rfl
    · cases hs
  | tickApt p =>
    simp only [GuestApply.step] at hs
    split at hs
    · obtain rfl := Option.some.inj hs
      exact hI.tickApt (hc _ _ ‹_›)
    · cases hs
  | tick p guests =>
    simp only [GuestApply.step] at hs
    split at hs
    · split at hs
      · cases hs
      · obtain rfl := Option.some.inj hs
        exact hI.record rfl rfl rfl
    · cases hs
  | bulkTake p | bulkSkip p | bulkRecord p | bulkClose p | bulkAbort p | tickSkip p | tickAptEnd p | tickClose p =>
    simp only [GuestApply.step] at hs
    split at hs
    · obtain rfl := Option.some.inj hs
      exact hI.record rfl rfl rfl
    · cases hs

/-- A thread executing apt is a tick, or holds the job of its guest. -/
private theorem aptGuest_cases {x : Proc} {g : GuestId} (h : x.aptGuest = some g) :
    (∃ todo, x = .tickApt g todo) ∨ ∃ j, x.holding = some (g, j) := by
  cases x <;> simp_all [Proc.aptGuest, Proc.holding]

/-- In every run in which workers and ticks do not start apt on each other's guest and the orchestrator's `finally`
section meets no other request's running job, at most one upgrade runs on a guest and no job is finished twice. -/
theorem oneUpgrade_of_clear {s : State} (h : system.Reach Clear s) : OneUpgrade s := by
  have hI : Inv s := by
    refine h.invariant (I := Inv) ?_ ?_
    · rintro s rfl
      exact ⟨⟨by simp [State.initial, Proc.holding], by simp [State.initial, Proc.jobId, Proc.holding],
        by simp [State.initial, Proc.jobId, Proc.holding]⟩, by simp [State.initial], by simp [State.initial]⟩
    · intro s e s' hI hc hs
      exact hI.step hc hs
  refine ⟨?_, ?_, ?_⟩
  · intro p q g hp hq
    rcases aptGuest_cases hp with ⟨todo, htick⟩ | ⟨i, hi⟩
    · exact hI.tick p q g todo htick hq
    · rcases aptGuest_cases hq with ⟨todo, htick⟩ | ⟨j, hj⟩
      · exact (hI.tick q p g todo htick hp).symm
      · exact hI.slots.holder_unique jobId_of_holding (live_unique s) hi hj
  · intro j job hjob
    rcases hI.sound j job hjob with ⟨-, hn, -⟩ | ⟨-, hn, -⟩ <;> omega
  · intro j job hjob hne
    rcases hI.sound j job hjob with ⟨-, -, hn⟩ | ⟨hr, hn, -⟩
    · exact absurd hn hne
    · exact ⟨hn, hr⟩

/-- A worker upgrades guest 1 while a tick upgrades guest 2. -/
theorem worker_beside_tick : ∃ s, system.Reach Clear s ∧ OneUpgrade s ∧
    (s.procs 0).aptGuest = some 1 ∧ (s.procs 1).aptGuest = some 2 := by
  have r0 : system.Reach Clear State.initial := .init rfl
  have r1 := ((r0.next (.arrive 0 (.single 1)) trivial rfl).next (.reserve 0) trivial rfl).next (.begin 0) trivial rfl
  have r2 := r1.next (.aptBegin 0) (by
    rintro c g j - (_ | q) todo hq <;> cases hq) rfl
  have r3 := (r2.next (.tick 1 [2]) trivial rfl).next (.tickApt 1) (by
    rintro g todo hp (_ | _ | q) hq <;> cases hp <;> cases hq) rfl
  exact ⟨_, r3, oneUpgrade_of_clear r3, rfl, rfl⟩

/-- A tick does not look at the job table: guest 1 is upgraded by a worker and by the scheduler at once. -/
theorem not_always_oneUpgrade : ¬ ∀ s, system.Reachable s → OneUpgrade s := by
  intro h
  have r : system.exec State.initial [.arrive 0 (.single 1), .reserve 0, .begin 0, .aptBegin 0, .tick 1 [1],
      .tickApt 1] = some _ := rfl
  have hx := h _ (System.reachable_of_exec rfl r)
  exact absurd (hx.apt 0 1 1 rfl rfl) (by decide)

end ProxmoxTool.GuestApply
