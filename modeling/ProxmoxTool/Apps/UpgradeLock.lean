import ProxmoxTool.Lib.System
import Mathlib.Data.List.Nodup
import Mathlib.Logic.Function.Basic

/-!
# The upgrade lock of an application

The lock of `apps/utils.py`, the upgrade route of an application with its background job, and the release check of the scheduler.  Every
statement is a step of its own; it completes, it raises, or it ends its thread with an exception that `except Exception` does not catch.

The job and the release check give the lock back in a `finally`.  The request has none: what raises between the lock and the start of the
job leaves the lock taken.  `one_upgrade_iff` says that this is all that goes wrong.
-/

namespace ProxmoxTool.UpgradeLock

/-! ### Locks -/

/-- `_UPGRADE_LOCKS`; the value says whether the lock is held. -/
abbrev Locks := String → Option Bool

/-- `_get_upgrade_lock`: a lock is made when it is first asked for. -/
def getUpgradeLock (locks : Locks) (app : String) : Bool := (locks app).getD false

/-- `acquire_upgrade_lock`. -/
def acquireUpgradeLock (locks : Locks) (app : String) : Bool × Locks :=
  if getUpgradeLock locks app then (false, locks) else (true, Function.update locks app (some true))

/-- `release_upgrade_lock`, whoever holds the lock; the `RuntimeError` of a free lock is dropped. -/
def releaseUpgradeLock (locks : Locks) (app : String) : Locks := Function.update locks app (some false)

/-! ### Runs -/

/-- The statements of `upgrade` between the lock and the job. -/
inductive Preparation
  | skipProtection | jobUpdate | targetVersion | currentApp | spawn
deriving DecidableEq

/-- Where a run is: in the request, in its job, or in a release check. -/
inductive Phase
  | requested
  | preparing (statement : Preparation)
  | queued | jobNotifying | jobUpgrading | jobRecording | jobReleasing
  | checking | autoNotifying | autoUpgrading
  | autoReleasing (raised : Bool)
  | autoRecording
  | ended
deriving DecidableEq

/-- `quit` is an exception that is no `Exception`; `returned` is an early return. -/
inductive Outcome
  | done | returned | raised | quit
deriving DecidableEq

inductive Move
  | goto (phase : Phase)
  | acquire (taken refused : Phase)
  | release (phase : Phase)

def Preparation.next : Preparation → Phase
  | .skipProtection => .preparing .jobUpdate
  | .jobUpdate => .preparing .targetVersion
  | .targetVersion => .preparing .currentApp
  | .currentApp => .preparing .spawn
  | .spawn => .queued

def Phase.move : Phase → Outcome → Option Move
  -- `upgrade`
  | .requested, .done => some (.acquire (.preparing .skipProtection) .ended)
  | .requested, _ => some (.goto .ended)
  | .preparing _, .returned => none
  | .preparing statement, .done => some (.goto statement.next)
  | .preparing _, _ => some (.goto .ended)
  -- `_bg_locked`, with `_bg`
  | .queued, .done => some (.goto .jobNotifying)
  | .jobNotifying, .done => some (.goto .jobUpgrading)
  | .jobNotifying, .raised => some (.goto .jobRecording)
  | .jobNotifying, .quit => some (.goto .jobReleasing)
  | .jobUpgrading, .done => some (.goto .jobRecording)
  | .jobUpgrading, .raised => some (.goto .jobRecording)
  | .jobUpgrading, .quit => some (.goto .jobReleasing)
  | .jobRecording, .returned => none
  | .jobRecording, _ => some (.goto .jobReleasing)
  | .jobReleasing, .done => some (.release .ended)
  -- `_check_mastodon_release`; without the lock it returns from the `with`
  | .checking, .done => some (.acquire .autoNotifying .ended)
  | .checking, _ => some (.goto .ended)
  | .autoNotifying, .done => some (.goto .autoUpgrading)
  | .autoNotifying, .raised => some (.goto (.autoReleasing true))
  | .autoNotifying, .quit => some (.goto (.autoReleasing true))
  | .autoUpgrading, .done => some (.goto (.autoReleasing false))
  | .autoUpgrading, .raised => some (.goto (.autoReleasing false))
  | .autoUpgrading, .quit => some (.goto (.autoReleasing true))
  | .autoReleasing false, .done => some (.release .autoRecording)
  | .autoReleasing true, .done => some (.release .ended)
  | .autoRecording, .returned => none
  | .autoRecording, _ => some (.goto .ended)
  | _, _ => none

/-- `run_mastodon_upgrade` is in progress. -/
def Phase.upgrades : Phase → Bool
  | .jobUpgrading | .autoUpgrading => true
  | _ => false

structure Run where
  app : String
  phase : Phase

inductive Act
  | acquired | released
deriving DecidableEq

/-- What run `run` did to the lock of `app`. -/
structure Entry where
  app : String
  run : Nat
  act : Act
deriving DecidableEq

structure State where
  locks : Locks := fun _ => none
  runs : Nat → Option Run := fun _ => none
  log : List Entry := []

inductive Event
  | request (run : Nat) (app : String)
  | check (run : Nat) (app : String)
  | next (run : Nat) (outcome : Outcome)

def State.put (s : State) (i : Nat) (run : Run) (phase : Phase) : State :=
  { s with runs := Function.update s.runs i (some { run with phase := phase }) }

def State.perform (s : State) (i : Nat) (run : Run) : Move → State
  | .goto phase => s.put i run phase
  | .acquire taken refused => match acquireUpgradeLock s.locks run.app with
    | (true, locks) => { s.put i run taken with locks := locks, log := s.log ++ [⟨run.app, i, .acquired⟩] }
    | (false, locks) => { s.put i run refused with locks := locks }
  | .release phase =>
    { s.put i run phase with locks := releaseUpgradeLock s.locks run.app, log := s.log ++ [⟨run.app, i, .released⟩] }

def step (s : State) : Event → Option State
  | .request i app => if (s.runs i).isNone then some (s.put i ⟨app, .requested⟩ .requested) else none
  | .check i app => if (s.runs i).isNone then some (s.put i ⟨app, .checking⟩ .checking) else none
  | .next i outcome => (s.runs i).bind fun run => (run.phase.move outcome).map (s.perform i run)

def system : System State Event where
  init s := s = {}
  step := step

/-! ### One upgrade at a time -/

def logOf (app : String) (log : List Entry) : List Entry := log.filter (·.app = app)

/-- The runs take the lock one after the other, and each gives it back. -/
def turns (app : String) (owners : List Nat) : List Entry := owners.flatMap fun i => [⟨app, i, .acquired⟩, ⟨app, i, .released⟩]

/-- The lock has been taken and given back in turns, at most one run has it, and that run goes on. -/
def TakenInTurns (s : State) (app : String) : Prop :=
  ∃ (owners : List Nat) (current : Option Nat), logOf app s.log = turns app owners ++ (current.map fun i => ⟨app, i, .acquired⟩).toList ∧
    (owners ++ current.toList).Nodup ∧ ∀ i ∈ current, ∃ run, s.runs i = some run ∧ run.app = app ∧ run.phase ≠ .ended

structure OneUpgrade (app : String) (s : State) : Prop where
  alone : ∀ i j run run', s.runs i = some run → s.runs j = some run' → run.app = app → run'.app = app →
    run.phase.upgrades = true → run'.phase.upgrades = true → i = j
  turns : TakenInTurns s app
  reopens : (∀ i run, s.runs i = some run → run.app = app → run.phase = .ended) → (acquireUpgradeLock s.locks app).1 = true

/-- No request of the application raises between the lock and its job. -/
def JobStarts (app : String) (s : State) : Event → Prop
  | .next i outcome => outcome = .done ∨ ∀ run statement, s.runs i = some run → run.app = app → run.phase ≠ .preparing statement
  | _ => True

/-! ### What a move does to the lock -/

/-- The run has taken the lock and has not given it back. -/
def Phase.holds : Phase → Bool
  | .preparing _ | .queued | .jobNotifying | .jobUpgrading | .jobRecording | .jobReleasing => true
  | .autoNotifying | .autoUpgrading | .autoReleasing _ => true
  | .requested | .checking | .autoRecording | .ended => false

/-- The run neither has the lock nor asks for it any more. -/
def Phase.past : Phase → Bool
  | .autoRecording | .ended => true
  | _ => false

theorem holds_of_upgrades {phase : Phase} (h : phase.upgrades = true) : phase.holds = true := by
  cases phase <;> first | rfl | cases h

theorem not_past_of_holds {phase : Phase} (h : phase.holds = true) : phase.past = false := by
  cases phase <;> first | rfl | cases h

theorem move_goto {phase phase' : Phase} {outcome : Outcome} (h : phase.move outcome = some (.goto phase'))
    (hok : outcome = .done ∨ ∀ statement, phase ≠ .preparing statement) :
    phase'.holds = phase.holds ∧ (phase.past = true → phase'.past = true) := by
  cases phase with
  | preparing statement =>
    rcases hok with rfl | hne
    · obtain rfl : statement.next = phase' := Move.goto.inj (Option.some.inj h)
      cases statement <;> exact ⟨rfl, id⟩
    · exact absurd rfl (hne statement)
  | autoReleasing raised => cases raised <;> cases outcome <;> cases h
  | _ =>
    cases outcome <;> cases h <;> exact ⟨rfl, fun h => by first | rfl | cases h⟩

theorem move_acquire {phase taken refused : Phase} {outcome : Outcome} (h : phase.move outcome = some (.acquire taken refused)) :
    phase.holds = false ∧ phase.past = false ∧ taken.holds = true ∧ refused.holds = false := by
  cases phase with
  | autoReleasing raised => cases raised <;> cases outcome <;> cases h
  | _ => cases outcome <;> cases h <;> exact ⟨rfl, rfl, rfl, rfl⟩

theorem move_release {phase phase' : Phase} {outcome : Outcome} (h : phase.move outcome = some (.release phase')) :
    phase.holds = true ∧ phase'.past = true ∧ phase'.holds = false := by
  cases phase with
  | autoReleasing raised => cases raised <;> cases outcome <;> cases h <;> exact ⟨rfl, rfl, rfl⟩
  | _ => cases outcome <;> cases h <;> exact ⟨rfl, rfl, rfl⟩

/-- A request that raises before its job has started is over. -/
theorem move_preparing {statement : Preparation} {outcome : Outcome} {move : Move} (hne : outcome ≠ .done)
    (h : (Phase.preparing statement).move outcome = some move) : move = .goto .ended := by
  cases outcome with
  | done => exact absurd rfl hne
  | returned => cases h
  | raised | quit => exact (Option.some.inj h).symm

/-! ### The invariant -/

/-- The lock of the application is held exactly while a run has it. -/
structure Inv (app : String) (s : State) (owners : List Nat) (current : Option Nat) : Prop where
  log : logOf app s.log = turns app owners ++ (current.map fun i => ⟨app, i, .acquired⟩).toList
  lock : getUpgradeLock s.locks app = current.isSome
  holds : ∀ i run, s.runs i = some run → run.app = app → (run.phase.holds = true ↔ current = some i)
  present : ∀ i ∈ current, ∃ run, s.runs i = some run ∧ run.app = app
  past : ∀ i ∈ owners, ∃ run, s.runs i = some run ∧ run.app = app ∧ run.phase.past = true
  nodup : owners.Nodup

variable {app : String} {s s' : State} {owners : List Nat} {current : Option Nat} {i : Nat} {run : Run} {phase : Phase}

theorem put_self : (s.put i run phase).runs i = some { run with phase := phase } := by simp [State.put]

theorem put_ne {j : Nat} (h : j ≠ i) : (s.put i run phase).runs j = s.runs j := by simp [State.put, h]

theorem Inv.current_holds (h : Inv app s owners current) (hi : i ∈ current) :
    ∃ run, s.runs i = some run ∧ run.app = app ∧ run.phase.holds = true := by
  obtain ⟨run, hrun, happ⟩ := h.present i hi
  exact ⟨run, hrun, happ, (h.holds i run hrun happ).2 hi⟩

theorem Inv.oneUpgrade (h : Inv app s owners current) : OneUpgrade app s where
  alone i j run run' hi hj happ happ' hup hup' := by
    have hci := (h.holds i run hi happ).1 (holds_of_upgrades hup)
    have hcj := (h.holds j run' hj happ').1 (holds_of_upgrades hup')
    rw [hci, Option.some_inj] at hcj
    exact hcj
  turns := by
    refine ⟨owners, current, h.log, ?_, fun i hi => ?_⟩
    · refine List.nodup_append.2 ⟨h.nodup, by cases current <;> simp, fun i hi j hj heq => ?_⟩
      obtain ⟨run, hrun, happ, hpast⟩ := h.past i hi
      have hholds := (h.holds i run hrun happ).2 (by rw [heq]; exact Option.mem_toList.1 hj)
      rw [not_past_of_holds hholds] at hpast
      cases hpast
    · obtain ⟨run, hrun, happ, hholds⟩ := h.current_holds hi
      refine ⟨run, hrun, happ, fun hended => ?_⟩
      rw [hended] at hholds
      cases hholds
  reopens hall := by
    have hnone : current = none := by
      cases hc : current with
      | none => rfl
      | some i =>
        obtain ⟨run, hrun, happ, hholds⟩ := h.current_holds (i := i) hc
        rw [hall i run hrun happ] at hholds
        cases hholds
    have hlock := h.lock
    rw [hnone] at hlock
    rw [acquireUpgradeLock, hlock]
    rfl

/-- A run goes on without touching the lock, or a new one begins. -/
theorem Inv.put (h : Inv app s owners current) (hrun : s.runs i = none ∨ s.runs i = some run)
    (hfresh : s.runs i = none → phase.holds = false)
    (hphase : s.runs i = some run → run.app = app → phase.holds = run.phase.holds ∧ (run.phase.past = true → phase.past = true)) :
    Inv app (s.put i run phase) owners current where
  log := h.log
  lock := h.lock
  nodup := h.nodup
  holds j run' hj happ := by
    by_cases hji : j = i
    · subst hji
      rw [put_self, Option.some_inj] at hj
      subst hj
      rcases hrun with hnone | hsome
      · have hno : current ≠ some j := by
          intro hc
          obtain ⟨run', hrun', -⟩ := h.present j hc
          rw [hnone] at hrun'
          cases hrun'
        simp [hfresh hnone, hno]
      · rw [(hphase hsome happ).1]
        exact h.holds j run hsome happ
    · rw [put_ne hji] at hj
      exact h.holds j run' hj happ
  present j hj := by
    obtain ⟨run', hrun', happ⟩ := h.present j hj
    by_cases hji : j = i
    · subst hji
      rcases hrun with hnone | hsome
      · rw [hnone] at hrun'
        cases hrun'
      · rw [hsome, Option.some_inj] at hrun'
        subst hrun'
        exact ⟨_, put_self, happ⟩
    · exact ⟨run', (put_ne hji).trans hrun', happ⟩
  past j hj := by
    obtain ⟨run', hrun', happ, hpast⟩ := h.past j hj
    by_cases hji : j = i
    · subst hji
      rcases hrun with hnone | hsome
      · rw [hnone] at hrun'
        cases hrun'
      · rw [hsome, Option.some_inj] at hrun'
        subst hrun'
        exact ⟨_, put_self, happ, (hphase hsome happ).2 hpast⟩
    · exact ⟨run', (put_ne hji).trans hrun', happ, hpast⟩

theorem logOf_append (log : List Entry) (e : Entry) : logOf app (log ++ [e]) = logOf app log ++ if e.app = app then [e] else [] := by
  unfold logOf
  rw [List.filter_append, List.filter_singleton]
  by_cases he : e.app = app <;> simp [he]

/-- What a run does to the lock of another application is of no concern. -/
theorem Inv.change_other (h : Inv app s owners current) {a : String} (ha : a ≠ app) (held : Option Bool) (act : Act) :
    Inv app { s with locks := Function.update s.locks a held, log := s.log ++ [⟨a, i, act⟩] } owners current where
  log := by
    change logOf app (s.log ++ [⟨a, i, act⟩]) = _
    rw [logOf_append, if_neg ha, List.append_nil]
    exact h.log
  lock := by
    change (Function.update s.locks a held app).getD false = _
    rw [Function.update_of_ne (Ne.symm ha)]
    exact h.lock
  holds := h.holds
  present := h.present
  past := h.past
  nodup := h.nodup

theorem turns_append (i : Nat) : turns app (owners ++ [i]) = turns app owners ++ [⟨app, i, .acquired⟩, ⟨app, i, .released⟩] := by
  simp [turns]

theorem Inv.acquire (h : Inv app s owners none) (hrun : s.runs i = some run) (happ : run.app = app) (hpast : run.phase.past = false)
    (hholds : phase.holds = true) :
    Inv app { s.put i run phase with locks := Function.update s.locks app (some true), log := s.log ++ [⟨app, i, .acquired⟩] }
      owners (some i) where
  log := by
    change logOf app (s.log ++ [⟨app, i, .acquired⟩]) = _
    rw [logOf_append, if_pos rfl, h.log]
    simp
  lock := by
    change (Function.update s.locks app (some true) app).getD false = _
    rw [Function.update_self]
    rfl
  nodup := h.nodup
  holds j run' hj happ' := by
    change (s.put i run phase).runs j = some run' at hj
    by_cases hji : j = i
    · subst hji
      rw [put_self, Option.some_inj] at hj
      subst hj
      exact iff_of_true hholds rfl
    · rw [put_ne hji] at hj
      have hno := (h.holds j run' hj happ').1
      refine iff_of_false (fun hh => ?_) fun heq => hji (Option.some.inj heq).symm
      cases hno hh
  present j hj := by
    obtain rfl : i = j := Option.some.inj hj
    exact ⟨_, put_self, happ⟩
  past j hj := by
    obtain ⟨run', hrun', happ', hpast'⟩ := h.past j hj
    have hji : j ≠ i := by
      rintro rfl
      rw [hrun, Option.some_inj] at hrun'
      rw [← hrun', hpast] at hpast'
      cases hpast'
    exact ⟨run', (put_ne hji).trans hrun', happ', hpast'⟩

theorem Inv.release (h : Inv app s owners (some i)) (hrun : s.runs i = some run) (happ : run.app = app)
    (hholds : run.phase.holds = true) (hpast : phase.past = true) (hphase : phase.holds = false) :
    Inv app { s.put i run phase with locks := Function.update s.locks app (some false), log := s.log ++ [⟨app, i, .released⟩] }
      (owners ++ [i]) none where
  log := by
    change logOf app (s.log ++ [⟨app, i, .released⟩]) = _
    rw [logOf_append, if_pos rfl, h.log, turns_append]
    simp
  lock := by
    change (Function.update s.locks app (some false) app).getD false = _
    rw [Function.update_self]
    rfl
  nodup := by
    refine List.nodup_append.2 ⟨h.nodup, List.nodup_singleton i, fun j hj k hk heq => ?_⟩
    obtain rfl := List.mem_singleton.1 hk
    subst heq
    obtain ⟨run', hrun', -, hpast'⟩ := h.past j hj
    rw [hrun, Option.some_inj] at hrun'
    rw [← hrun', not_past_of_holds hholds] at hpast'
    cases hpast'
  holds j run' hj happ' := by
    change (s.put i run phase).runs j = some run' at hj
    by_cases hji : j = i
    · subst hji
      rw [put_self, Option.some_inj] at hj
      subst hj
      exact iff_of_false (by simp [hphase]) (by simp)
    · rw [put_ne hji] at hj
      refine iff_of_false (fun hh => ?_) (by simp)
      exact hji (Option.some.inj ((h.holds j run' hj happ').1 hh)).symm
  present j hj := by cases hj
  past j hj := by
    by_cases hji : j = i
    · subst hji
      exact ⟨_, put_self, happ, hpast⟩
    · have hj : j ∈ owners := by simpa [hji] using hj
      obtain ⟨run', hrun', happ', hpast'⟩ := h.past j hj
      exact ⟨run', (put_ne hji).trans hrun', happ', hpast'⟩

/-- A move of a run of the application or of another one. -/
theorem Inv.perform (h : Inv app s owners current) (hrun : s.runs i = some run) {outcome : Outcome} {move : Move}
    (hmove : run.phase.move outcome = some move) (hok : JobStarts app s (.next i outcome)) :
    ∃ owners current, Inv app (s.perform i run move) owners current := by
  have hlive : s.runs i ≠ none := by simp [hrun]
  have hsome : ∀ {run' : Run}, s.runs i = some run' → run = run' := fun h' => Option.some.inj (hrun.symm.trans h')
  -- a run that asks for the lock or that gives it back, seen from another application
  have hother : run.app ≠ app → ∀ phase, Inv app (s.put i run phase) owners current := fun hne phase =>
    h.put (.inr hrun) (fun hnone => absurd hnone hlive) fun _ happ => absurd happ hne
  cases move with
  | goto phase =>
    refine ⟨owners, current, h.put (.inr hrun) (fun hnone => absurd hnone hlive) fun _ happ => move_goto hmove ?_⟩
    exact hok.imp_right fun hne statement => hne run statement hrun happ
  | acquire taken refused =>
    obtain ⟨hholds, hpast, htaken, hrefused⟩ := move_acquire hmove
    unfold State.perform acquireUpgradeLock
    by_cases happ : run.app = app
    · cases hlock : getUpgradeLock s.locks run.app with
      | true =>
        refine ⟨owners, current, h.put (.inr hrun) (fun hnone => absurd hnone hlive) fun _ _ => ?_⟩
        rw [hholds, hrefused, hpast]
        exact ⟨rfl, fun hfalse => absurd hfalse Bool.false_ne_true⟩
      | false =>
        have hfree := h.lock
        rw [← happ, hlock] at hfree
        obtain rfl : current = none := Option.isSome_eq_false_iff.1 hfree.symm |> Option.isNone_iff_eq_none.1
        subst happ
        exact ⟨owners, some i, h.acquire hrun rfl hpast htaken⟩
    · cases getUpgradeLock s.locks run.app with
      | true => exact ⟨owners, current, hother happ refused⟩
      | false => exact ⟨owners, current, (hother happ taken).change_other happ (some true) .acquired⟩
  | release phase =>
    obtain ⟨hholds, hpast, hphase⟩ := move_release hmove
    by_cases happ : run.app = app
    · obtain rfl : current = some i := (h.holds i run hrun happ).1 hholds
      subst happ
      exact ⟨owners ++ [i], none, h.release hrun rfl hholds hpast hphase⟩
    · exact ⟨owners, current, (hother happ phase).change_other happ (some false) .released⟩

theorem Inv.next {e : Event} (h : Inv app s owners current) (hok : JobStarts app s e) (hstep : step s e = some s') :
    ∃ owners current, Inv app s' owners current := by
  cases e with
  | request | check =>
    obtain ⟨hnone, rfl⟩ := System.of_guard hstep
    rw [Option.isNone_iff_eq_none] at hnone
    exact ⟨owners, current, h.put (.inl hnone) (fun _ => rfl) fun hsome => by rw [hnone] at hsome; cases hsome⟩
  | next i outcome =>
    obtain ⟨run, hrun, hmap⟩ := Option.bind_eq_some_iff.1 hstep
    obtain ⟨move, hmove, rfl⟩ := Option.map_eq_some_iff.1 hmap
    exact h.perform hrun hmove hok

/-- A request that raises before its job has started ends with the lock. -/
theorem Inv.stranded {e : Event} (h : Inv app s owners current) (hok : ¬ JobStarts app s e) (hstep : step s e = some s') :
    ¬ OneUpgrade app s' := by
  cases e with
  | request i a => exact absurd trivial hok
  | check i a => exact absurd trivial hok
  | next i outcome =>
    obtain ⟨hne, hpreparing⟩ := not_or.1 hok
    obtain ⟨run, hrun, hmap⟩ := Option.bind_eq_some_iff.1 hstep
    obtain ⟨move, hmove, rfl⟩ := Option.map_eq_some_iff.1 hmap
    simp only [not_forall, not_not] at hpreparing
    obtain ⟨run', statement, hrun', happ, hphase⟩ := hpreparing
    obtain rfl : run = run' := Option.some.inj (hrun.symm.trans hrun')
    rw [hphase] at hmove
    obtain rfl := move_preparing hne hmove
    have hcurrent : current = some i := (h.holds i run hrun happ).1 (by rw [hphase]; rfl)
    intro hone
    obtain ⟨owners', current', hlog, -, hlive⟩ := hone.turns
    change logOf app s.log = _ at hlog
    rw [h.log, hcurrent] at hlog
    -- the last entry of the log is the acquisition by `i`
    have hlast := congrArg List.getLast? hlog
    cases current' with
    | none =>
      rcases List.eq_nil_or_concat owners' with rfl | ⟨front, j, rfl⟩
      · simp [turns] at hlast
      · rw [List.concat_eq_append, turns_append] at hlast
        simp at hlast
    | some j =>
      obtain rfl : i = j := by simpa using hlast
      obtain ⟨run'', hrun'', -, hended⟩ := hlive i rfl
      rw [State.perform, put_self, Option.some_inj] at hrun''
      exact hended (by rw [← hrun''])

/-- In every state of a run there is one upgrade of the application at a time, each run gives back the lock that it took, and the next
one can start, exactly if no request of the application raises between the lock and the start of its job. -/
theorem one_upgrade_iff (app : String) (es : List Event) :
    system.Always (OneUpgrade app) {} es ↔ system.Meets (JobStarts app) {} es := by
  refine System.always_iff_meets (I := fun s => ∃ owners current, Inv app s owners current) ?_ ?_ ?_ ?_ es
  · rintro s ⟨owners, current, h⟩
    exact h.oneUpgrade
  · rintro s e s' ⟨owners, current, h⟩ hok hstep
    exact h.next hok hstep
  · rintro s e s' ⟨owners, current, h⟩ hok hstep
    exact h.stranded hok hstep
  · refine ⟨[], none, rfl, rfl, fun i run hi => ?_, fun i hi => ?_, fun i hi => ?_, List.nodup_nil⟩
    · cases hi
    · cases hi
    · cases hi

/-- The look-up of the new version raises in a request; there has been no other run. -/
def strandedRun : List Event :=
  [.request 0 "mastodon", .next 0 .done, .next 0 .done, .next 0 .done, .next 0 .raised]

theorem stranded_lock : ¬ system.Always (OneUpgrade "mastodon") {} strandedRun := by
  intro h
  have hend := h.2 _ rfl
  have hend := hend.2 _ rfl
  have hend := hend.2 _ rfl
  have hend := hend.2 _ rfl
  have hend := hend.2 _ rfl
  have hone : OneUpgrade "mastodon" _ := hend
  have hfree := hone.reopens ?_
  · revert hfree
    decide
  · intro i run hrun _
    by_cases hi : i = 0
    · subst hi
      cases hrun
      rfl
    · simp [State.perform, State.put, acquireUpgradeLock, getUpgradeLock, hi] at hrun

end ProxmoxTool.UpgradeLock
