import ProxmoxTool.Lib.System
import Mathlib.Logic.Function.Basic

/-!
# The live configuration of Prometheus

`_validate_and_install_prometheus_config` of `apps/exporters.py`, run by any number of regenerations at the same time: each writes its
own content to the one candidate file, has `promtool` check that file, and moves it to the live file.  A command that fails may have had its
effect all the same, a part of it, or have it later, after the regeneration has given up.

What is checked and what is moved is whatever lies in the candidate file.  The live file holds checked contents as long as no regeneration
moves a file that another one has written: `live_validated`.
-/

namespace ProxmoxTool.PrometheusConfig

/-- The file `prometheus.yml.new`, with the regeneration that has written it. -/
structure Candidate where
  content : String
  writer : Option Nat

/-- The commands that change files. -/
inductive Command
  | write
  | move
  | remove
deriving DecidableEq

inductive Phase
  | connecting | writing | checking | removing | moving | reloading
  | ended (result : Bool)
deriving DecidableEq

structure Run where
  yml : String
  phase : Phase

/-- What a command that fails has done: nothing, what it should, a part of it (another content, or no file), or it will do it later. -/
inductive Effect
  | never | now | later
  | part (left : Option String)

inductive Outcome
  | done
  | failed (effect : Effect)

/-- `checked` has the contents that `promtool check config` has accepted, `moves` what each regeneration has moved to the live file, and
`late` the commands that are still to have their effect. -/
structure State where
  live : Option String
  candidate : Option Candidate
  checked : List String
  moves : List (Nat × String) := []
  late : List (Nat × Command) := []
  runs : Nat → Option Run := fun _ => none

inductive Event
  | start (run : Nat) (yml : String)
  | next (run : Nat) (outcome : Outcome)
  | land (number : Nat)

/-! ### Commands -/

/-- The effect of a command of regeneration `i`. -/
def State.effect (s : State) (i : Nat) : Command → State
  | .write => match s.runs i with
    | none => s
    | some run => { s with candidate := some ⟨run.yml, some i⟩ }
  | .move => match s.candidate with
    | none => s
    | some file => { s with live := some file.content, candidate := none, moves := s.moves ++ [(i, file.content)] }
  | .remove => { s with candidate := none }

def State.fail (s : State) (i : Nat) (command : Command) : Effect → State
  | .never => s
  | .now => s.effect i command
  | .later => { s with late := s.late ++ [(i, command)] }
  -- `mv` and `rm` have no part of an effect
  | .part left => if command = .write then { s with candidate := left.map (⟨·, none⟩) } else s

/-- The exit code is 0, or not. -/
def State.run (s : State) (i : Nat) (command : Command) : Outcome → State
  | .done => s.effect i command
  | .failed effect => s.fail i command effect

def State.put (s : State) (i : Nat) (run : Run) (phase : Phase) : State :=
  { s with runs := Function.update s.runs i (some { run with phase := phase }) }

/-! ### Regenerations -/

/-- The exit code 0 as a condition. -/
def Outcome.ok : Outcome → Bool
  | .done => true
  | .failed _ => false

def advance (s : State) (i : Nat) (run : Run) (outcome : Outcome) : Option State :=
  match run.phase with
  -- an exception ends the regeneration
  | .connecting => some (s.put i run (if outcome.ok then .writing else .ended false))
  | .writing => some ((s.run i .write outcome).put i run (if outcome.ok then .checking else .ended false))
  | .checking =>
    if outcome.ok then s.candidate.map fun file => { s.put i run .moving with checked := file.content :: s.checked }
    else some (s.put i run .removing)
  | .removing => some ((s.run i .remove outcome).put i run (.ended false))
  | .moving =>
    if outcome.ok && s.candidate.isNone then none
    else some ((s.run i .move outcome).put i run (if outcome.ok then .reloading else .ended false))
  | .reloading => some (s.put i run (.ended outcome.ok))
  | .ended _ => none

def step (s : State) : Event → Option State
  | .start i yml => if (s.runs i).isNone then some (s.put i ⟨yml, .connecting⟩ .connecting) else none
  | .next i outcome => (s.runs i).bind fun run => advance s i run outcome
  | .land n => s.late[n]?.map fun (i, command) => { s.effect i command with late := s.late.eraseIdx n }

/-- No regeneration is under way, and the live file, if there is one, has been checked. -/
def system : System State Event where
  init s := (∀ content, s.live = some content → content ∈ s.checked) ∧ (∀ file, s.candidate = some file → file.writer = none) ∧
    s.moves = [] ∧ s.late = [] ∧ s.runs = fun _ => none
  step := step

/-- The live file has been checked, and a regeneration that returns `True` has moved its own content there. -/
structure Validated (s : State) : Prop where
  live : ∀ content, s.live = some content → content ∈ s.checked
  moved : ∀ i yml, s.runs i = some ⟨yml, .ended true⟩ → (i, yml) ∈ s.moves

/-- The regeneration whose `mv` has its effect in the step. -/
def State.mover (s : State) : Event → Option Nat
  | .start _ _ => none
  | .next i outcome => match s.runs i, outcome with
    | some ⟨_, .moving⟩, .done => some i
    | some ⟨_, .moving⟩, .failed .now => some i
    | _, _ => none
  | .land n => match s.late[n]? with
    | some (i, .move) => some i
    | _ => none

/-- A regeneration moves the file that it has written itself. -/
def MovesOwn (s : State) (e : Event) : Prop := ∀ i ∈ s.mover e, ∀ file, s.candidate = some file → file.writer = some i

/-! ### The invariant -/

/-- Phases behind a successful `mv`. -/
def Phase.moved : Phase → Bool
  | .reloading => true
  | .ended result => result
  | _ => false

def Phase.over : Phase → Bool
  | .ended _ => true
  | _ => false

/-- A regeneration that is about to move its own file, or whose `mv` is still to come, has had that file checked. -/
structure Inv (s : State) : Prop where
  live : ∀ content, s.live = some content → content ∈ s.checked
  own : ∀ file i, s.candidate = some file → file.writer = some i → ∃ run, s.runs i = some run ∧ run.yml = file.content
  checked : ∀ file i run, s.candidate = some file → file.writer = some i → s.runs i = some run →
    run.phase = .moving ∨ (i, .move) ∈ s.late → file.content ∈ s.checked
  late : ∀ i command, (i, command) ∈ s.late → ∃ run, s.runs i = some run ∧ run.phase = .ended false
  lateWrite : ∀ i, (i, .write) ∈ s.late → (i, .move) ∉ s.late
  moved : ∀ i run, s.runs i = some run → run.phase.moved = true → (i, run.yml) ∈ s.moves

variable {s s' : State} {e : Event} {i : Nat} {run : Run} {phase : Phase}

theorem put_self : (s.put i run phase).runs i = some { run with phase := phase } := by simp [State.put]

theorem put_ne {j : Nat} (h : j ≠ i) : (s.put i run phase).runs j = s.runs j := by simp [State.put, h]

theorem Inv.validated (h : Inv s) : Validated s where
  live := h.live
  moved i yml hrun := h.moved i ⟨yml, .ended true⟩ hrun rfl

/-- A regeneration goes on, or a new one begins. -/
theorem Inv.put (h : Inv s) (hrun : s.runs i = none ∨ s.runs i = some run) (hover : s.runs i = some run → run.phase.over = false)
    (hchecked : phase = .moving → ∀ file, s.candidate = some file → file.writer = some i → file.content ∈ s.checked)
    (hmoved : phase.moved = true → (i, run.yml) ∈ s.moves) : Inv (s.put i run phase) where
  live := h.live
  own file j hfile hwriter := by
    obtain ⟨run', hrun', hyml⟩ := h.own file j hfile hwriter
    by_cases hji : j = i
    · subst hji
      rcases hrun with hnone | hsome
      · rw [hnone] at hrun'
        cases hrun'
      · rw [hsome, Option.some_inj] at hrun'
        subst hrun'
        exact ⟨_, put_self, hyml⟩
    · exact ⟨run', (put_ne hji).trans hrun', hyml⟩
  checked file j run' hfile hwriter hrun' hmoving := by
    by_cases hji : j = i
    · subst hji
      rw [put_self, Option.some_inj] at hrun'
      subst hrun'
      rcases hmoving with hphase | hlate
      · exact hchecked hphase file hfile hwriter
      · obtain ⟨run'', hrun'', hended⟩ := h.late j .move hlate
        exact h.checked file j run'' hfile hwriter hrun'' (.inr hlate)
    · rw [put_ne hji] at hrun'
      exact h.checked file j run' hfile hwriter hrun' hmoving
  late j command hlate := by
    obtain ⟨run', hrun', hended⟩ := h.late j command hlate
    have hji : j ≠ i := by
      rintro rfl
      rcases hrun with hnone | hsome
      · rw [hnone] at hrun'
        cases hrun'
      · have hgoing := hover hsome
        rw [hsome, Option.some_inj] at hrun'
        rw [hrun', hended] at hgoing
        cases hgoing
    exact ⟨run', (put_ne hji).trans hrun', hended⟩
  lateWrite := h.lateWrite
  moved j run' hrun' hphase := by
    by_cases hji : j = i
    · subst hji
      rw [put_self, Option.some_inj] at hrun'
      subst hrun'
      exact hmoved hphase
    · rw [put_ne hji] at hrun'
      exact h.moved j run' hrun' hphase

/-- The candidate file is gone, or what lies there is nobody's. -/
theorem Inv.leave (h : Inv s) (left : Option String) : Inv { s with candidate := left.map (⟨·, none⟩) } where
  live := h.live
  own file j hfile hwriter := by
    obtain ⟨content, -, rfl⟩ := Option.map_eq_some_iff.1 hfile
    cases hwriter
  checked file j run' hfile hwriter := by
    obtain ⟨content, -, rfl⟩ := Option.map_eq_some_iff.1 hfile
    cases hwriter
  late := h.late
  lateWrite := h.lateWrite
  moved := h.moved

theorem Inv.write (h : Inv s) (hrun : s.runs i = some run) (hphase : run.phase ≠ .moving) (hlate : (i, .move) ∉ s.late) :
    Inv { s with candidate := some ⟨run.yml, some i⟩ } where
  live := h.live
  own file j hfile hwriter := by
    cases hfile
    cases hwriter
    exact ⟨run, hrun, rfl⟩
  checked file j run' hfile hwriter hrun' hmoving := by
    cases hfile
    cases hwriter
    have heq : run' = run := Option.some.inj (hrun'.symm.trans hrun)
    rcases hmoving with hm | hm
    · exact absurd (heq ▸ hm) hphase
    · exact absurd hm hlate
  late := h.late
  lateWrite := h.lateWrite
  moved := h.moved

/-- A file that its writer has had checked goes to the live file. -/
theorem Inv.move (h : Inv s) {file : Candidate} (hchecked : file.content ∈ s.checked) :
    Inv { s with live := some file.content, candidate := none, moves := s.moves ++ [(i, file.content)] } where
  live content hlive := by
    cases hlive
    exact hchecked
  own _ _ hnone := by cases hnone
  checked _ _ _ hnone := by cases hnone
  late := h.late
  lateWrite := h.lateWrite
  moved j run' hrun' hphase := List.mem_append_left _ (h.moved j run' hrun' hphase)

theorem Inv.accept (h : Inv s) (content : String) : Inv { s with checked := content :: s.checked } where
  live c hc := List.mem_cons_of_mem _ (h.live c hc)
  own := h.own
  checked file j run' hfile hwriter hrun' hmoving := List.mem_cons_of_mem _ (h.checked file j run' hfile hwriter hrun' hmoving)
  late := h.late
  lateWrite := h.lateWrite
  moved := h.moved

/-- A regeneration that goes on has no command left over. -/
theorem Inv.not_late (h : Inv s) (hrun : s.runs i = some run) (hgoing : run.phase.over = false) (command : Command) :
    (i, command) ∉ s.late := by
  intro hlate
  obtain ⟨run', hrun', hended⟩ := h.late i command hlate
  rw [hrun, Option.some_inj] at hrun'
  rw [hrun', hended] at hgoing
  cases hgoing

/-- A regeneration gives up while its command goes on. -/
theorem Inv.postpone (h : Inv s) (hrun : s.runs i = some run) (hended : run.phase = .ended false) (command : Command)
    (hwrite : command = .write → (i, .move) ∉ s.late)
    (hmove : command = .move → (i, .write) ∉ s.late ∧
      ∀ file, s.candidate = some file → file.writer = some i → file.content ∈ s.checked) :
    Inv { s with late := s.late ++ [(i, command)] } where
  live := h.live
  own := h.own
  checked file j run' hfile hwriter hrun' hmoving := by
    rcases hmoving with hphase | hlate
    · exact h.checked file j run' hfile hwriter hrun' (.inl hphase)
    · rcases List.mem_append.1 hlate with hlate | hlate
      · exact h.checked file j run' hfile hwriter hrun' (.inr hlate)
      · cases List.mem_singleton.1 hlate
        exact (hmove rfl).2 file hfile hwriter
  late j command' hlate := by
    rcases List.mem_append.1 hlate with hlate | hlate
    · exact h.late j command' hlate
    · cases List.mem_singleton.1 hlate
      exact ⟨run, hrun, hended⟩
  lateWrite j hlate hlate' := by
    rcases List.mem_append.1 hlate with hw | hw
    · rcases List.mem_append.1 hlate' with hm | hm
      · exact h.lateWrite j hw hm
      · cases List.mem_singleton.1 hm
        exact (hmove rfl).1 hw
    · cases List.mem_singleton.1 hw
      rcases List.mem_append.1 hlate' with hm | hm
      · exact hwrite rfl hm
      · cases List.mem_singleton.1 hm
  moved := h.moved

theorem Inv.forget (h : Inv s) (n : Nat) : Inv { s with late := s.late.eraseIdx n } where
  live := h.live
  own := h.own
  checked file j run' hfile hwriter hrun' hmoving :=
    h.checked file j run' hfile hwriter hrun' (hmoving.imp_right List.mem_of_mem_eraseIdx)
  late j command hlate := h.late j command (List.mem_of_mem_eraseIdx hlate)
  lateWrite j hw hm := h.lateWrite j (List.mem_of_mem_eraseIdx hw) (List.mem_of_mem_eraseIdx hm)
  moved := h.moved

theorem effect_write (hrun : s.runs i = some run) : s.effect i .write = { s with candidate := some ⟨run.yml, some i⟩ } := by
  unfold State.effect
  rw [hrun]

/-- The `mv` of a regeneration moves its own checked file, or there is none. -/
theorem Inv.effect_move (h : Inv s) (hrun : s.runs i = some run) (hmoving : run.phase = .moving ∨ (i, .move) ∈ s.late)
    (hok : ∀ file, s.candidate = some file → file.writer = some i) :
    Inv (s.effect i .move) ∧ (s.candidate.isSome = true → (i, run.yml) ∈ (s.effect i .move).moves) := by
  unfold State.effect
  cases hfile : s.candidate with
  | none => exact ⟨h, fun hsome => (by cases hsome)⟩
  | some file =>
    have hwriter := hok file hfile
    have hchecked := h.checked file i run hfile hwriter hrun hmoving
    obtain ⟨run', hrun', hyml⟩ := h.own file i hfile hwriter
    have heq : run' = run := Option.some.inj (hrun'.symm.trans hrun)
    refine ⟨h.move hchecked, fun _ => ?_⟩
    rw [← heq, hyml]
    exact List.mem_append_right _ (List.mem_singleton.2 rfl)

/-- A regeneration gives up. -/
theorem Inv.give_up (h : Inv s) (hrun : s.runs i = some run) (hgoing : run.phase.over = false) :
    Inv (s.put i run (.ended false)) :=
  h.put (.inr hrun) (fun _ => hgoing) (fun hm => (by cases hm)) fun hm => (by cases hm)

theorem runs_effect (s : State) (i : Nat) (command : Command) : (s.effect i command).runs = s.runs := by
  cases command with
  | write =>
    unfold State.effect
    cases s.runs i <;> rfl
  | move =>
    unfold State.effect
    cases s.candidate <;> rfl
  | remove => rfl

theorem late_effect (s : State) (i : Nat) (command : Command) : (s.effect i command).late = s.late := by
  cases command with
  | write =>
    unfold State.effect
    cases s.runs i <;> rfl
  | move =>
    unfold State.effect
    cases s.candidate <;> rfl
  | remove => rfl

/-- The effect of a command of a regeneration that is at it. -/
theorem Inv.effect (h : Inv s) (hrun : s.runs i = some run) {command : Command}
    (hwrite : command = .write → run.phase ≠ .moving ∧ (i, .move) ∉ s.late)
    (hmove : command = .move → (run.phase = .moving ∨ (i, .move) ∈ s.late) ∧ ∀ file, s.candidate = some file → file.writer = some i) :
    Inv (s.effect i command) := by
  cases command with
  | write =>
    rw [effect_write hrun]
    exact h.write hrun (hwrite rfl).1 (hwrite rfl).2
  | move => exact (h.effect_move hrun (hmove rfl).1 (hmove rfl).2).1
  | remove => exact h.leave none

/-- A regeneration gives up on a command that has failed. -/
theorem Inv.fail (h : Inv s) (hrun : s.runs i = some run) (hgoing : run.phase.over = false) {command : Command} (effect : Effect)
    (hwrite : command = .write → run.phase ≠ .moving) (hmove : command = .move → run.phase = .moving)
    (hok : command = .move → effect = .now → ∀ file, s.candidate = some file → file.writer = some i) :
    Inv ((s.fail i command effect).put i run (.ended false)) := by
  cases effect with
  | never => exact h.give_up hrun hgoing
  | now =>
    have heffect : Inv (s.effect i command) :=
      h.effect hrun (fun hw => ⟨hwrite hw, h.not_late hrun hgoing _⟩) fun hm => ⟨.inl (hmove hm), hok hm rfl⟩
    refine heffect.give_up ?_ hgoing
    rw [runs_effect]
    exact hrun
  | later =>
    have hended := h.give_up hrun hgoing
    have hlate : Inv { s.put i run (.ended false) with late := s.late ++ [(i, command)] } := by
      refine hended.postpone put_self rfl command (fun _ => h.not_late hrun hgoing _) fun hm => ⟨h.not_late hrun hgoing _, ?_⟩
      exact fun file hfile hwriter => h.checked file i run hfile hwriter hrun (.inl (hmove hm))
    exact hlate
  | part left =>
    unfold State.fail
    dsimp only
    split
    · exact (h.leave left).give_up hrun hgoing
    · exact h.give_up hrun hgoing

theorem Inv.advance (h : Inv s) (hrun : s.runs i = some run) {outcome : Outcome} (hok : MovesOwn s (.next i outcome))
    (hstep : advance s i run outcome = some s') : Inv s' := by
  obtain ⟨yml, phase⟩ := run
  unfold advance at hstep
  cases phase with
  | connecting =>
    cases hstep
    cases outcome with
    | done => exact h.put (.inr hrun) (fun _ => rfl) (fun hm => (by cases hm)) fun hm => (by cases hm)
    | failed effect => exact h.give_up hrun rfl
  | writing =>
    cases hstep
    cases outcome with
    | done =>
      have hwritten : Inv (s.effect i .write) :=
        h.effect hrun (fun _ => ⟨fun hm => (by cases hm), h.not_late hrun rfl _⟩) fun hm => (by cases hm)
      refine hwritten.put (.inr ?_) (fun _ => rfl) (fun hm => (by cases hm)) fun hm => (by cases hm)
      rw [runs_effect]
      exact hrun
    | failed effect => exact h.fail hrun rfl effect (fun _ hm => (by cases hm)) (fun hm => (by cases hm)) fun hm => (by cases hm)
  | checking =>
    cases outcome with
    | done =>
      obtain ⟨file, hfile, rfl⟩ := Option.map_eq_some_iff.1 hstep
      refine (h.accept file.content).put (.inr hrun) (fun _ => rfl) (fun _ file' hfile' _ => ?_) fun hm => (by cases hm)
      obtain rfl : file = file' := Option.some.inj (hfile.symm.trans hfile')
      exact List.mem_cons_self
    | failed effect =>
      cases hstep
      exact h.put (.inr hrun) (fun _ => rfl) (fun hm => (by cases hm)) fun hm => (by cases hm)
  | removing =>
    cases hstep
    cases outcome with
    | done => exact (h.leave none).give_up hrun rfl
    | failed effect => exact h.fail hrun rfl effect (fun hm => (by cases hm)) (fun hm => (by cases hm)) fun hm => (by cases hm)
  | moving =>
    cases outcome with
    | done =>
      have hmine : ∀ file, s.candidate = some file → file.writer = some i := hok i (by simp [State.mover, hrun])
      obtain ⟨hmoved, hmine'⟩ := h.effect_move hrun (.inl rfl) hmine
      cases hfile : s.candidate with
      | none => simp [Outcome.ok, hfile] at hstep
      | some file =>
        simp only [Outcome.ok, hfile, Option.isNone_some, Bool.and_false, Bool.false_eq_true, if_false, if_true, Option.some_inj] at hstep
        rw [← hstep]
        refine hmoved.put (.inr ?_) (fun _ => rfl) (fun hm => (by cases hm)) fun _ => hmine' (by rw [hfile]; rfl)
        rw [runs_effect]
        exact hrun
    | failed effect =>
      cases hstep
      refine h.fail hrun rfl effect (fun hm => (by cases hm)) (fun _ => rfl) ?_
      rintro - rfl
      exact hok i (by simp [State.mover, hrun])
  | reloading =>
    cases hstep
    exact h.put (.inr hrun) (fun _ => rfl) (fun hm => (by cases hm)) fun _ => h.moved i _ hrun rfl
  | ended result => cases hstep

theorem Inv.next (h : Inv s) (hok : MovesOwn s e) (hstep : step s e = some s') : Inv s' := by
  cases e with
  | start i yml =>
    obtain ⟨hnone, rfl⟩ := System.of_guard hstep
    rw [Option.isNone_iff_eq_none] at hnone
    refine h.put (.inl hnone) (fun hsome => ?_) (fun hm => (by cases hm)) fun hm => (by cases hm)
    rw [hnone] at hsome
    cases hsome
  | next i outcome =>
    obtain ⟨run, hrun, hadvance⟩ := Option.bind_eq_some_iff.1 hstep
    exact h.advance hrun hok hadvance
  | land n =>
    obtain ⟨⟨i, command⟩, hlate, rfl⟩ := Option.map_eq_some_iff.1 hstep
    have hmem : (i, command) ∈ s.late := List.mem_of_getElem? hlate
    obtain ⟨run, hrun, hended⟩ := h.late i command hmem
    have heffect : Inv (s.effect i command) := by
      refine h.effect hrun (fun hw => ⟨?_, ?_⟩) fun hm => ⟨?_, ?_⟩
      · rw [hended]
        intro hm
        cases hm
      · subst hw
        exact h.lateWrite i hmem
      · subst hm
        exact .inr hmem
      · subst hm
        exact hok i (by simp [State.mover, hlate])
    have hforget := heffect.forget n
    rw [late_effect] at hforget
    exact hforget

/-- As long as every regeneration moves the file that it has written itself, the live file holds a checked content, and a regeneration that
returns `True` has moved its own content there. -/
theorem live_validated {s : State} (h : system.Reach MovesOwn s) : Validated s := by
  refine (System.Reach.invariant (I := Inv) (fun s hs => ?_) (fun s e s' hI hok hstep => hI.next hok hstep) h).validated
  obtain ⟨hlive, hleft, hmoves, hlate, hruns⟩ := hs
  refine ⟨hlive, fun file i hfile hwriter => ?_, fun file i run _ _ hrun => ?_, fun i command hmem => ?_, fun i hmem => ?_,
    fun i run hrun => ?_⟩
  · rw [hleft file hfile] at hwriter
    cases hwriter
  · rw [hruns] at hrun
    cases hrun
  · rw [hlate] at hmem
    cases hmem
  · rw [hlate] at hmem
    cases hmem
  · rw [hruns] at hrun
    cases hrun

/-- The live file has been checked. -/
def checkedState : State where
  live := some "old"
  candidate := none
  checked := ["old"]

theorem checkedState_init : system.init checkedState := by
  refine ⟨fun content hlive => ?_, fun file hfile => ?_, rfl, rfl, rfl⟩
  · cases hlive
    exact List.mem_singleton.2 rfl
  · cases hfile

instance (s : State) (e : Event) : Decidable (MovesOwn s e) := inferInstanceAs (Decidable (∀ i ∈ s.mover e, ∀ file ∈ s.candidate, _))

/-- Two regenerations, one after the other; the check of the second one fails. -/
def orderlyRun : List Event :=
  [.start 0 "a", .next 0 .done, .next 0 .done, .next 0 .done, .next 0 .done, .next 0 .done, .start 1 "b", .next 1 .done, .next 1 .done,
    .next 1 (.failed .never), .next 1 .done]

theorem orderlyRun_validated : ∃ s, system.exec checkedState orderlyRun = some s ∧ Validated s ∧ s.live = some "a" := by
  have hexec : ∃ s, (system.guarded MovesOwn).exec checkedState orderlyRun = some s := ⟨_, rfl⟩
  obtain ⟨s, hs⟩ := hexec
  have hvalid : Validated s := live_validated ((System.Reach.init checkedState_init).guarded_exec hs)
  cases hs
  exact ⟨_, rfl, hvalid, rfl⟩

/-- The second regeneration writes its content between the check and the `mv` of the first one. -/
def overlappingRun : List Event :=
  [.start 0 "a", .start 1 "b", .next 0 .done, .next 0 .done, .next 0 .done, .next 1 .done, .next 1 .done, .next 0 .done, .next 0 .done]

theorem unchecked_live : ∃ s, system.Reachable s ∧ ¬ Validated s := by
  have hexec : ∃ s, system.exec checkedState overlappingRun = some s := ⟨_, rfl⟩
  obtain ⟨s, hs⟩ := hexec
  refine ⟨s, System.reachable_of_exec checkedState_init hs, fun h => ?_⟩
  cases hs
  have hmem := h.live "b" rfl
  revert hmem
  decide

end ProxmoxTool.PrometheusConfig
