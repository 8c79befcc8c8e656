import Mathlib.Logic.Basic

/-!
# Shell scripts under `set -e` and `pipefail`

A command changes a world and ends with a status, zero for success.  A script runs commands one after the other; under `errexit` it
exits with the first status that is not zero, except where the status is tested (`condition`) or dropped (`ignore`).  The status of a
pipeline is that of its last command, and under `pipefail` the last one that is not zero.

`wp` has two postconditions, one for a script that goes on and one for a script that exits.  Its rules are equivalences, so that they
compute when, and only when, a script ends as wanted.
-/

namespace ProxmoxTool

/-- The status of a command and the world it leaves. -/
abbrev Command (σ : Type) := σ → Nat × σ

namespace Command

variable {σ : Type}

/-- A command that leaves the world alone. -/
def exits (n : Nat) : Command σ := fun w => (n, w)

/-- A command that acts on the world if it succeeds. -/
def succeeds (n : Nat) (act : σ → σ) : Command σ := fun w => (n, if n = 0 then act w else w)

/-- `c && d`. -/
def andThen (c d : Command σ) : Command σ := fun w => if (c w).1 = 0 then d (c w).2 else c w

/-- The statuses of a pipeline, as in `PIPESTATUS`. -/
def pipeline : List (Command σ) → σ → List Nat × σ
  | [], w => ([], w)
  | c :: cs, w => ((c w).1 :: (pipeline cs (c w).2).1, (pipeline cs (c w).2).2)

theorem pipeline_exits (ns : List Nat) (w : σ) : pipeline (ns.map exits) w = (ns, w) := by
  induction ns with
  | nil => rfl
  | cons n ns ih => rw [List.map_cons, pipeline, exits, ih]

end Command

/-- The status of a pipeline from those of its commands. -/
def pipeStatus (pipefail : Bool) (statuses : List Nat) : Nat :=
  if pipefail then (statuses.reverse.find? (· ≠ 0)).getD 0 else statuses.getLastD 0

theorem pipeStatus_eq_zero {statuses : List Nat} : pipeStatus true statuses = 0 ↔ ∀ n ∈ statuses, n = 0 := by
  rw [pipeStatus, if_pos rfl]
  cases hfind : statuses.reverse.find? (· ≠ 0) with
  | none =>
    have hnone : ∀ n ∈ statuses, n = 0 := by simpa using hfind
    exact ⟨fun _ => hnone, fun _ => rfl⟩
  | some m =>
    have hm : m ≠ 0 := by simpa using List.find?_some hfind
    have hmem : m ∈ statuses := List.mem_reverse.1 (List.mem_of_find?_eq_some hfind)
    constructor
    · intro h
      exact absurd h hm
    · intro h
      exact h m hmem

structure Shell (σ : Type) where
  world : σ
  errexit : Bool
  pipefail : Bool

/-- A script goes on with a value, or it exits with a status. -/
def Bash (σ α : Type) : Type := Shell σ → Except Nat α × Shell σ

namespace Bash

variable {σ α β : Type}

instance : Monad (Bash σ) where
  pure a := fun s => (.ok a, s)
  bind x f := fun s =>
    match x s with
    | (.ok a, s') => f a s'
    | (.error n, s') => (.error n, s')

def exit (n : Nat) : Bash σ α := fun s => (.error n, s)

def world : Bash σ σ := fun s => (.ok s.world, s)

/-- `set -e` and `set +e`. -/
def setErrexit (on : Bool) : Bash σ Unit := fun s => (.ok (), { s with errexit := on })

/-- `set -o pipefail`. -/
def setPipefail (on : Bool) : Bash σ Unit := fun s => (.ok (), { s with pipefail := on })

/-- A simple command, or an assignment of its output. -/
def simple (c : Command σ) : Bash σ Unit := fun s =>
  if s.errexit ∧ (c s.world).1 ≠ 0 then (.error (c s.world).1, { s with world := (c s.world).2 })
  else (.ok (), { s with world := (c s.world).2 })

/-- A pipeline, with its `PIPESTATUS`. -/
def pipe (cs : List (Command σ)) : Bash σ (List Nat) := fun s =>
  let (statuses, w) := Command.pipeline cs s.world
  if s.errexit ∧ pipeStatus s.pipefail statuses ≠ 0 then (.error (pipeStatus s.pipefail statuses), { s with world := w })
  else (.ok statuses, { s with world := w })

/-- A command as the condition of an `if`. -/
def condition (c : Command σ) : Bash σ Nat := fun s => (.ok (c s.world).1, { s with world := (c s.world).2 })

/-- A pipeline followed by `|| true`. -/
def ignore (cs : List (Command σ)) : Bash σ Unit := fun s => (.ok (), { s with world := (Command.pipeline cs s.world).2 })

/-- `if …; then x; fi`. -/
def when (b : Bool) (x : Bash σ Unit) : Bash σ Unit := if b then x else pure ()

/-- `set +e`, a pipeline, `${PIPESTATUS[0]}`, `set -e`. -/
def guarded (cs : List (Command σ)) : Bash σ Nat := do
  setErrexit false
  let statuses ← pipe cs
  setErrexit true
  pure (statuses.headD 0)

/-- The exit status of a whole script, whose value is the status of its last command. -/
def run (x : Bash σ Nat) (w : σ) : Nat × σ :=
  match x ⟨w, false, false⟩ with
  | (.ok n, s) => (n, s.world)
  | (.error n, s) => (n, s.world)

/-! ### Weakest preconditions -/

def wp (x : Bash σ α) (Q : α → Shell σ → Prop) (E : Nat → σ → Prop) (s : Shell σ) : Prop :=
  match x s with
  | (.ok a, s') => Q a s'
  | (.error n, s') => E n s'.world

theorem wp_run {x : Bash σ Nat} {P : Nat → σ → Prop} {w : σ} :
    P (x.run w).1 (x.run w).2 ↔ x.wp (fun n s => P n s.world) P ⟨w, false, false⟩ := by
  unfold run wp
  rcases x ⟨w, false, false⟩ with ⟨_ | _, s⟩ <;> rfl

section

variable {Q : α → Shell σ → Prop} {E : Nat → σ → Prop} {s : Shell σ}

@[simp] theorem wp_pure {a : α} : (pure a : Bash σ α).wp Q E s ↔ Q a s := Iff.rfl

@[simp] theorem wp_bind {x : Bash σ β} {f : β → Bash σ α} :
    (x >>= f).wp Q E s ↔ x.wp (fun b s' => (f b).wp Q E s') E s := by
  simp only [wp, bind]
  rcases x s with ⟨_ | _, s'⟩ <;> rfl

@[simp] theorem wp_exit {n : Nat} : (exit n : Bash σ α).wp Q E s ↔ E n s.world := Iff.rfl

@[simp] theorem wp_ite {p : Prop} [Decidable p] {x y : Bash σ α} :
    (if p then x else y).wp Q E s ↔ if p then x.wp Q E s else y.wp Q E s := by
  split <;> rfl

@[simp] theorem wp_world {Q : σ → Shell σ → Prop} : world.wp Q E s ↔ Q s.world s := Iff.rfl

@[simp] theorem wp_condition {Q : Nat → Shell σ → Prop} {c : Command σ} :
    (condition c).wp Q E s ↔ Q (c s.world).1 { s with world := (c s.world).2 } := Iff.rfl

end

section

variable {Q : Unit → Shell σ → Prop} {E : Nat → σ → Prop} {s : Shell σ}

@[simp] theorem wp_setErrexit {on : Bool} : (setErrexit on).wp Q E s ↔ Q () { s with errexit := on } := Iff.rfl

@[simp] theorem wp_setPipefail {on : Bool} : (setPipefail on).wp Q E s ↔ Q () { s with pipefail := on } := Iff.rfl

@[simp] theorem wp_ignore {cs : List (Command σ)} :
    (ignore cs).wp Q E s ↔ Q () { s with world := (Command.pipeline cs s.world).2 } := Iff.rfl

@[simp] theorem wp_when {b : Bool} {x : Bash σ Unit} : (when b x).wp Q E s ↔ if b then x.wp Q E s else Q () s := by
  rw [when, wp_ite, wp_pure]

theorem wp_simple {c : Command σ} :
    (simple c).wp Q E s ↔
      if s.errexit ∧ (c s.world).1 ≠ 0 then E (c s.world).1 (c s.world).2 else Q () { s with world := (c s.world).2 } := by
  by_cases hstop : s.errexit ∧ (c s.world).1 ≠ 0
  · simp only [wp, simple, if_pos hstop]
  · simp only [wp, simple, if_neg hstop]

end

section

variable {Q : List Nat → Shell σ → Prop} {E : Nat → σ → Prop}

theorem wp_pipe {cs : List (Command σ)} {s : Shell σ} :
    (pipe cs).wp Q E s ↔
      if s.errexit ∧ pipeStatus s.pipefail (Command.pipeline cs s.world).1 ≠ 0 then
        E (pipeStatus s.pipefail (Command.pipeline cs s.world).1) (Command.pipeline cs s.world).2
      else Q (Command.pipeline cs s.world).1 { s with world := (Command.pipeline cs s.world).2 } := by
  by_cases hstop : s.errexit ∧ pipeStatus s.pipefail (Command.pipeline cs s.world).1 ≠ 0
  · simp only [wp, pipe, if_pos hstop]
  · simp only [wp, pipe, if_neg hstop]

end

/-- In a guarded pipeline every command may fail. -/
@[simp] theorem wp_guarded {Q : Nat → Shell σ → Prop} {E : Nat → σ → Prop} {cs : List (Command σ)} {w : σ} {pipefail : Bool} :
    (guarded cs).wp Q E ⟨w, true, pipefail⟩ ↔
      Q ((Command.pipeline cs w).1.headD 0) ⟨(Command.pipeline cs w).2, true, pipefail⟩ := by
  simp [guarded, wp_pipe]

/-! ### Invariants -/

theorem wp_mono {x : Bash σ α} {Q Q' : α → Shell σ → Prop} {E E' : Nat → σ → Prop} {s : Shell σ} (h : x.wp Q E s)
    (hQ : ∀ a s', Q a s' → Q' a s') (hE : ∀ n w, E n w → E' n w) : x.wp Q' E' s := by
  unfold wp at h ⊢
  rcases hx : x s with ⟨n | a, s'⟩
  · rw [hx] at h
    exact hE n s'.world h
  · rw [hx] at h
    exact hQ a s' h

/-- The world keeps `I`, however the script ends. -/
def Keeps (I : σ → Prop) (x : Bash σ α) : Prop :=
  ∀ s, I s.world → x.wp (fun _ s' => I s'.world) (fun _ w => I w) s

end Bash

namespace Command

variable {σ : Type} {I : σ → Prop}

def Keeps (I : σ → Prop) (c : Command σ) : Prop := ∀ w, I w → I (c w).2

theorem Keeps.exits {n : Nat} : (Command.exits n).Keeps I := fun _ h => h

theorem Keeps.andThen {c d : Command σ} (hc : c.Keeps I) (hd : d.Keeps I) : (c.andThen d).Keeps I := by
  intro w hw
  unfold Command.andThen
  split
  · exact hd _ (hc w hw)
  · exact hc w hw

theorem Keeps.pipeline {cs : List (Command σ)} (hcs : ∀ c ∈ cs, c.Keeps I) {w : σ} (hw : I w) : I (Command.pipeline cs w).2 := by
  induction cs generalizing w with
  | nil => exact hw
  | cons c cs ih =>
    have hhead : I (c w).2 := hcs c List.mem_cons_self w hw
    exact ih (fun d hd => hcs d (List.mem_cons_of_mem c hd)) hhead

end Command

namespace Bash.Keeps

variable {σ α β : Type} {I : σ → Prop}

theorem pure {a : α} : (Pure.pure a : Bash σ α).Keeps I := fun _ h => h

theorem exit {n : Nat} : (Bash.exit n : Bash σ α).Keeps I := fun _ h => h

theorem bind {x : Bash σ β} {f : β → Bash σ α} (hx : x.Keeps I) (hf : ∀ b, (f b).Keeps I) : (x >>= f).Keeps I := by
  intro s hs
  rw [wp_bind]
  exact wp_mono (hx s hs) (fun b s' hs' => hf b s' hs') (fun _ _ h => h)

/-- What a script reads of the world is a world with the invariant. -/
theorem world_bind {f : σ → Bash σ α} (hf : ∀ w, I w → (f w).Keeps I) : (Bash.world >>= f).Keeps I :=
  fun s hs => wp_bind.2 (hf s.world hs s hs)

theorem when {b : Bool} {x : Bash σ Unit} (hx : x.Keeps I) : (Bash.when b x).Keeps I := by
  intro s hs
  rw [wp_when]
  split
  · exact hx s hs
  · exact hs

theorem condition {c : Command σ} (hc : c.Keeps I) : (Bash.condition c).Keeps I := fun s hs => hc s.world hs

theorem ignore {cs : List (Command σ)} (hcs : ∀ c ∈ cs, c.Keeps I) : (Bash.ignore cs).Keeps I :=
  fun _ hs => Command.Keeps.pipeline hcs hs

theorem simple {c : Command σ} (hc : c.Keeps I) : (Bash.simple c).Keeps I := by
  intro s hs
  rw [wp_simple]
  split <;> exact hc s.world hs

theorem pipe {cs : List (Command σ)} (hcs : ∀ c ∈ cs, c.Keeps I) : (Bash.pipe cs).Keeps I := by
  intro s hs
  rw [wp_pipe]
  split <;> exact Command.Keeps.pipeline hcs hs

theorem guarded {cs : List (Command σ)} (hcs : ∀ c ∈ cs, c.Keeps I) : (Bash.guarded cs).Keeps I := by
  have hset : ∀ on, (setErrexit on : Bash σ Unit).Keeps I := fun on _ hs => hs
  apply bind (hset false)
  intro _
  apply bind (pipe hcs)
  intro statuses
  apply bind (hset true)
  intro _
  exact pure

end Bash.Keeps

namespace Bash

variable {σ : Type}

/-! ### Scripts in strict mode -/

section

variable {E : Nat → σ → Prop} {w : σ}

/-- A command that leaves the world alone stops the script or does nothing. -/
@[simp] theorem wp_simple_exits {Q : Unit → Shell σ → Prop} {n : Nat} {pipefail : Bool} :
    (simple (.exits n)).wp Q E ⟨w, true, pipefail⟩ ↔ if n = 0 then Q () ⟨w, true, pipefail⟩ else E n w := by
  simp only [wp_simple, Command.exits, true_and, ne_eq, ite_not]

/-- A pipeline of such commands goes on only where all of them succeed. -/
theorem wp_pipe_exits {Q : List Nat → Shell σ → Prop} {ns : List Nat} :
    (pipe (ns.map .exits)).wp Q E ⟨w, true, true⟩ ↔
      if ∀ n ∈ ns, n = 0 then Q ns ⟨w, true, true⟩ else E (pipeStatus true ns) w := by
  rw [wp_pipe, Command.pipeline_exits]
  simp only [true_and, ne_eq, ite_not, pipeStatus_eq_zero]

end

end Bash

end ProxmoxTool
