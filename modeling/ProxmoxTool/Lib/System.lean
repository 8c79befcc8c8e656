import Mathlib.Logic.Basic

/-!
# Transition systems

A system has initial states and a partial step function on labels; a label names which party moves and what its
environment chooses.  `Reach S ok` is reachability by a run all of whose steps meet the condition `ok`, a condition on
the label and the state before the step.  `Reach.invariant` is the induction rule; `exec` runs a list of labels, for
concrete runs.
-/

namespace ProxmoxTool

structure System (σ ε : Type) where
  init : σ → Prop
  step : σ → ε → Option σ

namespace System

variable {σ ε : Type} (S : System σ ε)

/-- The states reached by runs whose steps all meet `ok`. -/
inductive Reach (ok : σ → ε → Prop) : σ → Prop
  | init {s : σ} : S.init s → Reach ok s
  | step {s s' : σ} {e : ε} : Reach ok s → ok s e → S.step s e = some s' → Reach ok s'

/-- The states reached by any run. -/
def Reachable : σ → Prop := S.Reach fun _ _ => True

/-- The state after a list of labels; `none` if one of them is not enabled. -/
def exec : σ → List ε → Option σ
  | s, [] => some s
  | s, e :: es => (S.step s e).bind fun s' => exec s' es

theorem exec_append (s : σ) (es es' : List ε) : S.exec s (es ++ es') = (S.exec s es).bind fun s' => S.exec s' es' := by
  induction es generalizing s with
  | nil => rfl
  | cons e es ih =>
    rw [List.cons_append, exec, exec, Option.bind_assoc]
    exact congrArg (Option.bind (S.step s e)) (funext ih)

variable {S}

/-- What a step with a guard says when it is taken. -/
theorem of_guard {c : Prop} [Decidable c] {s s' : σ} (h : (if c then some s else none) = some s') : c ∧ s = s' := by
  rw [Option.ite_none_right_eq_some] at h
  exact h.imp_right Option.some.inj

/-- A property that holds initially and is kept by every step that meets the condition holds along the run. -/
theorem Reach.invariant {ok : σ → ε → Prop} {I : σ → Prop} (h0 : ∀ s, S.init s → I s)
    (hs : ∀ s e s', I s → ok s e → S.step s e = some s' → I s') {s : σ} (h : S.Reach ok s) : I s := by
  induction h with
  | init hi => exact h0 _ hi
  | step _ hok hst ih => exact hs _ _ _ ih hok hst

/-- `Reach.step` with the label given, for concrete runs. -/
theorem Reach.next {ok : σ → ε → Prop} {s s' : σ} (h : S.Reach ok s) (e : ε) (hok : ok s e) (he : S.step s e = some s') :
    S.Reach ok s' :=
  h.step hok he

theorem Reach.exec {ok : σ → ε → Prop} {s s' : σ} {es : List ε} (h : S.Reach ok s) (hok : ∀ s e, ok s e)
    (he : S.exec s es = some s') : S.Reach ok s' := by
  induction es generalizing s with
  | nil => cases he; exact h
  | cons e es ih =>
    rw [System.exec, Option.bind_eq_some_iff] at he
    obtain ⟨t, ht, he⟩ := he
    exact ih (h.step (hok s e) ht) he

/-- The system that takes only steps that meet `ok`, to run a list of labels and check the condition on the way. -/
def guarded (S : System σ ε) (ok : σ → ε → Prop) [∀ s e, Decidable (ok s e)] : System σ ε where
  init := S.init
  step s e := if ok s e then S.step s e else none

theorem Reach.guarded_exec {ok : σ → ε → Prop} [∀ s e, Decidable (ok s e)] {s s' : σ} {es : List ε} (h : S.Reach ok s)
    (he : (S.guarded ok).exec s es = some s') : S.Reach ok s' := by
  induction es generalizing s with
  | nil => cases he; exact h
  | cons e es ih =>
    rw [System.exec, Option.bind_eq_some_iff] at he
    obtain ⟨t, ht, he⟩ := he
    obtain ⟨hok, ht⟩ := Option.ite_none_right_eq_some.1 ht
    exact ih (h.step hok ht) he

/-- Every step of the run meets `ok`; a label that is not enabled ends the run. -/
def Meets (S : System σ ε) (ok : σ → ε → Prop) : σ → List ε → Prop
  | _, [] => True
  | s, e :: es => ∀ s', S.step s e = some s' → ok s e ∧ S.Meets ok s' es

theorem meets_cons_none {ok : σ → ε → Prop} {s : σ} {e : ε} {es : List ε} (hstep : S.step s e = none) : S.Meets ok s (e :: es) := by
  intro s' h
  rw [hstep] at h
  cases h

theorem meets_cons_some {ok : σ → ε → Prop} {s t : σ} {e : ε} {es : List ε} (hstep : S.step s e = some t) :
    S.Meets ok s (e :: es) ↔ ok s e ∧ S.Meets ok t es := by
  constructor
  · intro h
    exact h t hstep
  · intro h s' hs
    rw [hstep] at hs
    cases hs
    exact h

instance decidableMeets {ok : σ → ε → Prop} [∀ s e, Decidable (ok s e)] : (s : σ) → (es : List ε) → Decidable (S.Meets ok s es)
  | _, [] => isTrue trivial
  | s, e :: es => match h : S.step s e with
    | none => isTrue (meets_cons_none h)
    | some t =>
      have : Decidable (S.Meets ok t es) := decidableMeets t es
      decidable_of_iff (ok s e ∧ S.Meets ok t es) (meets_cons_some h).symm

/-- Steps that meet one condition meet another one, by an invariant. -/
theorem Meets.imp {ok ok' : σ → ε → Prop} {I : σ → Prop} (hkeep : ∀ s e s', I s → ok s e → S.step s e = some s' → I s' ∧ ok' s e) {s : σ}
    (h : I s) {es : List ε} (hm : S.Meets ok s es) : S.Meets ok' s es := by
  induction es generalizing s with
  | nil => trivial
  | cons e es ih =>
    intro s' hstep
    obtain ⟨hok, hrest⟩ := hm s' hstep
    obtain ⟨hI, hok'⟩ := hkeep s e s' h hok hstep
    exact ⟨hok', ih hI hrest⟩

theorem Meets.and {ok ok' : σ → ε → Prop} {s : σ} {es : List ε} (h : S.Meets ok s es) (h' : S.Meets ok' s es) :
    S.Meets (fun s e => ok s e ∧ ok' s e) s es := by
  induction es generalizing s with
  | nil => trivial
  | cons e es ih =>
    intro s' hstep
    obtain ⟨hok, hrest⟩ := h s' hstep
    obtain ⟨hok', hrest'⟩ := h' s' hstep
    exact ⟨⟨hok, hok'⟩, ih hrest hrest'⟩

/-- Every state of the run has the property. -/
def Always (S : System σ ε) (P : σ → Prop) : σ → List ε → Prop
  | s, [] => P s
  | s, e :: es => P s ∧ ∀ s', S.step s e = some s' → S.Always P s' es

theorem Always.head {P : σ → Prop} {s : σ} {es : List ε} (h : S.Always P s es) : P s := by
  cases es with
  | nil => exact h
  | cons e es => exact h.1

theorem Always.of_exec {P : σ → Prop} {s s' : σ} {es : List ε} (h : S.Always P s es) (he : S.exec s es = some s') : P s' := by
  induction es generalizing s with
  | nil =>
    cases he
    exact h
  | cons e es ih =>
    obtain ⟨t, ht, he⟩ := Option.bind_eq_some_iff.1 he
    exact ih (h.2 t ht) he

/-- The invariant gives the property, a step that meets the condition keeps the invariant, and any other step breaks the property: then the
property holds in every state of a run exactly if every step meets the condition. -/
theorem always_iff_meets {ok : σ → ε → Prop} {I P : σ → Prop} (hP : ∀ s, I s → P s)
    (hkeep : ∀ s e s', I s → ok s e → S.step s e = some s' → I s') (hbreak : ∀ s e s', I s → ¬ ok s e → S.step s e = some s' → ¬ P s')
    {s : σ} (h : I s) (es : List ε) : S.Always P s es ↔ S.Meets ok s es := by
  induction es generalizing s with
  | nil => exact ⟨fun _ => trivial, fun _ => hP s h⟩
  | cons e es ih =>
    constructor
    · rintro ⟨-, hrest⟩ s' hstep
      by_cases hok : ok s e
      · exact ⟨hok, (ih (hkeep s e s' h hok hstep)).1 (hrest s' hstep)⟩
      · exact absurd (hrest s' hstep).head (hbreak s e s' h hok hstep)
    · intro hmeets
      refine ⟨hP s h, fun s' hstep => ?_⟩
      obtain ⟨hok, hrest⟩ := hmeets s' hstep
      exact (ih (hkeep s e s' h hok hstep)).2 hrest

/-- What a list of labels reaches from an initial state is reachable. -/
theorem reachable_of_exec {s s' : σ} {es : List ε} (hi : S.init s) (he : S.exec s es = some s') : S.Reachable s' :=
  (Reach.init hi).exec (fun _ _ => trivial) he

end System

end ProxmoxTool
