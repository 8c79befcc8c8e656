import Mathlib.Logic.Basic

/-!
# Running stateful programs

Equations that run an `EStateM` or a `StateM` program on a state step by step, as a `simp` set: `simp` pushes the state
through binds and conditionals until it meets a call whose result a hypothesis gives.
-/

namespace ProxmoxTool.Stateful

variable {ε σ α β : Type}

@[simp] theorem bind_run (x : EStateM ε σ α) (f : α → EStateM ε σ β) (s : σ) :
    (x >>= f) s = match x s with
      | .ok a s' => f a s'
      | .error e s' => .error e s' := rfl

@[simp] theorem pure_run (a : α) (s : σ) : (pure a : EStateM ε σ α) s = .ok a s := rfl

@[simp] theorem throw_run (e : ε) (s : σ) : (throw e : EStateM ε σ α) s = .error e s := rfl

@[simp] theorem get_run (s : σ) : (get : EStateM ε σ σ) s = .ok s s := rfl

@[simp] theorem modify_run (f : σ → σ) (s : σ) : (modify f : EStateM ε σ Unit) s = .ok () (f s) := rfl

@[simp] theorem map_run (g : α → β) (x : EStateM ε σ α) (s : σ) :
    (g <$> x) s = match x s with
      | .ok a s' => .ok (g a) s'
      | .error e s' => .error e s' := rfl

@[simp] theorem ite_run {c : Prop} [Decidable c] (x y : EStateM ε σ α) (s : σ) :
    (if c then x else y) s = if c then x s else y s := apply_ite (· s) c x y

@[simp] theorem stateM_bind_run (x : StateM σ α) (f : α → StateM σ β) (s : σ) : (x >>= f) s = f (x s).1 (x s).2 := rfl

@[simp] theorem stateM_pure_run (a : α) (s : σ) : (pure a : StateM σ α) s = (a, s) := rfl

@[simp] theorem stateM_map_run (g : α → β) (x : StateM σ α) (s : σ) : (g <$> x) s = (g (x s).1, (x s).2) := rfl

@[simp] theorem stateM_ite_run {c : Prop} [Decidable c] (x y : StateM σ α) (s : σ) :
    (if c then x else y) s = if c then x s else y s := apply_ite (· s) c x y

end ProxmoxTool.Stateful
