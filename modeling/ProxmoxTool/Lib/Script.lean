import Mathlib.Logic.Basic

/-!
# Scripts

A script issues commands and goes on with their answers; as a value it is the tree of what it does for every answer.

* `run` interprets the commands by a handler in another monad and respects `bind`.
* `transcript` answers the commands from outside, where an answer may depend on everything that was issued before, and keeps the
  commands with their answers, the latest first.
* `Checks ok post h x`: whatever the answers are, `ok` holds of every command that `x` issues after `h` and of what was issued before it,
  and `post` holds at the end.  `Checks.transcript` is the reading for transcripts.
* `Only p x`: `x` issues only commands with `p`.
* `Answered P c Q h`: once `P` held, `c` was issued and answered with `Q`.
* `Triple ok pre x post`: a script that may fail, from any history with `pre`; nothing is said of a failure.
* `follow` answers each command in one way and keeps the commands in their order; `outcome` and `commands` are the two parts for a script
  that may fail.
-/

namespace ProxmoxTool

inductive Script (C : Type) (R : C → Type) (α : Type) : Type
  | done (a : α)
  | issue (c : C) (next : R c → Script C R α)

namespace Script

variable {C : Type} {R : C → Type} {α β : Type}

protected def bind : Script C R α → (α → Script C R β) → Script C R β
  | .done a, f => f a
  | .issue c next, f => .issue c fun r => (next r).bind f

instance : Monad (Script C R) where
  pure := .done
  bind := Script.bind

/-- The script of one command. -/
def send (c : C) : Script C R (R c) := .issue c .done

theorem done_bind (a : α) (f : α → Script C R β) : Script.done a >>= f = f a := rfl

theorem issue_bind (c : C) (next : R c → Script C R α) (f : α → Script C R β) :
    Script.issue c next >>= f = .issue c fun r => next r >>= f := rfl

instance : LawfulMonad (Script C R) := by
  refine LawfulMonad.mk' (Script C R) ?_ ?_ ?_
  · intro α x
    induction x with
    | done a => rfl
    | issue c next ih => exact congrArg (Script.issue c) (funext ih)
  · exact fun a f => rfl
  · intro α β γ x f g
    induction x with
    | done a => rfl
    | issue c next ih => exact congrArg (Script.issue c) (funext ih)

/-! ### Handlers -/

section Handler

variable {m : Type → Type} [Monad m] (handler : ∀ c, m (R c))

def run : Script C R α → m α
  | .done a => pure a
  | .issue c next => handler c >>= fun r => (next r).run

@[simp] theorem run_pure (a : α) : run handler (pure a) = pure a := rfl

variable [LawfulMonad m]

@[simp] theorem run_send (c : C) : run handler (send c) = handler c := bind_pure (handler c)

@[simp] theorem run_bind (x : Script C R α) (f : α → Script C R β) :
    run handler (x >>= f) = run handler x >>= fun a => run handler (f a) := by
  induction x with
  | done a => rw [done_bind, run, pure_bind]
  | issue c next ih =>
    rw [issue_bind, run, run, bind_assoc]
    exact bind_congr ih

end Handler

/-! ### Transcripts -/

/-- The commands issued so far with their answers, the latest first. -/
abbrev History (C : Type) (R : C → Type) := List ((c : C) × R c)

def transcript (answer : History C R → ∀ c, R c) : History C R → Script C R α → History C R × α
  | h, .done a => (h, a)
  | h, .issue c next => transcript answer (⟨c, answer h c⟩ :: h) (next (answer h c))

theorem transcript_bind (answer : History C R → ∀ c, R c) (h : History C R) (x : Script C R α) (f : α → Script C R β) :
    (x >>= f).transcript answer h = (f (x.transcript answer h).2).transcript answer (x.transcript answer h).1 := by
  induction x generalizing h with
  | done a => rfl
  | issue c next ih => exact ih (answer h c) (⟨c, answer h c⟩ :: h)

/-- What holds of every answer holds of every command of a transcript. -/
theorem transcript_forall {answer : History C R → ∀ c, R c} {P : (c : C) × R c → Prop} (hP : ∀ h c, P ⟨c, answer h c⟩) {h : History C R}
    (hh : ∀ e ∈ h, P e) (x : Script C R α) : ∀ e ∈ (x.transcript answer h).1, P e := by
  induction x generalizing h with
  | done a => exact hh
  | issue c next ih => exact ih (answer h c) (List.forall_mem_cons.2 ⟨hP h c, hh⟩)

def Checks (ok : History C R → C → Prop) (post : History C R → α → Prop) : History C R → Script C R α → Prop
  | h, .done a => post h a
  | h, .issue c next => ok h c ∧ ∀ r, Checks ok post (⟨c, r⟩ :: h) (next r)

section Checks

variable {ok : History C R → C → Prop} {h : History C R}

theorem Checks.pure {post : History C R → α → Prop} {a : α} (ha : post h a) : Checks ok post h (pure a) := ha

theorem Checks.mono {post post' : History C R → α → Prop} {x : Script C R α} (hx : Checks ok post h x)
    (himp : ∀ h a, post h a → post' h a) : Checks ok post' h x := by
  induction x generalizing h with
  | done a => exact himp h a hx
  | issue c next ih => exact ⟨hx.1, fun r => ih r (hx.2 r)⟩

theorem Checks.bind {mid : History C R → α → Prop} {post : History C R → β → Prop} {x : Script C R α} {f : α → Script C R β}
    (hx : Checks ok mid h x) (hf : ∀ h a, mid h a → Checks ok post h (f a)) : Checks ok post h (x >>= f) := by
  induction x generalizing h with
  | done a => exact hf h a hx
  | issue c next ih => exact ⟨hx.1, fun r => ih r (hx.2 r)⟩

theorem Checks.send_bind {c : C} {post : History C R → β → Prop} {f : R c → Script C R β} (hc : ok h c)
    (hf : ∀ r, Checks ok post (⟨c, r⟩ :: h) (f r)) : Checks ok post h (Script.send c >>= f) :=
  ⟨hc, hf⟩

/-- What further commands keep still holds at the end. -/
theorem Checks.and_kept {I : History C R → Prop} {post : History C R → α → Prop} {x : Script C R α} (hx : Checks ok post h x)
    (hI : I h) (hkeep : ∀ h c r, I h → I (⟨c, r⟩ :: h)) : Checks ok (fun h a => post h a ∧ I h) h x := by
  induction x generalizing h with
  | done a => exact ⟨hx, hI⟩
  | issue c next ih => exact ⟨hx.1, fun r => ih r (hx.2 r) (hkeep h c r hI)⟩

/-- Every command of a transcript meets the condition, and so does the end. -/
theorem Checks.transcript {post : History C R → α → Prop} {x : Script C R α} (hx : Checks ok post h x)
    (answer : History C R → ∀ c, R c) :
    post (x.transcript answer h).1 (x.transcript answer h).2 ∧ h <:+ (x.transcript answer h).1 ∧
      ∀ c r before, (⟨c, r⟩ :: before) <:+ (x.transcript answer h).1 → (⟨c, r⟩ :: before) <:+ h ∨ ok before c := by
  induction x generalizing h with
  | done a => exact ⟨hx, List.suffix_refl h, fun c r before hsuffix => .inl hsuffix⟩
  | issue c next ih =>
    obtain ⟨hpost, hsuffix, hall⟩ := ih (answer h c) (hx.2 _)
    refine ⟨hpost, (List.suffix_cons _ h).trans hsuffix, fun c' r' before hbefore => ?_⟩
    rcases hall c' r' before hbefore with hold | hok
    · rcases List.suffix_cons_iff.1 hold with heq | hold
      · cases heq
        exact .inr hx.1
      · exact .inl hold
    · exact .inr hok

end Checks

/-! ### Scripts with few commands -/

def Only (p : C → Prop) : Script C R α → Prop
  | .done _ => True
  | .issue c next => p c ∧ ∀ r, Only p (next r)

section Only

variable {p q : C → Prop}

theorem Only.pure (a : α) : Only p (pure a : Script C R α) := trivial

theorem Only.send {c : C} (hc : p c) : Only p (send c : Script C R (R c)) := ⟨hc, fun _ => trivial⟩

theorem Only.bind {x : Script C R α} {f : α → Script C R β} (hx : Only p x) (hf : ∀ a, Only p (f a)) : Only p (x >>= f) := by
  induction x with
  | done a => exact hf a
  | issue c next ih => exact ⟨hx.1, fun r => ih r (hx.2 r)⟩

theorem Only.ite {c : Prop} [Decidable c] {x y : Script C R α} (hx : Only p x) (hy : Only p y) : Only p (if c then x else y) := by
  split
  · exact hx
  · exact hy

theorem Only.mono {x : Script C R α} (hx : Only p x) (himp : ∀ c, p c → q c) : Only q x := by
  induction x with
  | done a => trivial
  | issue c next ih => exact ⟨himp c hx.1, fun r => ih r (hx.2 r)⟩

theorem Only.forM {ι : Type} (l : List ι) {f : ι → Script C R PUnit} (hf : ∀ i ∈ l, Only p (f i)) : Only p (l.forM f) := by
  induction l with
  | nil => trivial
  | cons i l ih =>
    have hrest : Only p (l.forM f) := ih fun j hj => hf j (List.mem_cons_of_mem i hj)
    exact (hf i List.mem_cons_self).bind fun _ => hrest

theorem Only.transcript {x : Script C R α} (hx : Only p x) (answer : History C R → ∀ c, R c) {h : History C R}
    (hh : ∀ e ∈ h, p e.1) : ∀ e ∈ (x.transcript answer h).1, p e.1 := by
  induction x generalizing h with
  | done a => exact hh
  | issue c next ih => exact ih (answer h c) (hx.2 _) (List.forall_mem_cons.2 ⟨hx.1, hh⟩)

/-- A property of the history that the commands keep, and that allows them. -/
theorem Only.checks {ok : History C R → C → Prop} {I : History C R → Prop} {x : Script C R α} {h : History C R} (hx : Only p x)
    (hI : I h) (hok : ∀ h c, I h → p c → ok h c) (hkeep : ∀ h c r, I h → p c → I (⟨c, r⟩ :: h)) :
    Checks ok (fun h _ => I h) h x := by
  induction x generalizing h with
  | done a => exact hI
  | issue c next ih => exact ⟨hok h c hI hx.1, fun r => ih r (hx.2 r) (hkeep h c r hI hx.1)⟩

/-- A property of the state that each of the commands keeps. -/
theorem Only.run_invariant {σ : Type} {handler : ∀ c, StateM σ (R c)} {I : σ → Prop} {x : Script C R α} (hx : Only p x)
    (hkeep : ∀ c s, p c → I s → I (handler c s).2) {s : σ} (hI : I s) : I (run handler x s).2 := by
  induction x generalizing s with
  | done a => exact hI
  | issue c next ih => exact ih (handler c s).1 (hx.2 _) (hkeep c s hx.1 hI)

end Only

/-! ### What has been answered -/

/-- Once `P` held of the history, the command was issued and answered with `Q`. -/
def Answered (P : History C R → Prop) (c : C) (Q : R c → Prop) (h : History C R) : Prop :=
  ∃ r before, (⟨c, r⟩ :: before) <:+ h ∧ Q r ∧ P before

section Answered

variable {P P' : History C R → Prop} {c : C} {Q Q' : R c → Prop} {h : History C R}

theorem Answered.now {r : R c} (hP : P h) (hQ : Q r) : Answered P c Q (⟨c, r⟩ :: h) := ⟨r, h, List.suffix_refl _, hQ, hP⟩

theorem Answered.later {h' : History C R} (ha : Answered P c Q h) (hh : h <:+ h') : Answered P c Q h' := by
  obtain ⟨r, before, hsuffix, hQ, hP⟩ := ha
  exact ⟨r, before, hsuffix.trans hh, hQ, hP⟩

theorem Answered.cons (ha : Answered P c Q h) (e : (c : C) × R c) : Answered P c Q (e :: h) := ha.later (List.suffix_cons e h)

theorem Answered.imp (ha : Answered P c Q h) (hP : ∀ h, P h → P' h) (hQ : ∀ r, Q r → Q' r) : Answered P' c Q' h := by
  obtain ⟨r, before, hsuffix, hq, hp⟩ := ha
  exact ⟨r, before, hsuffix, hQ r hq, hP before hp⟩

end Answered

/-! ### Scripts that may fail -/

/-- From a history with `pre`, `ok` holds of every command, and `post` holds at the end of a script that has not failed. -/
def Triple {ε : Type} (ok : History C R → C → Prop) (pre : History C R → Prop) (x : ExceptT ε (Script C R) α)
    (post : History C R → α → Prop) : Prop :=
  ∀ h, pre h → Checks ok (fun h r => ∀ a, r = Except.ok a → post h a) h x.run

section Triple

variable {ε : Type} {p : C → Prop} {ok : History C R → C → Prop} {pre pre' : History C R → Prop} {post post' : History C R → α → Prop}

theorem Triple.pure {a : α} (ha : ∀ h, pre h → post h a) : Triple ok pre (pure a : ExceptT ε (Script C R) α) post := by
  intro h hpre b hb
  cases hb
  exact ha h hpre

theorem Triple.throw {e : ε} : Triple ok pre (throw e : ExceptT ε (Script C R) α) post := by
  intro h _ a ha
  cases ha

theorem Triple.bind {mid : History C R → α → Prop} {post : History C R → β → Prop} {x : ExceptT ε (Script C R) α}
    {f : α → ExceptT ε (Script C R) β} (hx : Triple ok pre x mid) (hf : ∀ a, Triple ok (fun h => mid h a) (f a) post) :
    Triple ok pre (x >>= f) post := by
  intro h hpre
  refine (hx h hpre).bind fun h r hmid => ?_
  cases r with
  | ok a => exact hf a h (hmid a rfl)
  | error e =>
    intro b hb
    cases hb

theorem Triple.ite {c : Prop} [Decidable c] {x y : ExceptT ε (Script C R) α} (hx : c → Triple ok pre x post)
    (hy : ¬ c → Triple ok pre y post) : Triple ok pre (if c then x else y) post := by
  split
  · exact hx ‹_›
  · exact hy ‹_›

theorem Triple.weaken {x : ExceptT ε (Script C R) α} (hx : Triple ok pre x post) (hpre : ∀ h, pre' h → pre h)
    (hpost : ∀ h a, post h a → post' h a) : Triple ok pre' x post' := by
  intro h hp
  exact (hx h (hpre h hp)).mono fun h r hr a ha => hpost h a (hr a ha)

theorem Triple.lift {x : Script C R α} (hx : ∀ h, pre h → Checks ok post h x) :
    Triple ok pre (ExceptT.lift x : ExceptT ε (Script C R) α) post := by
  intro h hpre
  refine (hx h hpre).bind fun h a hpost b hb => ?_
  cases hb
  exact hpost

/-- The frame rule: what further commands keep still holds at the end. -/
theorem Triple.frame {I : History C R → Prop} {x : ExceptT ε (Script C R) α} (hx : Triple ok pre x post)
    (hkeep : ∀ h c r, I h → I (⟨c, r⟩ :: h)) : Triple ok (fun h => pre h ∧ I h) x fun h a => post h a ∧ I h := by
  intro h hp
  exact ((hx h hp.1).and_kept hp.2 hkeep).mono fun h r hr a ha => ⟨hr.1 a ha, hr.2⟩

/-- Commands that keep the precondition, and that it allows. -/
theorem Triple.quiet {x : ExceptT ε (Script C R) α} (hx : Only p x.run) (hok : ∀ h c, pre h → p c → ok h c)
    (hkeep : ∀ h c r, pre h → p c → pre (⟨c, r⟩ :: h)) : Triple ok pre x fun h _ => pre h := by
  intro h hpre
  exact (hx.checks hpre hok hkeep).mono fun h r hr a _ => hr

theorem Only.returned (a : α) : Only p (Pure.pure a : ExceptT ε (Script C R) α).run := trivial

theorem Only.failed (e : ε) : Only p (MonadExcept.throw e : ExceptT ε (Script C R) α).run := trivial

theorem Only.andThen {x : ExceptT ε (Script C R) α} {f : α → ExceptT ε (Script C R) β} (hx : Only p x.run)
    (hf : ∀ a, Only p (f a).run) : Only p (x >>= f).run := by
  refine Only.bind hx fun r => ?_
  cases r with
  | ok a => exact hf a
  | error e => trivial

theorem Only.branch {c : Prop} [Decidable c] {x y : ExceptT ε (Script C R) α} (hx : Only p x.run) (hy : Only p y.run) :
    Only p (if c then x else y).run := by
  split
  · exact hx
  · exact hy

theorem Only.lift {x : Script C R α} (hx : Only p x) : Only p (ExceptT.lift x : ExceptT ε (Script C R) α).run :=
  Only.bind hx fun _ => trivial

end Triple

/-! ### Fixed answers -/

section Follow

variable (answer : ∀ c, R c)

/-- The commands that are issued, and the result. -/
def follow : Script C R α → List C × α
  | .done a => ([], a)
  | .issue c next => (c :: (follow (next (answer c))).1, (follow (next (answer c))).2)

theorem follow_bind (x : Script C R α) (f : α → Script C R β) : (x >>= f).follow answer =
    ((x.follow answer).1 ++ ((f (x.follow answer).2).follow answer).1, ((f (x.follow answer).2).follow answer).2) := by
  induction x with
  | done a => rfl
  | issue c next ih =>
    rw [issue_bind, follow, ih, follow]
    rfl

theorem Only.follow {p : C → Prop} {x : Script C R α} (hx : Only p x) : ∀ c ∈ (x.follow answer).1, p c := by
  induction x with
  | done a =>
    intro c hc
    cases hc
  | issue c next ih => exact List.forall_mem_cons.2 ⟨hx.1, ih _ (hx.2 _)⟩

variable {ε : Type}

def outcome (x : ExceptT ε (Script C R) α) : Except ε α := (x.run.follow answer).2

def commands (x : ExceptT ε (Script C R) α) : List C := (x.run.follow answer).1

@[simp] theorem outcome_pure (a : α) : outcome answer (Pure.pure a : ExceptT ε (Script C R) α) = .ok a := rfl

@[simp] theorem outcome_throw (e : ε) : outcome answer (throw e : ExceptT ε (Script C R) α) = .error e := rfl

@[simp] theorem commands_pure (a : α) : commands answer (Pure.pure a : ExceptT ε (Script C R) α) = [] := rfl

@[simp] theorem commands_throw (e : ε) : commands answer (throw e : ExceptT ε (Script C R) α) = [] := rfl

variable {answer} {x : ExceptT ε (Script C R) α} {f : α → ExceptT ε (Script C R) β}

theorem outcome_bind_ok {a : α} (hx : outcome answer x = .ok a) : outcome answer (x >>= f) = outcome answer (f a) := by
  unfold outcome at *
  show ((x.run >>= _).follow answer).2 = _
  rw [follow_bind, hx]
  rfl

theorem outcome_bind_error {e : ε} (hx : outcome answer x = .error e) : outcome answer (x >>= f) = .error e := by
  unfold outcome at *
  show ((x.run >>= _).follow answer).2 = _
  rw [follow_bind, hx]
  rfl

theorem commands_bind_ok {a : α} (hx : outcome answer x = .ok a) :
    commands answer (x >>= f) = commands answer x ++ commands answer (f a) := by
  unfold outcome at hx
  unfold commands
  show ((x.run >>= _).follow answer).1 = _
  rw [follow_bind, hx]
  rfl

theorem outcome_bind_eq_ok {b : β} :
    outcome answer (x >>= f) = .ok b ↔ ∃ a, outcome answer x = .ok a ∧ outcome answer (f a) = .ok b := by
  cases hx : outcome answer x with
  | ok a => simp only [outcome_bind_ok hx, Except.ok.injEq, exists_eq_left']
  | error e => simp only [outcome_bind_error hx, reduceCtorEq, false_and, exists_false]

@[simp] theorem outcome_lift (y : Script C R α) : outcome answer (ExceptT.lift y : ExceptT ε (Script C R) α) = .ok (y.follow answer).2 := by
  show ((y >>= _).follow answer).2 = _
  rw [follow_bind]
  rfl

@[simp] theorem commands_lift (y : Script C R α) : commands answer (ExceptT.lift y : ExceptT ε (Script C R) α) = (y.follow answer).1 := by
  show ((y >>= _).follow answer).1 = _
  rw [follow_bind]
  exact List.append_nil _

theorem Only.commands {p : C → Prop} (hx : Only p x.run) : ∀ c ∈ commands answer x, p c := Only.follow answer hx

theorem commands_bind_error {e : ε} (hx : outcome answer x = .error e) : commands answer (x >>= f) = commands answer x := by
  unfold outcome at hx
  unfold commands
  show ((x.run >>= _).follow answer).1 = _
  rw [follow_bind, hx]
  exact List.append_nil _

end Follow

end Script

end ProxmoxTool
