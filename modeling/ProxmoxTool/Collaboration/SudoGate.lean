import ProxmoxTool.Lib.System
import ProxmoxTool.Lib.Window
import Mathlib.Algebra.Order.Ring.Int

/-!
# The gate of the sudo password

`SudoGate` of `routes/terminal.py`, as a terminal uses it: the thread that reads the shell's output calls `note_prompt`, the
message loop calls `allow`.  `allow` reads the clock before it takes the lock, so a prompt may be noted in between; a message
loop has one call of `allow` at a time.

The log of a run has every prompt and every answer in the order of the lock.  The gate forgets injections that have left the
window; since the clock does not go back they would not count again, so for every reading to come the gate and the log count
the same injections (`Inv.kept`).
-/

namespace ProxmoxTool.SudoGate

/-- `prompt_window`, `rate_window` and `rate_limit`. -/
structure Config (T : Type) where
  promptWindow : T
  rateWindow : T
  rateLimit : Nat

/-- `_SUDO_PROMPT_WINDOW`, `_SUDO_RATE_WINDOW` and `_SUDO_RATE_LIMIT`. -/
def defaults : Config Int := ⟨15, 60, 3⟩

structure Gate (T : Type) where
  lastPromptAt : Option T := none
  injections : List T := []

inductive Answer
  | allowed | noRecentSudoPrompt | rateLimited
deriving DecidableEq

variable {T : Type}

def Gate.notePrompt (gate : Gate T) (clock : T) : Gate T := { gate with lastPromptAt := some clock }

section

variable [AddCommGroup T] [LinearOrder T]

/-- The injections that still count at `now`. -/
def counting (c : Config T) (now : T) (injections : List T) : List T :=
  injections.filter fun t => decide (now - t < c.rateWindow)

/-- `allow`, with the clock it has read. -/
def Gate.allow (c : Config T) (gate : Gate T) (now : T) : Answer × Gate T :=
  match gate.lastPromptAt with
  | none => (.noRecentSudoPrompt, gate)
  | some seenAt =>
    if c.promptWindow < now - seenAt then (.noRecentSudoPrompt, gate)
    else if c.rateLimit ≤ (counting c now gate.injections).length then
      (.rateLimited, { gate with injections := counting c now gate.injections })
    -- one prompt authorises one injection
    else (.allowed, ⟨none, counting c now gate.injections ++ [now]⟩)

end

/-! ### Runs -/

inductive Entry (T : Type)
  | prompt (seenAt : T)
  | answer (a : Answer) (now : T)

/-- `reading` is what the call of `allow` in progress has read from the clock. -/
structure State (T : Type) where
  gate : Gate T := {}
  clock : T
  reading : Option T := none
  log : List (Entry T) := []

inductive Event (T : Type)
  | tick (clock : T)
  | notePrompt
  | readClock
  | decide

section

variable [AddCommGroup T] [LinearOrder T]

def step (c : Config T) (s : State T) : Event T → Option (State T)
  | .tick clock => if s.clock ≤ clock then some { s with clock := clock } else none
  | .notePrompt => some { s with gate := s.gate.notePrompt s.clock, log := s.log ++ [.prompt s.clock] }
  | .readClock => if s.reading.isNone then some { s with reading := some s.clock } else none
  | .decide => match s.reading with
    | none => none
    | some now =>
      let (answer, gate) := s.gate.allow c now
      some { s with gate := gate, reading := none, log := s.log ++ [.answer answer now] }

def system (c : Config T) : System (State T) (Event T) where
  init s := ∃ clock, s = { clock := clock }
  step := step c

end

def allowedTimes (log : List (Entry T)) : List T := log.filterMap fun
  | .answer .allowed now => some now
  | _ => none

def AllowedAt (log : List (Entry T)) (i : Nat) (now : T) : Prop := log[i]? = some (.answer .allowed now)

section

variable [AddCommGroup T] [LinearOrder T]

/-- The injection at place `i` of the log goes back to the prompt at place `origin i`: noted before, not long ago, and after the
previous injection. -/
structure Matching (c : Config T) (log : List (Entry T)) (origin : Nat → Nat) : Prop where
  prompt : ∀ i now, AllowedAt log i now → ∃ seenAt, log[origin i]? = some (.prompt seenAt) ∧ now - seenAt ≤ c.promptWindow
  earlier : ∀ i now, AllowedAt log i now → origin i < i
  fresh : ∀ i now j now', AllowedAt log i now → AllowedAt log j now' → j < i → j < origin i

/-- No prompt authorises two injections. -/
theorem Matching.own {c : Config T} {log : List (Entry T)} {origin : Nat → Nat} (h : Matching c log origin) {i j : Nat}
    {now now' : T} (hi : AllowedAt log i now) (hj : AllowedAt log j now') (heq : origin i = origin j) : i = j := by
  have hi' := h.earlier i now hi
  have hj' := h.earlier j now' hj
  rcases Nat.lt_trichotomy i j with hlt | hij | hlt
  · have := h.fresh j now' i now hj hi hlt
    omega
  · exact hij
  · have := h.fresh i now j now' hi hj hlt
    omega

end

/-! ### One more entry -/

theorem allowedAt_append {log : List (Entry T)} {e : Entry T} {i : Nat} {now : T} :
    AllowedAt (log ++ [e]) i now ↔ AllowedAt log i now ∨ i = log.length ∧ e = .answer .allowed now := by
  unfold AllowedAt
  rw [List.getElem?_append]
  by_cases hi : i < log.length
  · have hne : i ≠ log.length := by omega
    simp [hi, hne]
  · have hnone : log[i]? = none := List.getElem?_eq_none (by omega)
    rw [if_neg hi, hnone, List.getElem?_singleton]
    by_cases hzero : i - log.length = 0
    · have heq : i = log.length := by omega
      simp [heq]
    · have hne : i ≠ log.length := by omega
      simp [hzero, hne]

theorem AllowedAt.lt_length {log : List (Entry T)} {i : Nat} {now : T} (h : AllowedAt log i now) : i < log.length :=
  (List.getElem?_eq_some_iff.1 h).1

theorem getElem?_append_of_some {log : List (Entry T)} {k : Nat} {x : Entry T} (h : log[k]? = some x) (e : Entry T) :
    (log ++ [e])[k]? = some x := by
  rw [List.getElem?_append_left (List.getElem?_eq_some_iff.1 h).1, h]

theorem allowedTimes_append (log : List (Entry T)) (e : Entry T) :
    allowedTimes (log ++ [e]) = allowedTimes log ++ allowedTimes [e] := List.filterMap_append

theorem allowedTimes_of_ne {e : Entry T} (h : ∀ now, e ≠ .answer .allowed now) : allowedTimes [e] = [] := by
  cases e with
  | prompt seenAt => rfl
  | answer a now =>
    cases a with
    | allowed => exact absurd rfl (h now)
    | noRecentSudoPrompt => rfl
    | rateLimited => rfl

/-- No call of `allow` that is still to decide has read less from the clock. -/
def State.floor (s : State T) : T := s.reading.getD s.clock

section

variable [AddCommGroup T] [LinearOrder T]

theorem Matching.append_other {c : Config T} {log : List (Entry T)} {origin : Nat → Nat} (h : Matching c log origin)
    {e : Entry T} (he : ∀ now, e ≠ .answer .allowed now) : Matching c (log ++ [e]) origin := by
  have hback : ∀ i now, AllowedAt (log ++ [e]) i now → AllowedAt log i now := fun i now hi =>
    (allowedAt_append.1 hi).resolve_right fun hlast => he now hlast.2
  refine ⟨fun i now hi => ?_, fun i now hi => h.earlier i now (hback i now hi), fun i now j now' hi hj hlt => ?_⟩
  · obtain ⟨seenAt, hprompt, hrecent⟩ := h.prompt i now (hback i now hi)
    exact ⟨seenAt, getElem?_append_of_some hprompt e, hrecent⟩
  · exact h.fresh i now j now' (hback i now hi) (hback j now' hj) hlt

/-- An injection is matched to a prompt behind all injections so far. -/
theorem Matching.append_allowed {c : Config T} {log : List (Entry T)} {origin : Nat → Nat} (h : Matching c log origin)
    {k : Nat} {seenAt now : T} (hk : log[k]? = some (.prompt seenAt)) (hlater : ∀ j now', AllowedAt log j now' → j < k)
    (hrecent : now - seenAt ≤ c.promptWindow) :
    Matching c (log ++ [.answer .allowed now]) fun i => if i = log.length then k else origin i := by
  have hlen : k < log.length := (List.getElem?_eq_some_iff.1 hk).1
  refine ⟨fun i now' hi => ?_, fun i now' hi => ?_, fun i now' j now'' hi hj hlt => ?_⟩
  · rcases allowedAt_append.1 hi with hold | ⟨rfl, heq⟩
    · have hne : i ≠ log.length := hold.lt_length.ne
      obtain ⟨seenAt', hprompt, hrecent'⟩ := h.prompt i now' hold
      exact ⟨seenAt', by rw [if_neg hne]; exact getElem?_append_of_some hprompt _, hrecent'⟩
    · cases heq
      exact ⟨seenAt, by rw [if_pos rfl]; exact getElem?_append_of_some hk _, hrecent⟩
  · rcases allowedAt_append.1 hi with hold | ⟨rfl, -⟩
    · rw [if_neg hold.lt_length.ne]
      exact h.earlier i now' hold
    · rwa [if_pos rfl]
  · rcases allowedAt_append.1 hi with hold | ⟨rfl, -⟩
    · rcases allowedAt_append.1 hj with hold' | ⟨rfl, -⟩
      · rw [if_neg hold.lt_length.ne]
        exact h.fresh i now' j now'' hold hold' hlt
      · have := hold.lt_length
        omega
    · rw [if_pos rfl]
      rcases allowedAt_append.1 hj with hold' | ⟨rfl, -⟩
      · exact hlater j now'' hold'
      · omega

/-! ### One call -/

/-- What `allow` answers, and what it leaves. -/
theorem allow_cases (c : Config T) (gate : Gate T) (now : T) :
    (∃ a injections, a ≠ Answer.allowed ∧ gate.allow c now = (a, { gate with injections := injections }) ∧
      (injections = gate.injections ∨ injections = counting c now gate.injections)) ∨
    ∃ seenAt, gate.lastPromptAt = some seenAt ∧ now - seenAt ≤ c.promptWindow ∧
      (counting c now gate.injections).length < c.rateLimit ∧
      gate.allow c now = (.allowed, ⟨none, counting c now gate.injections ++ [now]⟩) := by
  obtain ⟨lastPromptAt, injections⟩ := gate
  unfold Gate.allow
  cases lastPromptAt with
  | none => exact .inl ⟨.noRecentSudoPrompt, injections, by decide, rfl, .inl rfl⟩
  | some seenAt =>
    by_cases hold : c.promptWindow < now - seenAt
    · simp only [if_pos hold]
      exact .inl ⟨.noRecentSudoPrompt, injections, by decide, rfl, .inl rfl⟩
    · by_cases hfull : c.rateLimit ≤ (counting c now injections).length
      · simp only [if_neg hold, if_pos hfull]
        exact .inl ⟨.rateLimited, _, by decide, rfl, .inr rfl⟩
      · refine .inr ⟨seenAt, rfl, not_lt.1 hold, not_le.1 hfull, ?_⟩
        simp only [if_neg hold, if_neg hfull]

variable [IsOrderedAddMonoid T]

theorem counting_eq_recent (c : Config T) (now : T) (injections : List T) :
    counting c now injections = recent (now - c.rateWindow) injections :=
  List.filter_congr fun _ _ => decide_eq_decide.2 sub_lt_comm

/-- What no longer counts does not count later. -/
theorem counting_counting (c : Config T) {now now' : T} (h : now ≤ now') (injections : List T) :
    counting c now' (counting c now injections) = counting c now' injections := by
  simp only [counting_eq_recent]
  exact recent_recent (sub_le_sub_right h _) injections

omit [IsOrderedAddMonoid T] in
theorem counting_append (c : Config T) (now : T) (xs ys : List T) :
    counting c now (xs ++ ys) = counting c now xs ++ counting c now ys := List.filter_append xs ys

/-- A refusal leaves the pending prompt, and what counts now or later. -/
theorem refused_keeps {c : Config T} {gate : Gate T} {now : T} (h : (gate.allow c now).1 ≠ .allowed) :
    (gate.allow c now).2.lastPromptAt = gate.lastPromptAt ∧
      ∀ now', now ≤ now' → counting c now' (gate.allow c now).2.injections = counting c now' gate.injections := by
  rcases allow_cases c gate now with ⟨a, injections, -, heq, hinj⟩ | ⟨seenAt, -, -, -, heq⟩
  · rw [heq]
    refine ⟨rfl, fun now' hle => ?_⟩
    rcases hinj with rfl | rfl
    · rfl
    · exact counting_counting c hle _
  · rw [heq] at h
    exact absurd rfl h

/-! ### The invariant -/

structure Inv (c : Config T) (s : State T) : Prop where
  read : s.floor ≤ s.clock
  kept : ∀ now, s.floor ≤ now → counting c now s.gate.injections = counting c now (allowedTimes s.log)
  spaced : Spaced c.rateWindow c.rateLimit (allowedTimes s.log)
  pending : ∀ seenAt, s.gate.lastPromptAt = some seenAt →
    ∃ k, s.log[k]? = some (.prompt seenAt) ∧ ∀ j now, AllowedAt s.log j now → j < k
  matched : ∃ origin, Matching c s.log origin

theorem inv_decide {c : Config T} {s : State T} (h : Inv c s) {now : T} (hnow : s.reading = some now) :
    Inv c { s with gate := (s.gate.allow c now).2, reading := none, log := s.log ++ [.answer (s.gate.allow c now).1 now] } := by
  have hfloor : s.floor = now := by rw [State.floor, hnow, Option.getD_some]
  have hle : now ≤ s.clock := hfloor ▸ h.read
  obtain ⟨origin, hmatching⟩ := h.matched
  rcases allow_cases c s.gate now with ⟨a, injections, hne, heq, hinj⟩ | ⟨seenAt, hprompt, hrecent, hroom, heq⟩
  · -- a refusal
    have hother : ∀ now', Entry.answer a now ≠ .answer .allowed now' := by
      intro now' hsame
      exact hne (Entry.answer.inj hsame).1
    have hrefused : (s.gate.allow c now).1 ≠ .allowed := by
      rw [heq]
      exact hne
    have hkeeps := (refused_keeps hrefused).2
    rw [heq] at hkeeps ⊢
    have htimes : allowedTimes (s.log ++ [.answer a now]) = allowedTimes s.log := by
      rw [allowedTimes_append, allowedTimes_of_ne hother, List.append_nil]
    refine ⟨le_rfl, fun now' hnow' => ?_, htimes ▸ h.spaced, fun seenAt hseen => ?_, origin, hmatching.append_other hother⟩
    · rw [htimes, ← h.kept now' (hfloor ▸ hle.trans hnow')]
      exact hkeeps now' (hle.trans hnow')
    · obtain ⟨k, hk, hlater⟩ := h.pending seenAt hseen
      refine ⟨k, getElem?_append_of_some hk _, fun j now' hj => hlater j now' ?_⟩
      exact (allowedAt_append.1 hj).resolve_right fun hlast => hother now' hlast.2
  · -- an injection
    obtain ⟨k, hk, hlater⟩ := h.pending seenAt hprompt
    rw [heq]
    have htimes : allowedTimes (s.log ++ [.answer .allowed now]) = allowedTimes s.log ++ [now] := allowedTimes_append _ _
    refine ⟨le_rfl, fun now' hnow' => ?_, ?_, fun _ => nofun, _, hmatching.append_allowed hk hlater hrecent⟩
    · have hle' : now ≤ now' := hle.trans hnow'
      rw [htimes, counting_append, counting_append, counting_counting c hle', h.kept now' (hfloor ▸ hle')]
    · rw [htimes]
      refine h.spaced.append_singleton ?_
      rw [← counting_eq_recent, ← h.kept now hfloor.le]
      exact hroom

theorem inv_step {c : Config T} {s s' : State T} {e : Event T} (h : Inv c s) (hstep : step c s e = some s') : Inv c s' := by
  cases e with
  | tick clock =>
    obtain ⟨hle, rfl⟩ := System.of_guard hstep
    refine ⟨?_, fun now hnow => h.kept now ?_, h.spaced, h.pending, h.matched⟩
    · have hread := h.read
      unfold State.floor at hread ⊢
      cases hreading : s.reading with
      | none => exact le_rfl
      | some now =>
        rw [hreading] at hread
        exact hread.trans hle
    · unfold State.floor at hnow ⊢
      cases hread : s.reading with
      | none =>
        rw [hread] at hnow
        exact hle.trans hnow
      | some now' =>
        rw [hread] at hnow
        exact hnow
  | notePrompt =>
    obtain rfl := Option.some.inj hstep
    obtain ⟨origin, hmatching⟩ := h.matched
    have hother : ∀ now, Entry.prompt s.clock ≠ .answer .allowed now := fun _ => nofun
    have htimes : allowedTimes (s.log ++ [.prompt s.clock]) = allowedTimes s.log := by
      rw [allowedTimes_append, allowedTimes_of_ne hother, List.append_nil]
    refine ⟨h.read, fun now hnow => ?_, ?_, fun seenAt hseen => ?_, origin, hmatching.append_other hother⟩
    · rw [htimes]
      exact h.kept now hnow
    · rw [htimes]
      exact h.spaced
    · obtain rfl := Option.some.inj hseen
      refine ⟨s.log.length, by simp, fun j now hj => ?_⟩
      exact ((allowedAt_append.1 hj).resolve_right fun hlast => hother now hlast.2).lt_length
  | readClock =>
    obtain ⟨hnone, rfl⟩ := System.of_guard hstep
    have hfloor : s.floor = s.clock := by rw [State.floor, Option.isNone_iff_eq_none.1 hnone, Option.getD_none]
    exact ⟨le_rfl, fun now hnow => h.kept now (hfloor.trans_le hnow), h.spaced, h.pending, h.matched⟩
  | decide =>
    cases hread : s.reading with
    | none =>
      rw [step, hread] at hstep
      cases hstep
    | some now =>
      rw [step, hread] at hstep
      obtain rfl := Option.some.inj hstep
      exact inv_decide h hread

omit [IsOrderedAddMonoid T] in
theorem inv_init {c : Config T} {s : State T} (h : (system c).init s) : Inv c s := by
  obtain ⟨clock, rfl⟩ := h
  refine ⟨le_rfl, fun _ _ => rfl, spaced_nil _ _, fun _ => nofun, id, fun i now hi => ?_, fun i now hi => ?_, fun i now j now' hi => ?_⟩
  all_goals simp [AllowedAt] at hi

/-- In every run: each injection has a prompt of its own, noted before it, at most the prompt window ago and after the previous
injection; no half-open rate window has more injections than the limit; and a refusal leaves the pending prompt and the
injections that count from then on. -/
theorem sudo_gate_sound {c : Config T} {s : State T} (h : (system c).Reachable s) :
    (∃ origin, Matching c s.log origin ∧
      ∀ i j now now', AllowedAt s.log i now → AllowedAt s.log j now' → origin i = origin j → i = j) ∧
    (∀ x, (within c.rateWindow x (allowedTimes s.log)).length ≤ c.rateLimit) ∧
    ∀ now, (s.gate.allow c now).1 ≠ .allowed →
      (s.gate.allow c now).2.lastPromptAt = s.gate.lastPromptAt ∧
        ∀ now', now ≤ now' → counting c now' (s.gate.allow c now).2.injections = counting c now' s.gate.injections := by
  have hinv : Inv c s := System.Reach.invariant (fun _ => inv_init) (fun _ _ _ hi _ hs => inv_step hi hs) h
  obtain ⟨origin, hmatching⟩ := hinv.matched
  exact ⟨⟨origin, hmatching, fun i j now now' hi hj heq => hmatching.own hi hj heq⟩, hinv.spaced.length_le, fun now => refused_keeps⟩

end

/-! ### One prompt -/

/-- A prompt and an injection. -/
def exampleEvents : List (Event Int) := [.tick 3, .readClock, .notePrompt, .decide]

theorem example_window : (within 60 0 [(3 : Int)]).length ≤ 3 := by
  have hexec : (system defaults).exec { clock := 0 } exampleEvents =
      some ⟨⟨none, [3]⟩, 3, none, [.prompt 3, .answer .allowed 3]⟩ := rfl
  exact (sudo_gate_sound (System.reachable_of_exec ⟨0, rfl⟩ hexec)).2.1 0

end ProxmoxTool.SudoGate
