import Mathlib.Logic.Function.Basic
import ProxmoxTool.ConfigBackup.Settings
import ProxmoxTool.Lib.Fields
import ProxmoxTool.Lib.System

/-!
# Settings that hold a secret

`get_secret_setting` and `set_secret_setting` for one key, called by any number of processes in and outside of requests.  Every query of the
table and every commit is a step.  A get that finds a plaintext from before the encryption stores what it has read, sealed, some steps later.

If a set is completed between the two, the old secret comes back (`old_secret_stored`), and a request goes on to answer what it has read once.
In runs without either, no get changes what the row says, and every get says what the last completed set has stored (`reach_kept`).
-/

namespace ProxmoxTool.SecretSettings

/-- `looks_encrypted`; the pattern is that of the config export. -/
def looksEncrypted (value : Text) : Bool := ConfigBackup.looksLikeFernet value

/-- Fernet with the stored key, as an ideal cipher.  The number stands for what is random in a token; `decrypt` is `none` if it raises. -/
structure Fernet where
  encrypt : Nat → Text → Text
  decrypt : Text → Option Text
  decrypt_encrypt : ∀ n t, decrypt (encrypt n t) = some t
  looksEncrypted_encrypt : ∀ n t, looksEncrypted (encrypt n t) = true

inductive Answer
  | value (value : Option Text)
  | credentialDecryptError
  deriving DecidableEq

variable (f : Fernet)

/-- What `get_secret_setting` answers if `Setting.get` gives `raw`; a row without a value and no row are `none`. -/
def Fernet.answer (raw default : Option Text) : Answer :=
  match raw with
  | none => .value default
  | some raw =>
    if raw = [] then .value default
    else if looksEncrypted raw then
      match f.decrypt raw with
      | none => .credentialDecryptError
      | some t => .value (if t = [] then default else some t)
    else .value (some raw)

/-- The plaintext that `get_secret_setting` stores anew. -/
def legacy (raw : Option Text) : Option Text := raw.filter fun t => t ≠ [] && !looksEncrypted t

/-- The value that `set_secret_setting` stores. -/
def Fernet.stored (n : Nat) (value : Text) : Text := if value = [] then [] else f.encrypt n value

abbrev Pid := Nat

/-- Outside of requests nothing is cached. -/
inductive Context
  | outside
  | request (cached : Option (Option Text))
  deriving DecidableEq

/-- Who stores a value: a set, or a get that has read a plaintext behind the completed set `after`. -/
inductive Origin
  | set (value : Text)
  | get (raw : Text) (after : Option Text)
  deriving DecidableEq

/-- A call between its steps: a get that has read a plaintext, or `Setting.set` behind its first query. -/
inductive Call
  | idle
  | migrates (raw : Text) (after : Option Text)
  | writes (origin : Origin) (value : Text) (loaded : Option Text)
  deriving DecidableEq

/-- An answer of a get, and the set completed last when the get started. -/
structure Returned where
  after : Option Text
  answer : Answer
  deriving DecidableEq

/-- The row of the key and the processes.  The code does not have the value at the beginning, the last completed set and the answers. -/
structure World where
  row : Option Text
  contexts : Pid → Context := fun _ => .outside
  calls : Pid → Call := fun _ => .idle
  initial : Option Text
  completed : Option Text := none
  returned : List Returned := []

/-- The number is the random part of the token. -/
inductive Event
  | enterRequest (p : Pid)
  | leaveRequest (p : Pid)
  | get (p : Pid) (default : Option Text)
  | migrate (p : Pid) (n : Nat)
  | set (p : Pid) (value : Text) (n : Nat)
  | commit (p : Pid)

/-- What `Setting.get` gives. -/
def World.sees (w : World) (p : Pid) : Option Text :=
  match w.contexts p with
  | .request (some raw) => raw
  | _ => w.row

/-- A context with its cache set or dropped. -/
def Context.cache (cached : Option (Option Text)) : Context → Context
  | .outside => .outside
  | .request _ => .request cached

/-- `encrypt` and the first query of `Setting.set`; no token is there twice. -/
def World.query (w : World) (p : Pid) (origin : Origin) (value : Text) : Option World :=
  if value ≠ [] ∧ w.row = some value then none
  else some { w with calls := Function.update w.calls p (.writes origin value w.row) }

/-- The commit of `Setting.set`, which stores nothing if the value is the one loaded. -/
def World.store (w : World) (p : Pid) (value : Text) (loaded : Option Text) : World :=
  { w with
    row := if loaded = some value then w.row else some value
    contexts := Function.update w.contexts p ((w.contexts p).cache none)
    calls := Function.update w.calls p .idle }

/-- The call is over. -/
def World.finish (w : World) : Origin → World
  | .set value => { w with completed := some value }
  | .get raw after => { w with returned := w.returned ++ [⟨after, .value (some raw)⟩] }

/-- The query of `Setting.get`. -/
def World.read (w : World) (p : Pid) : World :=
  { w with contexts := Function.update w.contexts p ((w.contexts p).cache (some (w.sees p))) }

/-- What `get_secret_setting` does next. -/
def World.got (w : World) (p : Pid) (raw default : Option Text) : World :=
  match legacy raw with
  | some raw => { w with calls := Function.update w.calls p (.migrates raw w.completed) }
  | none => { w with returned := w.returned ++ [⟨w.completed, f.answer raw default⟩] }

def step (w : World) : Event → Option World
  | .enterRequest p =>
    if w.calls p = .idle ∧ w.contexts p = .outside then some { w with contexts := Function.update w.contexts p (.request none) } else none
  | .leaveRequest p => if w.calls p = .idle then some { w with contexts := Function.update w.contexts p .outside } else none
  | .get p default => if w.calls p = .idle then some ((w.read p).got f p (w.sees p) default) else none
  | .migrate p n =>
    match w.calls p with
    | .migrates raw after => w.query p (.get raw after) (f.stored n raw)
    | _ => none
  | .set p value n => if w.calls p = .idle then w.query p (.set value) (f.stored n value) else none
  | .commit p =>
    match w.calls p with
    | .writes origin value loaded => some ((w.store p value loaded).finish origin)
    | _ => none

/-- No call is under way at the beginning. -/
def system : System World Event where
  init w := ∃ raw, w = { row := raw, initial := raw }
  step := step f

/-- The plaintext that a get is about to store. -/
def Call.migrated : Call → Option Text
  | .writes (.get raw _) _ _ => some raw
  | _ => none

/-- What a get answers from the cache of its request, and what a get stores anew, is what the row says. -/
def Unraced (w : World) : Event → Prop
  | .get p _ => f.answer (w.sees p) none = f.answer w.row none
  | .commit p => ∀ raw ∈ (w.calls p).migrated, f.answer (some raw) none = f.answer w.row none
  | _ => True

instance (w : World) : (e : Event) → Decidable (Unraced f w e)
  | .get p _ => inferInstanceAs (Decidable (f.answer (w.sees p) none = f.answer w.row none))
  | .commit p => inferInstanceAs (Decidable (∀ raw ∈ (w.calls p).migrated, f.answer (some raw) none = f.answer w.row none))
  | .enterRequest _ => isTrue trivial
  | .leaveRequest _ => isTrue trivial
  | .migrate _ _ => isTrue trivial
  | .set _ _ _ => isTrue trivial

/-- A step of a get. -/
def OfGet (w : World) : Event → Prop
  | .get _ _ => True
  | .migrate _ _ => True
  | .commit p => (w.calls p).migrated.isSome = true
  | _ => False

/-- `raw` is a token of the plaintext that was there at the beginning. -/
def Fernet.Seals (initial raw : Option Text) : Prop := ∃ t, legacy initial = some t ∧ ∃ n, raw = some (f.encrypt n t)

/-- No secret is rolled back by a get. -/
structure Kept (w : World) : Prop where
  latest : ∀ r ∈ w.returned, ∀ v, r.after = some v → v ≠ [] → r.answer = .value (some v)
  frame : ∀ e w', OfGet w e → Unraced f w e → step f w e = some w' → ∀ default, f.answer w'.row default = f.answer w.row default
  plaintext : ∀ t, legacy w.initial = some t → ∀ r ∈ w.returned, r.after = none → r.answer = .value (some t)
  encrypted : legacy w.initial ≠ none → w.completed = none → w.returned ≠ [] → f.Seals w.initial w.row

/-! ### What the stored values say -/

variable {f}

theorem not_looksEncrypted_nil : looksEncrypted [] = false := rfl

theorem encrypt_ne_nil (n : Nat) (t : Text) : f.encrypt n t ≠ [] := by
  intro hnil
  have hlooks := f.looksEncrypted_encrypt n t
  rw [hnil, not_looksEncrypted_nil] at hlooks
  cases hlooks

theorem answer_encrypt (n : Nat) {t : Text} (ht : t ≠ []) (default : Option Text) :
    f.answer (some (f.encrypt n t)) default = .value (some t) := by
  unfold Fernet.answer
  dsimp only
  rw [if_neg (encrypt_ne_nil n t), if_pos (f.looksEncrypted_encrypt n t), f.decrypt_encrypt]
  dsimp only
  rw [if_neg ht]

theorem legacy_eq_some {raw : Option Text} {t : Text} (h : legacy raw = some t) :
    raw = some t ∧ t ≠ [] ∧ looksEncrypted t = false := by
  obtain ⟨hraw, hp⟩ := Option.filter_eq_some_iff.1 h
  rw [Bool.and_eq_true, decide_eq_true_iff, Bool.not_eq_true'] at hp
  exact ⟨hraw, hp⟩

theorem legacy_encrypt (n : Nat) (t : Text) : legacy (some (f.encrypt n t)) = none := by
  unfold legacy
  rw [Option.filter_some_neg]
  rw [f.looksEncrypted_encrypt n t, Bool.not_true, Bool.and_false]

theorem answer_legacy {raw : Option Text} {t : Text} (h : legacy raw = some t) (default : Option Text) :
    f.answer raw default = .value (some t) := by
  obtain ⟨rfl, hne, hplain⟩ := legacy_eq_some h
  unfold Fernet.answer
  dsimp only
  rw [if_neg hne, hplain, if_neg Bool.false_ne_true]

/-- The default is for what is not set. -/
def Answer.orDefault (default : Option Text) : Answer → Answer
  | .value none => .value default
  | a => a

theorem answer_eq_orDefault (raw default : Option Text) : f.answer raw default = (f.answer raw none).orDefault default := by
  unfold Fernet.answer
  cases raw with
  | none => rfl
  | some raw =>
    dsimp only
    split_ifs with hnil hlooks
    · rfl
    · cases f.decrypt raw with
      | none => rfl
      | some t =>
        dsimp only
        split_ifs with ht
        · rfl
        · rfl
    · rfl

theorem answer_congr {raw raw' : Option Text} (h : f.answer raw none = f.answer raw' none) (default : Option Text) :
    f.answer raw default = f.answer raw' default := by
  rw [answer_eq_orDefault raw, answer_eq_orDefault raw', h]

theorem answer_of_none {raw : Option Text} {t : Text} (h : f.answer raw none = .value (some t)) (default : Option Text) :
    f.answer raw default = .value (some t) := by
  rw [answer_eq_orDefault, h]
  rfl

theorem Fernet.Seals.legacy_eq_none {initial raw : Option Text} (h : f.Seals initial raw) : legacy raw = none := by
  obtain ⟨t, -, n, rfl⟩ := h
  exact legacy_encrypt n t

theorem Fernet.Seals.answer_eq {initial raw : Option Text} {t : Text} (h : f.Seals initial raw) (ht : legacy initial = some t)
    (default : Option Text) : f.answer raw default = .value (some t) := by
  obtain ⟨t', ht', n, rfl⟩ := h
  obtain rfl : t' = t := Option.some.inj (ht'.symm.trans ht)
  exact answer_encrypt n (legacy_eq_some ht).2.1 default

/-! ### What a run keeps -/

section

/-- What is known of the plaintext that a get has read. -/
structure Legacy (initial completed : Option Text) (raw : Text) (after : Option Text) : Prop where
  plain : legacy (some raw) = some raw
  latest : ∀ v, after = some v → v ≠ [] → raw = v
  first : after = none → ∀ t, legacy initial = some t → raw = t
  only : completed = none → legacy initial = some raw

/-- A value on its way to the row, which is not the one there when it was encrypted. -/
structure Writes (f : Fernet) (value : Text) (loaded : Option Text) (t : Text) : Prop where
  new : value ≠ [] → loaded ≠ some value
  stored : ∃ n, value = f.stored n t

def CallInv (f : Fernet) (initial completed : Option Text) : Call → Prop
  | .idle => True
  | .migrates raw after => Legacy initial completed raw after
  | .writes (.set v) value loaded => Writes f value loaded v
  | .writes (.get raw after) value loaded => Writes f value loaded raw ∧ Legacy initial completed raw after

structure Answered (initial : Option Text) (r : Returned) : Prop where
  latest : ∀ v, r.after = some v → v ≠ [] → r.answer = .value (some v)
  first : r.after = none → ∀ t, legacy initial = some t → r.answer = .value (some t)

/-- Before the first set a process has read the first value, or a token of it when the row is one, too. -/
def Known (f : Fernet) (w : World) (raw : Option Text) : Prop :=
  raw = w.initial ∨ f.Seals w.initial w.row ∧ f.Seals w.initial raw

def Context.cached : Context → Option (Option Text)
  | .outside => none
  | .request cached => cached

structure Inv (f : Fernet) (w : World) : Prop where
  latest : ∀ v, w.completed = some v → v ≠ [] → f.answer w.row none = .value (some v)
  row : w.completed = none → Known f w w.row
  cached : w.completed = none → ∀ p, ∀ raw ∈ (w.contexts p).cached, Known f w raw
  calls : ∀ p, CallInv f w.initial w.completed (w.calls p)
  answered : ∀ r ∈ w.returned, Answered w.initial r
  encrypted : legacy w.initial ≠ none → w.completed = none → w.returned ≠ [] → f.Seals w.initial w.row

variable {w w' : World} {p : Pid}

theorem Inv.known_sees (h : Inv f w) (hnone : w.completed = none) (p : Pid) : Known f w (w.sees p) := by
  unfold World.sees
  split
  · rename_i raw hctx
    refine h.cached hnone p raw ?_
    rw [hctx]
    rfl
  · exact h.row hnone

theorem Inv.setContext (h : Inv f w) {context : Context} (hcached : w.completed = none → ∀ raw ∈ context.cached, Known f w raw) :
    Inv f { w with contexts := Function.update w.contexts p context } := by
  refine ⟨h.latest, h.row, fun hnone q raw hraw => ?_, h.calls, h.answered, h.encrypted⟩
  dsimp only at hraw
  rw [Function.update_apply] at hraw
  split_ifs at hraw
  · exact hcached hnone raw hraw
  · exact h.cached hnone q raw hraw

theorem Inv.setCall (h : Inv f w) {call : Call} (hcall : CallInv f w.initial w.completed call) :
    Inv f { w with calls := Function.update w.calls p call } := by
  refine ⟨h.latest, h.row, h.cached, fun q => ?_, h.answered, h.encrypted⟩
  dsimp only
  rw [Function.update_apply]
  split_ifs
  · exact hcall
  · exact h.calls q

theorem Inv.returns (h : Inv f w) {r : Returned} (hr : Answered w.initial r)
    (hrow : legacy w.initial ≠ none → w.completed = none → f.Seals w.initial w.row) :
    Inv f { w with returned := w.returned ++ [r] } := by
  refine ⟨h.latest, h.row, h.cached, h.calls, fun s hs => ?_, fun hlegacy hnone _ => hrow hlegacy hnone⟩
  rcases List.mem_append.1 hs with hs | hs
  · exact h.answered s hs
  · rw [List.mem_singleton.1 hs]
    exact hr

/-! ### The steps -/

theorem inv_query (h : Inv f w) {origin : Origin} {value : Text} (hq : w.query p origin value = some w')
    (hcall : (value ≠ [] → w.row ≠ some value) → CallInv f w.initial w.completed (.writes origin value w.row)) : Inv f w' := by
  unfold World.query at hq
  split_ifs at hq with hnew
  cases hq
  exact h.setCall (hcall fun hne heq => hnew ⟨hne, heq⟩)

theorem inv_read (h : Inv f w) : Inv f (w.read p) := by
  refine h.setContext fun hnone raw hraw => ?_
  cases hctx : w.contexts p with
  | outside =>
    rw [hctx] at hraw
    cases hraw
  | request cached =>
    rw [hctx] at hraw
    obtain rfl : w.sees p = raw := Option.some.inj hraw
    exact h.known_sees hnone p

theorem inv_got (h : Inv f w) {raw : Option Text} (hknown : w.completed = none → Known f w raw)
    (hsame : f.answer raw none = f.answer w.row none) (default : Option Text) : Inv f (w.got f p raw default) := by
  have hlatest : ∀ v, w.completed = some v → v ≠ [] → f.answer raw none = .value (some v) :=
    fun v hv hne => hsame.trans (h.latest v hv hne)
  unfold World.got
  cases hlegacy : legacy raw with
  | some t =>
    obtain ⟨rfl, -, -⟩ := legacy_eq_some hlegacy
    have honly : w.completed = none → legacy w.initial = some t := by
      intro hnone
      rcases hknown hnone with heq | ⟨-, hseals⟩
      · rw [← heq, hlegacy]
      · rw [hseals.legacy_eq_none] at hlegacy
        cases hlegacy
    refine h.setCall ⟨hlegacy, fun v hv hne => ?_, fun hnone u hu => ?_, honly⟩
    · have hanswer := hlatest v hv hne
      rw [answer_legacy hlegacy none] at hanswer
      cases hanswer
      rfl
    · exact Option.some.inj ((honly hnone).symm.trans hu)
  | none =>
    have hfirst : w.completed = none → ∀ t, legacy w.initial = some t → f.Seals w.initial w.row ∧ f.Seals w.initial raw := by
      intro hnone t ht
      rcases hknown hnone with heq | hseals
      · rw [heq, ht] at hlegacy
        cases hlegacy
      · exact hseals
    refine h.returns ⟨fun v hv hne => answer_of_none (hlatest v hv hne) default, fun hnone t ht => ?_⟩ fun hne hnone => ?_
    · exact (hfirst hnone t ht).2.answer_eq ht default
    · obtain ⟨t, ht⟩ := Option.ne_none_iff_exists'.1 hne
      exact (hfirst hnone t ht).1

/-- A value that was not loaded gets into the row. -/
theorem Writes.store_row {value : Text} {loaded : Option Text} {t : Text} (h : Writes f value loaded t) (ht : t ≠ []) (w : World) (p : Pid) :
    ∃ n, (w.store p value loaded).row = some (f.encrypt n t) := by
  obtain ⟨n, rfl⟩ := h.stored
  have hstored : f.stored n t = f.encrypt n t := if_neg ht
  have hnew := h.new (hstored ▸ encrypt_ne_nil n t)
  refine ⟨n, ?_⟩
  unfold World.store
  dsimp only
  rw [if_neg hnew, hstored]

theorem CallInv.mono {initial completed : Option Text} {call : Call} (h : CallInv f initial completed call) (v : Text) :
    CallInv f initial (some v) call := by
  have hlegacy : ∀ {raw after}, Legacy initial completed raw after → Legacy initial (some v) raw after :=
    fun h => ⟨h.plain, h.latest, h.first, fun hnone => nomatch hnone⟩
  match call, h with
  | .idle, _ => trivial
  | .migrates _ _, h => exact hlegacy h
  | .writes (.set _) _ _, h => exact h
  | .writes (.get _ _) _ _, h => exact h.imp_right hlegacy

theorem inv_set (h : Inv f w) {v value : Text} {loaded : Option Text} (hwrites : Writes f value loaded v) :
    Inv f ((w.store p value loaded).finish (.set v)) := by
  have hlatest : ∀ u, some v = some u → u ≠ [] → f.answer (w.store p value loaded).row none = .value (some u) := by
    rintro _ ⟨⟩ hne
    obtain ⟨n, hrow⟩ := hwrites.store_row hne w p
    rw [hrow, answer_encrypt n hne]
  refine ⟨hlatest, fun hnone => (nomatch hnone), fun hnone => (nomatch hnone), fun q => ?_, h.answered, fun _ hnone => (nomatch hnone)⟩
  change CallInv f w.initial (some v) (Function.update w.calls p .idle q)
  rw [Function.update_apply]
  split_ifs
  · trivial
  · exact (h.calls q).mono v

theorem answer_store {value : Text} {loaded : Option Text} {raw : Text} {after initial completed : Option Text}
    (hwrites : Writes f value loaded raw) (hlegacy : Legacy initial completed raw after) (w : World) (p : Pid) (default : Option Text) :
    f.answer (w.store p value loaded).row default = f.answer (some raw) default := by
  have hne := (legacy_eq_some hlegacy.plain).2.1
  obtain ⟨n, hrow⟩ := hwrites.store_row hne w p
  rw [hrow, answer_encrypt n hne, answer_legacy hlegacy.plain]

theorem inv_migrated (h : Inv f w) {raw value : Text} {after loaded : Option Text} (hwrites : Writes f value loaded raw)
    (hlegacy : Legacy w.initial w.completed raw after) (hsame : f.answer (some raw) none = f.answer w.row none) :
    Inv f ((w.store p value loaded).finish (.get raw after)) := by
  have hseals : w.completed = none → f.Seals w.initial (w.store p value loaded).row := by
    intro hnone
    obtain ⟨n, hrow⟩ := hwrites.store_row (legacy_eq_some hlegacy.plain).2.1 w p
    exact ⟨raw, hlegacy.only hnone, n, hrow⟩
  have hcached : ∀ q, ∀ seen ∈ ((w.store p value loaded).contexts q).cached, seen ∈ (w.contexts q).cached := by
    intro q seen hseen
    change seen ∈ (Function.update w.contexts p ((w.contexts p).cache none) q).cached at hseen
    rw [Function.update_apply] at hseen
    split_ifs at hseen
    · cases hctx : w.contexts p <;> rw [hctx] at hseen <;> cases hseen
    · exact hseen
  refine Inv.returns (w := w.store p value loaded) ⟨fun v hv hne => ?_, fun hnone => .inr ⟨hseals hnone, hseals hnone⟩,
    fun hnone q seen hseen => ?_, fun q => ?_, h.answered, fun _ hnone _ => hseals hnone⟩ ⟨fun v hv hne => ?_, fun hnone t ht => ?_⟩
    fun _ hnone => hseals hnone
  · rw [answer_store hwrites hlegacy, hsame]
    exact h.latest v hv hne
  · rcases h.cached hnone q seen (hcached q seen hseen) with heq | ⟨-, hseen⟩
    · exact .inl heq
    · exact .inr ⟨hseals hnone, hseen⟩
  · change CallInv f w.initial w.completed (Function.update w.calls p .idle q)
    rw [Function.update_apply]
    split_ifs
    · trivial
    · exact h.calls q
  · exact congrArg (fun u => Answer.value (some u)) (hlegacy.latest v hv hne)
  · exact congrArg (fun u => Answer.value (some u)) (hlegacy.first hnone t ht)

/-- What a commit of a call stores. -/
theorem step_commit (hstep : step f w (.commit p) = some w') :
    ∃ origin value loaded, w.calls p = .writes origin value loaded ∧ w' = (w.store p value loaded).finish origin := by
  unfold step at hstep
  dsimp only at hstep
  split at hstep
  · rename_i origin value loaded hcall
    exact ⟨origin, value, loaded, hcall, (Option.some.inj hstep).symm⟩
  · cases hstep

theorem step_migrate {n : Nat} (hstep : step f w (.migrate p n) = some w') :
    ∃ raw after, w.calls p = .migrates raw after ∧ w.query p (.get raw after) (f.stored n raw) = some w' := by
  unfold step at hstep
  dsimp only at hstep
  split at hstep
  · rename_i raw after hcall
    exact ⟨raw, after, hcall, hstep⟩
  · cases hstep

theorem inv_step {e : Event} (h : Inv f w) (hok : Unraced f w e) (hstep : step f w e = some w') : Inv f w' := by
  cases e with
  | enterRequest | leaveRequest =>
    obtain ⟨-, rfl⟩ := System.of_guard hstep
    exact h.setContext fun _ raw hraw => nomatch hraw
  | get p default =>
    obtain ⟨-, rfl⟩ := System.of_guard hstep
    exact inv_got (inv_read h) (fun hnone => h.known_sees hnone p) hok default
  | migrate p n =>
    obtain ⟨raw, after, hcall, hquery⟩ := step_migrate hstep
    have hlegacy := h.calls p
    rw [hcall] at hlegacy
    exact inv_query h hquery fun hnew => ⟨⟨hnew, n, rfl⟩, hlegacy⟩
  | set p value n =>
    obtain ⟨-, hquery⟩ := Option.ite_none_right_eq_some.1 hstep
    exact inv_query h hquery fun hnew => ⟨hnew, n, rfl⟩
  | commit p =>
    obtain ⟨origin, value, loaded, hcall, rfl⟩ := step_commit hstep
    have hwrites := h.calls p
    rw [hcall] at hwrites
    cases origin with
    | set v => exact inv_set h hwrites
    | get raw after => exact inv_migrated h hwrites.1 hwrites.2 (hok raw (by rw [hcall]; rfl))

theorem query_row {origin : Origin} {value : Text} (hq : w.query p origin value = some w') : w'.row = w.row := by
  unfold World.query at hq
  split_ifs at hq
  cases hq
  rfl

theorem got_row (raw default : Option Text) : (w.got f p raw default).row = w.row := by
  unfold World.got
  split
  · rfl
  · rfl

theorem frame_of_inv (h : Inv f w) {e : Event} (hget : OfGet w e) (hok : Unraced f w e) (hstep : step f w e = some w')
    (default : Option Text) : f.answer w'.row default = f.answer w.row default := by
  cases e with
  | get p default =>
    obtain ⟨-, rfl⟩ := System.of_guard hstep
    rw [got_row]
    rfl
  | migrate p n =>
    obtain ⟨raw, after, -, hquery⟩ := step_migrate hstep
    rw [query_row hquery]
  | commit p =>
    obtain ⟨origin, value, loaded, hcall, rfl⟩ := step_commit hstep
    have hwrites := h.calls p
    rw [hcall] at hwrites
    cases origin with
    | set v =>
      have hmigrated : (w.calls p).migrated.isSome = true := hget
      rw [hcall] at hmigrated
      cases hmigrated
    | get raw after =>
      exact (answer_store hwrites.1 hwrites.2 w p default).trans (answer_congr (hok raw (by rw [hcall]; rfl)) default)
  | enterRequest p => exact hget.elim
  | leaveRequest p => exact hget.elim
  | set p value n => exact hget.elim

theorem inv_init (h : (system f).init w) : Inv f w := by
  obtain ⟨raw, rfl⟩ := h
  exact ⟨fun _ hv => (nomatch hv), fun _ => .inl rfl, fun _ _ _ hraw => (nomatch hraw), fun _ => trivial, fun _ hr => (nomatch hr),
    fun _ _ hne => absurd rfl hne⟩

end

/-- A run in which no get answers or stores what the row does not say any more keeps the secrets. -/
theorem reach_kept (f : Fernet) {w : World} (h : (system f).Reach (Unraced f) w) : Kept f w := by
  have hinv : Inv f w := h.invariant (fun _ => inv_init) fun _ _ _ hinv hok hstep => inv_step hinv hok hstep
  exact ⟨fun r hr => (hinv.answered r hr).latest, fun e w' => frame_of_inv hinv, fun t ht r hr hnone => (hinv.answered r hr).first hnone t ht,
    hinv.encrypted⟩

/-! ### Runs -/

theorem looksEncrypted_append {body : Text} (hlong : 20 ≤ body.length)
    (hbody : ∀ c ∈ body, (c.isAlphanum || c == '_' || c == '=' || c == '-') = true) : looksEncrypted ("gAAAAA".toList ++ body) = true := by
  have hnewline : body.getLast? ≠ some '\n' := fun hlast => nomatch hbody '\n' (List.mem_of_getLast? hlast)
  have hdrop : ("gAAAAA".toList ++ body).drop 6 = body := List.drop_left' (by decide)
  unfold looksEncrypted ConfigBackup.looksLikeFernet
  dsimp only
  rw [hdrop, if_neg hnewline, Bool.and_eq_true, Bool.and_eq_true, decide_eq_true_iff]
  exact ⟨⟨rfl, hlong⟩, List.all_eq_true.2 hbody⟩

/-- A text listed with a number in front, in decimal numerals. -/
def numerals (n : Nat) (t : Text) : List Text := natText n :: t.map fun c => natText c.toNat

theorem isDigit_of_mem_numerals {n : Nat} {t d : Text} (hd : d ∈ numerals n t) : ∀ c ∈ d, c.isDigit = true := by
  rcases List.mem_cons.1 hd with rfl | hd
  · exact fun c => isDigit_of_mem_natText
  · obtain ⟨k, -, rfl⟩ := List.mem_map.1 hd
    exact fun c => isDigit_of_mem_natText

/-- A token of the right form that lists the number and the characters. -/
def numbered : Fernet where
  encrypt n t := "gAAAAA".toList ++ (List.replicate 20 'A' ++ joinText ['_'] (numerals n t))
  decrypt token := some (((token.drop 26).splitOn '_').tail.map fun d => Char.ofNat (Nat.ofDigitChars 10 d 0))
  decrypt_encrypt n t := by
    have hbar : ∀ d ∈ numerals n t, '_' ∉ d := fun d hd hmem => nomatch isDigit_of_mem_numerals hd '_' hmem
    have hdrop : ("gAAAAA".toList ++ (List.replicate 20 'A' ++ joinText ['_'] (numerals n t))).drop 26 = joinText ['_'] (numerals n t) := by
      rw [← List.append_assoc]
      exact List.drop_left' (by decide)
    rw [hdrop, joinText, List.splitOn_intercalate '_' hbar (List.cons_ne_nil _ _), numerals, List.tail_cons, List.map_map]
    refine congrArg some ((List.map_congr_left fun c _ => ?_).trans (List.map_id t))
    change Char.ofNat (Nat.ofDigitChars 10 (natText c.toNat) 0) = c
    rw [natText, Nat.ofDigitChars_toDigits (by decide) (by decide), Char.ofNat_toNat]
  looksEncrypted_encrypt n t := by
    refine looksEncrypted_append (by simp) fun c hc => ?_
    rcases List.mem_append.1 hc with hc | hc
    · rw [List.eq_of_mem_replicate hc]
      rfl
    · rcases mem_joinText hc with hc | ⟨d, hd, hc⟩
      · rw [List.mem_singleton.1 hc]
        rfl
      · rw [Char.isAlphanum, isDigit_of_mem_numerals hd c hc]
        simp

def oldStored : World := { row := some "old".toList, initial := some "old".toList }

theorem oldStored_init : (system numbered).init oldStored := ⟨_, rfl⟩

/-- The plaintext "old" is read twice and stored anew, then "new" is stored. -/
def migration : List Event :=
  [.get 0 none, .enterRequest 1, .get 1 none, .migrate 0 0, .commit 0, .migrate 1 1, .commit 1, .get 1 none, .leaveRequest 1,
    .set 0 "new".toList 2, .commit 0, .get 1 none]

theorem migration_kept : ∃ w, ((system numbered).guarded (Unraced numbered)).exec oldStored migration = some w ∧
    w.returned.map Returned.answer = ["old", "old", "old", "new"].map (fun t => .value (some t.toList)) ∧ Kept numbered w := by
  have hrun : ∃ w, ((system numbered).guarded (Unraced numbered)).exec oldStored migration = some w ∧
      w.returned.map Returned.answer = ["old", "old", "old", "new"].map (fun t => .value (some t.toList)) := ⟨_, rfl, by decide +kernel⟩
  obtain ⟨w, hexec, hanswers⟩ := hrun
  exact ⟨w, hexec, hanswers, reach_kept numbered ((System.Reach.init oldStored_init).guarded_exec hexec)⟩

/-- A set between the query and the commit of a get is undone. -/
def rollback : List Event := [.get 0 none, .set 1 "new".toList 0, .commit 1, .migrate 0 1, .commit 0, .get 2 none]

theorem old_secret_stored : ∃ w, (system numbered).Reachable w ∧ ¬Kept numbered w := by
  have hrun : ∃ w, (system numbered).exec oldStored rollback = some w ∧
      w.returned[1]? = some ⟨some "new".toList, .value (some "old".toList)⟩ := ⟨_, rfl, by decide +kernel⟩
  obtain ⟨w, hexec, hr⟩ := hrun
  refine ⟨w, (System.Reach.init oldStored_init).exec (fun _ _ => trivial) hexec, fun hkept => ?_⟩
  have hanswer := hkept.latest _ (List.mem_of_getElem? hr) "new".toList rfl (by decide)
  revert hanswer
  decide +kernel

end ProxmoxTool.SecretSettings
