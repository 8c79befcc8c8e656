import ProxmoxTool.Apps.Validate
import ProxmoxTool.Lib.Stateful
import ProxmoxTool.Mastodon.Remote

/-!
# The database lines of `.env.production`

The file is its list of lines; `_swap_env_db` edits the `DB_HOST=` and the `DB_PORT=` lines by two `sed` commands and
reads both back.  `Is f v env` says that the file has lines for the field `f` and that all of them set it to `v`.

`swapEnvDb_spec` is all the later proofs use: whether the swap raises or reports success, and which fields it has written,
in terms of the outcomes of its three commands.
-/

namespace ProxmoxTool.Mastodon

open Stateful

abbrev EnvFile := List Text

def Field.key : Field → Text
  | .host => ['D', 'B', '_', 'H', 'O', 'S', 'T', '=']
  | .port => ['D', 'B', '_', 'P', 'O', 'R', 'T', '=']

/-- `DB_HOST` and `DB_PORT` of one of the two databases. -/
structure Target where
  host : Text
  port : Text
deriving DecidableEq

def Target.get (t : Target) : Field → Text
  | .host => t.host
  | .port => t.port

/-- `sed -i 's|^KEY=.*|KEY=value|'`. -/
def sedLines (f : Field) (value : Text) (env : EnvFile) : EnvFile :=
  env.map fun l => if f.key.isPrefixOf l then f.key ++ value else l

/-- `grep -E '^DB_HOST=|^DB_PORT='`. -/
def grepLines (env : EnvFile) : EnvFile :=
  env.filter fun l => Field.host.key.isPrefixOf l || Field.port.key.isPrefixOf l

/-- Every line of the field `f` sets it to `v`, and there is one. -/
def Is (f : Field) (v : Text) (env : EnvFile) : Prop :=
  (∃ l ∈ env, f.key.isPrefixOf l = true) ∧ ∀ l ∈ env, f.key.isPrefixOf l = true → l = f.key ++ v

instance (f : Field) (v : Text) (env : EnvFile) : Decidable (Is f v env) :=
  inferInstanceAs (Decidable (_ ∧ _))

/-- `DB_HOST` and `DB_PORT` both hold the values of `t`. -/
def Holds (t : Target) (env : EnvFile) : Prop := ∀ f, Is f (t.get f) env

theorem holds_iff {t : Target} {env : EnvFile} : Holds t env ↔ Is .host t.host env ∧ Is .port t.port env :=
  ⟨fun h => ⟨h .host, h .port⟩, fun h f => by cases f with
    | host => exact h.1
    | port => exact h.2⟩

instance (t : Target) (env : EnvFile) : Decidable (Holds t env) := decidable_of_iff _ holds_iff.symm

/-- There is a line for each of the two fields. -/
def HasLines (env : EnvFile) : Prop := ∀ f : Field, ∃ l ∈ env, f.key.isPrefixOf l = true

theorem Holds.hasLines {t : Target} {env : EnvFile} (h : Holds t env) : HasLines env := fun f => (h f).1

private theorem key_isPrefixOf_iff {f g : Field} {v : Text} : g.key.isPrefixOf (f.key ++ v) = true ↔ f = g := by
  cases f <;> cases g <;> simp [Field.key]

theorem sedLines_is {f : Field} {v : Text} {env : EnvFile} (h : HasLines env) : Is f v (sedLines f v env) := by
  obtain ⟨l, hl, hk⟩ := h f
  refine ⟨⟨f.key ++ v, List.mem_map.2 ⟨l, hl, if_pos hk⟩, key_isPrefixOf_iff.2 rfl⟩, ?_⟩
  intro l' hl' hk'
  obtain ⟨l, -, rfl⟩ := List.mem_map.1 hl'
  by_cases hl : f.key.isPrefixOf l = true
  · exact if_pos hl
  · rw [if_neg hl] at hk'
    exact absurd hk' hl

private theorem sedLines_isPrefixOf {f g : Field} (hfg : f ≠ g) (v l : Text) :
    g.key.isPrefixOf (if f.key.isPrefixOf l then f.key ++ v else l) = true ↔ g.key.isPrefixOf l = true := by
  by_cases hl : f.key.isPrefixOf l = true
  · rw [if_pos hl]
    constructor
    · exact fun h => absurd (key_isPrefixOf_iff.1 h) hfg
    · intro hg
      obtain ⟨r, rfl⟩ := List.isPrefixOf_iff_prefix.1 hl
      exact absurd (key_isPrefixOf_iff.1 hg) hfg
  · rw [if_neg hl]

theorem sedLines_is_other {f g : Field} (hfg : f ≠ g) {v w : Text} {env : EnvFile} (h : Is g w env) :
    Is g w (sedLines f v env) := by
  obtain ⟨⟨l, hl, hk⟩, hall⟩ := h
  refine ⟨⟨_, List.mem_map.2 ⟨l, hl, rfl⟩, (sedLines_isPrefixOf hfg v l).2 hk⟩, ?_⟩
  intro l' hl' hk'
  obtain ⟨l, hl, rfl⟩ := List.mem_map.1 hl'
  have hg := (sedLines_isPrefixOf hfg v l).1 hk'
  -- a line of the other field starts with its own key, so the edit passes it over
  have hf : ¬ f.key.isPrefixOf l = true := by
    intro hf
    rw [hall l hl hg] at hf
    exact hfg (key_isPrefixOf_iff.1 hf).symm
  rw [if_neg hf]
  exact hall l hl hg

theorem sedLines_hasLines {f : Field} {v : Text} {env : EnvFile} (h : HasLines env) : HasLines (sedLines f v env) := by
  intro g
  by_cases hfg : f = g
  · exact hfg ▸ (sedLines_is h).1
  · obtain ⟨l, hl, hk⟩ := h g
    exact ⟨_, List.mem_map.2 ⟨l, hl, rfl⟩, (sedLines_isPrefixOf hfg v l).2 hk⟩

/-- A field holds one value. -/
theorem Is.unique {f : Field} {v w : Text} {env : EnvFile} (hv : Is f v env) (hw : Is f w env) : v = w := by
  obtain ⟨l, hl, hk⟩ := hv.1
  exact List.append_cancel_left ((hv.2 l hl hk).symm.trans (hw.2 l hl hk))

/-! ### `_swap_env_db` -/

inductive Raised
  | badAppDir | badHost
deriving DecidableEq

/-- What step 3 changes: the connection, the file and the two variables of the enclosing function. -/
structure State where
  live : Bool
  env : EnvFile
  envSwapped : Bool
  stashPending : Bool

/-- A part of step 3; a `ValueError` keeps the state it was raised in. -/
abbrev Run := EStateM Raised State

/-- A computation that only uses the connection. -/
def onSsh {α : Type} (x : Ssh α) : Run α := fun s => .ok (x s.live).1 { s with live := (x s.live).2 }

variable (u : CharTable) (σ : Outcomes) (w : Swap)

/-- The outcome of a `sed` command.  A newline in the value ends the script before its last `|`: `sed` refuses it. -/
def sedOutcome (f : Field) (value : Text) : Outcome :=
  if '\n' ∈ value then
    match σ (.sed w f) with
    | .dropped _ => .dropped false
    | _ => .failed [] false
  else σ (.sed w f)

def sed (f : Field) (value : Text) : Run Bool := fun s =>
  if s.live then
    let o := sedOutcome σ w f value
    .ok o.ok { s with live := o.keeps, env := if o.applied then sedLines f value s.env else s.env }
  else .ok false s

/-- The lines `grep` prints; `none` when it fails, as it does when no line matches. -/
def grep : Run (Option EnvFile) := fun s =>
  if s.live then
    let o := σ (.grep w)
    .ok (if o.ok && !(grepLines s.env).isEmpty then some (grepLines s.env) else none) { s with live := o.keeps }
  else .ok none s

/-- `missing` is empty: both expected lines are among those read back. -/
def verified (t : Target) (out : EnvFile) : Bool :=
  let lines := (out.map strip).filter (· ≠ [])
  lines.contains (Field.host.key ++ t.host) && lines.contains (Field.port.key ++ t.port)

/-- `_swap_env_db`. -/
def swapEnvDb (appDir : Text) (t : Target) : Run Bool := do
  if !u.validateAbsPath appDir then throw .badAppDir
  if !u.validateShellParam t.host then throw .badHost
  if !u.portPattern t.port then return false
  -- two commands: a failure of the second leaves the first one's edit in the file
  if !(← sed σ w .host t.host) then return false
  if !(← sed σ w .port t.port) then return false
  match ← grep σ w with
  | none => return false
  | some out => return verified t out

/-- Both values pass the checks of `_swap_env_db`. -/
def accepted (t : Target) : Bool := u.validateShellParam t.host && u.portPattern t.port

/-- Over a live connection, the swap to `t` writes the field. -/
def writes (t : Target) : Field → Bool
  | .host => accepted u t && (sedOutcome σ w .host t.host).applied
  | .port => accepted u t && (sedOutcome σ w .host t.host).ok && (sedOutcome σ w .port t.port).applied

/-- Over a live connection, the swap to `t` reports success. -/
def completes (t : Target) : Bool :=
  accepted u t && (sedOutcome σ w .host t.host).ok && (sedOutcome σ w .port t.port).ok && (σ (.grep w)).ok

variable {u σ w} {appDir : Text} {t : Target} {s : State}

theorem swapEnvDb_raises (ha : u.validateAbsPath appDir = true) (hh : u.validateShellParam t.host = false) :
    swapEnvDb u σ w appDir t s = .error .badHost s := by
  simp [swapEnvDb, ha, hh]

private theorem swapEnvDb_dead (ha : u.validateAbsPath appDir = true) (hh : u.validateShellParam t.host = true)
    (hs : s.live = false) : swapEnvDb u σ w appDir t s = .ok false s := by
  simp [swapEnvDb, ha, hh, sed, hs]

private theorem edit_hasLines {f : Field} {v : Text} {env : EnvFile} (b : Bool) (h : HasLines env) :
    HasLines (if b then sedLines f v env else env) := by
  cases b with
  | false => exact h
  | true => exact sedLines_hasLines h

private theorem edit_is {f g : Field} {v x : Text} {env : EnvFile} (b : Bool) (h : HasLines env) (hg : Is g x env) :
    Is g (if b && decide (f = g) then v else x) (if b then sedLines f v env else env) := by
  cases b with
  | false => exact hg
  | true =>
    by_cases hfg : f = g
    · subst hfg
      simpa using sedLines_is h
    · simpa [hfg] using sedLines_is_other hfg hg

private theorem mem_grepLines {f : Field} {v : Text} {env : EnvFile} (h : Is f v env) :
    f.key ++ v ∈ grepLines env := by
  obtain ⟨l, hl, hk⟩ := h.1
  rw [← h.2 l hl hk]
  refine List.mem_filter.2 ⟨hl, ?_⟩
  cases f with
  | host => simp [hk]
  | port => simp [hk]

/-- Once both fields are written, reading back finds both lines. -/
private theorem readBack_contains {f : Field} {v : Text} {env : EnvFile} (h : Is f v env)
    (hv : ∀ c ∈ v, isSpace c = false) : (((grepLines env).map strip).filter (· ≠ [])).contains (f.key ++ v) = true := by
  have hkey : ∀ c ∈ f.key, isSpace c = false := by
    have hall : f.key.all (fun c => !isSpace c) = true := by cases f <;> rfl
    simpa using hall
  have hstrip : strip (f.key ++ v) = f.key ++ v := by
    apply strip_of_forall_not_space
    intro c hc
    rcases List.mem_append.1 hc with hc | hc
    · exact hkey c hc
    · exact hv c hc
  have hne : f.key ++ v ≠ [] := by cases f <;> simp [Field.key]
  rw [List.contains_iff_mem, List.mem_filter]
  exact ⟨List.mem_map.2 ⟨_, mem_grepLines h, hstrip⟩, decide_eq_true hne⟩

private theorem newline_not_mem_of_ok {f : Field} {v : Text} (h : (sedOutcome σ w f v).ok = true) : '\n' ∉ v := by
  intro hn
  unfold sedOutcome at h
  rw [if_pos hn] at h
  cases ho : σ (.sed w f) <;> simp [ho, Outcome.ok] at h

/-- A swap to values it accepts reports success exactly when its three commands do, and by then has written both fields;
a swap that stops early has written what its commands applied up to there.  A dead connection writes nothing. -/
theorem swapEnvDb_spec (ha : u.validateAbsPath appDir = true) (hh : u.validateShellParam t.host = true)
    (h : HasLines s.env) :
    ∃ live env, swapEnvDb u σ w appDir t s = .ok (s.live && completes u σ w t) { s with live := live, env := env } ∧
      HasLines env ∧ ((s.live && completes u σ w t) = true → live = true) ∧
      ∀ f v, Is f v s.env → Is f (if s.live && writes u σ w t f then t.get f else v) env := by
  cases hs : s.live with
  | false =>
    refine ⟨s.live, s.env, ?_, h, by simp, ?_⟩
    · rw [swapEnvDb_dead ha hh hs, Bool.false_and]
    · exact fun f v hf => hf
  | true =>
    cases hp : u.portPattern t.port with
    | false =>
      have hacc : accepted u t = false := by rw [accepted, hp, Bool.and_false]
      refine ⟨s.live, s.env, ?_, h, by simp [completes, hacc], ?_⟩
      · simp [swapEnvDb, ha, hh, hp, completes, hacc]
      · intro f v hf
        cases f <;> simpa [writes, hacc] using hf
    | true =>
      have hacc : accepted u t = true := by rw [accepted, hh, hp, Bool.and_true]
      have hsed : ∀ (r : State) (f : Field) (v : Text), r.live = true → sed σ w f v r =
          .ok (sedOutcome σ w f v).ok { r with
            live := (sedOutcome σ w f v).keeps
            env := if (sedOutcome σ w f v).applied then sedLines f v r.env else r.env } := by
        intro r f v hr
        rw [sed, if_pos hr]
      cases h1 : (sedOutcome σ w .host t.host).ok with
      | false =>
        refine ⟨(sedOutcome σ w .host t.host).keeps,
          if (sedOutcome σ w .host t.host).applied then sedLines .host t.host s.env else s.env,
          ?_, edit_hasLines _ h, by simp [completes, h1], ?_⟩
        · simp [swapEnvDb, ha, hh, hp, hsed, hs, h1, completes]
        · intro f v hf
          have hedit := edit_is (f := .host) (v := t.host) (sedOutcome σ w .host t.host).applied h hf
          cases f with
          | host => simpa [writes, hacc, Target.get] using hedit
          | port => simpa [writes, h1] using hedit
      | true =>
        have hl1 : HasLines (sedLines .host t.host s.env) := sedLines_hasLines h
        have hfields : ∀ f v, Is f v s.env → Is f (if writes u σ w t f then t.get f else v)
            (if (sedOutcome σ w .port t.port).applied then sedLines .port t.port (sedLines .host t.host s.env)
              else sedLines .host t.host s.env) := by
          intro f v hf
          have hedit := edit_is (f := .port) (v := t.port) (sedOutcome σ w .port t.port).applied hl1
            (edit_is (f := .host) (v := t.host) true h hf)
          cases f with
          | host | port => simpa [writes, hacc, h1, Target.get] using hedit
        cases h2 : (sedOutcome σ w .port t.port).ok with
        | false =>
          refine ⟨(sedOutcome σ w .port t.port).keeps, _, ?_, edit_hasLines _ hl1, by simp [completes, h2], hfields⟩
          simp [swapEnvDb, ha, hh, hp, hsed, hs, h1, h2, completes]
        | true =>
          have hport : Is .port t.port (sedLines .port t.port (sedLines .host t.host s.env)) := sedLines_is hl1
          have hhost : Is .host t.host (sedLines .port t.port (sedLines .host t.host s.env)) :=
            sedLines_is_other (by decide) (sedLines_is h)
          have hread : verified t (grepLines (sedLines .port t.port (sedLines .host t.host s.env))) = true :=
            Bool.and_eq_true_iff.2 ⟨readBack_contains hhost (u.not_isSpace_of_validateShellParam hh),
              readBack_contains hport (u.not_isSpace_of_portPattern hp (newline_not_mem_of_ok h2))⟩
          have hne : (grepLines (sedLines .port t.port (sedLines .host t.host s.env))).isEmpty = false :=
            List.isEmpty_eq_false_iff.2 (List.ne_nil_of_mem (mem_grepLines hhost))
          rw [Outcome.applied_of_ok h2] at hfields
          refine ⟨(σ (.grep w)).keeps, _, ?_, sedLines_hasLines hl1, ?_, hfields⟩
          · cases h3 : (σ (.grep w)).ok with
            | false => simp [swapEnvDb, ha, hh, hp, hsed, hs, h1, h2, grep, completes, h3]
            | true =>
              simp [swapEnvDb, ha, hh, hp, hsed, hs, h1, h2, grep, completes, h3, hacc, hne, hread]
          · intro hc
            simp only [completes, Bool.and_eq_true] at hc
            exact Outcome.keeps_of_ok hc.2.2

end ProxmoxTool.Mastodon
