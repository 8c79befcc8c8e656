import ProxmoxTool.Lib.System
import ProxmoxTool.Lib.Text
import ProxmoxTool.Lib.Window
import Mathlib.Algebra.Order.Group.Basic
import Mathlib.Algebra.Order.Ring.Int

/-!
# Login rate limiting

The two in-process limiters: the one of the web login in `routes/auth.py` and the one of the API in `auth/jwt_auth.py`.
They are the same code with limits of their own, so `prune`, `check` and `record` take the limits, and the functions of the
source are instances of them.  A bucket is the list of times of the failures of one key; pruning and trimming happen inside
every call, for all keys.

The reference is the log of all recorded failures, which forgets nothing.  `Mirrors` says that for every cutoff that is still
to come a bucket and the log show the same failures after it; as long as no more keys than the cap have a failure inside the
window, nothing is evicted and `Mirrors` is kept (`limiter_refines_log`).  Time stamps are an ordered group: `time.time()` and
the window are floats whose difference is exact.
-/

namespace ProxmoxTool.RateLimit

abbrev Attempts (κ T : Type) := Dict κ (List T)

/-- `_FAIL_WINDOW`, `_FAIL_LIMIT` and `_FAIL_MAX_KEYS`. -/
structure Limits (T : Type) where
  window : T
  limit : Nat
  maxKeys : Nat

section

variable {κ T : Type} [DecidableEq κ]

def bucket (attempts : Attempts κ T) (key : κ) : List T := (attempts.get? key).getD []

/-- The failures recorded so far, each with its key. -/
abbrev Log (κ T : Type) := List (κ × T)

/-- The failures of a key. -/
def Log.failures (log : Log κ T) (key : κ) : List T := (log.filter fun e => decide (e.1 = key)).map Prod.snd

end

section

variable {κ T : Type} [DecidableEq κ] [LinearOrder T]

/-- The order of `sorted(attempts, key=lambda k: attempts[k][-1])`. -/
def lastLe (e e' : κ × List T) : Bool :=
  match e.2.getLast?, e'.2.getLast? with
  | some t, some t' => decide (t ≤ t')
  | _, _ => true

/-- `_prune_failed_attempts`: the stale buckets go, and beyond the cap the least recently active keys. -/
def prune (L : Limits T) (cutoff : T) (attempts : Attempts κ T) : Attempts κ T :=
  let live := attempts.filter fun e => !stale cutoff e.2
  if L.maxKeys < live.length then
    Dict.popAll live (((live.mergeSort lastLe).take (live.length - L.maxKeys)).map Prod.fst)
  else live

/-- The keys with a failure after the cutoff. -/
def Log.keysAfter (log : Log κ T) (cutoff : T) : List κ :=
  ((log.filter fun e => decide (cutoff < e.2)).map Prod.fst).dedup

variable [AddCommGroup T]

/-- `_check_rate_limit` at the time `now`: whether the key is locked out, and the dictionary it leaves. -/
def check (L : Limits T) (key : κ) (now : T) (attempts : Attempts κ T) : Bool × Attempts κ T :=
  let cutoff := now - L.window
  let attempts := prune L cutoff attempts
  let times := recent cutoff (bucket attempts key)
  (decide (L.limit ≤ times.length), if times = [] then attempts.pop key else attempts.set key times)

/-- `_record_failed_login`; it reads the clock twice. -/
def record (L : Limits T) (key : κ) (now later : T) (attempts : Attempts κ T) : Attempts κ T :=
  prune L (later - L.window) (attempts.set key (bucket attempts key ++ [now]))

end

/-! ### The two limiters -/

section

variable {T : Type} [LinearOrder T] [AddCommGroup T] (second : T)

def webLimits : Limits T := ⟨300 • second, 10, 4096⟩

def apiLimits : Limits T := ⟨300 • second, 5, 4096⟩

def pruneFailedAttempts : T → Attempts Text T → Attempts Text T := prune (webLimits second)

def checkRateLimit : Text → T → Attempts Text T → Bool × Attempts Text T := check (webLimits second)

def recordFailedLogin : Text → T → T → Attempts Text T → Attempts Text T := record (webLimits second)

def pruneApiFailedAttempts : T → Attempts Text T → Attempts Text T := prune (apiLimits second)

def checkApiRateLimit : Text → T → Attempts Text T → Bool × Attempts Text T := check (apiLimits second)

def recordApiFailedLogin : Text → T → T → Attempts Text T → Attempts Text T := record (apiLimits second)

end

/-! ### Runs and the reference -/

section

variable {κ T : Type} [DecidableEq κ] [LinearOrder T] [AddCommGroup T]

/-- The reference: the key has as many failures inside the window as the limit. -/
def Log.locked (L : Limits T) (log : Log κ T) (key : κ) (now : T) : Bool :=
  decide (L.limit ≤ (recent (now - L.window) (log.failures key)).length)

/-- At most the cap's number of keys have a failure inside the window. -/
def Log.Fits (L : Limits T) (log : Log κ T) (now : T) : Prop := (log.keysAfter (now - L.window)).length ≤ L.maxKeys

instance (L : Limits T) (log : Log κ T) (now : T) : Decidable (log.Fits L now) := inferInstanceAs (Decidable (_ ≤ _))

/-- The dictionary of the limiter, the log, and the last reading of the clock. -/
structure State (κ T : Type) where
  attempts : Attempts κ T := []
  log : Log κ T := []
  clock : T
deriving DecidableEq

inductive Event (κ T : Type)
  | check (key : κ) (now : T)
  | record (key : κ) (now later : T)

/-- The clock does not go back. -/
def step (L : Limits T) (s : State κ T) : Event κ T → Option (State κ T)
  | .check key now =>
    if s.clock ≤ now then some { s with attempts := (check L key now s.attempts).2, clock := now } else none
  | .record key now later =>
    if s.clock ≤ now ∧ now ≤ later then
      some { attempts := record L key now later s.attempts, log := s.log ++ [(key, now)], clock := later }
    else none

def system (L : Limits T) : System (State κ T) (Event κ T) where
  init s := s.attempts = [] ∧ s.log = []
  step := step L

/-- At the time at which the event prunes, the keys fit. -/
def Event.fits (L : Limits T) (s : State κ T) : Event κ T → Prop
  | .check _ now => s.log.Fits L now
  | .record key now later => Log.Fits L (s.log ++ [(key, now)]) later

instance (L : Limits T) (s : State κ T) (e : Event κ T) : Decidable (e.fits L s) := by
  cases e with
  | check key now => exact inferInstanceAs (Decidable (Log.Fits L s.log now))
  | record key now later => exact inferInstanceAs (Decidable (Log.Fits L (s.log ++ [(key, now)]) later))

end

/-! ### The number of keys -/

section

variable {κ T : Type} [DecidableEq κ] [LinearOrder T] {L : Limits T} {attempts : Attempts κ T}

/-- Pruning leaves at most as many keys as the cap. -/
theorem length_prune_le (h : (attempts.map Prod.fst).Nodup) (cutoff : T) : (prune L cutoff attempts).length ≤ L.maxKeys := by
  have hlive := Dict.nodup_keys_filter h fun e => !stale cutoff e.2
  unfold prune
  dsimp only
  split
  · rw [Dict.length_popAll_take hlive (List.mergeSort_perm _ _)]
    omega
  · omega

variable [AddCommGroup T]

theorem length_record_le (h : (attempts.map Prod.fst).Nodup) (key : κ) (now later : T) :
    (record L key now later attempts).length ≤ L.maxKeys :=
  length_prune_le (Dict.nodup_keys_set h _ _) _

theorem length_check_le (h : (attempts.map Prod.fst).Nodup) (key : κ) (now : T) :
    ((check L key now attempts).2).length ≤ L.maxKeys := by
  have hle := length_prune_le (L := L) h (now - L.window)
  unfold check
  dsimp only
  split
  · exact (List.length_filter_le _ _).trans hle
  · rename_i hne
    -- a bucket with recent times is in the dictionary already
    have hmem : key ∈ (prune L (now - L.window) attempts).map Prod.fst := by
      by_contra hnot
      cases hget : (prune L (now - L.window) attempts).get? key with
      | none => simp [bucket, hget] at hne
      | some v => exact hnot (List.mem_map_of_mem (f := Prod.fst) (Dict.mem_of_get? hget))
    rw [Dict.length_set_of_mem hmem]
    exact hle

end

/-! ### Buckets and the log -/

section

variable {κ T : Type} [DecidableEq κ] {attempts : Attempts κ T}

theorem bucket_set (attempts : Attempts κ T) (key key' : κ) (times : List T) :
    bucket (attempts.set key times) key' = if key' = key then times else bucket attempts key' := by
  unfold bucket
  by_cases hk : key' = key
  · rw [if_pos hk, hk, Dict.get?_set_self, Option.getD_some]
  · rw [if_neg hk, Dict.get?_set_of_ne hk]

theorem bucket_pop (attempts : Attempts κ T) (key key' : κ) :
    bucket (attempts.pop key) key' = if key' = key then [] else bucket attempts key' := by
  unfold bucket
  by_cases hk : key' = key
  · have hnone : (attempts.pop key).get? key = none := by
      cases hget : (attempts.pop key).get? key with
      | none => rfl
      | some v =>
        have hmem := List.mem_map_of_mem (f := Prod.fst) (Dict.mem_of_get? hget)
        exact absurd hmem (Dict.not_mem_keys_pop attempts key)
    rw [if_pos hk, hk, hnone, Option.getD_none]
  · rw [if_neg hk, Dict.get?_pop_of_ne hk]

theorem bucket_of_mem (h : (attempts.map Prod.fst).Nodup) {e : κ × List T} (he : e ∈ attempts) :
    bucket attempts e.1 = e.2 := by
  rw [bucket, Dict.get?_of_mem h he, Option.getD_some]

theorem mem_failures {log : Log κ T} {key : κ} {t : T} : t ∈ log.failures key ↔ (key, t) ∈ log := by
  simp only [Log.failures, List.mem_map, List.mem_filter, decide_eq_true_eq]
  constructor
  · rintro ⟨⟨k, t⟩, ⟨hmem, rfl⟩, rfl⟩
    exact hmem
  · intro hmem
    exact ⟨(key, t), ⟨hmem, rfl⟩, rfl⟩

theorem failures_append (log : Log κ T) (key key' : κ) (t : T) :
    Log.failures (log ++ [(key, t)]) key' = if key' = key then log.failures key' ++ [t] else log.failures key' := by
  unfold Log.failures
  rw [List.filter_append, List.map_append]
  by_cases hk : key' = key
  · simp [hk]
  · simp [hk, Ne.symm hk]

variable [LinearOrder T]

theorem bucket_filter (h : (attempts.map Prod.fst).Nodup) (cutoff : T) (key : κ) :
    bucket (attempts.filter fun e => !stale cutoff e.2) key =
      if stale cutoff (bucket attempts key) then [] else bucket attempts key := by
  unfold bucket
  rw [Dict.get?_filter h]
  cases attempts.get? key with
  | none => rfl
  | some times =>
    cases hs : stale cutoff times with
    | true => simp [Option.filter, hs]
    | false => simp [Option.filter, hs]

/-- The buckets are in order, and after every cutoff from `cutoff` on they show the failures of the log. -/
structure Mirrors (log : Log κ T) (cutoff : T) (attempts : Attempts κ T) : Prop where
  nodup : (attempts.map Prod.fst).Nodup
  sorted : ∀ key, (bucket attempts key).Pairwise (· ≤ ·)
  logged : ∀ key, ∀ t ∈ bucket attempts key, t ∈ log.failures key
  same : ∀ key cutoff', cutoff ≤ cutoff' → recent cutoff' (bucket attempts key) = recent cutoff' (log.failures key)

variable {L : Limits T} {log : Log κ T} {cutoff : T}

theorem Mirrors.mono {cutoff' : T} (h : Mirrors log cutoff attempts) (hle : cutoff ≤ cutoff') : Mirrors log cutoff' attempts :=
  ⟨h.nodup, h.sorted, h.logged, fun key c hc => h.same key c (hle.trans hc)⟩

/-- The live buckets belong to keys with a failure after the cutoff. -/
theorem Mirrors.length_live_le (h : Mirrors log cutoff attempts) :
    (attempts.filter fun e => !stale cutoff e.2).length ≤ (log.keysAfter cutoff).length := by
  refine Dict.length_le_of_keys (Dict.nodup_keys_filter h.nodup _) fun e he => ?_
  obtain ⟨hmem, hlive⟩ := List.mem_filter.1 he
  obtain ⟨t, ht⟩ := exists_recent (by simpa using hlive : stale cutoff e.2 = false)
  rw [← bucket_of_mem h.nodup hmem, h.same e.1 cutoff le_rfl, mem_recent, mem_failures] at ht
  exact List.mem_map.2 ⟨(e.1, t), List.mem_filter.2 ⟨ht.1, decide_eq_true ht.2⟩, rfl⟩

/-- As long as the keys fit, pruning drops buckets without a failure after the cutoff, and nothing else. -/
theorem Mirrors.prune (h : Mirrors log cutoff attempts) (hfits : (log.keysAfter cutoff).length ≤ L.maxKeys) :
    Mirrors log cutoff (prune L cutoff attempts) := by
  have hkeep : RateLimit.prune L cutoff attempts = attempts.filter fun e => !stale cutoff e.2 := by
    have hle := h.length_live_le.trans hfits
    unfold RateLimit.prune
    exact if_neg (Nat.not_lt.2 hle)
  rw [hkeep]
  refine ⟨Dict.nodup_keys_filter h.nodup _, fun key => ?_, fun key t ht => ?_, fun key cutoff' hle => ?_⟩
  · rw [bucket_filter h.nodup]
    split
    · exact List.Pairwise.nil
    · exact h.sorted key
  · rw [bucket_filter h.nodup] at ht
    split at ht
    · cases ht
    · exact h.logged key t ht
  · rw [bucket_filter h.nodup, ← h.same key cutoff' hle]
    split
    · rename_i hstale
      have hnil := recent_eq_nil (h.sorted key) hstale
      rw [← recent_recent hle (bucket attempts key), hnil]
    · rfl

theorem Mirrors.append {key : κ} {now : T} (h : Mirrors log cutoff attempts) (hle : ∀ t ∈ bucket attempts key, t ≤ now) :
    Mirrors (log ++ [(key, now)]) cutoff (attempts.set key (bucket attempts key ++ [now])) := by
  refine ⟨Dict.nodup_keys_set h.nodup _ _, fun key' => ?_, fun key' t ht => ?_, fun key' cutoff' hc => ?_⟩
  · rw [bucket_set]
    split
    · refine List.pairwise_append.2 ⟨h.sorted key, List.pairwise_singleton _ _, fun t ht t' ht' => ?_⟩
      rw [List.mem_singleton.1 ht']
      exact hle t ht
    · exact h.sorted key'
  · rw [bucket_set] at ht
    rw [failures_append]
    by_cases hk : key' = key
    · rw [if_pos hk] at ht ⊢
      rw [hk]
      rcases List.mem_append.1 ht with ht | ht
      · exact List.mem_append_left _ (h.logged key t ht)
      · exact List.mem_append_right _ ht
    · rw [if_neg hk] at ht ⊢
      exact h.logged key' t ht
  · rw [bucket_set, failures_append]
    by_cases hk : key' = key
    · rw [if_pos hk, if_pos hk, recent_append, recent_append, hk, h.same key cutoff' hc]
    · rw [if_neg hk, if_neg hk, h.same key' cutoff' hc]

/-- Trimming the bucket of a key to the window. -/
theorem Mirrors.trim (h : Mirrors log cutoff attempts) (key : κ) :
    Mirrors log cutoff (if recent cutoff (bucket attempts key) = [] then attempts.pop key
      else attempts.set key (recent cutoff (bucket attempts key))) := by
  have hbucket : ∀ key', bucket (if recent cutoff (bucket attempts key) = [] then attempts.pop key
      else attempts.set key (recent cutoff (bucket attempts key))) key' =
        if key' = key then recent cutoff (bucket attempts key) else bucket attempts key' := by
    intro key'
    split
    · rename_i hnil
      rw [bucket_pop, hnil]
    · exact bucket_set _ _ _ _
  refine ⟨?_, fun key' => ?_, fun key' t ht => ?_, fun key' cutoff' hc => ?_⟩
  · split
    · exact Dict.nodup_keys_filter h.nodup _
    · exact Dict.nodup_keys_set h.nodup _ _
  · rw [hbucket]
    split
    · exact (h.sorted key).sublist List.filter_sublist
    · exact h.sorted key'
  · rw [hbucket] at ht
    split at ht
    · rename_i hk
      rw [hk]
      exact h.logged key t (mem_recent.1 ht).1
    · exact h.logged key' t ht
  · rw [hbucket, ← h.same key' cutoff' hc]
    split
    · rename_i hk
      rw [recent_recent hc, hk]
    · rfl

end

/-! ### The invariant -/

section

variable {κ T : Type} [DecidableEq κ] [LinearOrder T] [AddCommGroup T] {L : Limits T}

/-- The dictionary mirrors the log at the present time, no failure lies ahead, and the keys are within the cap. -/
structure Sound (L : Limits T) (s : State κ T) : Prop where
  mirrors : Mirrors s.log (s.clock - L.window) s.attempts
  past : ∀ key, ∀ t ∈ s.log.failures key, t ≤ s.clock
  keys : s.attempts.length ≤ L.maxKeys

variable [IsOrderedAddMonoid T]

theorem Sound.step {s s' : State κ T} {e : Event κ T} (h : Sound L s) (hfits : e.fits L s) (hs : step L s e = some s') :
    Sound L s' := by
  cases e with
  | check key now =>
    obtain ⟨hnow, rfl⟩ := System.of_guard hs
    have hcutoff : s.clock - L.window ≤ now - L.window := sub_le_sub_right hnow _
    exact ⟨((h.mirrors.mono hcutoff).prune hfits).trim key, fun key' t ht => (h.past key' t ht).trans hnow,
      length_check_le h.mirrors.nodup key now⟩
  | record key now later =>
    obtain ⟨⟨hnow, hlater⟩, rfl⟩ := System.of_guard hs
    have hcutoff : s.clock - L.window ≤ later - L.window := sub_le_sub_right (hnow.trans hlater) _
    have hbucket : ∀ t ∈ bucket s.attempts key, t ≤ now := fun t ht =>
      (h.past key t (h.mirrors.logged key t ht)).trans hnow
    refine ⟨((h.mirrors.append hbucket).mono hcutoff).prune hfits, fun key' t ht => ?_,
      length_record_le h.mirrors.nodup key now later⟩
    have hold : ∀ t ∈ s.log.failures key', t ≤ later := fun t ht => (h.past key' t ht).trans (hnow.trans hlater)
    dsimp only at ht ⊢
    rw [failures_append] at ht
    split at ht
    · rcases List.mem_append.1 ht with ht | ht
      · exact hold t ht
      · rw [List.mem_singleton.1 ht]
        exact hlater
    · exact hold t ht

theorem sound_of_reach {s : State κ T} (h : (system L).Reach (Event.fits L) s) : Sound L s := by
  refine System.Reach.invariant (I := Sound L) ?_ (fun s e s' hs hfits hstep => hs.step hfits hstep) h
  rintro s ⟨hattempts, hlog⟩
  refine ⟨⟨?_, fun key => ?_, fun key t ht => ?_, fun key cutoff _ => ?_⟩, fun key t ht => ?_, ?_⟩
  · simp [hattempts]
  · simp [hattempts, bucket, Dict.get?]
  · simp [hattempts, bucket, Dict.get?] at ht
  · simp [hattempts, hlog, bucket, Dict.get?, Log.failures]
  · simp [hlog, Log.failures] at ht
  · simp [hattempts]

/-- In every run with a clock that does not go back, in which the keys with a failure inside the window never outnumber the cap:
the keys are within the cap, and a check says that a key is locked exactly when the log has as many failures of the key
inside the window as the limit. -/
theorem limiter_refines_log {s : State κ T} (h : (system L).Reach (Event.fits L) s) :
    s.attempts.length ≤ L.maxKeys ∧ ∀ key now, s.clock ≤ now → s.log.Fits L now →
      (check L key now s.attempts).1 = s.log.locked L key now ∧ (check L key now s.attempts).2.length ≤ L.maxKeys := by
  have hsound := sound_of_reach h
  refine ⟨hsound.keys, fun key now hnow hfits => ⟨?_, length_check_le hsound.mirrors.nodup key now⟩⟩
  have hcutoff : s.clock - L.window ≤ now - L.window := sub_le_sub_right hnow _
  have hpruned := (hsound.mirrors.mono hcutoff).prune (L := L) hfits
  have hsame := hpruned.same key (now - L.window) le_rfl
  unfold check Log.locked
  dsimp only
  rw [hsame]

end

def exampleIp : Text := "10.0.0.5".toList

/-- Five failures of one address, a second apart. -/
def exampleEvents : List (Event Text Int) := [0, 1, 2, 3, 4].map fun t => .record exampleIp t t

def exampleState (L : Limits Int) : State Text Int :=
  ((system L).exec ⟨[], [], 0⟩ exampleEvents).getD ⟨[], [], 0⟩

/-- The API limiter refuses the address for as long as all five failures are inside the window; the web limiter does not. -/
theorem example_limited :
    (checkApiRateLimit 1 exampleIp 299 (exampleState (apiLimits 1)).attempts).1 = true ∧
    (checkApiRateLimit 1 exampleIp 300 (exampleState (apiLimits 1)).attempts).1 = false ∧
    (checkRateLimit 1 exampleIp 299 (exampleState (webLimits 1)).attempts).1 = false := by
  have hstart : ∀ L : Limits Int, (system L).Reach (Event.fits L) (⟨[], [], 0⟩ : State Text Int) :=
    fun L => System.Reach.init ⟨rfl, rfl⟩
  have hexec : ∀ L ∈ [apiLimits 1, webLimits 1],
      ((system L).guarded (Event.fits L)).exec ⟨[], [], 0⟩ exampleEvents = some (exampleState L) := by decide +kernel
  have hapi := (hstart (apiLimits 1)).guarded_exec (hexec _ (.head _))
  have hweb := (hstart (webLimits 1)).guarded_exec (hexec _ (.tail _ (.head _)))
  have h299 := ((limiter_refines_log hapi).2 exampleIp 299 (by decide +kernel) (by decide +kernel)).1
  have h300 := ((limiter_refines_log hapi).2 exampleIp 300 (by decide +kernel) (by decide +kernel)).1
  have hw := ((limiter_refines_log hweb).2 exampleIp 299 (by decide +kernel) (by decide +kernel)).1
  refine ⟨h299.trans ?_, h300.trans ?_, hw.trans ?_⟩
  · decide +kernel
  · decide +kernel
  · decide +kernel

end ProxmoxTool.RateLimit
