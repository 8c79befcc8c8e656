import ProxmoxTool.Lib.Dict
import Mathlib.Data.List.Induction

/-!
# The settings cache of a request

`Setting.get`, `Setting.set` and `Setting.set_no_commit` of `models.py` within one request.  The request keeps what it has
looked up in `g._settings_cache`; a write drops the cache.  What is kept under a key without a row is the default of the
lookup, so the reference is the lookup outside a request, `lookUp`, and `reads`, the lookups since the last write: a key that
is not stored is answered with the default of its first lookup (`get_eq`).
-/

namespace ProxmoxTool.Settings

variable {K V : Type} [DecidableEq K]

/-- `Setting.get` outside a request: the value of the row, or the default. -/
def lookUp (rows : Dict K V) (key : K) (default : V) : V := (rows.get? key).getD default

/-- The settings table and `g._settings_cache`. -/
structure Request (K V : Type) where
  rows : Dict K V
  cache : Option (Dict K V) := none

/-- `Setting.get` within a request. -/
def Request.get (r : Request K V) (key : K) (default : V) : V × Request K V :=
  let cache := r.cache.getD []
  match cache.get? key with
  | some value => (value, { r with cache := some cache })
  | none =>
    let value := lookUp r.rows key default
    (value, { r with cache := some (cache.set key value) })

/-- `Setting.set_no_commit`. -/
def Request.setNoCommit (r : Request K V) (key : K) (value : V) : Request K V := { r with rows := r.rows.set key value }

/-- `Setting.invalidate_cache`. -/
def Request.invalidateCache (r : Request K V) : Request K V := { r with cache := none }

/-- `Setting.set`: the write is committed and the cache dropped. -/
def Request.set (r : Request K V) (key : K) (value : V) : Request K V := (r.setNoCommit key value).invalidateCache

/-- What a request does with settings; a batch is a row of `set_no_commit` calls and `invalidate_cache` behind them. -/
inductive Call (K V : Type)
  | get (key : K) (default : V)
  | set (key : K) (value : V)
  | batch (writes : List (K × V))

def Request.serve (r : Request K V) : Call K V → Request K V
  | .get key default => (r.get key default).2
  | .set key value => r.set key value
  | .batch writes => (writes.foldl (fun r w => r.setNoCommit w.1 w.2) r).invalidateCache

/-- The request after some calls. -/
def after (rows : Dict K V) (calls : List (Call K V)) : Request K V := calls.foldl Request.serve ⟨rows, none⟩

/-- Every `get` of the request answers as it does outside a request. -/
def Transparent (rows : Dict K V) (calls : List (Call K V)) : Prop :=
  ∀ before key default rest, calls = before ++ .get key default :: rest →
    ((after rows before).get key default).1 = lookUp (after rows before).rows key default

/-! ### The reference -/

/-- The rows that a call leaves. -/
def Call.write (rows : Dict K V) : Call K V → Dict K V
  | .get _ _ => rows
  | .set key value => rows.set key value
  | .batch writes => rows.setAll writes

/-- The rows after some calls: the writes alone. -/
def stored (rows : Dict K V) (calls : List (Call K V)) : Dict K V := calls.foldl Call.write rows

/-- The lookups since the last write, with their defaults. -/
def reads (calls : List (Call K V)) : Dict K V :=
  calls.foldl (fun found call => match call with
    | .get key default => found ++ [(key, default)]
    | _ => []) []

/-- A key without a row is looked up with the default of its first lookup since the last write. -/
def SameDefaults (rows : Dict K V) (calls : List (Call K V)) : Prop :=
  ∀ before key default rest, calls = before ++ .get key default :: rest → (stored rows before).get? key = none →
    ∀ first, (reads before).get? key = some first → first = default

/-! ### What a request holds -/

/-- The cache answers every key looked up since the last write, with the first default given. -/
structure Holds (rows : Dict K V) (calls : List (Call K V)) (r : Request K V) : Prop where
  rows_eq : r.rows = stored rows calls
  cached : ∀ key, (r.cache.getD []).get? key = ((reads calls).get? key).map (lookUp r.rows key)

theorem foldl_setNoCommit (writes : List (K × V)) (r : Request K V) :
    writes.foldl (fun r w => r.setNoCommit w.1 w.2) r = { r with rows := r.rows.setAll writes } := by
  induction writes generalizing r with
  | nil => rfl
  | cons w writes ih => exact ih (r.setNoCommit w.1 w.2)

theorem Request.get_of_cached {r : Request K V} {key : K} {value : V} (h : (r.cache.getD []).get? key = some value)
    (default : V) : r.get key default = (value, { r with cache := some (r.cache.getD []) }) := by
  simp only [Request.get, h]

theorem Request.get_of_not_cached {r : Request K V} {key : K} (h : (r.cache.getD []).get? key = none) (default : V) :
    r.get key default = (lookUp r.rows key default,
      { r with cache := some ((r.cache.getD []).set key (lookUp r.rows key default)) }) := by
  simp only [Request.get, h]

/-- A lookup leaves the rows. -/
theorem Request.get_rows (r : Request K V) (key : K) (default : V) : (r.get key default).2.rows = r.rows := by
  cases h : (r.cache.getD []).get? key with
  | none => rw [Request.get_of_not_cached h]
  | some value => rw [Request.get_of_cached h]

/-- The answer of a lookup, from the lookups before it. -/
theorem Holds.get_eq {rows : Dict K V} {calls : List (Call K V)} {r : Request K V} (h : Holds rows calls r) (key : K)
    (default : V) : (r.get key default).1 = lookUp (stored rows calls) key (((reads calls).get? key).getD default) := by
  have hcached := h.cached key
  rw [← h.rows_eq]
  cases hfirst : (reads calls).get? key with
  | none =>
    rw [hfirst, Option.map_none] at hcached
    rw [Request.get_of_not_cached hcached]
    rfl
  | some first =>
    rw [hfirst, Option.map_some] at hcached
    rw [Request.get_of_cached hcached]
    rfl

/-- A lookup keeps the first default of every key. -/
theorem Holds.get {rows : Dict K V} {calls : List (Call K V)} {r : Request K V} (h : Holds rows calls r) (key : K)
    (default : V) : Holds rows (calls ++ [.get key default]) (r.get key default).2 := by
  have hreads : reads (calls ++ [.get key default]) = reads calls ++ [(key, default)] := by
    rw [reads, List.foldl_append]
    rfl
  have hstored : stored rows (calls ++ [.get key default]) = stored rows calls := by
    rw [stored, List.foldl_append]
    rfl
  have hcached := h.cached key
  cases hfirst : (r.cache.getD []).get? key with
  | some value =>
    rw [Request.get_of_cached hfirst]
    refine ⟨h.rows_eq.trans hstored.symm, fun k => ?_⟩
    have hread : ∃ first, (reads calls).get? key = some first := by
      rw [hfirst] at hcached
      obtain ⟨first, hread, -⟩ := Option.map_eq_some_iff.1 hcached.symm
      exact ⟨first, hread⟩
    obtain ⟨first, hread⟩ := hread
    rw [Option.getD_some, h.cached k, hreads, Dict.get?_append_singleton]
    by_cases hk : key = k
    · subst hk
      rw [hread, Option.some_or]
    · rw [if_neg hk, Option.or_none]
  | none =>
    rw [Request.get_of_not_cached hfirst]
    refine ⟨h.rows_eq.trans hstored.symm, fun k => ?_⟩
    rw [Option.getD_some, hreads, Dict.get?_append_singleton]
    by_cases hk : key = k
    · subst hk
      have hread : (reads calls).get? key = none := by
        rw [hfirst] at hcached
        exact Option.map_eq_none_iff.1 hcached.symm
      rw [Dict.get?_set_self, hread, if_pos rfl, Option.none_or, Option.map_some]
    · rw [Dict.get?_set_of_ne (Ne.symm hk), h.cached k, if_neg hk, Option.or_none]

theorem holds_after (rows : Dict K V) (calls : List (Call K V)) : Holds rows calls (after rows calls) := by
  induction calls using List.reverseRecOn with
  | nil => exact ⟨rfl, fun _ => rfl⟩
  | append_singleton calls call ih =>
    rw [after, List.foldl_append, ← after]
    have hstored : stored rows (calls ++ [call]) = call.write (stored rows calls) := by
      rw [stored, List.foldl_append]
      rfl
    cases call with
    | get key default => exact ih.get key default
    | set key value =>
      refine ⟨?_, fun k => ?_⟩
      · rw [hstored, ← ih.rows_eq]
        rfl
      · rw [reads, List.foldl_append]
        rfl
    | batch writes =>
      refine ⟨?_, fun k => ?_⟩
      · rw [hstored, ← ih.rows_eq, List.foldl_cons, List.foldl_nil, Request.serve, foldl_setNoCommit]
        rfl
      · rw [reads, List.foldl_append]
        rfl

/-- The cache of a request goes unnoticed exactly if no key without a row is looked up with a default that differs from the one
of its first lookup since the last write. -/
theorem cache_transparent_iff (rows : Dict K V) (calls : List (Call K V)) :
    Transparent rows calls ↔ SameDefaults rows calls := by
  refine forall₄_congr fun before key default rest => imp_congr_right fun _ => ?_
  have hholds := holds_after rows before
  rw [hholds.get_eq, hholds.rows_eq]
  unfold lookUp
  cases hrow : (stored rows before).get? key with
  | some value => exact iff_of_true rfl nofun
  | none =>
    cases (reads before).get? key with
    | none => exact iff_of_true rfl fun _ => nofun
    | some first => exact ⟨fun h _ _ hfirst => (Option.some.inj hfirst).symm.trans h, fun h => h rfl first rfl⟩

/-- A key without a row, looked up with `1` and then with `2`, is `1` both times. -/
theorem second_default_ignored : ¬ Transparent ([] : Dict String Nat) [.get "ai_model" 1, .get "ai_model" 2] := by
  intro h
  have hsecond := h [.get "ai_model" 1] "ai_model" 2 [] rfl
  revert hsecond
  decide

end ProxmoxTool.Settings
