import Mathlib.Data.List.Nodup

/-!
# Logs with keys

A log that only grows and that remembers the key of every entry: under a key that has been used nothing is added, and the answer is the
entry of the first time.  The number of an entry is its place in the log, so a new entry has a number that no older one has.
-/

namespace ProxmoxTool

structure Keyed (κ α : Type) where
  id : Nat
  key : κ
  value : α
  deriving DecidableEq

/-- The newest entry is the first. -/
structure KeyedLog (κ α : Type) where
  entries : List (Keyed κ α)
  numbered : ∀ e ∈ entries, e.id < entries.length
  once : (entries.map Keyed.key).Nodup

namespace KeyedLog

variable {κ α : Type}

/-- What comes under one key is one entry at most. -/
theorem length_filter_le_one (log : KeyedLog κ α) {p : Keyed κ α → Bool} (key : κ)
    (h : ∀ e ∈ log.entries, p e = true → e.key = key) : (log.entries.filter p).length ≤ 1 := by
  have hnodup : ((log.entries.filter p).map Keyed.key).Nodup := log.once.sublist (List.filter_sublist.map _)
  have hall : ∀ e ∈ log.entries.filter p, e.key = key := by
    intro e he
    obtain ⟨hmem, hp⟩ := List.mem_filter.1 he
    exact h e hmem hp
  generalize log.entries.filter p = es at hnodup hall
  match es with
  | [] => exact Nat.zero_le _
  | [_] => exact Nat.le_refl _
  | e :: f :: es =>
    rw [List.map_cons, List.map_cons, List.nodup_cons, List.mem_cons] at hnodup
    have hsame : e.key = f.key := (hall e List.mem_cons_self).trans (hall f (List.mem_cons_of_mem _ List.mem_cons_self)).symm
    exact absurd (.inl hsame) hnodup.1

variable [DecidableEq κ]

def empty : KeyedLog κ α := ⟨[], fun _ h => absurd h List.not_mem_nil, List.nodup_nil⟩

/-- The entry under a key. -/
def find (log : KeyedLog κ α) (key : κ) : Option (Keyed κ α) := log.entries.find? fun e => e.key = key

theorem not_mem_of_find_none {log : KeyedLog κ α} {key : κ} (h : log.find key = none) : key ∉ log.entries.map Keyed.key := by
  intro hmem
  obtain ⟨e, he, hkey⟩ := List.mem_map.1 hmem
  have hne := List.find?_eq_none.1 h e he
  simp [hkey] at hne

def next (log : KeyedLog κ α) (key : κ) (a : α) : Keyed κ α := ⟨log.entries.length, key, a⟩

/-- One more entry, under a new key. -/
def add (log : KeyedLog κ α) (key : κ) (a : α) (h : log.find key = none) : KeyedLog κ α where
  entries := log.next key a :: log.entries
  numbered := by
    intro e he
    rw [List.length_cons]
    rcases List.mem_cons.1 he with rfl | he
    · exact Nat.lt_succ_self _
    · exact Nat.lt_succ_of_lt (log.numbered e he)
  once := by
    rw [List.map_cons, List.nodup_cons]
    exact ⟨not_mem_of_find_none h, log.once⟩

/-- The log behind a request under `key`, and the entry it is answered with. -/
def put (log : KeyedLog κ α) (key : κ) (a : α) : KeyedLog κ α × Keyed κ α :=
  match h : log.find key with
  | some e => (log, e)
  | none => (log.add key a h, log.next key a)

theorem put_known {log : KeyedLog κ α} {key : κ} {e : Keyed κ α} (h : log.find key = some e) (a : α) : log.put key a = (log, e) := by
  unfold put
  split
  · rename_i e' he'
    rw [h] at he'
    cases he'
    rfl
  · rename_i hnone
    rw [h] at hnone
    cases hnone

theorem put_new {log : KeyedLog κ α} {key : κ} (h : log.find key = none) (a : α) :
    log.put key a = (log.add key a h, log.next key a) := by
  unfold put
  split
  · rename_i e he
    rw [h] at he
    cases he
  · rfl

end KeyedLog

end ProxmoxTool
