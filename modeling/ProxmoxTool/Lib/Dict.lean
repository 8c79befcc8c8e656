import Mathlib.Data.List.Forall2
import Mathlib.Data.List.Nodup

/-!
# Dictionaries

A dictionary is its list of entries in insertion order: setting a key that is there replaces the value in place, a new
key goes to the end, and `pop` takes the entry out.  `Related R` says that two dictionaries have the same keys in the same
order and values related by `R`; the operations keep it, for two-run statements.
-/

namespace ProxmoxTool

abbrev Dict (κ ν : Type) := List (κ × ν)

namespace Dict

variable {κ ν : Type} [DecidableEq κ]

def get? : Dict κ ν → κ → Option ν
  | [], _ => none
  | e :: d, k => if e.1 = k then some e.2 else get? d k

/-- `d[k] = v`. -/
def set : Dict κ ν → κ → ν → Dict κ ν
  | [], k, v => [(k, v)]
  | e :: d, k, v => if e.1 = k then (k, v) :: d else e :: set d k v

/-- `d.pop(k, None)`. -/
def pop (d : Dict κ ν) (k : κ) : Dict κ ν := d.filter fun e => decide (e.1 ≠ k)

def values (d : Dict κ ν) : List ν := d.map Prod.snd

theorem mem_values_set {d : Dict κ ν} {k : κ} {v w : ν} (h : w ∈ (d.set k v).values) : w = v ∨ w ∈ d.values := by
  induction d with
  | nil => exact Or.inl (by simpa [set, values] using h)
  | cons e d ih =>
    unfold set at h
    split at h
    · rcases List.mem_cons.1 h with rfl | h
      · exact Or.inl rfl
      · exact Or.inr (List.mem_cons_of_mem _ h)
    · rcases List.mem_cons.1 h with rfl | h
      · exact Or.inr List.mem_cons_self
      · exact (ih h).imp_right (List.mem_cons_of_mem _)

theorem values_pop_sublist (d : Dict κ ν) (k : κ) : List.Sublist (d.pop k).values d.values :=
  List.filter_sublist.map _

/-- Setting a key to a value that no key has keeps the values distinct. -/
theorem nodup_values_set {d : Dict κ ν} (h : d.values.Nodup) {v : ν} (hv : v ∉ d.values) (k : κ) :
    (d.set k v).values.Nodup := by
  induction d with
  | nil => exact List.nodup_singleton v
  | cons e d ih =>
    have hd : e.2 ∉ values d ∧ (values d).Nodup := List.nodup_cons.1 h
    have hne : v ≠ e.2 ∧ v ∉ values d := by simpa [values, not_or] using hv
    unfold set
    split
    · exact List.nodup_cons.2 ⟨hne.2, hd.2⟩
    · refine List.nodup_cons.2 ⟨fun hmem => ?_, ih hd.2 hne.2⟩
      rcases mem_values_set hmem with heq | hmem
      · exact hne.1 heq.symm
      · exact hd.1 hmem

theorem not_mem_keys_pop (d : Dict κ ν) (k : κ) : k ∉ (d.pop k).map Prod.fst := by
  intro h
  obtain ⟨e, he, heq⟩ := List.mem_map.1 h
  have hne := (List.mem_filter.1 he).2
  rw [heq] at hne
  simp at hne

theorem mem_keys_of_mem_keys_pop {d : Dict κ ν} {k k' : κ} (h : k' ∈ (d.pop k).map Prod.fst) : k' ∈ d.map Prod.fst :=
  (List.filter_sublist.map _).subset h

theorem get?_eq_none {d : Dict κ ν} {k : κ} (h : d.get? k = none) : k ∉ d.map Prod.fst := by
  induction d with
  | nil => exact List.not_mem_nil
  | cons e d ih =>
    unfold get? at h
    split at h
    · cases h
    · rename_i hk
      rw [List.map_cons, List.mem_cons, not_or]
      exact ⟨Ne.symm hk, ih h⟩

theorem get?_pop_of_ne {k k' : κ} (hne : k' ≠ k) (d : Dict κ ν) : (d.pop k).get? k' = d.get? k' := by
  induction d with
  | nil => rfl
  | cons e d ih =>
    unfold pop at ih ⊢
    rw [List.filter_cons]
    by_cases hk : e.1 = k
    · have hk' : e.1 ≠ k' := fun h => hne (h.symm.trans hk)
      rw [if_neg (by simpa using hk), ih, get?, if_neg hk']
    · rw [if_pos (by simpa using hk), get?, get?, ih]

theorem get?_set_self (d : Dict κ ν) (k : κ) (v : ν) : (d.set k v).get? k = some v := by
  induction d with
  | nil => exact if_pos rfl
  | cons e d ih =>
    unfold set
    split
    · exact if_pos rfl
    · rename_i hk
      rw [get?, if_neg hk, ih]

theorem get?_set_of_ne {k k' : κ} (hne : k' ≠ k) (d : Dict κ ν) (v : ν) : (d.set k v).get? k' = d.get? k' := by
  induction d with
  | nil => exact if_neg (Ne.symm hne)
  | cons e d ih =>
    unfold set
    split
    · rename_i hk
      rw [get?, if_neg (Ne.symm hne), get?, if_neg fun h => hne (h.symm.trans hk)]
    · rw [get?, get?, ih]

/-- Setting one key after the other. -/
def setAll (d : Dict κ ν) (entries : List (κ × ν)) : Dict κ ν := entries.foldl (fun d e => d.set e.1 e.2) d

theorem get?_setAll_of_not_mem {k : κ} {entries : List (κ × ν)} (h : k ∉ entries.map Prod.fst) (d : Dict κ ν) :
    (d.setAll entries).get? k = d.get? k := by
  unfold setAll
  induction entries generalizing d with
  | nil => rfl
  | cons e entries ih =>
    rw [List.map_cons, List.mem_cons, not_or] at h
    rw [List.foldl_cons, ih h.2, get?_set_of_ne h.1]

theorem get?_setAll_of_mem {k : κ} {v : ν} {entries : List (κ × ν)} (hn : (entries.map Prod.fst).Nodup)
    (h : (k, v) ∈ entries) (d : Dict κ ν) : (d.setAll entries).get? k = some v := by
  induction entries generalizing d with
  | nil => cases h
  | cons e entries ih =>
    have hnodup := List.nodup_cons.1 hn
    rcases List.mem_cons.1 h with rfl | h
    · exact (get?_setAll_of_not_mem hnodup.1 (d.set k v)).trans (get?_set_self d k v)
    · exact ih hnodup.2 h (d.set e.1 e.2)

theorem keys_set (d : Dict κ ν) (k : κ) (v : ν) :
    (d.set k v).map Prod.fst = if k ∈ d.map Prod.fst then d.map Prod.fst else d.map Prod.fst ++ [k] := by
  induction d with
  | nil => rfl
  | cons e d ih =>
    unfold set
    by_cases hk : e.1 = k
    · rw [if_pos hk, List.map_cons, List.map_cons, if_pos (hk ▸ List.mem_cons_self), hk]
    · rw [if_neg hk, List.map_cons, List.map_cons, ih]
      by_cases hmem : k ∈ d.map Prod.fst
      · rw [if_pos hmem, if_pos (List.mem_cons_of_mem _ hmem)]
      · rw [if_neg hmem, if_neg fun h => (List.mem_cons.1 h).elim (fun h => hk h.symm) hmem, List.cons_append]

theorem nodup_keys_set {d : Dict κ ν} (h : (d.map Prod.fst).Nodup) (k : κ) (v : ν) :
    ((d.set k v).map Prod.fst).Nodup := by
  rw [keys_set]
  split
  · exact h
  · rename_i hk
    refine List.nodup_append.2 ⟨h, List.nodup_singleton k, fun a ha b hb hab => hk ?_⟩
    rwa [← List.mem_singleton.1 hb, ← hab]

theorem nodup_keys_setAll {d : Dict κ ν} (h : (d.map Prod.fst).Nodup) (entries : List (κ × ν)) :
    ((d.setAll entries).map Prod.fst).Nodup := by
  unfold setAll
  induction entries generalizing d with
  | nil => exact h
  | cons e entries ih => exact ih (nodup_keys_set h e.1 e.2)

theorem get?_of_mem {d : Dict κ ν} (h : (d.map Prod.fst).Nodup) {k : κ} {v : ν} (hmem : (k, v) ∈ d) :
    d.get? k = some v := by
  induction d with
  | nil => cases hmem
  | cons e d ih =>
    have hnodup := List.nodup_cons.1 h
    rcases List.mem_cons.1 hmem with rfl | hmem
    · exact if_pos rfl
    · have hne : e.1 ≠ k := fun heq => hnodup.1 (heq ▸ List.mem_map_of_mem hmem)
      rw [get?, if_neg hne, ih hnodup.2 hmem]

/-- Setting a key to the value it has changes nothing. -/
theorem set_eq_self_iff {d : Dict κ ν} {k : κ} {v : ν} : d.set k v = d ↔ d.get? k = some v := by
  induction d with
  | nil => exact ⟨nofun, nofun⟩
  | cons e d ih =>
    unfold set get?
    by_cases hk : e.1 = k
    · rw [if_pos hk, if_pos hk, List.cons.injEq, and_iff_left rfl, Option.some.injEq, Prod.ext_iff]
      exact ⟨fun h => h.2.symm, fun h => ⟨hk.symm, h.symm⟩⟩
    · rw [if_neg hk, if_neg hk, List.cons.injEq, and_iff_right rfl]
      exact ih

theorem set_set_eq_self_iff {d : Dict κ ν} {k k' : κ} (hne : k ≠ k') {v v' : ν} :
    (d.set k v).set k' v' = d ↔ d.get? k = some v ∧ d.get? k' = some v' := by
  constructor
  · intro h
    have hk := get?_set_of_ne hne (d.set k v) v'
    have hk' := get?_set_self (d.set k v) k' v'
    rw [h] at hk hk'
    exact ⟨hk.trans (get?_set_self d k v), hk'⟩
  · rintro ⟨hk, hk'⟩
    rw [set_eq_self_iff.2 hk, set_eq_self_iff.2 hk']

theorem set_of_not_mem {d : Dict κ ν} {k : κ} (h : k ∉ d.map Prod.fst) (v : ν) : d.set k v = d ++ [(k, v)] := by
  induction d with
  | nil => rfl
  | cons e d ih =>
    rw [List.map_cons, List.mem_cons, not_or] at h
    rw [set, if_neg (Ne.symm h.1), ih h.2, List.cons_append]

/-- Keys that are all new go to the end. -/
theorem setAll_of_nodup {d : Dict κ ν} {entries : List (κ × ν)} (h : ((d ++ entries).map Prod.fst).Nodup) :
    d.setAll entries = d ++ entries := by
  unfold setAll
  induction entries generalizing d with
  | nil => exact (List.append_nil d).symm
  | cons e entries ih =>
    have happend : d ++ e :: entries = d ++ [e] ++ entries := List.append_cons d e entries
    have hkey : e.1 ∉ d.map Prod.fst := by
      intro hmem
      rw [List.map_append, List.map_cons] at h
      exact (List.nodup_append.1 h).2.2 e.1 hmem e.1 List.mem_cons_self rfl
    rw [List.foldl_cons, set_of_not_mem hkey, happend]
    exact ih (happend ▸ h)

def mapValues {μ : Type} (g : ν → μ) (d : Dict κ ν) : Dict κ μ := d.map fun e => (e.1, g e.2)

theorem mapValues_set {μ : Type} (g : ν → μ) (d : Dict κ ν) (k : κ) (v : ν) :
    mapValues g (d.set k v) = (mapValues g d).set k (g v) := by
  induction d with
  | nil => rfl
  | cons e d ih =>
    have hcons : mapValues g (e :: d) = (e.1, g e.2) :: mapValues g d := rfl
    rw [hcons, set, set]
    split_ifs
    · rfl
    · rw [← ih]
      rfl

theorem mapValues_setAll {μ : Type} (g : ν → μ) (d : Dict κ ν) (entries : List (κ × ν)) :
    mapValues g (d.setAll entries) = (mapValues g d).setAll (mapValues g entries) := by
  induction entries generalizing d with
  | nil => rfl
  | cons e entries ih =>
    have hcons : mapValues g (e :: entries) = (e.1, g e.2) :: mapValues g entries := rfl
    rw [hcons, setAll, setAll, List.foldl_cons, List.foldl_cons, ← mapValues_set]
    exact ih (d.set e.1 e.2)

theorem get?_append_singleton (d : Dict κ ν) (key k : κ) (v : ν) :
    get? (d ++ [(key, v)]) k = (d.get? k).or (if key = k then some v else none) := by
  induction d with
  | nil => rfl
  | cons e d ih =>
    rw [List.cons_append, get?, get?, ih]
    split
    · rfl
    · rfl

theorem length_set (d : Dict κ ν) (k : κ) (v : ν) :
    (d.set k v).length = if k ∈ d.map Prod.fst then d.length else d.length + 1 := by
  have hkeys := congrArg List.length (keys_set d k v)
  rw [List.length_map] at hkeys
  rw [hkeys]
  split
  · exact List.length_map _
  · rw [List.length_append, List.length_map, List.length_singleton]

/-- Taking a key out of a dictionary with distinct keys makes it shorter by one. -/
theorem length_pop {d : Dict κ ν} (h : (d.map Prod.fst).Nodup) {k : κ} (hk : k ∈ d.map Prod.fst) :
    (d.pop k).length + 1 = d.length := by
  induction d with
  | nil => cases hk
  | cons e d ih =>
    have hnodup := List.nodup_cons.1 h
    unfold pop at ih ⊢
    rw [List.filter_cons]
    by_cases heq : e.1 = k
    · have hrest : List.filter (fun e' => decide (e'.1 ≠ k)) d = d := by
        refine List.filter_eq_self.2 fun e' he' => decide_eq_true fun heq' => hnodup.1 ?_
        rw [heq, ← heq']
        exact List.mem_map_of_mem he'
      rw [if_neg (by simpa using heq), hrest, List.length_cons]
    · have hmem : k ∈ d.map Prod.fst := (List.mem_cons.1 hk).resolve_left fun h => heq h.symm
      rw [if_pos (by simpa using heq), List.length_cons, ih hnodup.2 hmem, List.length_cons]

/-! ### Two dictionaries with the same keys -/

/-- The same keys in the same order, with values related by `R`. -/
def Related (R : κ → ν → ν → Prop) (d d' : Dict κ ν) : Prop :=
  List.Forall₂ (fun e e' => e.1 = e'.1 ∧ R e.1 e.2 e'.2) d d'

variable {R : κ → ν → ν → Prop} {d d' : Dict κ ν}

theorem Related.get? (h : Related R d d') (k : κ) :
    (d.get? k = none ∧ d'.get? k = none) ∨ ∃ v v', d.get? k = some v ∧ d'.get? k = some v' ∧ R k v v' := by
  unfold Related at h
  induction h with
  | nil => exact Or.inl ⟨rfl, rfl⟩
  | @cons e e' d d' he _ ih =>
    obtain ⟨hkey, hR⟩ := he
    by_cases hk : e.1 = k
    · have hk' : e'.1 = k := hkey ▸ hk
      refine Or.inr ⟨e.2, e'.2, if_pos hk, if_pos hk', ?_⟩
      rwa [hk] at hR
    · have hk' : e'.1 ≠ k := hkey ▸ hk
      unfold Dict.get?
      rw [if_neg hk, if_neg hk']
      exact ih

theorem Related.set (h : Related R d d') {k : κ} {v v' : ν} (hv : R k v v') : Related R (d.set k v) (d'.set k v') := by
  unfold Related at h
  induction h with
  | nil => exact List.Forall₂.cons ⟨rfl, hv⟩ List.Forall₂.nil
  | @cons e e' d d' he hd ih =>
    by_cases hk : e.1 = k
    · have hk' : e'.1 = k := he.1 ▸ hk
      unfold Dict.set
      rw [if_pos hk, if_pos hk']
      exact List.Forall₂.cons ⟨rfl, hv⟩ hd
    · have hk' : e'.1 ≠ k := he.1 ▸ hk
      unfold Dict.set
      rw [if_neg hk, if_neg hk']
      exact List.Forall₂.cons he ih

theorem Related.pop (h : Related R d d') (k : κ) : Related R (d.pop k) (d'.pop k) := by
  unfold Related at h
  induction h with
  | nil => exact List.Forall₂.nil
  | @cons e e' d d' he _ ih =>
    unfold Dict.pop
    rw [List.filter_cons, List.filter_cons, he.1]
    split
    · exact List.Forall₂.cons he ih
    · exact ih

omit [DecidableEq κ] in
theorem Related.mem_right (h : Related R d d') {e' : κ × ν} (he' : e' ∈ d') : ∃ e ∈ d, e.1 = e'.1 ∧ R e.1 e.2 e'.2 := by
  unfold Related at h
  induction h with
  | nil => cases he'
  | @cons e₀ e₀' d d' he₀ _ ih =>
    rcases List.mem_cons.1 he' with rfl | he'
    · exact ⟨e₀, List.mem_cons_self, he₀⟩
    · obtain ⟨e, he, hrel⟩ := ih he'
      exact ⟨e, List.mem_cons_of_mem _ he, hrel⟩

theorem mem_set {k k' : κ} {v v' : ν} (h : (k', v') ∈ d.set k v) : (k', v') = (k, v) ∨ (k', v') ∈ d := by
  induction d with
  | nil => exact Or.inl (List.mem_singleton.1 h)
  | cons e d ih =>
    unfold set at h
    split at h
    · exact (List.mem_cons.1 h).imp_right (List.mem_cons_of_mem _)
    · rcases List.mem_cons.1 h with h | h
      · exact Or.inr (h ▸ List.mem_cons_self)
      · exact (ih h).imp_right (List.mem_cons_of_mem _)

theorem mem_of_get? {k : κ} {v : ν} (h : d.get? k = some v) : (k, v) ∈ d := by
  induction d with
  | nil => cases h
  | cons e d ih =>
    unfold get? at h
    split at h
    · rename_i hk
      obtain rfl := Option.some.inj h
      obtain rfl := hk
      exact List.mem_cons_self
    · exact List.mem_cons_of_mem _ (ih h)

end Dict

end ProxmoxTool
