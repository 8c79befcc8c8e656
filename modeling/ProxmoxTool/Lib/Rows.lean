import Mathlib.Data.List.DropRight
import Mathlib.Data.List.Nodup

/-!
# Tables as lists of rows

A table is its list of rows, each with a numeric key.  A new row gets a key above all others; an update replaces the rows
with one key.  Both keep the keys distinct.  `Wrote` is what they have in common: after a run of writes a table has the last
row written for each key, and the rows whose keys were not written.  The last part is about tables that are pruned to their
last rows.
-/

namespace ProxmoxTool

variable {α : Type}

section

variable {κ : Type} (key : α → κ)

theorem nodup_append_of_not_mem {rows : List α} {row : α} (h : (rows.map key).Nodup) (hrow : key row ∉ rows.map key) :
    ((rows ++ [row]).map key).Nodup := by
  rw [List.map_append, List.map_singleton, List.nodup_append]
  refine ⟨h, List.nodup_singleton _, ?_⟩
  intro a ha b hb hab
  rw [List.mem_singleton.1 hb] at hab
  exact hrow (hab ▸ ha)

/-- With distinct keys, the row of a key is unique. -/
theorem eq_of_id_eq {rows : List α} (h : (rows.map key).Nodup) {r r' : α} (hr : r ∈ rows) (hr' : r' ∈ rows)
    (hid : key r = key r') : r = r' :=
  List.inj_on_of_nodup_map h hr hr' hid

/-- With distinct keys, looking up the key of a row finds the row. -/
theorem find?_id_eq [DecidableEq κ] {rows : List α} (h : (rows.map key).Nodup) {row : α} (hrow : row ∈ rows) :
    (rows.find? fun r => decide (key r = key row)) = some row := by
  cases hfind : rows.find? fun r => decide (key r = key row) with
  | none => simpa using List.find?_eq_none.1 hfind row hrow
  | some r =>
    have hid : key r = key row := by simpa using List.find?_some hfind
    rw [eq_of_id_eq key h (List.mem_of_find?_eq_some hfind) hrow hid]

end

variable (id : α → Nat)

/-- A key that no row has. -/
def freshId (rows : List α) : Nat := (rows.map id).foldr max 0 + 1

private theorem le_foldr_max {n : Nat} {l : List Nat} (h : n ∈ l) : n ≤ l.foldr max 0 := by
  induction l with
  | nil => cases h
  | cons m l ih =>
    rw [List.foldr_cons]
    rcases List.mem_cons.1 h with rfl | h
    · exact Nat.le_max_left _ _
    · exact Nat.le_trans (ih h) (Nat.le_max_right _ _)

theorem lt_freshId {rows : List α} {row : α} (h : row ∈ rows) : id row < freshId id rows :=
  Nat.lt_succ_of_le (le_foldr_max (List.mem_map_of_mem h))

theorem freshId_not_mem (rows : List α) : freshId id rows ∉ rows.map id := by
  intro h
  obtain ⟨row, hrow, heq⟩ := List.mem_map.1 h
  exact absurd heq (Nat.ne_of_lt (lt_freshId id hrow))

theorem nodup_append_fresh {rows : List α} {row : α} (h : (rows.map id).Nodup) (hrow : id row = freshId id rows) :
    ((rows ++ [row]).map id).Nodup :=
  nodup_append_of_not_mem id h (by rw [hrow]; exact freshId_not_mem id rows)

/-- The rows with the key of `row` replaced by `row`. -/
def replaceRow (row : α) (rows : List α) : List α := rows.map fun r => if id r = id row then row else r

@[simp] theorem map_id_replaceRow (row : α) (rows : List α) : (replaceRow id row rows).map id = rows.map id := by
  unfold replaceRow
  rw [List.map_map]
  refine List.map_congr_left fun r _ => ?_
  by_cases h : id r = id row
  · simp [h]
  · simp [h]

@[simp] theorem length_replaceRow (row : α) (rows : List α) : (replaceRow id row rows).length = rows.length :=
  List.length_map _

theorem mem_replaceRow {row r : α} {rows : List α} (h : r ∈ replaceRow id row rows) :
    r = row ∨ (r ∈ rows ∧ id r ≠ id row) := by
  obtain ⟨r', hr', rfl⟩ := List.mem_map.1 h
  by_cases hid : id r' = id row
  · simp [hid]
  · simp [hid, hr']

/-! ### Writes -/

section

variable {κ : Type} {key : α → κ}

/-- `row` has been added, or has replaced the rows with its key. -/
def Wrote (key : α → κ) (row : α) (rows rows' : List α) : Prop :=
  ∀ r, r ∈ rows' ↔ r = row ∨ (r ∈ rows ∧ key r ≠ key row)

/-- The rows have been written one after the other. -/
def WroteAll (key : α → κ) : List α → List α → List α → Prop
  | [], rows, rows' => rows' = rows
  | w :: ws, rows, rows' => ∃ rows₁, Wrote key w rows rows₁ ∧ WroteAll key ws rows₁ rows'

/-- The writes that no later one has the key of. -/
def lastWrites [DecidableEq κ] (key : α → κ) : List α → List α
  | [] => []
  | w :: ws => if key w ∈ ws.map key then lastWrites key ws else w :: lastWrites key ws

/-- The last write of a key wins. -/
theorem WroteAll.mem_iff [DecidableEq κ] {ws rows rows' : List α} (h : WroteAll key ws rows rows') (r : α) :
    r ∈ rows' ↔ r ∈ lastWrites key ws ∨ (r ∈ rows ∧ key r ∉ ws.map key) := by
  induction ws generalizing rows with
  | nil =>
    obtain rfl : rows' = rows := h
    simp [lastWrites]
  | cons w ws ih =>
    obtain ⟨rows₁, hw, hrest⟩ := h
    rw [ih hrest, hw r, lastWrites, List.map_cons, List.mem_cons, not_or]
    split
    · rename_i hkey
      constructor
      · rintro (hr | ⟨rfl | ⟨hr, hne⟩, hnot⟩)
        · exact Or.inl hr
        · exact absurd hkey hnot
        · exact Or.inr ⟨hr, hne, hnot⟩
      · rintro (hr | ⟨hr, hne, hnot⟩)
        · exact Or.inl hr
        · exact Or.inr ⟨Or.inr ⟨hr, hne⟩, hnot⟩
    · rename_i hkey
      rw [List.mem_cons]
      constructor
      · rintro (hr | ⟨rfl | ⟨hr, hne⟩, hnot⟩)
        · exact Or.inl (Or.inr hr)
        · exact Or.inl (Or.inl rfl)
        · exact Or.inr ⟨hr, hne, hnot⟩
      · rintro ((rfl | hr) | ⟨hr, hne, hnot⟩)
        · exact Or.inr ⟨Or.inl rfl, hkey⟩
        · exact Or.inl hr
        · exact Or.inr ⟨Or.inr ⟨hr, hne⟩, hnot⟩

/-- Rows with other keys may stand before and after. -/
theorem Wrote.append {row : α} {rows rows' : List α} (h : Wrote key row rows rows') (before after : List α)
    (hbefore : ∀ r ∈ before, key r ≠ key row) (hafter : ∀ r ∈ after, key r ≠ key row) :
    Wrote key row (before ++ rows ++ after) (before ++ rows' ++ after) := by
  intro r
  simp only [List.mem_append, h r]
  constructor
  · rintro ((hr | rfl | ⟨hr, hne⟩) | hr)
    · exact Or.inr ⟨Or.inl (Or.inl hr), hbefore r hr⟩
    · exact Or.inl rfl
    · exact Or.inr ⟨Or.inl (Or.inr hr), hne⟩
    · exact Or.inr ⟨Or.inr hr, hafter r hr⟩
  · rintro (rfl | ⟨(hr | hr) | hr, hne⟩)
    · exact Or.inl (Or.inr (Or.inl rfl))
    · exact Or.inl (Or.inl hr)
    · exact Or.inl (Or.inr (Or.inr ⟨hr, hne⟩))
    · exact Or.inr hr

end

section

variable {β κ : Type} {key : β → κ} {view : α → β}

/-- Inserting a new row writes its view. -/
theorem wrote_insert (hkey : ∀ r r', key (view r) = key (view r') ↔ id r = id r') {row : α} {rows : List α}
    (hrow : id row = freshId id rows) :
    Wrote key (view row) (rows.map view) ((rows ++ [row]).map view) := by
  intro v
  rw [List.map_append, List.mem_append, List.map_singleton, List.mem_singleton]
  constructor
  · rintro (hv | rfl)
    · refine Or.inr ⟨hv, fun heq => ?_⟩
      obtain ⟨r, hr, rfl⟩ := List.mem_map.1 hv
      rw [hkey, hrow] at heq
      exact freshId_not_mem id rows (heq ▸ List.mem_map_of_mem hr)
    · exact Or.inl rfl
  · rintro (rfl | ⟨hv, -⟩)
    · exact Or.inr rfl
    · exact Or.inl hv

/-- Replacing a row that is there writes its view. -/
theorem wrote_replaceRow (hkey : ∀ r r', key (view r) = key (view r') ↔ id r = id r') {row : α} {rows : List α}
    (hrow : id row ∈ rows.map id) :
    Wrote key (view row) (rows.map view) ((replaceRow id row rows).map view) := by
  intro v
  constructor
  · intro hv
    obtain ⟨r, hr, rfl⟩ := List.mem_map.1 hv
    rcases mem_replaceRow id hr with rfl | ⟨hr, hne⟩
    · exact Or.inl rfl
    · exact Or.inr ⟨List.mem_map_of_mem hr, by rwa [Ne, hkey]⟩
  · rintro (rfl | ⟨hv, hne⟩)
    · obtain ⟨r, hr, heq⟩ := List.mem_map.1 hrow
      exact List.mem_map.2 ⟨row, List.mem_map.2 ⟨r, hr, if_pos heq⟩, rfl⟩
    · obtain ⟨r, hr, rfl⟩ := List.mem_map.1 hv
      rw [Ne, hkey] at hne
      exact List.mem_map.2 ⟨r, List.mem_map.2 ⟨r, hr, if_neg hne⟩, rfl⟩

end

/-! ### The last rows -/

theorem rtake_rtake_concat (n : Nat) (l : List α) (a : α) : (l.rtake n ++ [a]).rtake n = (l ++ [a]).rtake n := by
  cases n with
  | zero => rw [List.rtake_zero, List.rtake_zero]
  | succ n =>
    rw [List.rtake_concat_succ, List.rtake_concat_succ, List.rtake_eq_reverse_take_reverse, List.rtake_eq_reverse_take_reverse,
      List.reverse_reverse, List.take_take, List.rtake_eq_reverse_take_reverse]
    rw [Nat.min_eq_left (Nat.le_succ n)]

/-- What is not among the first of the reversed list, by keys. -/
theorem filter_not_mem_drop_reverse (key : α → Nat) {l : List α} (h : (l.map key).Nodup) (n : Nat) :
    l.filter (fun a => decide (key a ∉ (l.reverse.drop n).map key)) = l.rtake n := by
  have hold : l.reverse.drop n = (l.take (l.length - n)).reverse := List.drop_reverse
  have hsplit : l.take (l.length - n) ++ l.rtake n = l := List.take_append_drop _ _
  have hdisjoint : ∀ a ∈ l.take (l.length - n), ∀ b ∈ l.rtake n, key a ≠ key b := by
    intro a ha b hb heq
    rw [← hsplit, List.map_append, List.nodup_append] at h
    exact h.2.2 (key a) (List.mem_map_of_mem ha) (key b) (List.mem_map_of_mem hb) heq
  have hmem : ∀ a, key a ∈ (l.reverse.drop n).map key ↔ ∃ b ∈ l.take (l.length - n), key b = key a := by
    intro a
    rw [hold, List.mem_map]
    simp
  have hfirst : (l.take (l.length - n)).filter (fun a => decide (key a ∉ (l.reverse.drop n).map key)) = [] := by
    refine List.filter_eq_nil_iff.2 fun a ha => ?_
    rw [decide_eq_true_eq, not_not, hmem]
    exact ⟨a, ha, rfl⟩
  have hlast : (l.rtake n).filter (fun a => decide (key a ∉ (l.reverse.drop n).map key)) = l.rtake n := by
    refine List.filter_eq_self.2 fun a ha => ?_
    rw [decide_eq_true_eq, hmem]
    rintro ⟨b, hb, heq⟩
    exact hdisjoint b hb a ha heq
  calc l.filter (fun a => decide (key a ∉ (l.reverse.drop n).map key))
      = (l.take (l.length - n) ++ l.rtake n).filter (fun a => decide (key a ∉ (l.reverse.drop n).map key)) := by rw [hsplit]
    _ = l.rtake n := by rw [List.filter_append, hfirst, hlast, List.nil_append]

/-- The first and the last of a list without doubles are the same only if they are all. -/
theorem take_eq_rtake_iff {l : List α} (h : l.Nodup) {n : Nat} (hn : 0 < n) : l.take n = l.rtake n ↔ l.length ≤ n := by
  constructor
  · intro heq
    by_contra hlt
    have hlong : n < l.length := Nat.lt_of_not_le hlt
    have hfirst : (l.take n)[0]? = l[0]? := List.getElem?_take_of_lt hn
    have hlast : (l.rtake n)[0]? = l[l.length - n]? := by
      rw [List.rtake, List.getElem?_drop]
      rfl
    rw [heq, hlast] at hfirst
    have hplace := (List.getElem?_inj (by omega) h).1 hfirst
    omega
  · intro hle
    rw [List.take_of_length_le hle, List.rtake, Nat.sub_eq_zero_of_le hle, List.drop_zero]

end ProxmoxTool
