import ProxmoxTool.Lib.Utf8

/-!
# Lines

A listing is printed one row to a line, and a reader takes the lines of what it gets of the bytes, without the white space
around them.  `strippedLines` is the reader; stripping the whole text first makes no difference to it
(`mem_strippedLines`).  `cutLines` are the lines that are left when the bytes end after a limit (`splitOn_take_printLines`).
-/

namespace ProxmoxTool

open Utf8

/-- The rows, each ended by a newline. -/
def printLines (rows : List Text) : Text := rows.flatMap (· ++ ['\n'])

/-- The lines of `t.strip()` without the white space around them; those with nothing else are left out. -/
def strippedLines (t : Text) : List Text := (((strip t).splitOn '\n').filter fun line => strip line ≠ []).map strip

/-- The lines of a listing's first `limit` bytes: the rows that fit with their newline, and a part of the next one. -/
def cutLines : Nat → List Text → List Text
  | _, [] => [[]]
  | limit, row :: rows =>
    if (encode row).length < limit then row :: cutLines (limit - ((encode row).length + 1)) rows
    else [decodeReplace ((encode row).take limit)]

/-! ### White space at the ends -/

theorem strip_cons {c : Char} (hc : isSpace c = true) (t : Text) : strip (c :: t) = strip t := by
  unfold strip
  rw [List.dropWhile_cons_of_pos hc]

theorem strip_append_space {c : Char} (hc : isSpace c = true) (t : Text) : strip (t ++ [c]) = strip t := by
  unfold strip
  rw [List.dropWhile_append]
  split
  · rename_i h
    rw [List.isEmpty_iff] at h
    rw [h, List.dropWhile_cons_of_pos hc]
    rfl
  · rw [List.reverse_append, List.reverse_singleton, List.singleton_append, List.dropWhile_cons_of_pos hc]

/-- `l` is a line of `t` without the white space around it, and not blank. -/
private def LineOf (t l : Text) : Prop := l ≠ [] ∧ ∃ line ∈ t.splitOn '\n', strip line = l

private theorem lineOf_cons {c : Char} (hc : isSpace c = true) (t l : Text) : LineOf (c :: t) l ↔ LineOf t l := by
  obtain ⟨head, tail, ht⟩ := List.exists_cons_of_ne_nil (List.splitOnP_ne_nil (· == '\n') t)
  unfold LineOf
  rw [List.splitOn_eq_splitOnP, List.splitOn_eq_splitOnP, List.splitOnP_cons_eq_if_modifyHead, ht]
  refine and_congr_right fun hl => ?_
  split
  · -- a newline begins with an empty line
    rw [List.exists_mem_cons_iff]
    refine or_iff_right fun h => hl ?_
    rw [← h]
    rfl
  · rw [List.modifyHead_cons, List.exists_mem_cons_iff, List.exists_mem_cons_iff, strip_cons hc]

/-- The lines of a text with one more character at its end. -/
private theorem splitOn_append_singleton (c : Char) (t : Text) : (t ++ [c]).splitOn '\n' =
    if c = '\n' then t.splitOn '\n' ++ [[]] else (t.splitOn '\n').dropLast ++ [(t.splitOn '\n').getLastD [] ++ [c]] := by
  simp only [List.splitOn_eq_splitOnP]
  induction t with
  | nil =>
    rw [List.nil_append, List.splitOnP_cons_eq_if_modifyHead]
    by_cases h : c = '\n'
    · simp [h]
    · simp [h]
  | cons d t ih =>
    obtain ⟨head, tail, ht⟩ := List.exists_cons_of_ne_nil (List.splitOnP_ne_nil (· == '\n') t)
    rw [List.cons_append, List.splitOnP_cons_eq_if_modifyHead, ih, List.splitOnP_cons_eq_if_modifyHead, ht]
    by_cases hd : d = '\n'
    · by_cases h : c = '\n'
      · simp [h, hd]
      · simp [h, hd]
    · by_cases h : c = '\n'
      · simp [h, hd]
      · cases tail with
        | nil => simp [h, hd]
        | cons x tail => simp [h, hd]

private theorem lineOf_append {c : Char} (hc : isSpace c = true) (t l : Text) : LineOf (t ++ [c]) l ↔ LineOf t l := by
  unfold LineOf
  rw [splitOn_append_singleton]
  refine and_congr_right fun hl => ?_
  split
  · have hblank : ¬ strip [] = l := fun h => hl h.symm
    simp [hblank]
  · have hne : t.splitOn '\n' ≠ [] := List.splitOnP_ne_nil _ t
    conv_rhs => rw [← List.dropLast_append_getLast hne]
    simp only [List.mem_append, List.mem_singleton, or_and_right, exists_or, exists_eq_left, strip_append_space hc]
    rw [List.getLastD_eq_getLast?, List.getLast?_eq_some_getLast hne, Option.getD_some]

private theorem lineOf_dropWhile (t l : Text) : LineOf (t.dropWhile isSpace) l ↔ LineOf t l := by
  induction t with
  | nil => rfl
  | cons c t ih =>
    rw [List.dropWhile_cons]
    split
    · rename_i hc
      rw [ih, lineOf_cons hc]
    · rfl

private theorem lineOf_rdropWhile (t l : Text) : LineOf (t.rdropWhile isSpace) l ↔ LineOf t l := by
  induction t using List.reverseRecOn with
  | nil => rfl
  | append_singleton t c ih =>
    rw [List.rdropWhile_concat]
    split
    · rename_i hc
      rw [ih, lineOf_append hc]
    · rfl

/-- The reader's lines are the stripped lines of the text as it is. -/
theorem mem_strippedLines {t l : Text} : l ∈ strippedLines t ↔ l ≠ [] ∧ ∃ line ∈ t.splitOn '\n', strip line = l := by
  have hstrip : LineOf (strip t) l ↔ LineOf t l := by
    rw [show strip t = (t.dropWhile isSpace).rdropWhile isSpace from rfl, lineOf_rdropWhile, lineOf_dropWhile]
  unfold LineOf at hstrip
  rw [← hstrip, strippedLines, List.mem_map]
  simp only [List.mem_filter, decide_eq_true_eq]
  constructor
  · rintro ⟨line, ⟨hmem, hne⟩, rfl⟩
    exact ⟨hne, line, hmem, rfl⟩
  · rintro ⟨hne, line, hmem, rfl⟩
    exact ⟨line, ⟨hmem, hne⟩, rfl⟩

/-! ### A listing that is cut -/

@[simp] theorem printLines_nil : printLines [] = [] := rfl

@[simp] theorem printLines_cons (row : Text) (rows : List Text) : printLines (row :: rows) = row ++ '\n' :: printLines rows := by
  simp [printLines]

private theorem encode_newline_cons (t : Text) : encode ('\n' :: t) = 10 :: encode t := rfl

theorem length_encode_printLines_cons (row : Text) (rows : List Text) :
    (encode (printLines (row :: rows))).length = (encode row).length + 1 + (encode (printLines rows)).length := by
  rw [printLines_cons, encode_append, encode_newline_cons, List.length_append, List.length_cons]
  omega

private theorem splitOn_line {row : Text} (h : '\n' ∉ row) (t : Text) : (row ++ '\n' :: t).splitOn '\n' = row :: t.splitOn '\n' := by
  refine List.splitOnP_append_cons_of_forall_mem ?_ '\n' rfl t
  intro c hc
  rw [beq_eq_false_iff_ne]
  rintro rfl
  exact h hc

/-- A part of a line is a part of its text, and perhaps one character that is cut. -/
theorem newline_not_mem_cut {row : Text} (h : '\n' ∉ row) (n : Nat) : '\n' ∉ decodeReplace ((encode row).take n) := by
  obtain ⟨k, hk | hk⟩ := decodeReplace_take_encode row n
  · rw [hk]
    exact fun hmem => h (List.mem_of_mem_take hmem)
  · rw [hk, List.mem_append, List.mem_singleton, not_or]
    exact ⟨fun hmem => h (List.mem_of_mem_take hmem), by decide⟩

/-- The lines of the first `limit` bytes of a printed listing. -/
theorem splitOn_take_printLines {rows : List Text} (h : ∀ row ∈ rows, '\n' ∉ row) (limit : Nat) :
    (decodeReplace ((encode (printLines rows)).take limit)).splitOn '\n' = cutLines limit rows := by
  induction rows generalizing limit with
  | nil =>
    rw [printLines_nil, show encode [] = [] from rfl, List.take_nil]
    rfl
  | cons row rows ih =>
    have hrow : '\n' ∉ row := h row (by simp)
    rw [printLines_cons, encode_append, encode_newline_cons, cutLines]
    split
    · rename_i hfit
      obtain ⟨n, hn⟩ : ∃ n, limit = (encode row).length + (n + 1) := ⟨limit - (encode row).length - 1, by omega⟩
      have hrest : limit - ((encode row).length + 1) = n := by omega
      rw [hrest, hn, List.take_length_add_append, List.take_succ_cons, decodeReplace_encode_append,
        ← ih (fun r hr => h r (by simp [hr])) n]
      exact splitOn_line hrow _
    · rename_i hfit
      rw [List.take_append_of_le_length (by omega), List.splitOn_eq_splitOnP]
      refine List.splitOnP_eq_singleton ?_
      intro c hc
      rw [beq_eq_false_iff_ne]
      rintro rfl
      exact newline_not_mem_cut hrow limit hc

/-- What comes behind rows that fill the limit is lost. -/
theorem cutLines_append_of_le {rows : List Text} (later : List Text) {limit : Nat}
    (h : limit ≤ (encode (printLines rows)).length) : cutLines limit (rows ++ later) = cutLines limit rows := by
  induction rows generalizing limit with
  | nil =>
    obtain rfl : limit = 0 := Nat.le_zero.1 h
    cases later with
    | nil => rfl
    | cons row later =>
      rw [List.nil_append, show cutLines 0 [] = [[]] from rfl, cutLines, if_neg (Nat.not_lt_zero _), List.take_zero]
      rfl
  | cons row rows ih =>
    rw [length_encode_printLines_cons] at h
    rw [List.cons_append, cutLines, cutLines]
    split
    · rw [ih (by omega)]
    · rfl

/-- A line that is left is a row or a part of one. -/
theorem of_mem_cutLines {rows : List Text} {limit : Nat} {line : Text} (h : line ∈ cutLines limit rows) :
    line = [] ∨ ∃ row ∈ rows, ∃ k, line = row.take k ∨ line = row.take k ++ [replacement] := by
  induction rows generalizing limit with
  | nil => exact Or.inl (List.mem_singleton.1 h)
  | cons row rows ih =>
    rw [cutLines] at h
    split at h
    · rcases List.mem_cons.1 h with rfl | h
      · exact Or.inr ⟨line, by simp, line.length, Or.inl (List.take_length).symm⟩
      · rcases ih h with hnil | ⟨row', hrow', hk⟩
        · exact Or.inl hnil
        · exact Or.inr ⟨row', List.mem_cons_of_mem _ hrow', hk⟩
    · obtain ⟨k, hk⟩ := decodeReplace_take_encode row limit
      rw [← List.mem_singleton.1 h] at hk
      exact Or.inr ⟨row, by simp, k, hk⟩

theorem length_le_length_encode (t : Text) : t.length ≤ (encode t).length := by
  induction t with
  | nil => exact Nat.le_refl _
  | cons c t ih =>
    have hpos : 0 < (String.utf8EncodeChar c).length := by
      rw [String.length_utf8EncodeChar]
      exact c.utf8Size_pos
    have hcons : encode (c :: t) = String.utf8EncodeChar c ++ encode t := List.flatMap_cons
    rw [hcons, List.length_append, List.length_cons]
    omega

theorem le_length_encode_printLines {rows : List Text} {n : Nat} (h : ∀ row ∈ rows, n ≤ row.length) :
    rows.length * (n + 1) ≤ (encode (printLines rows)).length := by
  induction rows with
  | nil => simp
  | cons row rows ih =>
    have hrow := h row (by simp)
    have hrest := ih fun r hr => h r (by simp [hr])
    have hencode := length_le_length_encode row
    rw [length_encode_printLines_cons, List.length_cons, Nat.succ_mul]
    omega

end ProxmoxTool
