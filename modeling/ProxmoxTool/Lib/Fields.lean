import Mathlib
import ProxmoxTool.Lib.Lines

/-!
# Fields of a printed line

What the operations of `Lib.Text` read of a text whose parts are known: the words of a text that begins with a word and a blank, the lines
of printed rows, an integer, the text behind a separator that can start in nothing before it, and a text without white space at its ends.
-/

namespace ProxmoxTool

/-- For texts that are written out. -/
theorem forall_mem_of_all {P : Char → Prop} [DecidablePred P] {t : Text} (h : (t.all fun c => decide (P c)) = true) : ∀ c ∈ t, P c :=
  fun c hc => of_decide_eq_true (List.all_eq_true.1 h c hc)

theorem isSpace_of_between {c : Char} (h : 33 ≤ c.toNat ∧ c.toNat ≤ 126) : isSpace c = false := by
  simp only [isSpace, Bool.or_eq_false_iff, Bool.and_eq_false_iff, decide_eq_false_iff_not, beq_eq_false_iff_ne]
  omega

theorem isLineEnd_of_between {c : Char} (h : 33 ≤ c.toNat ∧ c.toNat ≤ 126) : isLineEnd c = false := by
  simp only [isLineEnd, Bool.or_eq_false_iff, Bool.and_eq_false_iff, decide_eq_false_iff_not, beq_eq_false_iff_ne]
  omega

theorem between_of_isAlphanum {c : Char} (h : c.isAlphanum = true) : 33 ≤ c.toNat ∧ c.toNat ≤ 126 := by
  simp only [Char.isAlphanum, Char.isAlpha, Char.isUpper, Char.isLower, Char.isDigit, Bool.or_eq_true,
    Bool.and_eq_true, decide_eq_true_eq, ge_iff_le, UInt32.le_iff_toNat_le] at h
  rcases h with (⟨h1, h2⟩ | ⟨h1, h2⟩) | ⟨h1, h2⟩
  · exact ⟨Nat.le_trans (by decide) h1, Nat.le_trans h2 (by decide)⟩
  · exact ⟨Nat.le_trans (by decide) h1, Nat.le_trans h2 (by decide)⟩
  · exact ⟨Nat.le_trans (by decide) h1, Nat.le_trans h2 (by decide)⟩

/-! ### Ends of a text -/

theorem strip_eq_self {t : Text} (hhead : ∀ c ∈ t.head?, isSpace c = false) (hlast : ∀ c ∈ t.getLast?, isSpace c = false) : strip t = t := by
  have hleft : t.dropWhile isSpace = t := by
    cases t with
    | nil => rfl
    | cons c t => rw [List.dropWhile_cons_of_neg (by simp [hhead c rfl])]
  have hright : t.reverse.dropWhile isSpace = t.reverse := by
    cases hrev : t.reverse with
    | nil => rfl
    | cons c u =>
      have hc : t.getLast? = some c := by
        rw [← List.head?_reverse, hrev]
        rfl
      rw [List.dropWhile_cons_of_neg (by simp [hlast c hc])]
  rw [strip, hleft, hright, List.reverse_reverse]

theorem strip_append_left {l : Text} (hl : ∀ c ∈ l, isSpace c = true) (t : Text) : strip (l ++ t) = strip t := by
  induction l with
  | nil => rfl
  | cons c l ih =>
    rw [List.cons_append, strip_cons (hl c List.mem_cons_self), ih fun d hd => hl d (List.mem_cons_of_mem _ hd)]

theorem strip_append_right {r : Text} (hr : ∀ c ∈ r, isSpace c = true) (t : Text) : strip (t ++ r) = strip t := by
  induction r generalizing t with
  | nil => rw [List.append_nil]
  | cons c r ih =>
    rw [List.append_cons, ih fun d hd => hr d (List.mem_cons_of_mem _ hd), strip_append_space (hr c List.mem_cons_self)]

theorem strip_append_of_not_space {t : Text} (ht : ∀ c ∈ t, isSpace c = false) (hne : t ≠ []) (p : Text) :
    ∃ s, strip (t ++ p) = t ++ s := by
  have hleft : (t ++ p).dropWhile isSpace = t ++ p := by
    obtain ⟨c, t, rfl⟩ := List.exists_cons_of_ne_nil hne
    rw [List.cons_append, List.dropWhile_cons_of_neg (by simp [ht c List.mem_cons_self])]
  have hright : t.reverse.dropWhile isSpace = t.reverse := by
    obtain ⟨c, u, hcu⟩ := List.exists_cons_of_ne_nil (List.reverse_ne_nil_iff.2 hne)
    have hc : c ∈ t := List.mem_reverse.1 (hcu ▸ List.mem_cons_self)
    rw [hcu, List.dropWhile_cons_of_neg (by simp [ht c hc])]
  rw [strip, hleft, List.reverse_append, List.dropWhile_append]
  split
  · exact ⟨[], by rw [hright, List.reverse_reverse, List.append_nil]⟩
  · exact ⟨(p.reverse.dropWhile isSpace).reverse, by rw [List.reverse_append, List.reverse_reverse]⟩

theorem rstripChar_append (c : Char) {t : Text} (ht : t.getLast? ≠ some c) (n : Nat) : rstripChar c (t ++ List.replicate n c) = t := by
  have hdrop : ∀ n : Nat, (List.replicate n c ++ t.reverse).dropWhile (· = c) = t.reverse := by
    intro n
    rw [List.dropWhile_append_of_pos fun d hd => decide_eq_true (List.eq_of_mem_replicate hd)]
    cases hrev : t.reverse with
    | nil => rfl
    | cons d u =>
      rw [← List.head?_reverse, hrev] at ht
      exact List.dropWhile_cons_of_neg fun hd => ht (congrArg some (of_decide_eq_true hd))
  rw [rstripChar, List.reverse_append, List.reverse_replicate, hdrop, List.reverse_reverse]

theorem exists_rstripChar (c : Char) (t : Text) : ∃ n, t = rstripChar c t ++ List.replicate n c := by
  refine ⟨(t.reverse.takeWhile (· = c)).length, ?_⟩
  have hall : t.reverse.takeWhile (· = c) = List.replicate (t.reverse.takeWhile (· = c)).length c :=
    List.eq_replicate_of_mem fun d hd => of_decide_eq_true (List.mem_takeWhile_imp (p := fun d => decide (d = c)) hd)
  rw [rstripChar, ← List.reverse_replicate, ← hall, ← List.reverse_append, List.takeWhile_append_dropWhile, List.reverse_reverse]

theorem mem_of_mem_strip {t : Text} {c : Char} (h : c ∈ strip t) : c ∈ t := by
  have h1 := (List.dropWhile_sublist _).subset (List.mem_reverse.1 h)
  exact (List.dropWhile_sublist _).subset (List.mem_reverse.1 h1)

/-! ### Words and lines -/

/-- A word and a blank at the start. -/
theorem words_append {w : Text} (hw : ∀ c ∈ w, isSpace c = false) (hne : w ≠ []) (t : Text) : words (w ++ ' ' :: t) = w :: words t := by
  rw [words, List.splitOnP_append_cons_of_forall_mem hw ' ' rfl, List.filter_cons_of_pos (by simpa using hne)]
  rfl

private theorem splitLinesFrom_append {row : Text} (hrow : ∀ c ∈ row, isLineEnd c = false) (line t : Text) :
    splitLinesFrom line (row ++ '\n' :: t) = (line ++ row) :: splitLinesFrom [] t := by
  induction row generalizing line with
  | nil =>
    have hend : isLineEnd '\n' = true := by decide
    rw [List.nil_append, splitLinesFrom, if_pos hend, List.append_nil]
    rintro t' ⟨⟩
  | cons c row ih =>
    have hc := hrow c List.mem_cons_self
    rw [List.cons_append, splitLinesFrom, hc, if_neg Bool.false_ne_true, ih fun d hd => hrow d (List.mem_cons_of_mem _ hd),
      List.append_assoc, List.singleton_append]
    rintro t' rfl
    cases hc

/-- Printed rows are read back as lines. -/
theorem splitLines_printLines {rows : List Text} (h : ∀ row ∈ rows, ∀ c ∈ row, isLineEnd c = false) : splitLines (printLines rows) = rows := by
  induction rows with
  | nil => rfl
  | cons row rows ih =>
    rw [printLines_cons, splitLines, splitLinesFrom_append (h row List.mem_cons_self), List.nil_append]
    exact congrArg _ (ih fun r hr => h r (List.mem_cons_of_mem _ hr))

theorem splitLinesFrom_cons {c : Char} {t : Text} (line : Text) (h : ∀ t', c = '\r' → t = '\n' :: t' → False) :
    splitLinesFrom line (c :: t) = if isLineEnd c then line :: splitLinesFrom [] t else splitLinesFrom (line ++ [c]) t := by
  rw [splitLinesFrom]
  exact h

/-- A newline ends a line, whatever is before it. -/
theorem splitLinesFrom_newline (line t u : Text) :
    splitLinesFrom line (t ++ '\n' :: u) = splitLinesFrom line (t ++ ['\n']) ++ splitLines u := by
  have hnewline : ∀ line v : Text, splitLinesFrom line ('\n' :: v) = line :: splitLines v := fun line v =>
    splitLinesFrom_cons line fun _ hc => nomatch hc
  -- a carriage return in front of the newline belongs to it
  have hstep : ∀ {c : Char} {t : Text} (line v : Text), (∀ t', c = '\r' → t = '\n' :: t' → False) → ¬(c = '\r' ∧ t = []) →
      splitLinesFrom line (c :: (t ++ '\n' :: v)) =
        if isLineEnd c then line :: splitLinesFrom [] (t ++ '\n' :: v) else splitLinesFrom (line ++ [c]) (t ++ '\n' :: v) := by
    intro c t line v hcr hlast
    refine splitLinesFrom_cons line fun t' hc ht => ?_
    cases t with
    | nil => exact hlast ⟨hc, rfl⟩
    | cons d t =>
      rw [List.cons_append, List.cons.injEq] at ht
      exact hcr t hc (by rw [ht.1])
  fun_induction splitLinesFrom line t with
  | case1 => exact hnewline [] u
  | case2 line => rw [List.nil_append, List.nil_append, hnewline, hnewline]; rfl
  | case3 line t ih => exact congrArg (line :: ·) ih
  | case4 line c t hcr hend ih =>
    by_cases hlast : c = '\r' ∧ t = []
    · obtain ⟨rfl, rfl⟩ := hlast
      rfl
    · rw [List.cons_append, List.cons_append, hstep line u hcr hlast, hstep line [] hcr hlast, if_pos hend, if_pos hend, ih,
        List.cons_append]
  | case5 line c t hcr hend ih =>
    have hlast : ¬(c = '\r' ∧ t = []) := fun h => hend (by rw [h.1]; rfl)
    rw [List.cons_append, List.cons_append, hstep line u hcr hlast, hstep line [] hcr hlast, if_neg hend, if_neg hend, ih]

/-- The lines of printed rows are those of each row. -/
theorem splitLines_printLines_eq_flatMap (rows : List Text) :
    splitLines (printLines rows) = rows.flatMap fun row => splitLines (row ++ ['\n']) := by
  induction rows with
  | nil => rfl
  | cons row rows ih =>
    rw [printLines_cons, List.flatMap_cons, ← ih]
    exact splitLinesFrom_newline [] row _

theorem mem_splitLines_printLines {rows : List Text} {row : Text} (hrow : ∀ c ∈ row, isLineEnd c = false) (h : row ∈ rows) :
    row ∈ splitLines (printLines rows) := by
  rw [splitLines_printLines_eq_flatMap, List.mem_flatMap]
  refine ⟨row, h, ?_⟩
  rw [splitLines, splitLinesFrom_append hrow, List.nil_append]
  exact List.mem_cons_self

/-- A line is a part of the text. -/
theorem infix_of_mem_splitLinesFrom {line t l : Text} (h : l ∈ splitLinesFrom line t) : l <:+: line ++ t := by
  fun_induction splitLinesFrom line t with
  | case1 => cases h
  | case2 line =>
    rw [List.append_nil]
    exact List.mem_singleton.1 h ▸ List.infix_rfl
  | case3 line t ih =>
    rcases List.mem_cons.1 h with rfl | h
    · exact (List.prefix_append _ _).isInfix
    · exact (ih h).trans (List.suffix_append (line ++ ['\r', '\n']) t |>.trans (by simp)).isInfix
  | case4 line c t _ _ ih =>
    rcases List.mem_cons.1 h with rfl | h
    · exact (List.prefix_append _ _).isInfix
    · exact (ih h).trans (List.suffix_append (line ++ [c]) t |>.trans (by simp)).isInfix
  | case5 line c t _ _ ih =>
    have hlonger := ih h
    rwa [List.append_assoc, List.singleton_append] at hlonger

/-- Rows between which there are ends of line, and no other one. -/
theorem splitOn_joinText {rows : List Text} (h : ∀ row ∈ rows, '\n' ∉ row) (hne : rows ≠ []) : (joinText ['\n'] rows).splitOn '\n' = rows :=
  List.splitOn_intercalate '\n' h hne

theorem printLines_eq_joinText {rows : List Text} (hne : rows ≠ []) : printLines rows = joinText ['\n'] rows ++ ['\n'] := by
  induction rows with
  | nil => exact absurd rfl hne
  | cons row rows ih =>
    cases rows with
    | nil => simp [joinText]
    | cons r rows =>
      rw [printLines_cons, ih (List.cons_ne_nil _ _), joinText, joinText, List.intercalate_cons_cons]
      simp

theorem mem_joinText {sep : Text} {ts : List Text} {c : Char} (h : c ∈ joinText sep ts) : c ∈ sep ∨ ∃ t ∈ ts, c ∈ t := by
  induction ts with
  | nil => cases h
  | cons t ts ih =>
    cases ts with
    | nil =>
      rw [joinText, List.intercalate_singleton] at h
      exact Or.inr ⟨t, List.mem_cons_self, h⟩
    | cons u ts =>
      rw [joinText, List.intercalate_cons_cons, List.append_assoc, List.mem_append, List.mem_append] at h
      rcases h with h | h | h
      · exact Or.inr ⟨t, List.mem_cons_self, h⟩
      · exact Or.inl h
      · rcases ih h with h | ⟨u', hu', hc⟩
        · exact Or.inl h
        · exact Or.inr ⟨u', List.mem_cons_of_mem _ hu', hc⟩

theorem infix_of_hasSub {sub t : Text} (h : hasSub sub t = true) : sub <:+: t := by
  induction t with
  | nil => exact List.isEmpty_iff.1 h ▸ List.infix_rfl
  | cons c t ih =>
    rw [hasSub, Bool.or_eq_true] at h
    rcases h with hstart | hlater
    · exact (List.isPrefixOf_iff_prefix.1 hstart).isInfix
    · exact (ih hlater).trans (List.suffix_cons c t).isInfix

/-- A word between separators. -/
theorem mem_splitOn_of_between {c : Char} {w t : Text} (hw : c ∉ w) (h : c :: (w ++ [c]) <:+: t) : w ∈ t.splitOn c := by
  obtain ⟨a, b, rfl⟩ := h
  have htext : a ++ c :: (w ++ [c]) ++ b = a ++ c :: (w ++ c :: b) := by simp
  rw [htext, List.splitOn_append_cons_self, List.splitOn_append_cons_self, List.splitOn_eq_singleton hw]
  simp

theorem hasSub_append (a sub b : Text) : hasSub sub (a ++ (sub ++ b)) = true := by
  induction a with
  | nil =>
    have hp : sub.isPrefixOf (sub ++ b) = true := List.isPrefixOf_iff_prefix.2 (List.prefix_append sub b)
    rw [List.nil_append]
    cases h : sub ++ b with
    | nil =>
      rw [List.append_eq_nil_iff] at h
      rw [h.1]
      rfl
    | cons c t => rw [hasSub, ← h, hp, Bool.true_or]
  | cons c a ih => rw [List.cons_append, hasSub, ih, Bool.or_true]

theorem joinText_cons (sep : Text) (t : Text) (ts : List Text) : ∃ s, joinText sep (t :: ts) = t ++ s := by
  cases ts with
  | nil => exact ⟨[], by rw [joinText, List.intercalate_singleton, List.append_nil]⟩
  | cons u ts => exact ⟨sep ++ sep.intercalate (u :: ts), by rw [joinText, List.intercalate_cons_cons, List.append_assoc]⟩

theorem joinText_concat (sep : Text) (ts : List Text) (t : Text) : ∃ s, joinText sep (ts ++ [t]) = s ++ t := by
  induction ts with
  | nil => exact ⟨[], by rw [List.nil_append, joinText, List.intercalate_singleton, List.nil_append]⟩
  | cons u ts ih =>
    obtain ⟨s, hs⟩ := ih
    obtain ⟨v, vs, hv⟩ := List.exists_cons_of_ne_nil (List.append_ne_nil_of_right_ne_nil ts (List.cons_ne_nil t []))
    refine ⟨u ++ sep ++ s, ?_⟩
    rw [List.append_assoc, ← hs, List.cons_append, hv, joinText, joinText, List.intercalate_cons_cons]

theorem joinText_nil (ts : List Text) : joinText [] ts = ts.flatten := by
  induction ts with
  | nil => rfl
  | cons t ts ih =>
    cases ts with
    | nil => simp [joinText]
    | cons u ts =>
      rw [joinText, List.intercalate_cons_cons, List.append_nil, List.flatten_cons]
      exact congrArg (t ++ ·) ih

/-! ### Numerals with a sign -/

theorem strip_of_digits {c : Char} {t : Text} (hc : isSpace c = false) (ht : ∀ d ∈ t, d.isDigit = true) : strip (c :: t) = c :: t :=
  strip_of_forall_not_space (List.forall_mem_cons.2 ⟨hc, fun d hd => isSpace_of_isDigit (ht d hd)⟩)

theorem parseInt_intText (i : Int) : parseInt (intText i) = some i := by
  unfold intText
  split
  · rename_i hneg
    have hstrip : strip ('-' :: natText i.natAbs) = '-' :: natText i.natAbs := strip_of_digits rfl fun d hd => isDigit_of_mem_natText hd
    unfold parseInt
    rw [hstrip]
    change ((parseNat (natText i.natAbs)).bind fun n => some (n : Int)).map (fun n => -n) = some i
    rw [parseNat_natText]
    have habs : -(i.natAbs : Int) = i := by omega
    exact congrArg some habs
  · rename_i hpos
    have habs : (i.natAbs : Int) = i := by omega
    rw [parseInt_natText, habs]

theorem mem_intText {i : Int} {c : Char} (h : c ∈ intText i) : c = '-' ∨ c.isDigit = true := by
  unfold intText at h
  split at h
  · exact (List.mem_cons.1 h).imp_right isDigit_of_mem_natText
  · exact .inr (isDigit_of_mem_natText h)

theorem toNat_of_isDigit {c : Char} (h : c.isDigit = true) : 48 ≤ c.toNat ∧ c.toNat ≤ 57 := by
  simp only [Char.isDigit, Bool.and_eq_true, decide_eq_true_eq] at h
  exact ⟨h.1, h.2⟩

/-! ### What follows the last separator -/

private theorem afterLast_skip (sep last : Text) (a t : Text) : afterLast sep a.length last (a ++ t) = afterLast sep 0 last t := by
  induction a with
  | nil => rfl
  | cons c a ih => rw [List.cons_append, List.length_cons, afterLast, ih]

private theorem afterLast_of_not_mem {sep : Text} {d : Char} (hd : d ∈ sep) {t : Text} (ht : d ∉ t) (last : Text) :
    afterLast sep 0 last t = last := by
  induction t with
  | nil => rfl
  | cons c t ih =>
    have hnot : sep.isPrefixOf (c :: t) = false := by
      rw [Bool.eq_false_iff]
      intro hp
      exact ht ((List.isPrefixOf_iff_prefix.1 hp).subset hd)
    rw [afterLast, hnot, if_neg Bool.false_ne_true, ih fun h => ht (List.mem_cons_of_mem _ h)]

/-- Behind a character that is not in the separator nothing of an earlier separator is left. -/
private theorem afterLast_bar {sep : Text} {bar : Char} (hbar : bar ∉ sep) (hsep : sep ≠ []) (a t : Text) {k : Nat} (hk : k ≤ a.length)
    (last : Text) : ∃ last', afterLast sep k last (a ++ bar :: t) = afterLast sep 0 last' t := by
  induction a generalizing k last with
  | nil =>
    obtain rfl : k = 0 := by simpa using hk
    have hnot : sep.isPrefixOf (bar :: t) = false := by
      obtain ⟨s, sep, rfl⟩ := List.exists_cons_of_ne_nil hsep
      have hne : s ≠ bar := fun h => hbar (h ▸ List.mem_cons_self)
      simp [List.isPrefixOf, hne]
    exact ⟨last, by rw [List.nil_append, afterLast, hnot, if_neg Bool.false_ne_true]⟩
  | cons c a ih =>
    cases k with
    | succ k =>
      rw [List.cons_append, afterLast]
      exact ih (Nat.le_of_succ_le_succ hk) last
    | zero =>
      rw [List.cons_append, afterLast]
      split_ifs with hp
      · -- an occurrence that begins before the bar ends before it
        have hlen : sep.length ≤ (c :: a).length := by
          by_contra hlt
          have hlong : (c :: a) ++ [bar] <+: sep := by
            refine List.prefix_of_prefix_length_le ?_ (List.isPrefixOf_iff_prefix.1 hp) ?_
            · exact ⟨t, by simp⟩
            · rw [List.length_append, List.length_singleton]
              exact Nat.lt_of_not_le hlt
          exact hbar (hlong.subset (by simp))
        refine ih ?_ _
        rw [List.length_cons] at hlen
        omega
      · exact ih (Nat.zero_le _) last

/-- The text behind a separator that stands behind such a character, if no other separator can follow. -/
theorem afterLast_append {sep : Text} {bar d : Char} (hbar : bar ∉ sep) (hd : d ∈ sep) (a : Text) {b : Text} (hb : d ∉ b) (last : Text) :
    afterLast sep 0 last (a ++ bar :: (sep ++ b)) = b := by
  have hsep := List.ne_nil_of_mem hd
  obtain ⟨last', h⟩ := afterLast_bar hbar hsep a (sep ++ b) (Nat.zero_le _) last
  have hmatch : sep.isPrefixOf (sep ++ b) = true := List.isPrefixOf_iff_prefix.2 (List.prefix_append sep b)
  have hdrop : (sep ++ b).drop sep.length = b := List.drop_left
  rw [h]
  obtain ⟨s, rest, hcons⟩ := List.exists_cons_of_ne_nil hsep
  have hstep : afterLast sep 0 last' (sep ++ b) = afterLast sep rest.length b (rest ++ b) := by
    conv_lhs => rw [hcons, List.cons_append, afterLast, ← List.cons_append, ← hcons, hmatch, if_pos rfl, hdrop]
    rw [hcons]
    rfl
  rw [hstep, afterLast_skip, afterLast_of_not_mem hd hb]

end ProxmoxTool
