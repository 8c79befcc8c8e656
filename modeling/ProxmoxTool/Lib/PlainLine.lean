import ProxmoxTool.Lib.Fields
import ProxmoxTool.Lib.SemVer

/-!
# Command lines of plain words

What a shell makes of a text of words: one command a line, with the redirections of standard error taken out, and each word with a `*`
replaced by the names it matches, if it matches any.  A text with a character that means something else to the shell is not read.

The lines of a text have no ends of line in their words (`not_mem_programs`), and a line of words with blanks between them is one command of
these words (`programs_line`).
-/

namespace ProxmoxTool.PlainLine

def isBlank (c : Char) : Bool := c = ' ' || c = '\t'

/-- The characters that mean something to the shell, ends of line apart; `*` does in file names only. -/
def special : Text := " \t|&;<>()$`\\\"'#?[]=~\x7b\x7d!".toList

def isPlain (c : Char) : Bool := c ∉ special

def fields (line : Text) : List Text := (line.splitOnP isBlank).filter (· ≠ [])

/-- `2>target`, in one word. -/
def toStderr (w : Text) : Bool := "2>".toList.isPrefixOf w && (w.drop 2).all isPlain

/-- The rest of a name matches the rest of a pattern. -/
def matchFrom : Text → Text → Bool
  | [], name => name.isEmpty
  | '*' :: pattern, name => name.tails.any fun rest => matchFrom pattern rest
  | c :: pattern, d :: name => c = d && matchFrom pattern name
  | _ :: _, [] => false

/-- A period at the start is matched by a period only. -/
def globMatches (pattern name : Text) : Bool := (name.head? ≠ some '.' || pattern.head? = some '.') && matchFrom pattern name

/-- A pattern that matches no file stands for itself. -/
def expand (files : List Text) (w : Text) : List Text :=
  if '*' ∈ w ∧ files.any (globMatches w) then files.filter (globMatches w) else [w]

def readLine (files : List Text) (line : Text) : Option (List Text) :=
  let args := (fields line).filter fun w => !toStderr w
  if args.all fun w => w.all isPlain then some (args.flatMap (expand files)) else none

/-- The commands with their arguments, of a shell in a directory with the files. -/
def programs (files : List Text) (t : Text) : Option (List (List Text)) :=
  ((t.splitOn '\n').mapM (readLine files)).map fun commands => commands.filter (· ≠ [])

/-! ### Fields -/

theorem fields_append {w : Text} (hw : ∀ c ∈ w, isBlank c = false) (hne : w ≠ []) (t : Text) :
    fields (w ++ ' ' :: t) = w :: fields t := by
  rw [fields, List.splitOnP_append_cons_of_forall_mem hw ' ' rfl, List.filter_cons_of_pos (by simpa using hne)]
  rfl

theorem fields_of_forall {w : Text} (hw : ∀ c ∈ w, isBlank c = false) (hne : w ≠ []) : fields w = [w] := by
  rw [fields, List.splitOnP_eq_singleton hw, List.filter_cons_of_pos (by simpa using hne), List.filter_nil]

/-- Words with a blank between them. -/
theorem fields_joinText {ws : List Text} (hws : ∀ w ∈ ws, w ≠ [] ∧ ∀ c ∈ w, isBlank c = false) :
    fields (joinText [' '] ws) = ws := by
  induction ws with
  | nil => rfl
  | cons w ws ih =>
    obtain ⟨hne, hw⟩ := hws w List.mem_cons_self
    cases ws with
    | nil =>
      rw [joinText, List.intercalate_singleton]
      exact fields_of_forall hw hne
    | cons v ws =>
      have hjoin : joinText [' '] (w :: v :: ws) = w ++ ' ' :: joinText [' '] (v :: ws) := by
        rw [joinText, List.intercalate_cons_cons, List.append_assoc]
        rfl
      rw [hjoin, fields_append hw hne, ih fun u hu => hws u (List.mem_cons_of_mem _ hu)]

theorem mem_of_mem_splitOnP {p : Char → Bool} {t w : Text} {c : Char} (hw : w ∈ t.splitOnP p) (hc : c ∈ w) : c ∈ t := by
  induction t generalizing w with
  | nil =>
    rw [List.splitOnP_nil, List.mem_singleton] at hw
    rwa [hw] at hc
  | cons d t ih =>
    obtain ⟨head, tail, ht⟩ := List.exists_cons_of_ne_nil (List.splitOnP_ne_nil p t)
    rw [List.splitOnP_cons_eq_if_modifyHead, ht] at hw
    split_ifs at hw
    · rcases List.mem_cons.1 hw with rfl | hw
      · cases hc
      · exact List.mem_cons_of_mem _ (ih (ht ▸ hw) hc)
    · rw [List.modifyHead_cons] at hw
      rcases List.mem_cons.1 hw with rfl | hw
      · rcases List.mem_cons.1 hc with rfl | hc
        · exact List.mem_cons_self
        · exact List.mem_cons_of_mem _ (ih (ht ▸ List.mem_cons_self) hc)
      · exact List.mem_cons_of_mem _ (ih (ht ▸ List.mem_cons_of_mem _ hw) hc)

/-! ### Commands -/

theorem isBlank_of_isPlain {c : Char} (h : isPlain c = true) : isBlank c = false := by
  by_contra hblank
  rw [Bool.not_eq_false, isBlank, Bool.or_eq_true, decide_eq_true_eq, decide_eq_true_eq] at hblank
  rcases hblank with rfl | rfl
  · cases h
  · cases h

/-- Without files no word is replaced. -/
theorem expand_nil (w : Text) : expand [] w = [w] := if_neg fun h => absurd h.2 Bool.false_ne_true

theorem expand_of_not_mem {w : Text} (h : '*' ∉ w) (files : List Text) : expand files w = [w] := if_neg fun hw => h hw.1

/-- A line of plain words and a redirection of standard error. -/
theorem programs_line {files : List Text} {ws : List Text} {target : Text} (hne : ws ≠ [])
    (hws : ∀ w ∈ ws, w ≠ [] ∧ '\n' ∉ w ∧ w.all isPlain = true ∧ expand files w = [w]) (htarget : target.all isPlain = true)
    (hline : '\n' ∉ target) :
    programs files (joinText [' '] (ws ++ ["2>".toList ++ target])) = some [ws] := by
  have hword : ∀ w ∈ ws, toStderr w = false := by
    intro w hw
    by_contra hprefix
    rw [Bool.not_eq_false, toStderr, Bool.and_eq_true, List.isPrefixOf_iff_prefix] at hprefix
    obtain ⟨rest, rfl⟩ := hprefix.1
    have hplain := List.all_eq_true.1 (hws _ hw).2.2.1 '>' (by simp)
    cases hplain
  have hredirect : toStderr ("2>".toList ++ target) = true := by
    rw [toStderr, Bool.and_eq_true, List.isPrefixOf_iff_prefix]
    exact ⟨⟨target, rfl⟩, htarget⟩
  have hfields : fields (joinText [' '] (ws ++ ["2>".toList ++ target])) = ws ++ ["2>".toList ++ target] := by
    refine fields_joinText fun w hw => ?_
    rcases List.mem_append.1 hw with hw | hw
    · exact ⟨(hws w hw).1, fun c hc => isBlank_of_isPlain (List.all_eq_true.1 (hws w hw).2.2.1 c hc)⟩
    · rw [List.mem_singleton.1 hw]
      refine ⟨by simp, fun c hc => ?_⟩
      rcases List.mem_append.1 hc with hc | hc
      · have hnumber : "2>".toList.all (fun c => !isBlank c) = true := rfl
        simpa using List.all_eq_true.1 hnumber c hc
      · exact isBlank_of_isPlain (List.all_eq_true.1 htarget c hc)
  have hread : readLine files (joinText [' '] (ws ++ ["2>".toList ++ target])) = some ws := by
    have hargs : (ws ++ ["2>".toList ++ target]).filter (fun w => !toStderr w) = ws := by
      rw [List.filter_append, List.filter_eq_self.2 fun w hw => by rw [hword w hw]; rfl, List.filter_singleton, hredirect]
      exact List.append_nil ws
    have hexpand : ws.flatMap (expand files) = ws := by
      rw [List.flatMap_congr (g := fun w => [w]) fun w hw => (hws w hw).2.2.2]
      exact List.flatMap_singleton' ws
    unfold readLine
    dsimp only
    rw [hfields, hargs, hexpand]
    exact if_pos (List.all_eq_true.2 fun w hw => (hws w hw).2.2.1)
  have hnewline : '\n' ∉ joinText [' '] (ws ++ ["2>".toList ++ target]) := by
    intro hmem
    rcases mem_joinText hmem with hmem | ⟨w, hw, hmem⟩
    · cases List.mem_singleton.1 hmem
    · rcases List.mem_append.1 hw with hw | hw
      · exact (hws w hw).2.1 hmem
      · rw [List.mem_singleton.1 hw] at hmem
        rcases List.mem_append.1 hmem with hmem | hmem
        · exact absurd hmem (by decide)
        · exact hline hmem
  have hsplit : (joinText [' '] (ws ++ ["2>".toList ++ target])).splitOn '\n' = [joinText [' '] (ws ++ ["2>".toList ++ target])] := by
    rw [List.splitOn_eq_splitOnP]
    exact List.splitOnP_eq_singleton fun c hc => by
      rw [beq_eq_false_iff_ne]
      rintro rfl
      exact hnewline hc
  unfold programs
  rw [hsplit, List.mapM_cons, List.mapM_nil, hread]
  simp [hne]

theorem exists_of_mem_mapM {α β : Type} {f : α → Option β} {l : List α} {l' : List β} (h : l.mapM f = some l') {b : β}
    (hb : b ∈ l') :
    ∃ a ∈ l, f a = some b := by
  induction l generalizing l' with
  | nil =>
    rw [List.mapM_nil] at h
    cases h
    cases hb
  | cons a l ih =>
    rw [List.mapM_cons] at h
    obtain ⟨c, hc, hrest⟩ := Option.bind_eq_some_iff.1 h
    obtain ⟨cs, hcs, heq⟩ := Option.bind_eq_some_iff.1 hrest
    cases heq
    rcases List.mem_cons.1 hb with rfl | hb
    · exact ⟨a, List.mem_cons_self, hc⟩
    · obtain ⟨a', ha', hf⟩ := ih hcs hb
      exact ⟨a', List.mem_cons_of_mem _ ha', hf⟩

/-- No argument goes over the end of a line, where there are no files. -/
theorem not_mem_programs {t : Text} {commands : List (List Text)} (h : programs [] t = some commands) :
    ∀ args ∈ commands, ∀ w ∈ args, '\n' ∉ w := by
  intro args hargs w hw
  obtain ⟨all, hall, rfl⟩ := Option.map_eq_some_iff.1 h
  have hmem := List.mem_of_mem_filter hargs
  obtain ⟨line, hline, hread⟩ := exists_of_mem_mapM hall hmem
  unfold readLine at hread
  dsimp only at hread
  split_ifs at hread
  cases hread
  obtain ⟨v, hv, hwv⟩ := List.mem_flatMap.1 hw
  rw [expand_nil, List.mem_singleton] at hwv
  have hfield : v ∈ line.splitOnP isBlank := List.mem_of_mem_filter (List.mem_of_mem_filter hv)
  intro hnewline
  exact Joined.not_mem_of_mem_splitOn '\n' hline (mem_of_mem_splitOnP hfield (hwv ▸ hnewline))

end ProxmoxTool.PlainLine
