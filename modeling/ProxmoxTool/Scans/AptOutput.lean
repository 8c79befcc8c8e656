import ProxmoxTool.Lib.Fields
import ProxmoxTool.Scans.Scan

/-!
# What apt prints and what a scan reads

The lines of `apt list --upgradable` and of `apt-get -s upgrade | grep -i security`, and what a scan makes of them.  Every package listed is
read back with its versions.  The security count joins the two outputs by the name: a package of a foreign architecture is called
`name:arch` in the simulation, one that is kept back has no line there, and `grep` keeps a line for the word `security` anywhere in it, so
the count is right exactly if as many packages are missed as are counted wrongly (`apt_output_iff`).
-/

namespace ProxmoxTool.Scans

open Updates (Upgradable parseUpgradable parseUpgradableLine)

/-! ### The two outputs -/

def isNameChar (c : Char) : Bool := c.isLower || c.isDigit || ['+', '-', '.'].contains c

def isSuiteChar (c : Char) : Bool := c.isAlphanum || ['-', '_', '.', '/', '~', '+', ':'].contains c

def isVersionChar (c : Char) : Bool := c.isAlphanum || ['.', '+', '~', '-', ':'].contains c

def isArchChar (c : Char) : Bool := c.isLower || c.isDigit || c = '-'

/-- ASCII that is printed, or a blank. -/
def isPrintable (c : Char) : Bool := 32 ≤ c.toNat && c.toNat ≤ 126

/-- Some characters, all of a kind. -/
def isField (p : Char → Bool) (t : Text) : Bool := !t.isEmpty && t.all p

/-- An upgradable package: what apt knows of it and of its candidate. -/
structure Printed where
  name : Text
  suites : List Text
  version : Text
  arch : Text
  old : Text
  foreign : Bool
  origins : List Text
  name_ok : isField isNameChar name = true := by rfl
  suites_ok : (!suites.isEmpty && suites.all (isField isSuiteChar)) = true := by rfl
  version_ok : isField isVersionChar version = true := by rfl
  arch_ok : isField isArchChar arch = true := by rfl
  old_ok : isField isVersionChar old = true := by rfl
  origins_ok : (origins.all fun o => o.all isPrintable) = true := by rfl

namespace Printed

variable (p : Printed)

/-- A line of `apt list --upgradable`. -/
def listLine : Text :=
  p.name ++ '/' :: (joinText [','] p.suites ++ ' ' :: (p.version ++ ' ' :: (p.arch ++ ' ' :: '[' ::
    ("upgradable from: ".toList ++ (p.old ++ [']'])))))

/-- The entry that the line stands for. -/
def entry : Upgradable where
  name := p.name
  currentVersion := p.old
  availableVersion := p.version

/-- The name in the simulation. -/
def fullName : Text := if p.foreign then p.name ++ ':' :: p.arch else p.name

def details : Text := '(' :: (p.version ++ ' ' :: (joinText ", ".toList p.origins ++ " [".toList ++ p.arch ++ "])".toList))

end Printed

/-- A line of `apt-get -s upgrade`: a package that would be unpacked or configured, with what apt may add, or anything else. -/
inductive SimLine
  | inst (p : Printed) (tail : Text)
  | conf (p : Printed) (tail : Text)
  | other (t : Text)

namespace SimLine

def text : SimLine → Text
  | inst p tail => "Inst".toList ++ ' ' :: (p.fullName ++ ' ' :: ('[' :: (p.old ++ ']' :: ' ' :: p.details) ++ tail))
  | conf p tail => "Conf".toList ++ ' ' :: (p.fullName ++ ' ' :: (p.details ++ tail))
  | other t => t

/-- The package that the line names. -/
def package : SimLine → Option Printed
  | inst p _ => some p
  | conf p _ => some p
  | other _ => none

/-- Nothing else looks like a line of a package, and no line has an end of line in it. -/
def Ok : SimLine → Prop
  | inst _ tail => tail.all isPrintable = true
  | conf _ tail => tail.all isPrintable = true
  | other t => (∀ c ∈ t, isLineEnd c = false) ∧ (words t).head? ≠ some "Inst".toList ∧ (words t).head? ≠ some "Conf".toList

end SimLine

/-- `apt list --upgradable`, with what stands behind `Listing...`. -/
def listOutput (header : Text) (ps : List Printed) : Text := printLines (("Listing...".toList ++ header) :: ps.map Printed.listLine)

/-- `grep -i security` keeps the line. -/
def mentionsSecurity (t : Text) : Bool := hasSub "security".toList (t.map Char.toLower)

def securityOutput (sim : List SimLine) : Text := printLines ((sim.map SimLine.text).filter mentionsSecurity)

/-- What a scan is given. -/
def aptOutput (header : Text) (ps : List Printed) (sim : List SimLine) : Output :=
  ⟨some (listOutput header ps), some (securityOutput sim), none⟩

/-! ### What a scan should find -/

/-- The candidate comes from a security origin. -/
def Printed.fromSecurity (p : Printed) : Bool := p.origins.any mentionsSecurity

/-- The line is not taken for a header. -/
def Printed.read (p : Printed) : Bool := !hasSub "Listing...".toList p.listLine

/-- The package is counted: a line of a native package of its name has the word `security` somewhere. -/
def flagged (sim : List SimLine) (p : Printed) : Bool :=
  p.read && sim.any fun l => l.package.any (fun q => !q.foreign && q.name = p.name) && mentionsSecurity l.text

/-- From a security origin, and not counted. -/
def missed (sim : List SimLine) (p : Printed) : Bool := p.fromSecurity && !flagged sim p

/-- Counted, and not from a security origin. -/
def wrong (sim : List SimLine) (p : Printed) : Bool := flagged sim p && !p.fromSecurity

/-! ### The listing is read back -/

theorem isAlphanum_of_lower_or_digit {c : Char} (h : c.isLower = true ∨ c.isDigit = true) : c.isAlphanum = true := by
  simp only [Char.isAlphanum, Char.isAlpha, Bool.or_eq_true]
  tauto

theorem isField_iff {p : Char → Bool} {t : Text} : isField p t = true ↔ t ≠ [] ∧ ∀ c ∈ t, p c = true := by
  simp [isField]

namespace Printed

variable (p : Printed)

theorem isNameChar_of_mem {c : Char} (h : c ∈ p.name) : isNameChar c = true := (isField_iff.1 p.name_ok).2 c h

theorem between_name {c : Char} (h : c ∈ p.name) : 33 ≤ c.toNat ∧ c.toNat ≤ 126 := by
  have hc := p.isNameChar_of_mem h
  simp only [isNameChar, Bool.or_eq_true, List.contains_iff_mem, List.mem_cons, List.not_mem_nil, or_false] at hc
  rcases hc with hc | rfl | rfl | rfl
  · exact between_of_isAlphanum (isAlphanum_of_lower_or_digit hc)
  · decide
  · decide
  · decide

theorem between_arch {c : Char} (h : c ∈ p.arch) : 33 ≤ c.toNat ∧ c.toNat ≤ 126 := by
  have hc := (isField_iff.1 p.arch_ok).2 c h
  simp only [isArchChar, Bool.or_eq_true, decide_eq_true_eq] at hc
  rcases hc with hc | rfl
  · exact between_of_isAlphanum (isAlphanum_of_lower_or_digit hc)
  · decide

end Printed

theorem between_version {t : Text} (ht : isField isVersionChar t = true) {c : Char} (h : c ∈ t) :
    (33 ≤ c.toNat ∧ c.toNat ≤ 126) ∧ c ≠ ']' := by
  have hc := (isField_iff.1 ht).2 c h
  simp only [isVersionChar, Bool.or_eq_true, List.contains_iff_mem, List.mem_cons, List.not_mem_nil, or_false] at hc
  rcases hc with hc | rfl | rfl | rfl | rfl | rfl
  · refine ⟨between_of_isAlphanum hc, ?_⟩
    rintro rfl
    cases hc
  all_goals exact ⟨by decide, by decide⟩

theorem between_suites (p : Printed) {c : Char} (h : c ∈ joinText [','] p.suites) : 33 ≤ c.toNat ∧ c.toNat ≤ 126 := by
  rcases mem_joinText h with h | ⟨t, ht, h⟩
  · rw [List.mem_singleton] at h
    subst h
    decide
  · have hall := List.all_eq_true.1 (Bool.and_eq_true_iff.1 p.suites_ok).2 t ht
    have hc := (isField_iff.1 hall).2 c h
    simp only [isSuiteChar, Bool.or_eq_true, List.contains_iff_mem, List.mem_cons, List.not_mem_nil, or_false] at hc
    rcases hc with hc | rfl | rfl | rfl | rfl | rfl | rfl | rfl
    · exact between_of_isAlphanum hc
    all_goals decide

theorem joinText_suites_ne_nil (p : Printed) : joinText [','] p.suites ≠ [] := by
  obtain ⟨hne, hall⟩ := Bool.and_eq_true_iff.1 p.suites_ok
  cases hs : p.suites with
  | nil =>
    rw [hs] at hne
    cases hne
  | cons t ts =>
    rw [hs] at hall
    have ht := (isField_iff.1 (List.all_eq_true.1 hall t List.mem_cons_self)).1
    cases ts with
    | nil => rwa [joinText, List.intercalate_singleton]
    | cons u ts =>
      rw [joinText, List.intercalate_cons_cons]
      simp [ht]

theorem parseUpgradableLine_listLine (p : Printed) : parseUpgradableLine p.listLine = if p.read then some p.entry else none := by
  have hslash : '/' ∉ p.name := fun h => by cases p.isNameChar_of_mem h
  have hcontains : p.listLine.contains '/' = true := by
    rw [List.contains_iff_mem, Printed.listLine]
    simp
  have hpart : partition '/' p.listLine = (p.name, true, _) := partition_append hslash _
  have hname : strip p.name = p.name := strip_of_forall_not_space fun c hc => isSpace_of_between (p.between_name hc)
  have hwords : (words (partition '/' p.listLine).2.2).getD 1 "unknown".toList = p.version := by
    rw [hpart]
    rw [words_append (fun c hc => isSpace_of_between (between_suites p hc)) (joinText_suites_ne_nil p),
      words_append (fun c hc => isSpace_of_between (between_version p.version_ok hc).1) (isField_iff.1 p.version_ok).1]
    rfl
  have hline : p.listLine = (p.name ++ '/' :: (joinText [','] p.suites ++ ' ' :: (p.version ++ ' ' :: (p.arch ++ [' '])))) ++
      '[' :: ("upgradable from: ".toList ++ (p.old ++ [']'])) := by
    simp [Printed.listLine]
  have hfrom : hasSub "upgradable from:".toList p.listLine = true := by
    have h := hasSub_append ((p.name ++ '/' :: (joinText [','] p.suites ++ ' ' :: (p.version ++ ' ' :: (p.arch ++ [' '])))) ++ ['['])
      "upgradable from:".toList (' ' :: (p.old ++ [']']))
    rwa [hline, List.append_cons _ '[']
  have hcurrent : strip (rstripChar ']' (afterLast "upgradable from: ".toList 0 p.listLine p.listLine)) = p.old := by
    have hspace : ' ' ∉ p.old ++ [']'] := by
      rw [List.mem_append, List.mem_singleton]
      rintro (h | h)
      · exact absurd (between_version p.old_ok h).1.1 (by decide)
      · exact absurd h (by decide)
    have hlast : (p.old.reverse).dropWhile (· = ']') = p.old.reverse := by
      cases hrev : p.old.reverse with
      | nil => rfl
      | cons c t =>
        have hc : c ∈ p.old := List.mem_reverse.1 (hrev ▸ List.mem_cons_self)
        rw [List.dropWhile_cons_of_neg (by simpa using (between_version p.old_ok hc).2)]
    rw [hline, afterLast_append (by decide) (d := ' ') (by decide) _ hspace, rstripChar, List.reverse_append, List.reverse_singleton,
      List.singleton_append, List.dropWhile_cons_of_pos (by decide), hlast, List.reverse_reverse]
    exact strip_of_forall_not_space fun c hc => isSpace_of_between (between_version p.old_ok hc).1
  unfold parseUpgradableLine Printed.read
  rw [hcontains, Bool.not_true, Bool.false_or]
  by_cases hheader : hasSub "Listing...".toList p.listLine = true
  · rw [if_pos hheader, hheader]
    rfl
  · rw [if_neg hheader, Bool.eq_false_iff.2 hheader, Bool.not_false, if_pos rfl]
    dsimp only
    rw [if_pos hfrom, hcurrent, hwords, hpart, hname]
    rfl

theorem newline_not_mem_listLine (p : Printed) : '\n' ∉ p.listLine := by
  have hnot : ∀ {c : Char}, 33 ≤ c.toNat ∧ c.toNat ≤ 126 → c ≠ '\n' := by
    rintro c h rfl
    exact absurd h (by decide)
  intro h
  simp only [Printed.listLine, List.mem_append, List.mem_cons, List.not_mem_nil, or_false] at h
  rcases h with h | h | h | h | h | h | h | h | h | h | h
  · exact hnot (p.between_name h) rfl
  · cases h
  · exact hnot (between_suites p h) rfl
  · cases h
  · exact hnot (between_version p.version_ok h).1 rfl
  · cases h
  · exact hnot (p.between_arch h) rfl
  · cases h
  · cases h
  · exact absurd h (by decide)
  · rcases h with h | h
    · exact hnot (between_version p.old_ok h).1 rfl
    · cases h

theorem parseUpgradableLine_header (header : Text) : parseUpgradableLine ("Listing...".toList ++ header) = none := by
  have h : hasSub "Listing...".toList ("Listing...".toList ++ header) = true := hasSub_append [] "Listing...".toList header
  rw [parseUpgradableLine, h, Bool.or_true, if_pos rfl]

/-- The listing without the white space around it, by lines. -/
theorem splitOn_strip_listOutput {header : Text} (hheader : '\n' ∉ header) (ps : List Printed) :
    ∃ header', (strip (listOutput header ps)).splitOn '\n' = ("Listing...".toList ++ header') :: ps.map Printed.listLine := by
  have hrows : ∀ row ∈ ("Listing...".toList ++ header) :: ps.map Printed.listLine, '\n' ∉ row := by
    intro row hrow
    rcases List.mem_cons.1 hrow with rfl | hrow
    · rw [List.mem_append, not_or]
      exact ⟨by decide, hheader⟩
    · obtain ⟨p, -, rfl⟩ := List.mem_map.1 hrow
      exact newline_not_mem_listLine p
  rw [listOutput, printLines_eq_joinText (List.cons_ne_nil _ _), strip_append_space (by decide)]
  rcases List.eq_nil_or_concat' ps with rfl | ⟨ps, p, rfl⟩
  · have hword : ∀ c ∈ "Listing...".toList, isSpace c = false := fun c hc =>
      Bool.not_eq_true' _ ▸ List.all_eq_true.1 (by rfl : ("Listing...".toList.all fun c => !isSpace c) = true) c hc
    obtain ⟨s, hs⟩ := strip_append_of_not_space hword (by simp) header
    refine ⟨s, ?_⟩
    have hone : joinText ['\n'] ["Listing...".toList ++ header] = "Listing...".toList ++ header := List.intercalate_singleton
    rw [List.map_nil, hone, ← hs]
    exact List.splitOn_eq_singleton fun h => hrows _ List.mem_cons_self (mem_of_mem_strip h)
  · refine ⟨header, ?_⟩
    obtain ⟨s, hs⟩ := joinText_cons ['\n'] ("Listing...".toList ++ header) ((ps ++ [p]).map Printed.listLine)
    obtain ⟨s', hs'⟩ := joinText_concat ['\n'] (("Listing...".toList ++ header) :: ps.map Printed.listLine) p.listLine
    rw [strip_eq_self, splitOn_joinText hrows (List.cons_ne_nil _ _)]
    · rw [hs]
      rintro c ⟨⟩
      decide
    · rw [List.map_append, List.map_singleton, ← List.cons_append, hs']
      have hend : p.listLine.getLast? = some ']' := by
        simp [Printed.listLine, List.getLast?_append, List.getLast?_cons]
      rw [List.getLast?_append, hend]
      rintro c ⟨⟩
      decide

theorem filterMap_listLine (ps : List Printed) :
    (ps.map Printed.listLine).filterMap parseUpgradableLine = (ps.filter Printed.read).map Printed.entry := by
  induction ps with
  | nil => rfl
  | cons p ps ih =>
    rw [List.map_cons, List.filterMap_cons, parseUpgradableLine_listLine, List.filter_cons, ih]
    cases p.read <;> rfl

/-- Every line that is not taken for a header is read back. -/
theorem parseUpgradable_listOutput {header : Text} (hheader : '\n' ∉ header) (ps : List Printed) :
    parseUpgradable (listOutput header ps) = (ps.filter Printed.read).map Printed.entry := by
  obtain ⟨header', hlines⟩ := splitOn_strip_listOutput hheader ps
  rw [parseUpgradable, hlines, List.filterMap_cons_none (parseUpgradableLine_header header'), filterMap_listLine]

/-! ### The lines of the simulation -/

theorem fullName_eq_iff (p q : Printed) : q.fullName = p.name ↔ q.foreign = false ∧ q.name = p.name := by
  rw [Printed.fullName]
  split_ifs with h
  · have hcolon : q.name ++ ':' :: q.arch ≠ p.name := by
      intro heq
      have hmem : ':' ∈ p.name := heq ▸ List.mem_append_right _ List.mem_cons_self
      cases p.isNameChar_of_mem hmem
    simp [h, hcolon]
  · simp [h]

theorem between_fullName (p : Printed) {c : Char} (h : c ∈ p.fullName) : 33 ≤ c.toNat ∧ c.toNat ≤ 126 := by
  rw [Printed.fullName] at h
  split_ifs at h
  · rcases List.mem_append.1 h with h | h
    · exact p.between_name h
    · rcases List.mem_cons.1 h with rfl | h
      · decide
      · exact p.between_arch h
  · exact p.between_name h

theorem fullName_ne_nil (p : Printed) : p.fullName ≠ [] := by
  rw [Printed.fullName]
  split_ifs
  · exact List.append_ne_nil_of_left_ne_nil (isField_iff.1 p.name_ok).1 _
  · exact (isField_iff.1 p.name_ok).1

/-- The first two words of a line that names a package. -/
theorem words_of_package {l : SimLine} {q : Printed} (h : l.package = some q) :
    ∃ first rest, words l.text = first :: q.fullName :: rest ∧ (first = "Inst".toList ∨ first = "Conf".toList) := by
  have hsplit (first rest : Text) (hword : ∀ c ∈ first, isSpace c = false) (hne : first ≠ []) :
      words (first ++ ' ' :: (q.fullName ++ ' ' :: rest)) = first :: q.fullName :: words rest := by
    rw [words_append hword hne, words_append (fun c hc => isSpace_of_between (between_fullName q hc)) (fullName_ne_nil q)]
  cases l with
  | inst p tail =>
    cases h
    exact ⟨_, _, hsplit "Inst".toList _ (by simp [isSpace]) (by simp), Or.inl rfl⟩
  | conf p tail =>
    cases h
    exact ⟨_, _, hsplit "Conf".toList _ (by simp [isSpace]) (by simp), Or.inr rfl⟩
  | other t => cases h

theorem isLineEnd_of_printable {c : Char} (h : isPrintable c = true) : isLineEnd c = false := by
  simp only [isPrintable, Bool.and_eq_true, decide_eq_true_eq] at h
  simp only [isLineEnd, Bool.or_eq_false_iff, Bool.and_eq_false_iff, decide_eq_false_iff_not, beq_eq_false_iff_ne]
  omega

theorem isPrintable_of_between {c : Char} (h : 33 ≤ c.toNat ∧ c.toNat ≤ 126) : isPrintable c = true := by
  simp only [isPrintable, Bool.and_eq_true, decide_eq_true_eq]
  omega

theorem isPrintable_details (p : Printed) {c : Char} (h : c ∈ p.details) : isPrintable c = true := by
  simp only [Printed.details, List.mem_cons, List.mem_append] at h
  rcases h with rfl | h | rfl | ((h | h) | h) | h
  · rfl
  · exact isPrintable_of_between (between_version p.version_ok h).1
  · rfl
  · rcases mem_joinText h with h | ⟨o, ho, h⟩
    · exact List.all_eq_true.1 (by rfl : (", ".toList.all isPrintable) = true) c h
    · exact List.all_eq_true.1 (List.all_eq_true.1 p.origins_ok o ho) c h
  · exact List.all_eq_true.1 (by rfl : (" [".toList.all isPrintable) = true) c h
  · exact isPrintable_of_between (p.between_arch h)
  · exact List.all_eq_true.1 (by rfl : ("])".toList.all isPrintable) = true) c h

theorem isLineEnd_of_mem_text {l : SimLine} (hok : l.Ok) {c : Char} (h : c ∈ l.text) : isLineEnd c = false := by
  cases l with
  | inst p tail =>
    refine isLineEnd_of_printable ?_
    simp only [SimLine.text, List.mem_append, List.mem_cons] at h
    rcases h with h | rfl | h | rfl | (rfl | h | rfl | rfl | h) | h
    · exact List.all_eq_true.1 (by rfl : ("Inst".toList.all isPrintable) = true) c h
    · rfl
    · exact isPrintable_of_between (between_fullName p h)
    · rfl
    · rfl
    · exact isPrintable_of_between (between_version p.old_ok h).1
    · rfl
    · rfl
    · exact isPrintable_details p h
    · exact List.all_eq_true.1 hok c h
  | conf p tail =>
    refine isLineEnd_of_printable ?_
    simp only [SimLine.text, List.mem_append, List.mem_cons] at h
    rcases h with h | rfl | h | rfl | h | h
    · exact List.all_eq_true.1 (by rfl : ("Conf".toList.all isPrintable) = true) c h
    · rfl
    · exact isPrintable_of_between (between_fullName p h)
    · rfl
    · exact isPrintable_details p h
    · exact List.all_eq_true.1 hok c h
  | other t => exact hok.1 c h

/-! ### The count -/

/-- The test of one line in `determine_severity`. -/
def namesPackage (name line : Text) : Bool :=
  match words line with
  | first :: second :: _ => (first = "Inst".toList || first = "Conf".toList) && second = name
  | _ => false

theorem namesPackage_text {l : SimLine} (hok : l.Ok) (p : Printed) :
    namesPackage p.name l.text = l.package.any fun q => !q.foreign && q.name = p.name := by
  cases hpackage : l.package with
  | some q =>
    obtain ⟨first, rest, hwords, hfirst⟩ := words_of_package hpackage
    rw [Bool.eq_iff_iff]
    rcases hfirst with rfl | rfl <;> simp [namesPackage, hwords, fullName_eq_iff]
  | none =>
    cases l with
    | inst q tail => cases hpackage
    | conf q tail => cases hpackage
    | other t =>
      obtain ⟨-, hinst, hconf⟩ := hok
      rw [SimLine.text, namesPackage]
      split
      · rename_i first second rest hwords
        rw [hwords, List.head?_cons, ne_eq, Option.some.injEq] at hinst hconf
        rw [decide_eq_false hinst, decide_eq_false hconf]
        rfl
      · rfl

theorem determineSeverity_iff {sim : List SimLine} (hsim : ∀ l ∈ sim, l.Ok) (p : Printed) :
    determineSeverity p.name (some (securityOutput sim)) = .critical ↔
      (sim.any fun l => l.package.any (fun q => !q.foreign && q.name = p.name) && mentionsSecurity l.text) = true := by
  have hlines : splitLines (securityOutput sim) = (sim.map SimLine.text).filter mentionsSecurity := by
    refine splitLines_printLines fun row hrow c hc => ?_
    obtain ⟨l, hl, rfl⟩ := List.mem_map.1 (List.mem_filter.1 hrow).1
    exact isLineEnd_of_mem_text (hsim l hl) hc
  have hany : ((splitLines (securityOutput sim)).any fun line => namesPackage p.name line) =
      sim.any fun l => l.package.any (fun q => !q.foreign && q.name = p.name) && mentionsSecurity l.text := by
    rw [hlines, List.any_filter, List.any_map, Bool.eq_iff_iff, List.any_eq_true, List.any_eq_true]
    refine exists_congr fun l => and_congr_right fun hl => ?_
    rw [Function.comp_apply, namesPackage_text (hsim l hl), Bool.and_comm]
  rw [← hany]
  unfold determineSeverity
  change (if ((splitLines (securityOutput sim)).any fun line => namesPackage p.name line) = true then Updates.Severity.critical else _) = _ ↔ _
  split_ifs with h
  · simp [h]
  · simp [h]

/-- The security count of a scan is the number of packages that are flagged. -/
theorem securityUpdates_eq {header : Text} (hheader : '\n' ∉ header) {ps : List Printed} {sim : List SimLine}
    (hsim : ∀ l ∈ sim, l.Ok) (guest : Nat) (now : Int) :
    (scanResult guest now (aptOutput header ps sim)).securityUpdates = ps.countP (flagged sim) := by
  have hfound : found guest now (aptOutput header ps sim) =
      ((ps.filter Printed.read).map Printed.entry).map (foundRow guest now (some (securityOutput sim))) := by
    rw [found, aptOutput, Option.getD_some, parseUpgradable_listOutput hheader]
  have hfailed : (aptOutput header ps sim).failed = false := rfl
  rw [scanResult, hfailed, if_neg Bool.false_ne_true]
  dsimp only
  rw [hfound, List.countP_map, List.countP_map, List.countP_filter]
  refine List.countP_congr fun p _ => ?_
  simp only [Function.comp_apply, foundRow, Printed.entry, Bool.and_eq_true, decide_eq_true_eq, determineSeverity_iff hsim, flagged]
  exact and_comm

theorem countP_eq_iff {α : Type} (l : List α) (a b : α → Bool) :
    l.countP a = l.countP b ↔ l.countP (fun x => b x && !a x) = l.countP (fun x => a x && !b x) := by
  have h : l.countP a + l.countP (fun x => b x && !a x) = l.countP b + l.countP (fun x => a x && !b x) := by
    induction l with
    | nil => rfl
    | cons x l ih =>
      simp only [List.countP_cons]
      cases a x <;> cases b x <;> simp <;> omega
  omega

/-- Every package printed is read back exactly if no line is taken for a header; the security count is right exactly if as many packages
are missed as are counted wrongly. -/
theorem apt_output_iff {header : Text} (hheader : '\n' ∉ header) (ps : List Printed) :
    (parseUpgradable (listOutput header ps) = ps.map Printed.entry ↔ ∀ p ∈ ps, p.read = true) ∧
      ∀ (sim : List SimLine), (∀ l ∈ sim, l.Ok) → ∀ (guest : Nat) (now : Int),
        ((scanResult guest now (aptOutput header ps sim)).securityUpdates = ps.countP Printed.fromSecurity ↔
          ps.countP (missed sim) = ps.countP (wrong sim)) := by
  constructor
  · rw [parseUpgradable_listOutput hheader]
    constructor
    · intro h
      have hlen := congrArg List.length h
      rw [List.length_map, List.length_map, List.length_filter_eq_length_iff] at hlen
      exact hlen
    · intro h
      rw [List.filter_eq_self.2 h]
  · intro sim hsim guest now
    rw [securityUpdates_eq hheader hsim, countP_eq_iff]
    rfl

def openssl : Printed where
  name := "openssl".toList
  suites := ["stable-security".toList]
  version := "3.0.16-1~deb12u2".toList
  arch := "amd64".toList
  old := "3.0.16-1~deb12u1".toList
  foreign := false
  origins := ["Debian-Security:12/stable-security".toList]

theorem apt_output_of_native :
    ((scanResult 7 0 (aptOutput " Done".toList [openssl] [.inst openssl [], .conf openssl []])).securityUpdates =
        [openssl].countP Printed.fromSecurity ↔
      [openssl].countP (missed [.inst openssl [], .conf openssl []]) = [openssl].countP (wrong [.inst openssl [], .conf openssl []])) ∧
      [openssl].countP Printed.fromSecurity = 1 :=
  ⟨(apt_output_iff (by decide : '\n' ∉ " Done".toList) [openssl]).2 [.inst openssl [], .conf openssl []] (by simp [SimLine.Ok]) 7 0,
    by decide⟩

/-- The C library of a foreign architecture, with a fix from the security archive. -/
def foreignLibc : Printed where
  name := "libc6".toList
  suites := ["stable-security".toList]
  version := "2.36-9+deb12u11".toList
  arch := "i386".toList
  old := "2.36-9+deb12u10".toList
  foreign := true
  origins := ["Debian-Security:12/stable-security".toList]

/-- A package whose name has the word in it, from the main archive. -/
def modSecurity : Printed where
  name := "libapache2-mod-security2".toList
  suites := ["stable".toList]
  version := "2.9.7-1+b1".toList
  arch := "amd64".toList
  old := "2.9.7-1".toList
  foreign := false
  origins := ["Debian:12.11/stable".toList]

/-- A fix for a foreign architecture is not counted, and a package is counted for its name. -/
theorem security_count_wrong :
    ((scanResult 7 0 (aptOutput [] [foreignLibc] [.inst foreignLibc []])).securityUpdates = 0 ∧
        [foreignLibc].countP Printed.fromSecurity = 1) ∧
      (scanResult 7 0 (aptOutput [] [modSecurity] [.inst modSecurity []])).securityUpdates = 1 ∧
        [modSecurity].countP Printed.fromSecurity = 0 := by
  have hcount (p : Printed) : (scanResult 7 0 (aptOutput [] [p] [.inst p []])).securityUpdates = [p].countP (flagged [.inst p []]) :=
    securityUpdates_eq (List.not_mem_nil : '\n' ∉ ([] : Text)) (by simp [SimLine.Ok]) 7 0
  rw [hcount, hcount]
  exact ⟨⟨by decide, by decide⟩, by decide, by decide⟩

end ProxmoxTool.Scans
