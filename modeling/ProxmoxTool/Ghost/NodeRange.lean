import ProxmoxTool.Ghost.Aborted
import ProxmoxTool.Lib.Fields
import ProxmoxTool.Lib.SemVerRange

/-!
# The range of Node.js versions

`_node_satisfies` and `_node_target_major` against the meaning of a range, on versions as `node --version` prints them and on ranges that
join `^X.Y.Z`, `>=X.Y.Z` and `X.Y.Z` by `||`.  The code leaves the suffix of a version away, takes a caret at major 0 for one that holds
the major only, and looks among the majors that the range writes, whatever stands in front of them: `SatisfiesAgrees` and `TargetAgrees`
say when this makes no difference.
-/

namespace ProxmoxTool.Ghost

def numbersText (v : Semver) : Text := natText v.1 ++ '.' :: (natText v.2.1 ++ '.' :: natText v.2.2)

def Alternative.text : Alternative → Text
  | .caret base => '^' :: numbersText base
  | .exact base => numbersText base
  | .atLeast base => '>' :: '=' :: numbersText base

/-- What a range means by an alternative. -/
def Alternative.comparator : Alternative → SemVer.Comparator
  | .caret base => .caret base
  | .exact base => .exact base
  | .atLeast base => .atLeast base

/-- What `node --version` prints. -/
def versionText (v : SemVer.Version) : Text := 'v' :: (numbersText v.numbers ++ v.pre.elim [] fun p => '-' :: p)

/-- An alternative between two bars, with white space around it. -/
structure Piece where
  left : Text := []
  alt : Alternative
  right : Text := []
  left_blank : left.all isSpace = true := by rfl
  right_blank : right.all isSpace = true := by rfl

def Piece.text (p : Piece) : Text := p.left ++ p.alt.text ++ p.right

def rangeText (ps : List Piece) : Text := joinText "||".toList (ps.map Piece.text)

def comparators (ps : List Piece) : List SemVer.Comparator := ps.map fun p => p.alt.comparator

/-- `int` reads the numerals of these numbers. -/
def Python.Reads (py : Python) (v : Semver) : Prop := ∀ n ∈ [v.1, v.2.1, v.2.2], py.int (natText n) = some n

/-! ### When it makes no difference -/

/-- The version is past the alternative's base, for a caret with the same major. -/
def Past (v : Semver) : SemVer.Comparator → Prop
  | .caret base => v.1 = base.1 ∧ SemVer.Release.order base ≤ SemVer.Release.order v
  | .exact base => v = base
  | .atLeast base => SemVer.Release.order base ≤ SemVer.Release.order v

/-- No alternative has a pre-release past its base, and a release past the base of a caret at major 0 is also in the range. -/
def SatisfiesAgrees (v : SemVer.Version) (cs : List SemVer.Comparator) : Prop :=
  match v.pre with
  | some _ => ∀ c ∈ cs, ¬ Past v.numbers c
  | none => ∀ base, .caret base ∈ cs → base.1 = 0 → Past v.numbers (.caret base) → ∃ c ∈ cs, c.Admits v.numbers

/-- The range writes the installed major exactly if there is a newer release of it, or that major is the least one. -/
def TargetAgrees (installed : Option SemVer.Version) (cs : List SemVer.Comparator) : Prop :=
  ∀ v ∈ installed, ((∃ c ∈ cs, c.base.1 = v.numbers.1) ↔ ∃ c ∈ cs, c.HasNewer v) ∨
    ∃ c ∈ cs, c.base.1 = v.numbers.1 ∧ ∀ d ∈ cs, c.base.1 ≤ d.base.1

/-! ### The texts are read back -/

section

variable {py : Python}

theorem isDecimal_of_isDigit {c : Char} (h : c.isDigit = true) : py.chars.isDecimal c = true := by
  have hlt : c.toNat < 128 := by
    simp only [Char.isDigit, Bool.and_eq_true, decide_eq_true_eq, ge_iff_le, UInt32.le_iff_toNat_le] at h
    exact lt_of_le_of_lt h.2 (by decide)
  rw [CharTable.isDecimal, if_pos hlt, h]

theorem decimals_natText {n : Nat} (hn : py.int (natText n) = some n) {rest : Text}
    (hrest : ∀ c ∈ rest.head?, py.chars.isDecimal c = false) : decimals py (natText n ++ rest) = some (n, rest) := by
  have htake : (natText n ++ rest).takeWhile py.chars.isDecimal = natText n := by
    rw [List.takeWhile_append_of_pos fun c hc => isDecimal_of_isDigit (isDigit_of_mem_natText hc)]
    cases rest with
    | nil => simp
    | cons c rest => rw [List.takeWhile_cons_of_neg (by simp [hrest c rfl]), List.append_nil]
  simp only [decimals, htake, if_neg (natText_ne_nil n), hn, Option.map_some, List.drop_left]

theorem triple_numbersText {v : Semver} (hv : py.Reads v) {rest : Text} (hrest : ∀ c ∈ rest.head?, py.chars.isDecimal c = false) :
    triple py (numbersText v ++ rest) = some (v, rest) := by
  have hdot (t : Text) : ∀ c ∈ ('.' :: t).head?, py.chars.isDecimal c = false := by
    rintro c ⟨⟩
    rfl
  have h1 := decimals_natText (hv v.1 (by simp)) (hdot (natText v.2.1 ++ '.' :: (natText v.2.2 ++ rest)))
  have h2 := decimals_natText (hv v.2.1 (by simp)) (hdot (natText v.2.2 ++ rest))
  have h3 := decimals_natText (hv v.2.2 (by simp)) hrest
  simp only [numbersText, List.append_assoc, List.cons_append, triple, h1, h2, h3, Option.bind_eq_bind, Option.bind_some]
  rfl

theorem exactly_numbersText {v : Semver} (hv : py.Reads v) : exactly py (numbersText v) = some v := by
  have hnil : ∀ c ∈ ([] : Text).head?, py.chars.isDecimal c = false := by simp
  have h := triple_numbersText hv hnil
  rw [List.append_nil] at h
  simp [exactly, h]

/-- The characters of three numbers. -/
def ofNumbers (c : Char) : Bool := c.isDigit || c = '.'

theorem ofNumbers_of_mem {v : Semver} {c : Char} (h : c ∈ numbersText v) : ofNumbers c = true := by
  have hdigit {n : Nat} (h : c ∈ natText n) : ofNumbers c = true := Bool.or_eq_true_iff.2 (Or.inl (isDigit_of_mem_natText h))
  simp only [numbersText, List.mem_append, List.mem_cons] at h
  rcases h with h | rfl | h | rfl | h
  · exact hdigit h
  · rfl
  · exact hdigit h
  · rfl
  · exact hdigit h

theorem isSpace_of_ofNumbers {c : Char} (h : ofNumbers c = true) : isSpace c = false := by
  rcases Bool.or_eq_true_iff.1 h with h | h
  · exact isSpace_of_isDigit h
  · rw [of_decide_eq_true h]
    rfl

theorem numbersText_eq_cons (v : Semver) : ∃ c t, numbersText v = c :: t ∧ c.isDigit = true := by
  obtain ⟨c, t, h⟩ := List.exists_cons_of_ne_nil (natText_ne_nil v.1)
  exact ⟨c, t ++ '.' :: (natText v.2.1 ++ '.' :: natText v.2.2), by rw [numbersText, h, List.cons_append],
    isDigit_of_mem_natText (h ▸ List.mem_cons_self)⟩

theorem alternative_text {alt : Alternative} (h : py.Reads alt.base) : alternative py alt.text = some alt := by
  have hnum : exactly py (numbersText alt.base) = some alt.base := exactly_numbersText h
  cases alt with
  | caret base =>
    rw [Alternative.base] at hnum
    rw [Alternative.text, alternative, hnum, Option.map_some]
  | atLeast base =>
    obtain ⟨c, t, hct, hc⟩ := numbersText_eq_cons base
    have hdrop : (numbersText base).dropWhile isSpace = numbersText base := by
      rw [hct, List.dropWhile_cons_of_neg (by simp [isSpace_of_isDigit hc])]
    rw [Alternative.base] at hnum
    rw [Alternative.text, alternative, hdrop, hnum, Option.map_some]
  | exact base =>
    rw [Alternative.text]
    obtain ⟨c, t, hct, hc⟩ := numbersText_eq_cons base
    rw [Alternative.base] at hnum
    rw [hct] at hnum ⊢
    unfold alternative
    split
    · rename_i heq
      obtain ⟨rfl, -⟩ := List.cons.inj heq
      cases hc
    · rename_i heq
      obtain ⟨rfl, -⟩ := List.cons.inj heq
      cases hc
    · rw [hnum, Option.map_some]

theorem not_isSpace_of_mem_text {alt : Alternative} {c : Char} (h : c ∈ alt.text) : isSpace c = false ∧ c ≠ '|' := by
  have hnum {v : Semver} (h : c ∈ numbersText v) : isSpace c = false ∧ c ≠ '|' := by
    refine ⟨isSpace_of_ofNumbers (ofNumbers_of_mem h), ?_⟩
    rintro rfl
    cases ofNumbers_of_mem h
  cases alt with
  | caret base =>
    rcases List.mem_cons.1 h with rfl | h
    · exact ⟨rfl, by decide⟩
    · exact hnum h
  | exact base => exact hnum h
  | atLeast base =>
    rcases List.mem_cons.1 h with rfl | h
    · exact ⟨rfl, by decide⟩
    · rcases List.mem_cons.1 h with rfl | h
      · exact ⟨rfl, by decide⟩
      · exact hnum h

theorem strip_piece (p : Piece) : strip p.text = p.alt.text := by
  rw [Piece.text, strip_append_right (List.all_eq_true.1 p.right_blank), strip_append_left (List.all_eq_true.1 p.left_blank)]
  exact strip_of_forall_not_space fun c hc => (not_isSpace_of_mem_text hc).1

theorem bar_not_mem_piece (p : Piece) : '|' ∉ p.text := by
  rw [Piece.text, List.mem_append, List.mem_append]
  rintro ((h | h) | h)
  · cases List.all_eq_true.1 p.left_blank '|' h
  · exact (not_isSpace_of_mem_text h).2 rfl
  · cases List.all_eq_true.1 p.right_blank '|' h

theorem splitBars_of_not_mem {t : Text} (h : '|' ∉ t) : splitBars t = [t] := by
  induction t with
  | nil => rfl
  | cons c t ih =>
    rw [List.mem_cons, not_or] at h
    rw [splitBars, ih h.2]
    rintro t' rfl
    exact absurd rfl h.1

theorem splitBars_append {t : Text} (h : '|' ∉ t) (rest : Text) : splitBars (t ++ '|' :: '|' :: rest) = t :: splitBars rest := by
  induction t with
  | nil => rw [List.nil_append, splitBars]
  | cons c t ih =>
    rw [List.mem_cons, not_or] at h
    rw [List.cons_append, splitBars, ih h.2]
    rintro t' rfl
    exact absurd rfl h.1

theorem splitBars_joinText (ts : List Text) (hts : ∀ t ∈ ts, '|' ∉ t) (hne : ts ≠ []) : splitBars (joinText "||".toList ts) = ts := by
  induction ts with
  | nil => exact absurd rfl hne
  | cons t ts ih =>
    have ht := hts t List.mem_cons_self
    cases ts with
    | nil => rw [joinText, List.intercalate_singleton, splitBars_of_not_mem ht]
    | cons t' ts =>
      rw [joinText, List.intercalate_cons_cons, List.append_assoc]
      change splitBars (t ++ '|' :: '|' :: joinText "||".toList (t' :: ts)) = _
      rw [splitBars_append ht, ih (fun u hu => hts u (List.mem_cons_of_mem _ hu)) (List.cons_ne_nil _ _)]

theorem alternatives_rangeText {ps : List Piece} (h : ∀ p ∈ ps, py.Reads p.alt.base) :
    alternatives py (rangeText ps) = ps.map Piece.alt := by
  cases ps with
  | nil => rfl
  | cons p ps =>
    have hsplit : splitBars (rangeText (p :: ps)) = (p :: ps).map Piece.text := by
      refine splitBars_joinText _ (fun t ht => ?_) (by simp)
      obtain ⟨q, -, rfl⟩ := List.mem_map.1 ht
      exact bar_not_mem_piece q
    rw [alternatives, hsplit, List.filterMap_map, ← List.filterMap_eq_map]
    refine List.filterMap_congr fun q hq => ?_
    rw [Function.comp_apply, Function.comp_apply, strip_piece, alternative_text (h q hq)]

/-- The suffix of a version is left away. -/
theorem parseSemver_versionText {v : SemVer.Version} (hv : py.Reads v.numbers) : parseSemver py (versionText v) = some v.numbers := by
  have hread (rest : Text) (hrest : ∀ c ∈ rest.head?, py.chars.isDecimal c = false)
      (hstrip : strip (versionText v) = 'v' :: (numbersText v.numbers ++ rest)) : parseSemver py (versionText v) = some v.numbers := by
    rw [parseSemver, hstrip]
    simp [triple_numbersText hv hrest]
  have hplain : ∀ c ∈ 'v' :: numbersText v.numbers, isSpace c = false := by
    intro c hc
    rcases List.mem_cons.1 hc with rfl | hc
    · rfl
    · exact isSpace_of_ofNumbers (ofNumbers_of_mem hc)
  cases hpre : v.pre with
  | none =>
    refine hread [] (by simp) ?_
    rw [versionText, hpre, Option.elim_none, List.append_nil]
    exact strip_of_forall_not_space hplain
  | some p =>
    have hdash : ∀ c ∈ 'v' :: numbersText v.numbers ++ ['-'], isSpace c = false := by
      intro c hc
      rcases List.mem_append.1 hc with hc | hc
      · exact hplain c hc
      · rw [List.mem_singleton.1 hc]
        rfl
    obtain ⟨s, hs⟩ := strip_append_of_not_space hdash (by simp) p
    refine hread ('-' :: s) (by rintro c ⟨⟩; rfl) ?_
    rw [versionText, hpre, Option.elim_some]
    simpa using hs

/-! ### Both functions -/

theorem le_iff {v w : Semver} : le v w = true ↔ SemVer.Release.order v ≤ SemVer.Release.order w := by
  rw [SemVer.Release.order_le_iff]
  simp [le]

theorem accepts_iff {alt : Alternative} {v : Semver} : alt.accepts v = true ↔ Past v alt.comparator := by
  cases alt with
  | caret base => simp [Alternative.accepts, Alternative.comparator, Past, le_iff]
  | exact base => simp [Alternative.accepts, Alternative.comparator, Past]
  | atLeast base => simp [Alternative.accepts, Alternative.comparator, Past, le_iff]

theorem nodeSatisfies_iff {v : SemVer.Version} {ps : List Piece} (hv : py.Reads v.numbers) (hps : ∀ p ∈ ps, py.Reads p.alt.base) :
    nodeSatisfies py (versionText v) (rangeText ps) = true ↔ ∃ c ∈ comparators ps, Past v.numbers c := by
  rw [nodeSatisfies, parseSemver_versionText hv, alternatives_rangeText hps]
  simp [comparators, accepts_iff]

theorem past_of_admits {v : Semver} {c : SemVer.Comparator} (h : c.Admits v) : Past v c := by
  cases c with
  | caret base => exact ⟨(SemVer.Comparator.admits_caret_iff.1 h).1.symm, h.1⟩
  | exact base => exact h
  | atLeast base => exact h

/-- Only at major 0 is a caret past its base without being in the range. -/
theorem admits_of_past {v : Semver} {c : SemVer.Comparator} (h : Past v c) (h0 : ∀ base, c = .caret base → base.1 ≠ 0) : c.Admits v := by
  cases c with
  | caret base =>
    have hne := h0 base rfl
    obtain ⟨hmajor, hle⟩ := h
    rw [SemVer.Release.order_le_iff] at hle
    rw [SemVer.Comparator.admits_caret_iff]
    omega
  | exact base => exact h
  | atLeast base => exact h

theorem satisfiesAgrees_iff (v : SemVer.Version) (cs : List SemVer.Comparator) :
    ((∃ c ∈ cs, Past v.numbers c) ↔ v.Satisfies cs) ↔ SatisfiesAgrees v cs := by
  unfold SemVer.Version.Satisfies SatisfiesAgrees
  cases hpre : v.pre with
  | some p => simp
  | none =>
    simp only [true_and]
    constructor
    · exact fun h base hmem _ hpast => h.1 ⟨_, hmem, hpast⟩
    · intro h
      constructor
      · rintro ⟨c, hc, hpast⟩
        by_cases h0 : ∃ base, c = .caret base ∧ base.1 = 0
        · obtain ⟨base, rfl, hbase⟩ := h0
          exact h base hc hbase hpast
        · exact ⟨c, hc, admits_of_past hpast fun base hbase hzero => h0 ⟨base, hbase, hzero⟩⟩
      · rintro ⟨c, hc, hadmits⟩
        exact ⟨c, hc, past_of_admits hadmits⟩

theorem nodeTargetMajor_iff {ps : List Piece} (hps : ∀ p ∈ ps, py.Reads p.alt.base) (current : Option Nat) (m : Nat) :
    nodeTargetMajor py (rangeText ps) current = some m ↔
      current = some m ∧ (∃ c ∈ comparators ps, c.base.1 = m) ∨
        (∀ n ∈ current, ¬ ∃ c ∈ comparators ps, c.base.1 = n) ∧ IsLeast (SemVer.majors (comparators ps)) m := by
  have hbase (p : Piece) : p.alt.comparator.base = p.alt.base := by
    cases p.alt <;> rfl
  have hmajors : (alternatives py (rangeText ps)).map (fun alt => alt.base.1) = (comparators ps).map fun c => c.base.1 := by
    rw [alternatives_rangeText hps, comparators, List.map_map, List.map_map]
    refine List.map_congr_left fun p _ => ?_
    rw [Function.comp_apply, Function.comp_apply, hbase]
  simp only [nodeTargetMajor, hmajors, SemVer.isLeast_majors_iff, List.mem_map]
  cases current with
  | none => simp
  | some n =>
    by_cases hn : ∃ c ∈ comparators ps, c.base.1 = n
    · simp only [Option.filter_some, hn, decide_true, if_true, Option.some.injEq, Option.mem_def, forall_eq', not_true_eq_false,
        false_and, or_false]
      constructor
      · rintro rfl
        exact ⟨rfl, hn⟩
      · exact And.left
    · simp only [Option.filter_some, hn, decide_false, Option.some.injEq, Option.mem_def, forall_eq', not_false_eq_true, true_and]
      constructor
      · exact Or.inr
      · rintro (⟨rfl, h⟩ | h)
        · exact absurd h hn
        · exact h

theorem isLeast_majors_iff_forall {cs : List SemVer.Comparator} {m : Nat} :
    IsLeast (SemVer.majors cs) m ↔ ∃ c ∈ cs, c.base.1 = m ∧ ∀ d ∈ cs, c.base.1 ≤ d.base.1 := by
  rw [SemVer.isLeast_majors_iff, List.min?_eq_some_iff]
  simp only [List.mem_map, forall_exists_index, and_imp, forall_apply_eq_imp_iff₂]
  constructor
  · rintro ⟨⟨c, hc, rfl⟩, hle⟩
    exact ⟨c, hc, rfl, hle⟩
  · rintro ⟨c, hc, rfl, hle⟩
    exact ⟨⟨c, hc, rfl⟩, hle⟩

/-- What a target has to be: the installed major if a newer release of it is in the range, and else the smallest major of the range. -/
def IsTarget (installed : Option SemVer.Version) (cs : List SemVer.Comparator) (m : Nat) : Prop :=
  (∃ v ∈ installed, SemVer.NewerOf v cs ∧ m = v.numbers.1) ∨ (¬ ∃ v ∈ installed, SemVer.NewerOf v cs) ∧ IsLeast (SemVer.majors cs) m

theorem isTarget_iff_agrees {ps : List Piece} (hps : ∀ p ∈ ps, py.Reads p.alt.base) {installed : Option SemVer.Version} {m : Nat}
    (h : nodeTargetMajor py (rangeText ps) (installed.map fun v => v.numbers.1) = some m) :
    IsTarget installed (comparators ps) m ↔ TargetAgrees installed (comparators ps) := by
  rw [nodeTargetMajor_iff hps] at h
  cases installed with
  | none =>
    rcases h with ⟨h, -⟩ | ⟨-, h⟩
    · cases h
    · exact iff_of_true (Or.inr ⟨by simp, h⟩) (by simp [TargetAgrees])
  | some v =>
    simp only [IsTarget, TargetAgrees, Option.mem_some_iff, exists_eq_left', forall_eq', SemVer.newerOf_iff, ← isLeast_majors_iff_forall]
    rcases h with ⟨h, hmem⟩ | ⟨hnot, hleast⟩
    · cases h
      by_cases hnew : ∃ c ∈ comparators ps, c.HasNewer v <;> simp [hnew, hmem]
    · -- the installed major is not written, so it is not the least one
      have hnot := hnot v.numbers.1 rfl
      have hne : m ≠ v.numbers.1 := by
        rintro rfl
        obtain ⟨c, hc, hcm, -⟩ := isLeast_majors_iff_forall.1 hleast
        exact hnot ⟨c, hc, hcm⟩
      have hnotleast : ¬ IsLeast (SemVer.majors (comparators ps)) v.numbers.1 := fun h => hne (hleast.unique h)
      by_cases hnew : ∃ c ∈ comparators ps, c.HasNewer v <;> simp [hnew, hnot, hne, hnotleast, hleast]

/-- The check of a version is the range's own exactly where `SatisfiesAgrees` says.  A major that is chosen always has a release in the
range, and it is the one it has to be exactly where `TargetAgrees` says. -/
theorem node_range_iff (py : Python) (v : SemVer.Version) (installed : Option SemVer.Version) (ps : List Piece)
    (hv : py.Reads v.numbers) (hps : ∀ p ∈ ps, py.Reads p.alt.base) :
    ((nodeSatisfies py (versionText v) (rangeText ps) = true ↔ v.Satisfies (comparators ps)) ↔ SatisfiesAgrees v (comparators ps)) ∧
      ∀ m, nodeTargetMajor py (rangeText ps) (installed.map fun v => v.numbers.1) = some m →
        m ∈ SemVer.majors (comparators ps) ∧ (IsTarget installed (comparators ps) m ↔ TargetAgrees installed (comparators ps)) := by
  constructor
  · rw [nodeSatisfies_iff hv hps]
    exact satisfiesAgrees_iff v (comparators ps)
  · intro m hm
    refine ⟨?_, isTarget_iff_agrees hps hm⟩
    rcases (nodeTargetMajor_iff hps _ m).1 hm with ⟨-, c, hc, rfl⟩ | ⟨-, hleast⟩
    · exact SemVer.mem_majors_of_mem hc
    · exact hleast.1

end

theorem asciiPython_reads (v : Semver) : asciiPython.Reads v := by
  intro n _
  simp [asciiPython, parseInt_natText]

theorem node_range_of_supported :
    ((nodeSatisfies asciiPython (versionText { numbers := (22, 14, 0) }) (rangeText [{ alt := .caret (22, 13, 1) }]) = true ↔
        ({ numbers := (22, 14, 0) } : SemVer.Version).Satisfies (comparators [{ alt := .caret (22, 13, 1) }])) ↔
      SatisfiesAgrees { numbers := (22, 14, 0) } (comparators [{ alt := .caret (22, 13, 1) }])) ∧
      nodeSatisfies asciiPython "v22.14.0".toList "^22.13.1".toList = true :=
  ⟨(node_range_iff asciiPython { numbers := (22, 14, 0) } none [{ alt := .caret (22, 13, 1) }] (asciiPython_reads _)
    fun p _ => asciiPython_reads p.alt.base).1, by decide⟩

/-- A pre-release is taken for its release, a caret at major 0 for one that allows every minor, and a major is chosen of which the range has
no release newer than the installed one. -/
theorem node_range_wrong :
    (nodeSatisfies asciiPython (versionText { numbers := (22, 13, 1), pre := some "pre".toList })
          (rangeText [{ alt := .caret (22, 13, 1) }]) = true ∧
        ¬ ({ numbers := (22, 13, 1), pre := some "pre".toList } : SemVer.Version).Satisfies (comparators [{ alt := .caret (22, 13, 1) }])) ∧
      (nodeSatisfies asciiPython (versionText { numbers := (0, 3, 0) }) (rangeText [{ alt := .caret (0, 2, 0) }]) = true ∧
        ¬ ({ numbers := (0, 3, 0) } : SemVer.Version).Satisfies (comparators [{ alt := .caret (0, 2, 0) }])) ∧
      nodeTargetMajor asciiPython (rangeText [{ alt := .exact (18, 0, 0), right := [' '] }, { left := [' '], alt := .exact (20, 0, 0) }])
          (some 20) = some 20 ∧
        ¬ IsTarget (some { numbers := (20, 5, 0) })
          (comparators [{ alt := .exact (18, 0, 0), right := [' '] }, { left := [' '], alt := .exact (20, 0, 0) }]) 20 := by
  refine ⟨⟨by decide, ?_⟩, ⟨by decide, ?_⟩, by decide, ?_⟩
  · rintro ⟨h, -⟩
    cases h
  · rintro ⟨-, c, hc, h⟩
    cases List.mem_singleton.1 hc
    have h := SemVer.Comparator.admits_caret_iff.1 h
    simp at h
  · rintro (⟨v, ⟨⟩, hnew, -⟩ | ⟨-, hleast⟩)
    · obtain ⟨c, hc, h⟩ := (SemVer.newerOf_iff _ _).1 hnew
      simp only [comparators, List.map_cons, List.map_nil, Alternative.comparator, List.mem_cons, List.not_mem_nil, or_false] at hc
      rcases hc with rfl | rfl
      · cases h.1
      · rcases h.2 with hlt | ⟨-, hpre⟩
        · rw [SemVer.Release.order_lt_iff] at hlt
          simp at hlt
        · exact hpre rfl
    · rw [isLeast_majors_iff_forall] at hleast
      obtain ⟨c, -, hc, hle⟩ := hleast
      have := hle (.exact (18, 0, 0)) (by simp [comparators, Alternative.comparator])
      rw [hc] at this
      exact absurd this (by decide)

end ProxmoxTool.Ghost
