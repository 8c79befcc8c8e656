import Mathlib.Data.List.Infix
import ProxmoxTool.Lib.Text

/-!
# Single-quoted scalars of YAML

How the text of a single-quoted scalar is read, by version 1.1 of the language, in which NEL, LS and PS end lines, and by version 1.2.  White
space around the end of a line is folded, and a line that begins with a document marker is an error.

A text of one line that is written between quotes, with its quotes doubled, is read back exactly if its characters are allowed, and by 1.1, if it
has no NEL and no LS or PS next to a blank or in front of a document marker (`readSingle_double_iff`).
-/

namespace ProxmoxTool.Yaml

inductive Version
  | v1_1
  | v1_2
  deriving DecidableEq

def isBlank (c : Char) : Bool := c = ' ' || c = '\t'

/-- LS and PS, which are not folded. -/
def isSpecific (c : Char) : Bool := c.toNat = 0x2028 || c.toNat = 0x2029

def Version.isBreak (v : Version) (c : Char) : Bool := c = '\n' || c = '\r' || (v = .v1_1 && (c.toNat = 0x85 || isSpecific c))

/-- The characters of a scalar between quotes. -/
def Version.isAllowed (v : Version) (c : Char) : Bool :=
  match v with
  | .v1_1 => c = '\t' || c = '\n' || c = '\r' || (0x20 ≤ c.toNat && c.toNat ≤ 0x7e) || c.toNat = 0x85 ||
      (0xa0 ≤ c.toNat && c.toNat ≠ 0xfffe && c.toNat ≠ 0xffff)
  | .v1_2 => c = '\t' || c = '\n' || c = '\r' || 0x20 ≤ c.toNat

section

variable (v : Version)

/-- What blanks and ends of lines between other characters come to. -/
def foldWhites (whites : Text) : Text :=
  match (whites.filter v.isBreak).map fun c => if isSpecific c then c else '\n' with
  | [] => whites
  | first :: others => if first = '\n' then (if others = [] then [' '] else others) else first :: others

/-- Some more of the same character, and white space behind them. -/
def isRun : Nat → Char → Text → Bool
  | 0, _, c :: _ => isBlank c || v.isBreak c
  | n + 1, x, c :: t => c = x && isRun n x t
  | _, _, [] => false

/-- A document marker at the beginning of a line. -/
def isMarker : Text → Bool
  | c :: t => (c = '-' || c = '.') && isRun v 2 c t
  | [] => false

/-- The text of a scalar behind its first quote, and what follows the last one; `whites` are the blanks and the ends of lines just read. -/
def readSingle (whites : Text) : Text → Option (Text × Text)
  | [] => none
  | '\'' :: '\'' :: t => (readSingle [] t).map fun p => (foldWhites v whites ++ '\'' :: p.1, p.2)
  | '\'' :: t => some (foldWhites v whites, t)
  | '\r' :: '\n' :: t => readSingle (whites ++ ['\n']) t
  | c :: t =>
    if !v.isAllowed c then none
    else if isBlank c || v.isBreak c then readSingle (whites ++ [c]) t
    else if whites.getLast?.any v.isBreak && isMarker v (c :: t) then none
    else (readSingle [] t).map fun p => (foldWhites v whites ++ c :: p.1, p.2)

/-- A single-quoted scalar that is the whole text. -/
def parseSingle : Text → Option Text
  | '\'' :: t =>
    match readSingle v [] t with
    | some (u, []) => some u
    | _ => none
  | _ => none

def double (t : Text) : Text := t.flatMap fun c => if c = '\'' then ['\'', '\''] else [c]

/-- `readSingle` of a text whose quotes are doubled. -/
def readDoubled (whites : Text) : Text → Option Text
  | [] => some (foldWhites v whites)
  | c :: t =>
    if !v.isAllowed c then none
    else if isBlank c || v.isBreak c then readDoubled (whites ++ [c]) t
    else if whites.getLast?.any v.isBreak && isMarker v (c :: t) then none
    else (readDoubled [] t).map fun u => foldWhites v whites ++ c :: u

/-- What follows a blank or an end of line. -/
def Follows (c : Char) (t : Text) : Prop :=
  (v.isBreak c = true → t.head?.any isBlank = false ∧ isMarker v t = false) ∧ (isBlank c = true → t.head?.any v.isBreak = false)

/-- The text is read back as it is. -/
def Kept : Text → Prop
  | [] => True
  | c :: t => v.isAllowed c = true ∧ (v.isBreak c = true → isSpecific c = true) ∧ Follows v c t ∧ Kept t

instance decidableFollows (c : Char) (t : Text) : Decidable (Follows v c t) :=
  inferInstanceAs (Decidable ((v.isBreak c = true → t.head?.any isBlank = false ∧ isMarker v t = false) ∧
    (isBlank c = true → t.head?.any v.isBreak = false)))

instance decidableKept : (t : Text) → Decidable (Kept v t)
  | [] => isTrue trivial
  | c :: t =>
    have : Decidable (Kept v t) := decidableKept t
    inferInstanceAs (Decidable (v.isAllowed c = true ∧ (v.isBreak c = true → isSpecific c = true) ∧ Follows v c t ∧ Kept v t))

end

section

variable {v : Version}

/-! ### Doubled quotes -/

theorem double_cons (c : Char) (t : Text) : double (c :: t) = (if c = '\'' then ['\'', '\''] else [c]) ++ double t := List.flatMap_cons

theorem quote_facts (v : Version) : v.isAllowed '\'' = true ∧ isBlank '\'' = false ∧ v.isBreak '\'' = false := by
  cases v <;> decide

theorem isRun_double {x : Char} (hx : x ≠ '\'') (n : Nat) (t rest : Text) : isRun v n x (double t ++ '\'' :: rest) = isRun v n x t := by
  obtain ⟨-, hblank, hbreak⟩ := quote_facts v
  have hquote : ∀ (m : Nat) (u : Text), isRun v m x ('\'' :: u) = false := by
    intro m u
    cases m with
    | zero => rw [isRun, hblank, hbreak]; rfl
    | succ m => rw [isRun, decide_eq_false hx.symm]; rfl
  induction t generalizing n with
  | nil =>
    rw [double, List.flatMap_nil, List.nil_append, hquote]
    cases n <;> rfl
  | cons c t ih =>
    rw [double_cons]
    split_ifs with hc
    · rw [hc, hquote]
      exact hquote n _
    · cases n with
      | zero => rfl
      | succ n =>
        change (decide (c = x) && isRun v n x (double t ++ '\'' :: rest)) = (decide (c = x) && isRun v n x t)
        rw [ih]

/-- A text without ends of lines of its own kind is read by its characters. -/
theorem readSingle_double {t : Text} (ht : ∀ c ∈ t, c ≠ '\n' ∧ c ≠ '\r') (whites : Text) {rest : Text} (hrest : rest.head? ≠ some '\'') :
    readSingle v whites (double t ++ '\'' :: rest) = (readDoubled v whites t).map fun u => (u, rest) := by
  induction t generalizing whites with
  | nil =>
    rw [double, List.flatMap_nil, List.nil_append, readSingle]
    · rfl
    · rintro u rfl
      exact hrest rfl
  | cons c t ih =>
    have hc := ht c List.mem_cons_self
    have htail := ih fun d hd => ht d (List.mem_cons_of_mem _ hd)
    obtain ⟨hallowed, hblank, hbreak⟩ := quote_facts v
    rw [double_cons]
    by_cases hquote : c = '\''
    · subst hquote
      have hmarker : isMarker v ('\'' :: t) = false := rfl
      rw [if_pos rfl]
      change readSingle v whites ('\'' :: '\'' :: (double t ++ '\'' :: rest)) = _
      rw [readSingle, htail, readDoubled, hallowed, hblank, hbreak, hmarker]
      simp [Option.map_map, Function.comp_def]
    · rw [if_neg hquote]
      change readSingle v whites (c :: (double t ++ '\'' :: rest)) = _
      have hmarker : isMarker v (c :: (double t ++ '\'' :: rest)) = isMarker v (c :: t) := by
        rw [isMarker, isMarker, isRun_double hquote]
      rw [readSingle, readDoubled, hmarker, htail, htail]
      · split_ifs
        · rfl
        · rfl
        · rfl
        · simp [Option.map_map, Function.comp_def]
      · intro u heq
        exact absurd heq hquote
      · intro heq
        exact absurd heq hquote
      · intro u heq
        exact absurd heq hc.2

/-! ### White space -/

/-- Blanks or ends of lines, but not both, and none that is folded. -/
def Uniform (v : Version) (whites : Text) : Prop :=
  (∀ c ∈ whites, isBlank c = true) ∨ ∀ c ∈ whites, v.isBreak c = true ∧ isSpecific c = true

theorem isBlank_facts {c : Char} (h : isBlank c = true) : v.isBreak c = false := by
  simp only [isBlank, Bool.or_eq_true, decide_eq_true_eq] at h
  rcases h with rfl | rfl
  · cases v <;> decide
  · cases v <;> decide

theorem foldWhites_of_uniform {whites : Text} (h : Uniform v whites) : foldWhites v whites = whites := by
  rcases h with hblank | hbreak
  · have hnone : whites.filter v.isBreak = [] := by
      rw [List.filter_eq_nil_iff]
      intro c hc
      rw [isBlank_facts (hblank c hc)]
      exact Bool.false_ne_true
    rw [foldWhites, hnone]
    rfl
  · have hall : whites.filter v.isBreak = whites := List.filter_eq_self.2 fun c hc => (hbreak c hc).1
    have hsame : whites.map (fun c => if isSpecific c then c else '\n') = whites :=
      (List.map_congr_left fun c hc => if_pos (hbreak c hc).2).trans (List.map_id _)
    rw [foldWhites, hall, hsame]
    cases whites with
    | nil => rfl
    | cons c whites =>
      have hc : c ≠ '\n' := by
        rintro rfl
        have hspecific := (hbreak '\n' List.mem_cons_self).2
        revert hspecific
        decide
      exact if_neg hc

theorem length_filter_map_le (g : Char → Char) (whites : Text) : ((whites.filter v.isBreak).map g).length ≤ whites.length := by
  rw [List.length_map]
  exact List.length_filter_le _ _

theorem length_foldWhites_le (v : Version) (whites : Text) : (foldWhites v whites).length ≤ whites.length := by
  have hlength := length_filter_map_le (v := v) (fun c => if isSpecific c then c else '\n') whites
  unfold foldWhites
  split
  · exact le_rfl
  · rename_i first others heq
    rw [heq, List.length_cons] at hlength
    split_ifs
    · rw [List.length_singleton]
      omega
    · omega
    · rw [List.length_cons]
      exact hlength

/-- White space that folding leaves is of one kind. -/
theorem uniform_of_foldWhites {whites : Text} (hwhites : ∀ c ∈ whites, isBlank c = true ∨ v.isBreak c = true) (hplain : ∀ c ∈ whites, c ≠ '\n')
    (h : foldWhites v whites = whites) : Uniform v whites := by
  have hlength := length_filter_map_le (v := v) (fun c => if isSpecific c then c else '\n') whites
  unfold foldWhites at h
  split at h
  · rename_i hnil
    rw [List.map_eq_nil_iff, List.filter_eq_nil_iff] at hnil
    exact .inl fun c hc => (hwhites c hc).resolve_right (hnil c hc)
  · rename_i first others heq
    rw [heq, List.length_cons] at hlength
    split_ifs at h with hfirst hothers
    · -- one end of line comes to a blank, which is none
      rw [← h] at heq
      cases v <;> cases heq
    · rw [h] at hlength
      omega
    · rw [h] at heq
      have hall : (whites.filter v.isBreak).length = whites.length := by
        have hcongr := congrArg List.length heq
        rwa [List.length_map] at hcongr
      have hbreaks : ∀ c ∈ whites, v.isBreak c = true := List.length_filter_eq_length_iff.1 hall
      rw [List.filter_eq_self.2 hbreaks] at heq
      refine .inr fun c hc => ⟨hbreaks c hc, ?_⟩
      have hsame := List.map_inj_left.1 (heq.trans (List.map_id _).symm) c hc
      by_contra hnot
      rw [if_neg hnot] at hsame
      exact hplain c hc hsame.symm

/-! ### What is read back -/

theorem length_readDoubled_le {t u whites : Text} (h : readDoubled v whites t = some u) : u.length ≤ whites.length + t.length := by
  induction t generalizing whites u with
  | nil =>
    cases h
    exact length_foldWhites_le v whites
  | cons c t ih =>
    rw [readDoubled] at h
    split_ifs at h
    · have hle := ih h
      rw [List.length_append, List.length_singleton] at hle
      rw [List.length_cons]
      omega
    · obtain ⟨u', hu', rfl⟩ := Option.map_eq_some_iff.1 h
      have hle := ih hu'
      have hfold := length_foldWhites_le v whites
      rw [List.length_append, List.length_cons, List.length_cons]
      rw [List.length_nil] at hle
      omega

/-- A character that is no white space is read back behind white space that is left as it is. -/
theorem map_readDoubled_iff {t whites : Text} (c : Char) :
    (readDoubled v [] t).map (fun u => foldWhites v whites ++ c :: u) = some (whites ++ c :: t) ↔
      foldWhites v whites = whites ∧ readDoubled v [] t = some t := by
  constructor
  · intro h
    obtain ⟨u, hu, heq⟩ := Option.map_eq_some_iff.1 h
    have hle := length_readDoubled_le hu
    have hfold := length_foldWhites_le v whites
    have hlength := congrArg List.length heq
    rw [List.length_append, List.length_append, List.length_cons, List.length_cons] at hlength
    rw [List.length_nil] at hle
    obtain ⟨hwhites, hrest⟩ := List.append_inj heq (by omega)
    rw [hu, (List.cons.inj hrest).2]
    exact ⟨hwhites, rfl⟩
  · rintro ⟨hwhites, hread⟩
    rw [hread, Option.map_some, hwhites]

/-- White space of both kinds, or that is folded, is not read back. -/
theorem readDoubled_ne {t whites : Text} (hwhites : ∀ c ∈ whites, isBlank c = true ∨ v.isBreak c = true) (hplain : ∀ c ∈ whites, c ≠ '\n')
    (ht : ∀ c ∈ t, c ≠ '\n') (hnot : ¬Uniform v whites) : readDoubled v whites t ≠ some (whites ++ t) := by
  induction t generalizing whites with
  | nil =>
    intro h
    rw [readDoubled, List.append_nil, Option.some.injEq] at h
    exact hnot (uniform_of_foldWhites hwhites hplain h)
  | cons c t ih =>
    intro h
    rw [readDoubled] at h
    split_ifs at h with hallowed hwhite hmarker
    · have hgrown : ∀ d ∈ whites ++ [c], isBlank d = true ∨ v.isBreak d = true := by
        intro d hd
        rcases List.mem_append.1 hd with hd | hd
        · exact hwhites d hd
        · rw [List.mem_singleton.1 hd]
          exact Bool.or_eq_true_iff.1 hwhite
      have hgrownPlain : ∀ d ∈ whites ++ [c], d ≠ '\n' := by
        intro d hd
        rcases List.mem_append.1 hd with hd | hd
        · exact hplain d hd
        · rw [List.mem_singleton.1 hd]
          exact ht c List.mem_cons_self
      have hgrownNot : ¬Uniform v (whites ++ [c]) :=
        fun huniform => hnot (huniform.imp (fun h d hd => h d (List.mem_append_left _ hd)) fun h d hd => h d (List.mem_append_left _ hd))
      refine ih hgrown hgrownPlain (fun d hd => ht d (List.mem_cons_of_mem _ hd)) hgrownNot ?_
      rw [h, List.append_assoc, List.singleton_append]
    · exact hnot (uniform_of_foldWhites hwhites hplain ((map_readDoubled_iff c).1 h).1)

theorem Uniform.white {whites : Text} (h : Uniform v whites) : ∀ c ∈ whites, isBlank c = true ∨ v.isBreak c = true :=
  fun c hc => h.imp (fun hblank => hblank c hc) fun hbreak => (hbreak c hc).1

theorem Uniform.ne_newline {whites : Text} (h : Uniform v whites) : ∀ c ∈ whites, c ≠ '\n' := by
  rintro c hc rfl
  rcases h with hblank | hbreak
  · have hnot := hblank '\n' hc
    revert hnot
    decide
  · have hnot := (hbreak '\n' hc).2
    revert hnot
    decide

theorem isMarker_cons {c : Char} (h : ¬(c = '-' ∨ c = '.')) (t : Text) : isMarker v (c :: t) = false := by
  rw [isMarker, Bool.and_eq_false_iff, Bool.or_eq_false_iff, decide_eq_false_iff_not, decide_eq_false_iff_not]
  exact .inl (not_or.1 h)

/-- White space of one kind with one more character of it. -/
theorem uniform_concat_iff {whites : Text} (h : Uniform v whites) {c : Char} (hwhite : isBlank c = true ∨ v.isBreak c = true) (t : Text) :
    Uniform v (whites ++ [c]) ↔ (v.isBreak c = true → isSpecific c = true) ∧ ∀ d, whites.getLast? = some d → Follows v d (c :: t) := by
  have hmarker : isMarker v (c :: t) = false := by
    refine isMarker_cons ?_ t
    rintro (rfl | rfl)
    · revert hwhite
      cases v <;> decide
    · revert hwhite
      cases v <;> decide
  have hall : ∀ {p : Char → Prop}, (∀ d ∈ whites ++ [c], p d) ↔ (∀ d ∈ whites, p d) ∧ p c := by
    intro p
    simp only [List.mem_append, List.mem_singleton, or_imp, forall_and, forall_eq]
  constructor
  · rintro (hblank | hbreak)
    · obtain ⟨hwhites, hc⟩ := hall.1 hblank
      refine ⟨fun hbreak => ?_, fun d hd => ?_⟩
      · rw [isBlank_facts hc] at hbreak
        cases hbreak
      · have hd := hwhites d (List.mem_of_getLast? hd)
        refine ⟨fun hbreak => ?_, fun _ => isBlank_facts hc⟩
        rw [isBlank_facts hd] at hbreak
        cases hbreak
    · obtain ⟨hwhites, hc⟩ := hall.1 hbreak
      refine ⟨fun _ => hc.2, fun d hd => ?_⟩
      have hd := hwhites d (List.mem_of_getLast? hd)
      have hnotBlank : ∀ {e}, v.isBreak e = true → isBlank e = false := by
        intro e he
        refine Bool.eq_false_iff.2 fun hblank => ?_
        rw [isBlank_facts hblank] at he
        cases he
      refine ⟨fun _ => ⟨hnotBlank hc.1, hmarker⟩, fun hblank => ?_⟩
      rw [hnotBlank hd.1] at hblank
      cases hblank
  · rintro ⟨hspecific, hlast⟩
    cases hw : whites.getLast? with
    | none =>
      rw [List.getLast?_eq_none_iff.1 hw, List.nil_append]
      rcases hwhite with hblank | hbreak
      · exact .inl fun d hd => by rwa [List.mem_singleton.1 hd]
      · exact .inr fun d hd => by rw [List.mem_singleton.1 hd]; exact ⟨hbreak, hspecific hbreak⟩
    | some d =>
      have hd := List.mem_of_getLast? hw
      obtain ⟨hafterBreak, hafterBlank⟩ := hlast d hw
      rcases h with hblank | hbreak
      · have hc := hafterBlank (hblank d hd)
        rw [List.head?_cons, Option.any_some] at hc
        rw [hc] at hwhite
        exact .inl (hall.2 ⟨hblank, hwhite.resolve_right Bool.false_ne_true⟩)
      · have hc := (hafterBreak (hbreak d hd).1).1
        rw [List.head?_cons, Option.any_some] at hc
        rw [hc] at hwhite
        have hcbreak := hwhite.resolve_left Bool.false_ne_true
        exact .inr (hall.2 ⟨hbreak, hcbreak, hspecific hcbreak⟩)

/-- Behind white space of one kind, a text is read back exactly if it may follow it and is kept. -/
theorem readDoubled_iff {t whites : Text} (ht : ∀ c ∈ t, c ≠ '\n' ∧ c ≠ '\r') (h : Uniform v whites) :
    readDoubled v whites t = some (whites ++ t) ↔ (∀ c, whites.getLast? = some c → Follows v c t) ∧ Kept v t := by
  induction t generalizing whites with
  | nil =>
    rw [readDoubled, List.append_nil, foldWhites_of_uniform h]
    exact iff_of_true rfl ⟨fun c _ => ⟨fun _ => ⟨rfl, rfl⟩, fun _ => rfl⟩, trivial⟩
  | cons c t ih =>
    have htail : ∀ d ∈ t, d ≠ '\n' ∧ d ≠ '\r' := fun d hd => ht d (List.mem_cons_of_mem _ hd)
    rw [readDoubled, Kept]
    split_ifs with hallowed hwhite hmarker
    · refine iff_of_false (fun hnone => (nomatch hnone)) fun hkept => ?_
      rw [hkept.2.1] at hallowed
      cases hallowed
    · have hkind := Bool.or_eq_true_iff.1 hwhite
      have hconcat := uniform_concat_iff h hkind t
      have happend : whites ++ c :: t = whites ++ [c] ++ t := by rw [List.append_assoc, List.singleton_append]
      have hlast : ∀ P : Char → Prop, (∀ d, (whites ++ [c]).getLast? = some d → P d) ↔ P c := by
        intro P
        rw [List.getLast?_append, List.getLast?_singleton, Option.some_or]
        simp only [Option.some.injEq, forall_eq']
      by_cases huniform : Uniform v (whites ++ [c])
      · obtain ⟨hspecific, hfollows⟩ := hconcat.1 huniform
        rw [happend, ih htail huniform, hlast]
        constructor
        · rintro ⟨hnext, hkept⟩
          exact ⟨hfollows, by simpa using hallowed, hspecific, hnext, hkept⟩
        · rintro ⟨-, -, -, hnext, hkept⟩
          exact ⟨hnext, hkept⟩
      · have hgrown : ∀ d ∈ whites ++ [c], isBlank d = true ∨ v.isBreak d = true := by
          intro d hd
          rcases List.mem_append.1 hd with hd | hd
          · exact h.white d hd
          · rw [List.mem_singleton.1 hd]
            exact hkind
        have hplain : ∀ d ∈ whites ++ [c], d ≠ '\n' := by
          intro d hd
          rcases List.mem_append.1 hd with hd | hd
          · exact h.ne_newline d hd
          · rw [List.mem_singleton.1 hd]
            exact (ht c List.mem_cons_self).1
        rw [happend]
        refine iff_of_false (readDoubled_ne hgrown hplain (fun d hd => (htail d hd).1) huniform) ?_
        rintro ⟨hfollows, -, hspecific, -, -⟩
        exact huniform (hconcat.2 ⟨hspecific, hfollows⟩)
    · rw [Bool.and_eq_true] at hmarker
      obtain ⟨d, hd, hbreak⟩ := (Option.any_eq_true _ _).1 hmarker.1
      refine iff_of_false (fun hnone => (nomatch hnone)) fun hkept => ?_
      have hnot := ((hkept.1 d hd).1 hbreak).2
      rw [hmarker.2] at hnot
      cases hnot
    · rw [Bool.or_eq_true, not_or, Bool.not_eq_true, Bool.not_eq_true] at hwhite
      have hnil : Uniform v [] := .inl fun _ hd => nomatch hd
      have hrest := ih htail hnil
      rw [List.nil_append] at hrest
      rw [map_readDoubled_iff, hrest]
      constructor
      · rintro ⟨-, -, hkept⟩
        refine ⟨fun d hd => ⟨fun hbreak => ⟨hwhite.1, ?_⟩, fun _ => hwhite.2⟩, by simpa using hallowed, fun hbreak => ?_,
          ⟨fun hbreak => ?_, fun hblank => ?_⟩, hkept⟩
        · rw [hd, Option.any_some, hbreak, Bool.true_and, Bool.not_eq_true] at hmarker
          exact hmarker
        · rw [hwhite.2] at hbreak
          cases hbreak
        · rw [hwhite.2] at hbreak
          cases hbreak
        · rw [hwhite.1] at hblank
          cases hblank
      · rintro ⟨-, -, -, -, hkept⟩
        exact ⟨foldWhites_of_uniform h, fun _ hc => (nomatch hc), hkept⟩

/-- A text of one line between quotes, with its quotes doubled. -/
theorem readSingle_double_iff {t : Text} (ht : ∀ c ∈ t, c ≠ '\n' ∧ c ≠ '\r') {rest : Text} (hrest : rest.head? ≠ some '\'') :
    readSingle v [] (double t ++ '\'' :: rest) = some (t, rest) ↔ Kept v t := by
  have hnil : Uniform v [] := .inl fun _ hd => nomatch hd
  have hiff := readDoubled_iff ht hnil
  rw [List.nil_append] at hiff
  rw [readSingle_double ht [] hrest, Option.map_eq_some_iff]
  constructor
  · rintro ⟨u, hu, heq⟩
    rw [(Prod.mk.inj heq).1] at hu
    exact (hiff.1 hu).2
  · exact fun hkept => ⟨t, hiff.2 ⟨fun _ hc => (nomatch hc), hkept⟩, rfl⟩

theorem parseSingle_double_iff {t : Text} (ht : ∀ c ∈ t, c ≠ '\n' ∧ c ≠ '\r') :
    parseSingle v ('\'' :: (double t ++ ['\''])) = some t ↔ Kept v t := by
  have hnil : ([] : Text).head? ≠ some '\'' := fun h => nomatch h
  rw [← readSingle_double_iff ht hnil, parseSingle]
  cases hread : readSingle v [] (double t ++ ['\'']) with
  | none => simp
  | some p =>
    obtain ⟨u, rest⟩ := p
    cases rest with
    | nil => simp
    | cons c rest => simp

end

end ProxmoxTool.Yaml
