import Mathlib
import ProxmoxTool.Lib.Fields
import ProxmoxTool.Lib.Regex

/-!
# Domains of moderation calls

`validate_domain` against what it is for: hostnames pass, in lower case, and nothing else.

`$` is before a newline at the end too, and the dots at the end are taken away behind the white space.  So a hostname with a newline and dots behind
passes with the newline, and this is all that goes wrong (`validate_domain_exact_iff`).
-/

namespace ProxmoxTool.Domains

/-- `str.lower`, which takes the characters beyond ASCII from its tables. -/
structure Lowering where
  lower : Text → Text
  lower_ascii : ∀ t : Text, (∀ c ∈ t, c.toNat < 128) → lower t = t.map Char.toLower

/-- `[a-z0-9]`. -/
def isLowerAlnum (c : Char) : Bool := c.isLower || c.isDigit

/-- `[a-z0-9-]`. -/
def isLabelChar (c : Char) : Bool := isLowerAlnum c || c = '-'

def innerRe : Regex := .seq (.rep 0 61 (.char isLabelChar)) (.char isLowerAlnum)

def labelRe : Regex := .seq (.char isLowerAlnum) (.opt innerRe)

def topLabelRe : Regex := .seq (.char isLowerAlnum) innerRe

/-- `_DOMAIN_RE`. -/
def domainRe : Regex :=
  .seq (.ahead (.seq (.rep 1 253 (.char (· ≠ '\n'))) .dollar))
    (.seq (.plus (.seq labelRe (.char (· = '.')))) (.seq topLabelRe .dollar))

def domainMessage : Text := "Enter a bare hostname such as example.social (no scheme, path or port)".toList

def validateDomain (py : Lowering) (domain : Option Text) : Except Text Text :=
  let domain := rstripChar '.' (py.lower (strip (domain.getD [])))
  if domainRe.startsMatch domain then .ok domain else .error domainMessage

/-! ### Hostnames -/

/-- Letters, digits and inner hyphens. -/
structure IsLabel (w : Text) : Prop where
  chars : ∀ c ∈ w, isLabelChar c = true
  head : ∀ c ∈ w.head?, c ≠ '-'
  last : ∀ c ∈ w.getLast?, c ≠ '-'
  pos : 1 ≤ w.length
  length_le : w.length ≤ 63

structure Hostname (h : Text) : Prop where
  labels : ∀ w ∈ h.splitOn '.', IsLabel w
  two : 2 ≤ (h.splitOn '.').length
  top : 2 ≤ ((h.splitOn '.').getLastD []).length
  length_le : h.length ≤ 253

/-- The hostname in some letter case, with dots behind and white space around. -/
def Written (h s : Text) : Prop :=
  ∃ l h' n r, s = l ++ (h' ++ List.replicate n '.') ++ r ∧ h'.map Char.toLower = h ∧ (∀ c ∈ l, isSpace c = true) ∧ ∀ c ∈ r, isSpace c = true

/-- What is made of a text: a hostname that stays as it is, and all hostnames are taken. -/
def Exact (py : Lowering) (s : Text) : Prop :=
  (∀ d, validateDomain py (some s) = .ok d → Hostname d ∧ validateDomain py (some d) = .ok d) ∧
    ∀ h, Hostname h → Written h s → validateDomain py (some s) = .ok h

theorem isLowerAlnum_iff {c : Char} : isLowerAlnum c = true ↔ isLabelChar c = true ∧ c ≠ '-' := by
  rw [isLabelChar, Bool.or_eq_true, decide_eq_true_iff]
  refine ⟨fun h => ⟨.inl h, ?_⟩, fun h => h.1.resolve_right h.2⟩
  rintro rfl
  cases h

theorem toNat_of_isLabelChar {c : Char} (h : isLabelChar c = true) : 33 ≤ c.toNat ∧ c.toNat ≤ 126 := by
  simp only [isLabelChar, isLowerAlnum, Char.isLower, Char.isDigit, Bool.or_eq_true, Bool.and_eq_true, decide_eq_true_eq, ge_iff_le,
    UInt32.le_iff_toNat_le] at h
  rcases h with (⟨h1, h2⟩ | ⟨h1, h2⟩) | rfl
  · exact ⟨Nat.le_trans (by decide) h1, Nat.le_trans h2 (by decide)⟩
  · exact ⟨Nat.le_trans (by decide) h1, Nat.le_trans h2 (by decide)⟩
  · decide

/-! ### Labels -/

/-- What the expressions of labels have in common. -/
def innerLanguage : Language Char := Regex.someOf isLabelChar 0 61 * Regex.oneOf isLowerAlnum

theorem spells_innerRe : innerRe.Spells innerLanguage := (Regex.spells_rep_char isLabelChar 0 61).seq (Regex.spells_char isLowerAlnum)

theorem mem_topLanguage {w : Text} : w ∈ Regex.oneOf isLowerAlnum * innerLanguage ↔ IsLabel w ∧ 2 ≤ w.length := by
  constructor
  · intro hw
    obtain ⟨u, ⟨c, hc, rfl⟩, v, hv, rfl⟩ := Language.mem_mul.1 hw
    obtain ⟨inner, ⟨-, hlength, hinner⟩, e, ⟨d, hd, rfl⟩, rfl⟩ := Language.mem_mul.1 hv
    rw [isLowerAlnum_iff] at hc hd
    refine ⟨⟨?_, ?_, ?_, ?_, ?_⟩, ?_⟩
    · intro x hx
      rw [List.mem_append, List.mem_singleton, List.mem_append, List.mem_singleton] at hx
      rcases hx with rfl | hx | rfl
      · exact hc.1
      · exact hinner x hx
      · exact hd.1
    · intro x hx
      cases hx
      exact hc.2
    · intro x hx
      rw [← List.append_assoc, List.getLast?_concat] at hx
      cases hx
      exact hd.2
    · simp
    · simp
      omega
    · simp
  · rintro ⟨hlabel, hlength⟩
    obtain ⟨c, u, rfl⟩ := List.exists_cons_of_length_pos hlabel.pos
    have hne : u ≠ [] := by
      rintro rfl
      exact absurd hlength (by simp)
    have hu : u = u.dropLast ++ [u.getLast hne] := (List.dropLast_append_getLast hne).symm
    have hc : isLowerAlnum c = true := isLowerAlnum_iff.2 ⟨hlabel.chars c List.mem_cons_self, hlabel.head c rfl⟩
    have hd : isLowerAlnum (u.getLast hne) = true := by
      refine isLowerAlnum_iff.2 ⟨hlabel.chars _ (List.mem_cons_of_mem _ (List.getLast_mem hne)), hlabel.last _ ?_⟩
      rw [List.getLast?_cons_of_ne_nil hne, List.getLast?_eq_some_getLast hne]
      rfl
    refine Language.mem_mul.2 ⟨[c], ⟨c, hc, rfl⟩, u, Language.mem_mul.2 ⟨u.dropLast, ⟨Nat.zero_le _, ?_, ?_⟩, _, ⟨_, hd, rfl⟩, hu.symm⟩, rfl⟩
    · have hle := hlabel.length_le
      rw [List.length_cons] at hle
      rw [List.length_dropLast]
      omega
    · exact fun x hx => hlabel.chars x (List.mem_cons_of_mem _ (List.dropLast_subset u hx))

theorem mem_labelLanguage {w : Text} : w ∈ Regex.oneOf isLowerAlnum * (1 + innerLanguage) ↔ IsLabel w := by
  rw [mul_add, mul_one, Language.mem_add, mem_topLanguage]
  constructor
  · rintro (⟨c, hc, rfl⟩ | h)
    · rw [isLowerAlnum_iff] at hc
      refine ⟨fun d hd => ?_, fun d hd => ?_, fun d hd => ?_, Nat.le_refl 1, Nat.le_add_left 1 62⟩
      · rw [List.mem_singleton.1 hd]
        exact hc.1
      · cases hd
        exact hc.2
      · cases hd
        exact hc.2
    · exact h.1
  · intro h
    by_cases htwo : 2 ≤ w.length
    · exact .inr ⟨h, htwo⟩
    · have hone : w.length = 1 := by
        have hpos := h.pos
        omega
      obtain ⟨c, rfl⟩ := List.length_eq_one_iff.1 hone
      exact .inl ⟨c, isLowerAlnum_iff.2 ⟨h.chars c List.mem_cons_self, h.head c rfl⟩, rfl⟩

theorem spells_labelRe : labelRe.Spells (Regex.oneOf isLowerAlnum * (1 + innerLanguage)) :=
  (Regex.spells_char isLowerAlnum).seq spells_innerRe.opt

theorem spells_topLabelRe : topLabelRe.Spells (Regex.oneOf isLowerAlnum * innerLanguage) :=
  (Regex.spells_char isLowerAlnum).seq spells_innerRe

theorem not_mem_label {w : Text} (hw : IsLabel w) {c : Char} (hc : isLabelChar c = false) : c ∉ w := by
  intro hmem
  rw [hw.chars c hmem] at hc
  cases hc

/-! ### Names -/

/-- The labels of a name with the dots behind them. -/
def dottedLanguage : Language Char := Regex.oneOf isLowerAlnum * (1 + innerLanguage) * Regex.oneOf (· = '.')

theorem mem_dottedLanguage {w : Text} : w ∈ dottedLanguage ↔ ∃ l, IsLabel l ∧ w = l ++ ['.'] := by
  unfold dottedLanguage
  rw [Language.mem_mul]
  refine ⟨fun ⟨l, hl, d, hd, hw⟩ => ?_, fun ⟨l, hl, hw⟩ => ⟨l, mem_labelLanguage.2 hl, ['.'], ⟨'.', rfl, rfl⟩, hw.symm⟩⟩
  obtain ⟨c, hc, rfl⟩ := hd
  rw [of_decide_eq_true hc] at hw
  exact ⟨l, mem_labelLanguage.1 hl, hw.symm⟩

theorem splitOn_of_mem_pow {n : Nat} {w : Text} (hw : w ∈ dottedLanguage ^ n) : ∃ labels : List Text, labels.length = n ∧ (∀ l ∈ labels, IsLabel l) ∧
    ∀ u : Text, (w ++ u).splitOn '.' = labels ++ u.splitOn '.' := by
  induction n generalizing w with
  | zero =>
    rw [pow_zero, Language.mem_one] at hw
    exact ⟨[], rfl, fun _ hl => (nomatch hl), fun u => by rw [hw, List.nil_append, List.nil_append]⟩
  | succ n ih =>
    rw [pow_succ'] at hw
    obtain ⟨d, hd, v, hv, rfl⟩ := Language.mem_mul.1 hw
    obtain ⟨l, hl, rfl⟩ := mem_dottedLanguage.1 hd
    obtain ⟨labels, hlength, hlabels, hsplit⟩ := ih hv
    refine ⟨l :: labels, congrArg (· + 1) hlength, List.forall_mem_cons.2 ⟨hl, hlabels⟩, fun u => ?_⟩
    rw [List.append_assoc, List.append_assoc, List.singleton_append,
      List.splitOn_append_cons_self_of_not_mem (not_mem_label hl rfl), hsplit, List.cons_append]

theorem exists_mem_pow {labels : List Text} (hlabels : ∀ l ∈ labels, IsLabel l) (top : Text) :
    ∃ w ∈ dottedLanguage ^ labels.length, ['.'].intercalate (labels ++ [top]) = w ++ top := by
  induction labels with
  | nil => exact ⟨[], Language.nil_mem_one, by simp⟩
  | cons l labels ih =>
    obtain ⟨hl, hrest⟩ := List.forall_mem_cons.1 hlabels
    obtain ⟨w, hw, htext⟩ := ih hrest
    refine ⟨l ++ ['.'] ++ w, ?_, ?_⟩
    · rw [List.length_cons, pow_succ']
      exact Language.append_mem_mul (mem_dottedLanguage.2 ⟨l, hl, rfl⟩) hw
    · obtain ⟨u, us, hus⟩ := List.exists_cons_of_ne_nil (List.append_ne_nil_of_right_ne_nil labels (List.cons_ne_nil top []))
      rw [List.cons_append, hus, List.intercalate_cons_cons, ← hus, htext]
      simp

theorem mem_nameLanguage {w : Text} : w ∈ Regex.positive dottedLanguage * (Regex.oneOf isLowerAlnum * innerLanguage) ↔
    (∀ l ∈ w.splitOn '.', IsLabel l) ∧ 2 ≤ (w.splitOn '.').length ∧ 2 ≤ ((w.splitOn '.').getLastD []).length := by
  rw [Language.mem_mul]
  constructor
  · rintro ⟨u, ⟨n, hu⟩, v, hword, rfl⟩
    obtain ⟨hv, hlength⟩ := mem_topLanguage.1 hword
    obtain ⟨labels, hn, hlabels, hsplit⟩ := splitOn_of_mem_pow hu
    rw [hsplit, List.splitOn_eq_singleton (not_mem_label hv rfl)]
    refine ⟨fun l hl => ?_, ?_, ?_⟩
    · rcases List.mem_append.1 hl with hl | hl
      · exact hlabels l hl
      · rw [List.mem_singleton.1 hl]
        exact hv
    · rw [List.length_append, hn, List.length_singleton]
      omega
    · rw [List.getLastD_concat]
      exact hlength
  · rintro ⟨hlabels, htwo, htop⟩
    have hne : w.splitOn '.' ≠ [] := List.ne_nil_of_length_pos (Nat.lt_of_lt_of_le Nat.zero_lt_two htwo)
    have hparts : w.splitOn '.' = (w.splitOn '.').dropLast ++ [(w.splitOn '.').getLast hne] := (List.dropLast_append_getLast hne).symm
    have hlast : (w.splitOn '.').getLastD [] = (w.splitOn '.').getLast hne := by
      rw [List.getLastD_eq_getLast?, List.getLast?_eq_some_getLast hne]
      rfl
    obtain ⟨u, hu, htext⟩ := exists_mem_pow (fun l hl => hlabels l (List.dropLast_subset _ hl)) ((w.splitOn '.').getLast hne)
    rw [← hparts, List.intercalate_splitOn] at htext
    rw [hlast] at htop
    refine ⟨u, ⟨(w.splitOn '.').dropLast.length - 1, ?_⟩, _, mem_topLanguage.2 ⟨hlabels _ (List.getLast_mem hne), htop⟩, htext.symm⟩
    have hlength : (w.splitOn '.').dropLast.length - 1 + 1 = (w.splitOn '.').dropLast.length := by
      rw [List.length_dropLast]
      omega
    rw [hlength]
    exact hu

theorem nil_notMem_dotted : [] ∉ dottedLanguage := by
  rw [mem_dottedLanguage]
  rintro ⟨l, -, hl⟩
  exact List.append_ne_nil_of_right_ne_nil l (List.cons_ne_nil '.' []) hl.symm

theorem mem_of_labels {h : Text} (hlabels : ∀ l ∈ h.splitOn '.', IsLabel l) {c : Char} (hc : c ∈ h) : isLabelChar c = true ∨ c = '.' := by
  have hjoin : joinText ['.'] (h.splitOn '.') = h := List.intercalate_splitOn '.'
  rcases mem_joinText (hjoin.symm ▸ hc) with hc | ⟨l, hl, hc⟩
  · exact .inr (List.mem_singleton.1 hc)
  · exact .inl ((hlabels l hl).chars c hc)

theorem newline_notMem {h : Text} (hlabels : ∀ l ∈ h.splitOn '.', IsLabel l) : '\n' ∉ h := by
  intro hmem
  rcases mem_of_labels hlabels hmem with hlabel | hdot
  · cases hlabel
  · cases hdot

/-- The expression matches a hostname, with a newline behind it or not. -/
theorem startsMatch_domainRe {t : Text} : domainRe.startsMatch t = true ↔ ∃ h, Hostname h ∧ (t = h ∨ t = h ++ ['\n']) := by
  have hname : (Regex.seq (.plus (.seq labelRe (.char (· = '.')))) topLabelRe).Spells
      (Regex.positive dottedLanguage * (Regex.oneOf isLowerAlnum * innerLanguage)) :=
    ((spells_labelRe.seq (Regex.spells_char (· = '.'))).plus nil_notMem_dotted).seq spells_topLabelRe
  have hwhole : (Regex.rep 1 253 (.char (· ≠ '\n'))).Spells (Regex.someOf (· ≠ '\n') 1 253) := Regex.spells_rep_char (· ≠ '\n') 1 253
  unfold domainRe
  rw [Regex.startsMatch_ahead, Regex.startsMatch_seq_assoc, hwhole.startsMatch_dollar, hname.startsMatch_dollar]
  constructor
  · rintro ⟨⟨v, ⟨-, hlength, hline⟩, hv⟩, h, hh, ht⟩
    obtain ⟨hlabels, htwo, htop⟩ := mem_nameLanguage.1 hh
    have hsame : h = v := by
      have hnewline : '\n' ∉ h := newline_notMem hlabels
      rcases hv with rfl | rfl <;> rcases ht with heq | heq
      · exact heq.symm
      · exact absurd rfl (of_decide_eq_true (hline '\n' (heq ▸ List.mem_append_right h (List.mem_singleton_self '\n'))))
      · exact absurd (heq ▸ List.mem_append_right v (List.mem_singleton_self '\n')) hnewline
      · exact (List.append_cancel_right heq).symm
    exact ⟨h, ⟨hlabels, htwo, htop, hsame ▸ hlength⟩, ht⟩
  · rintro ⟨h, hh, ht⟩
    have hnewline : ∀ c ∈ h, decide (c ≠ '\n') = true :=
      fun c hc => decide_eq_true fun heq => newline_notMem hh.labels (heq ▸ hc)
    have hpos : 1 ≤ h.length := by
      rw [Nat.one_le_iff_ne_zero, Ne, List.length_eq_zero_iff]
      rintro rfl
      have htwo := hh.two
      rw [List.splitOn_nil] at htwo
      exact absurd htwo (by decide)
    exact ⟨⟨h, ⟨hpos, hh.length_le, hnewline⟩, ht⟩, h, mem_nameLanguage.2 ⟨hh.labels, hh.two, hh.top⟩, ht⟩

/-! ### Normal forms -/

theorem Hostname.ascii {h : Text} (hh : Hostname h) {c : Char} (hc : c ∈ h) : 33 ≤ c.toNat ∧ c.toNat ≤ 126 := by
  rcases mem_of_labels hh.labels hc with hlabel | rfl
  · exact toNat_of_isLabelChar hlabel
  · decide

/-- The last character is that of a label. -/
theorem Hostname.last {h : Text} (hh : Hostname h) : h.getLast? ≠ some '.' := by
  intro hlast
  obtain ⟨t, rfl⟩ := List.getLast?_eq_some_iff.1 hlast
  have htop := hh.top
  rw [List.splitOn_append_cons_self, List.splitOn_nil, List.getLastD_concat] at htop
  exact absurd htop (by decide)

theorem toLower_eq_self {c : Char} (h : c.isUpper = false) : c.toLower = c := by
  have hupper : ¬(c.val ≥ 'A'.val ∧ c.val ≤ 'Z'.val) := of_decide_eq_false h
  rw [Char.toLower, dif_neg hupper]

theorem isUpper_of_isLabelChar {c : Char} (h : isLabelChar c = true) : c.isUpper = false := by
  simp only [isLabelChar, isLowerAlnum, Char.isLower, Char.isDigit, Bool.or_eq_true, Bool.and_eq_true, decide_eq_true_eq, ge_iff_le,
    UInt32.le_iff_toNat_le] at h
  simp only [Char.isUpper, decide_eq_false_iff_not, ge_iff_le, UInt32.le_iff_toNat_le]
  rcases h with (⟨h1, h2⟩ | ⟨h1, h2⟩) | rfl
  · exact fun hupper => absurd (Nat.le_trans h1 hupper.2) (by decide)
  · exact fun hupper => absurd (Nat.le_trans hupper.1 h2) (by decide)
  · decide

theorem Hostname.map_toLower {h : Text} (hh : Hostname h) : h.map Char.toLower = h := by
  have hsame : ∀ c ∈ h, c.toLower = c := by
    intro c hc
    rcases mem_of_labels hh.labels hc with hlabel | rfl
    · exact toLower_eq_self (isUpper_of_isLabelChar hlabel)
    · rfl
  rw [List.map_congr_left hsame, List.map_id']

/-- Characters beyond ASCII stay as they are in lower case, as far as this is ASCII's. -/
theorem ascii_of_toLower {c : Char} (h : 33 ≤ c.toLower.toNat ∧ c.toLower.toNat ≤ 126) : 33 ≤ c.toNat ∧ c.toNat ≤ 126 := by
  cases hupper : c.isUpper with
  | false => rwa [toLower_eq_self hupper] at h
  | true =>
    simp only [Char.isUpper, decide_eq_true_eq, ge_iff_le, UInt32.le_iff_toNat_le] at hupper
    exact ⟨Nat.le_trans (by decide) hupper.1, Nat.le_trans hupper.2 (by decide)⟩

section

variable (py : Lowering)

theorem validateDomain_eq_ok_iff {s d : Text} : validateDomain py (some s) = .ok d ↔
    rstripChar '.' (py.lower (strip s)) = d ∧ ∃ h, Hostname h ∧ (d = h ∨ d = h ++ ['\n']) := by
  have hvalidate : validateDomain py (some s) = if domainRe.startsMatch (rstripChar '.' (py.lower (strip s))) then
      .ok (rstripChar '.' (py.lower (strip s))) else .error domainMessage := rfl
  rw [hvalidate]
  constructor
  · intro hok
    split at hok
    · rename_i hmatch
      cases hok
      exact ⟨rfl, startsMatch_domainRe.1 hmatch⟩
    · cases hok
  · rintro ⟨rfl, hname⟩
    rw [if_pos (startsMatch_domainRe.2 hname)]

/-- A hostname is accepted in any letter case, with dots behind and white space around it. -/
theorem validateDomain_written {h s : Text} (hh : Hostname h) (hs : Written h s) : validateDomain py (some s) = .ok h := by
  obtain ⟨l, h', n, r, rfl, rfl, hl, hr⟩ := hs
  have hbounds : ∀ c ∈ h' ++ List.replicate n '.', 33 ≤ c.toNat ∧ c.toNat ≤ 126 := by
    intro c hc
    rcases List.mem_append.1 hc with hc | hc
    · exact ascii_of_toLower (hh.ascii (List.mem_map_of_mem hc))
    · rw [List.eq_of_mem_replicate hc]
      decide
  have hstrip : strip (l ++ (h' ++ List.replicate n '.') ++ r) = h' ++ List.replicate n '.' := by
    rw [strip_append_right hr, strip_append_left hl]
    exact strip_eq_self (fun c hc => isSpace_of_between (hbounds c (List.mem_of_mem_head? hc)))
      fun c hc => isSpace_of_between (hbounds c (List.mem_of_mem_getLast? hc))
  refine (validateDomain_eq_ok_iff py).2 ⟨?_, _, hh, .inl rfl⟩
  rw [hstrip, py.lower_ascii _ fun c hc => Nat.lt_of_le_of_lt (hbounds c hc).2 (by decide), List.map_append, List.map_replicate]
  exact rstripChar_append '.' hh.last n

/-- The result is a hostname that stays as it is, and all hostnames are taken, just if the text is no hostname with a newline and dots behind it. -/
theorem validate_domain_exact_iff (s : Text) :
    Exact py s ↔ ∀ h n, Hostname h → py.lower (strip s) ≠ h ++ '\n' :: List.replicate n '.' := by
  constructor
  · rintro ⟨hresult, -⟩ h n hh hs
    have hok : validateDomain py (some s) = .ok (h ++ ['\n']) := by
      refine (validateDomain_eq_ok_iff py).2 ⟨?_, h, hh, .inr rfl⟩
      have hlast : (h ++ ['\n']).getLast? ≠ some '.' := by
        rw [List.getLast?_concat]
        decide
      rw [hs, List.append_cons]
      exact rstripChar_append '.' hlast n
    exact newline_notMem (hresult _ hok).1.labels (List.mem_append_right h (List.mem_singleton_self '\n'))
  · intro hline
    refine ⟨fun d hd => ?_, fun h hh hs => validateDomain_written py hh hs⟩
    obtain ⟨hstripped, h, hh, rfl | rfl⟩ := (validateDomain_eq_ok_iff py).1 hd
    · refine ⟨hh, validateDomain_written py hh ⟨[], d, 0, [], ?_, hh.map_toLower, fun _ hc => (nomatch hc), fun _ hc => (nomatch hc)⟩⟩
      simp
    · obtain ⟨n, hdots⟩ := exists_rstripChar '.' (py.lower (strip s))
      rw [hstripped, List.append_assoc, List.singleton_append] at hdots
      exact absurd hdots (hline h n hh)

end

/-- Letters of ASCII in lower case, and nothing else changed. -/
def asciiLowering : Lowering where
  lower := List.map Char.toLower
  lower_ascii _ _ := rfl

/-- A hostname with a newline and a dot behind it keeps the newline. -/
theorem newline_kept : validateDomain asciiLowering (some "example.com\n.".toList) = .ok "example.com\n".toList ∧
    ¬Exact asciiLowering "example.com\n.".toList := by
  have hkept : validateDomain asciiLowering (some "example.com\n.".toList) = .ok "example.com\n".toList := by decide +kernel
  refine ⟨hkept, fun hexact => ?_⟩
  exact absurd (newline_notMem (hexact.1 _ hkept).1.labels) (by decide +kernel)

end ProxmoxTool.Domains
