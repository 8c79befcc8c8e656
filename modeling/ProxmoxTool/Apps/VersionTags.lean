import ProxmoxTool.Apps.Validate
import ProxmoxTool.Lib.SemVer

/-!
# Tags of releases

`_validate_release_tag` and `_version_gt` of `apps/utils.py`: the tags that pass the check, and which of two is taken as the newer one.
The check lets two to four numbers pass, with any suffix; the comparison reads three numbers and a label behind `-`, and it compares labels
as text.  So the two agree with the precedence of versions only where `Agree` says.
-/

namespace ProxmoxTool

/-- The tables for `\w` and `\d`, and the value of a decimal outside ASCII. -/
structure VersionChars extends CharTable where
  digit : Char → Nat

namespace VersionChars

variable (u : VersionChars)

def digitValue (c : Char) : Nat := if c.toNat < 128 then c.toNat - 48 else u.digit c

/-- `int` of decimals. -/
def number (ds : Text) : Nat := ds.foldl (fun n c => 10 * n + u.digitValue c) 0

/-- `\d+` at the start, with what follows. -/
def digits (t : Text) : Option (Text × Text) :=
  let ds := t.takeWhile u.isDecimal
  if ds = [] then none else some (ds, t.drop ds.length)

/-- `\.\d+` at the start. -/
def dotted : Text → Option (Text × Text)
  | '.' :: t => u.digits t
  | _ => none

/-- `(\.\d+){0,n}` at the start. -/
def components : Nat → Text → List Text × Text
  | 0, t => ([], t)
  | n + 1, t => match u.dotted t with
    | some (ds, rest) => (ds :: (components n rest).1, (components n rest).2)
    | none => ([], t)

/-- `v?` at the start. -/
def dropV : Text → Text
  | 'v' :: t => t
  | t => t

/-- What `_RELEASE_TAG_RE` finds in a tag. -/
structure Tag where
  numbers : List Text
  suffix : Text
  deriving DecidableEq

/-- `_RELEASE_TAG_RE.fullmatch`. -/
def readTag (t : Text) : Option Tag := do
  let (first, t) ← u.digits (dropV t)
  let (more, suffix) := u.components 3 t
  if more ≠ [] ∧ suffix.all (fun c => u.isWord c || c ∈ ['-', '.']) then some ⟨first :: more, suffix⟩ else none

/-- `_validate_release_tag` raises nothing. -/
def validateReleaseTag (t : Text) : Bool := !t.isEmpty && t.length ≤ 64 && (u.readTag t).isSome

/-- `(?:-(.+))?$`, with the group. -/
def label (t : Text) : Option (Option Text) :=
  match (if t.getLast? = some '\n' then t.dropLast else t) with
  | [] => some none
  | '-' :: p => if p ≠ [] ∧ '\n' ∉ p then some (some p) else none
  | _ => none

/-- `_parse`: the three numbers and the label. -/
def parse (v : Text) : Option (List Nat × Option Text) := do
  let t := (v.dropWhile (· = 'v')).takeWhile (· ≠ '+')
  let (major, t) ← u.digits t
  let (minor, t) ← u.dotted t
  let (patch, t) ← u.dotted t
  let pre ← label t
  return ([u.number major, u.number minor, u.number patch], pre)

/-- `_version_gt`. -/
def versionGt (candidate current : Text) : Bool :=
  match u.parse candidate, u.parse current with
  | some (m, p), some (n, q) =>
    if m ≠ n then decide (n < m)
    else match p, q with
      | none, none => false
      | none, some _ => true
      | some _, none => false
      | some p, some q => decide (q < p)
  | _, _ => false

/-! ### Precedence -/

/-- An identifier of decimals is a number. -/
def ident (w : Text) : SemVer.Ident := if w ≠ [] ∧ w.all u.isDecimal then toLex (.inl (u.number w)) else toLex (.inr w)

namespace Tag

/-- What stands in front of the release, with or without a `-`. -/
def pre (s : Tag) : Option Text :=
  match s.suffix with
  | [] => none
  | '-' :: p => if p = [] then none else some p
  | p => some p

/-- Three numbers, and nothing behind them or a label behind `-`. -/
def Plain (s : Tag) : Prop := s.numbers.length = 3 ∧ (s.suffix = [] ∨ s.suffix.head? = some '-' ∧ s.suffix ≠ ['-'])

instance (s : Tag) : Decidable s.Plain := inferInstanceAs (Decidable (_ ∧ _))

end Tag

/-- The numbers, with a zero for each one missing. -/
def values (s : Tag) : List Nat := s.numbers.map u.number ++ List.replicate (4 - s.numbers.length) 0

def precedence (s : Tag) : SemVer.Precedence (List SemVer.Ident) :=
  SemVer.precedence (u.values s) (s.pre.map fun p => (p.splitOn '.').map u.ident)

/-- `a` has the higher precedence. -/
def Higher (a b : Text) : Prop := ∃ s ∈ u.readTag a, ∃ t ∈ u.readTag b, u.precedence t < u.precedence s

/-- Where the comparison is that of the precedences: on two plain tags with the same numbers the labels have to be in the same order as text
and as identifiers; another tag counts for nothing. -/
def Agree (a b : Text) : Prop := ∀ s ∈ u.readTag a, ∀ t ∈ u.readTag b,
  if s.Plain ∧ t.Plain then
    u.values s = u.values t → ∀ p ∈ s.pre, ∀ q ∈ t.pre, Joined.SameOrder '.' u.ident (p.splitOn '.') (q.splitOn '.')
  else ¬ u.precedence t < u.precedence s

/-! ### What the comparison reads of a tag -/

/-- Neither the start of the build metadata nor an end of line. -/
def Kept (c : Char) : Prop := c ≠ '+' ∧ c ≠ '\n'

theorem kept_of_isDecimal {c : Char} (h : u.isDecimal c = true) : Kept c := by
  constructor
  · rintro rfl
    cases h
  · rintro rfl
    cases h

theorem kept_of_isWord {c : Char} (h : u.isWord c = true) : Kept c := by
  constructor
  · rintro rfl
    cases h
  · rintro rfl
    cases h

theorem digits_eq_some {t ds rest : Text} (h : u.digits t = some (ds, rest)) :
    t = ds ++ rest ∧ ds ≠ [] ∧ ∀ c ∈ ds, u.isDecimal c = true := by
  unfold digits at h
  dsimp only at h
  split_ifs at h with hds
  cases h
  exact ⟨(List.prefix_iff_eq_append.1 (List.takeWhile_prefix _)).symm, hds, fun c hc => List.mem_takeWhile_imp hc⟩

theorem dotted_eq_some {t ds rest : Text} (h : u.dotted t = some (ds, rest)) :
    t = '.' :: (ds ++ rest) ∧ ∀ c ∈ ds, u.isDecimal c = true := by
  unfold dotted at h
  split at h
  · rename_i t'
    obtain ⟨ht, -, hds⟩ := u.digits_eq_some h
    exact ⟨by rw [ht], hds⟩
  · cases h

theorem components_kept (n : Nat) (t : Text) (h : ∀ c ∈ (u.components n t).2, Kept c) : ∀ c ∈ t, Kept c := by
  induction n generalizing t with
  | zero => exact h
  | succ n ih =>
    rw [components] at h
    split at h
    · rename_i ds rest hdot
      obtain ⟨rfl, hds⟩ := u.dotted_eq_some hdot
      intro c hc
      rw [List.mem_cons, List.mem_append] at hc
      rcases hc with rfl | hc | hc
      · exact ⟨by decide, by decide⟩
      · exact u.kept_of_isDecimal (hds c hc)
      · exact ih rest h c hc
    · exact h

theorem label_of_kept (t : Text) : (∀ c ∈ t, Kept c) →
    label t = match t with
      | [] => some none
      | '-' :: p => if p ≠ [] then some (some p) else none
      | _ => none := by
  intro h
  have hlast : t.getLast? ≠ some '\n' := fun hl => (h '\n' (List.mem_of_getLast? hl)).2 rfl
  unfold label
  rw [if_neg hlast]
  split
  · rfl
  · rename_i p
    have hp : '\n' ∉ p := fun hn => (h '\n' (List.mem_cons_of_mem _ hn)).2 rfl
    simp [hp]
  · rename_i h1 h2
    split
    · exact absurd rfl h1
    · exact absurd rfl (h2 _)
    · rfl

theorem readTag_eq_some {t : Text} {s : Tag} (h : u.readTag t = some s) :
    ∃ first rest, u.digits (dropV t) = some (first, rest) ∧ (u.components 3 rest).1 ≠ [] ∧ (∀ c ∈ (u.components 3 rest).2, Kept c) ∧
      s = ⟨first :: (u.components 3 rest).1, (u.components 3 rest).2⟩ := by
  simp only [readTag, Option.bind_eq_bind, Option.bind_eq_some_iff, Prod.exists] at h
  obtain ⟨first, rest, hdigits, h⟩ := h
  split_ifs at h with hread
  cases h
  refine ⟨first, rest, hdigits, hread.1, fun c hc => ?_, rfl⟩
  have hc := List.all_eq_true.1 hread.2 c hc
  rw [Bool.or_eq_true, decide_eq_true_eq] at hc
  rcases hc with hc | hc
  · exact u.kept_of_isWord hc
  · simp only [List.mem_cons, List.not_mem_nil, or_false] at hc
    rcases hc with rfl | rfl <;> exact ⟨by decide, by decide⟩

theorem dropV_cases (t : Text) : t = 'v' :: dropV t ∨ dropV t = t := by
  unfold dropV
  split
  · exact Or.inl rfl
  · exact Or.inr rfl

/-- Behind the one `v` there is a decimal. -/
theorem dropWhile_eq_dropV {t ds rest : Text} (h : u.digits (dropV t) = some (ds, rest)) : t.dropWhile (· = 'v') = dropV t := by
  obtain ⟨ht, hne, hds⟩ := u.digits_eq_some h
  have hself : (dropV t).dropWhile (· = 'v') = dropV t := by
    obtain ⟨c, ds, rfl⟩ := List.exists_cons_of_ne_nil hne
    have hc : c ≠ 'v' := by
      rintro rfl
      cases hds 'v' List.mem_cons_self
    rw [ht, List.cons_append, List.dropWhile_cons_of_neg (by simpa using hc)]
  rcases dropV_cases t with hv | hv
  · conv_lhs => rw [hv]
    rw [List.dropWhile_cons_of_pos (by decide), hself]
  · rwa [hv] at hself ⊢

/-- Of what is found in a tag the comparison reads three numbers and a label, or nothing. -/
theorem parse_of_readTag {t : Text} {s : Tag} (h : u.readTag t = some s) :
    u.parse t = if s.Plain then some (s.numbers.map u.number, s.pre) else none := by
  obtain ⟨first, rest, hdigits, hmore, hkept, rfl⟩ := u.readTag_eq_some h
  have hrest := u.components_kept 3 rest hkept
  have hall : (dropV t).takeWhile (· ≠ '+') = dropV t := by
    obtain ⟨ht, -, hds⟩ := u.digits_eq_some hdigits
    rw [List.takeWhile_eq_self_iff, ht]
    intro c hc
    rcases List.mem_append.1 hc with hc | hc
    · exact decide_eq_true (u.kept_of_isDecimal (hds c hc)).1
    · exact decide_eq_true (hrest c hc).1
  simp only [parse, u.dropWhile_eq_dropV hdigits, hall, hdigits, Option.bind_eq_bind, Option.bind_some]
  cases h2 : u.dotted rest with
  | none => exact absurd (by simp [components, h2]) hmore
  | some q =>
    obtain ⟨d2, r2⟩ := q
    cases h3 : u.dotted r2 with
    | none => simp [components, h2, h3, Tag.Plain]
    | some q =>
      obtain ⟨d3, r3⟩ := q
      have hkept3 : ∀ c ∈ r3, Kept c := u.components_kept 1 r3 (by simpa only [components, h2, h3] using hkept)
      simp only [h3, Option.bind_some, label_of_kept r3 hkept3]
      cases h4 : u.dotted r3 with
      | none =>
        simp only [components, h2, h3, h4, Tag.Plain, Tag.pre]
        cases r3 with
        | nil => rfl
        | cons c p =>
          by_cases hc : c = '-'
          · subst hc
            cases p <;> simp
          · simp [hc]
      | some q =>
        -- a fourth number is no label
        obtain ⟨d4, r4⟩ := q
        obtain ⟨rfl, -⟩ := u.dotted_eq_some h4
        simp [components, h2, h3, h4, Tag.Plain]

/-! ### The order of the comparison -/

theorem versionGt_eq_true_iff {a b : Text} :
    u.versionGt a b = true ↔ ∃ x ∈ u.parse a, ∃ y ∈ u.parse b, SemVer.precedence y.1 y.2 < SemVer.precedence x.1 x.2 := by
  unfold versionGt
  cases ha : u.parse a with
  | none => simp
  | some x =>
    obtain ⟨m, p⟩ := x
    cases hb : u.parse b with
    | none => simp
    | some y =>
      obtain ⟨n, q⟩ := y
      simp only [Option.mem_some_iff, exists_eq_left', SemVer.precedence_lt_iff]
      by_cases hmn : m = n
      · subst hmn
        cases p <;> cases q <;> simp
      · simp [hmn, Ne.symm hmn]

theorem versionGt_asymm (a b : Text) : ¬ (u.versionGt a b = true ∧ u.versionGt b a = true) := by
  simp only [versionGt_eq_true_iff, Option.mem_def]
  rintro ⟨⟨x, hx, y, hy, hxy⟩, y', hy', x', hx', hyx⟩
  cases hx.symm.trans hx'
  cases hy.symm.trans hy'
  exact lt_asymm hxy hyx

theorem versionGt_trans {a b c : Text} (hab : u.versionGt a b = true) (hbc : u.versionGt b c = true) : u.versionGt a c = true := by
  simp only [versionGt_eq_true_iff, Option.mem_def] at hab hbc ⊢
  obtain ⟨x, hx, y, hy, hxy⟩ := hab
  obtain ⟨y', hy', z, hz, hyz⟩ := hbc
  cases hy.symm.trans hy'
  exact ⟨x, hx, z, hz, lt_trans hyz hxy⟩

/-- A version that is read stands on one side of every other two. -/
theorem versionGt_or {a b c : Text} (hb : (u.parse b).isSome) (hac : u.versionGt a c = true) :
    u.versionGt a b = true ∨ u.versionGt b c = true := by
  simp only [versionGt_eq_true_iff, Option.mem_def] at hac ⊢
  obtain ⟨x, hx, z, hz, hxz⟩ := hac
  obtain ⟨y, hy⟩ := Option.isSome_iff_exists.1 hb
  rcases lt_or_ge (SemVer.precedence y.1 y.2) (SemVer.precedence x.1 x.2) with hxy | hxy
  · exact Or.inl ⟨x, hx, y, hy, hxy⟩
  · exact Or.inr ⟨y, hy, z, hz, lt_of_lt_of_le hxz hxy⟩

theorem not_versionGt_of_unread {a b : Text} (h : u.parse a = none ∨ u.parse b = none) : u.versionGt a b = false := by
  unfold versionGt
  rcases h with h | h
  · rw [h]
  · rw [h]
    cases u.parse a <;> rfl

/-! ### The comparison and the precedence -/

theorem values_of_plain {s : Tag} (h : s.Plain) : u.values s = s.numbers.map u.number ++ [0] := by
  rw [values, h.1]
  rfl

theorem higher_iff {a b : Text} {s t : Tag} (ha : u.readTag a = some s) (hb : u.readTag b = some t) :
    u.Higher a b ↔ u.precedence t < u.precedence s := by
  simp [Higher, ha, hb]

theorem versionGt_iff_higher_iff {a b : Text} {s t : Tag} (ha : u.readTag a = some s) (hb : u.readTag b = some t) :
    (u.versionGt a b = true ↔ u.Higher a b) ↔ u.Agree a b := by
  simp only [Agree, ha, hb, Option.mem_some_iff, forall_eq']
  rw [u.higher_iff ha hb, versionGt_eq_true_iff, u.parse_of_readTag ha, u.parse_of_readTag hb]
  by_cases hp : s.Plain ∧ t.Plain
  · have hlen : (t.numbers.map u.number).length = (s.numbers.map u.number).length := by
      rw [List.length_map, List.length_map, hp.1.1, hp.2.1]
    have hsplit (p q : Text) : (q < p ↔ (q.splitOn '.').map u.ident < (p.splitOn '.').map u.ident) ↔
        Joined.SameOrder '.' u.ident (p.splitOn '.') (q.splitOn '.') := Joined.lt_iff_map_splitOn_lt_iff '.' u.ident p q
    simp only [hp.1, hp.2, if_true, and_self, Option.mem_some_iff, exists_eq_left', precedence, u.values_of_plain hp.1,
      u.values_of_plain hp.2, SemVer.precedence_append_lt_iff [0] hlen, List.append_left_inj]
    rw [SemVer.precedence_map_lt_iff]
    simp only [hsplit]
  · have hnone : ¬ ∃ x ∈ (if s.Plain then some (s.numbers.map u.number, s.pre) else none),
        ∃ y ∈ (if t.Plain then some (t.numbers.map u.number, t.pre) else none),
          SemVer.precedence y.1 y.2 < SemVer.precedence x.1 x.2 := by
      rintro ⟨x, hx, y, hy, -⟩
      have hs : s.Plain := by
        by_contra hs
        simp [hs] at hx
      have ht : t.Plain := by
        by_contra ht
        simp [ht] at hy
      exact hp ⟨hs, ht⟩
    rw [if_neg hp, iff_false_left hnone]

/-- A tag of three numbers, with nothing behind them or a label behind `-`. -/
def Compared (a : Text) : Prop := ∃ s ∈ u.readTag a, s.Plain

theorem isSome_parse_iff {a : Text} {s : Tag} (h : u.readTag a = some s) : (u.parse a).isSome ↔ u.Compared a := by
  rw [u.parse_of_readTag h]
  simp only [Compared, h, Option.mem_some_iff, exists_eq_left']
  split_ifs with hs <;> simp [hs]

theorem exists_readTag {t : Text} (h : u.validateReleaseTag t = true) : ∃ s, u.readTag t = some s :=
  Option.isSome_iff_exists.1 (Bool.and_eq_true_iff.1 h).2

/-- On accepted tags the comparison is that of the precedences exactly where `Agree` says.  It never holds both ways, it is transitive, and
a tag that it reads stands on one side of every two that it orders; a tag that it does not read is ordered against none. -/
theorem versionGt_precedence_iff {a b c : Text} (ha : u.validateReleaseTag a = true) (hb : u.validateReleaseTag b = true) :
    ((u.versionGt a b = true ↔ u.Higher a b) ↔ u.Agree a b) ∧ ¬ (u.versionGt a b = true ∧ u.versionGt b a = true) ∧
      (u.versionGt a b = true → u.versionGt b c = true → u.versionGt a c = true) ∧
      (u.Compared b → u.versionGt a c = true → u.versionGt a b = true ∨ u.versionGt b c = true) ∧
      (¬ u.Compared b → u.versionGt a b = false ∧ u.versionGt b c = false) := by
  obtain ⟨s, hs⟩ := u.exists_readTag ha
  obtain ⟨t, ht⟩ := u.exists_readTag hb
  refine ⟨u.versionGt_iff_higher_iff hs ht, u.versionGt_asymm a b, u.versionGt_trans, fun hread => ?_, fun hread => ?_⟩
  · exact u.versionGt_or ((u.isSome_parse_iff ht).2 hread)
  · have hnone : u.parse b = none := by
      rw [← Option.not_isSome_iff_eq_none, u.isSome_parse_iff ht]
      exact hread
    exact ⟨u.not_versionGt_of_unread (Or.inr hnone), u.not_versionGt_of_unread (Or.inl hnone)⟩

/-- ASCII only. -/
def ascii : VersionChars where
  alnum := fun _ => false
  decimal := fun _ => false
  digit := fun _ => 0

theorem versionGt_precedence_of_releases :
    ((ascii.versionGt "v1.10.0".toList "1.9.3".toList = true ↔ ascii.Higher "v1.10.0".toList "1.9.3".toList) ↔
        ascii.Agree "v1.10.0".toList "1.9.3".toList) ∧
      ascii.versionGt "v1.10.0".toList "1.9.3".toList = true :=
  ⟨(ascii.versionGt_precedence_iff (c := "1.0.0".toList) (by decide) (by decide)).1, by decide⟩

/-- The tenth candidate of a release is taken as older than the ninth, and a tag of two numbers is newer than none. -/
theorem tenth_candidate_not_newer :
    ascii.validateReleaseTag "v1.0.0-rc.10".toList = true ∧ ascii.validateReleaseTag "v1.0.0-rc.9".toList = true ∧
      ascii.versionGt "v1.0.0-rc.10".toList "v1.0.0-rc.9".toList = false ∧ ascii.Higher "v1.0.0-rc.10".toList "v1.0.0-rc.9".toList ∧
      ascii.validateReleaseTag "v1.3".toList = true ∧ ascii.validateReleaseTag "v1.2.0".toList = true ∧
      ascii.versionGt "v1.3".toList "v1.2.0".toList = false ∧ ascii.Higher "v1.3".toList "v1.2.0".toList := by
  have h10 : ascii.readTag "v1.0.0-rc.10".toList = some ⟨["1".toList, "0".toList, "0".toList], "-rc.10".toList⟩ := by decide
  have h9 : ascii.readTag "v1.0.0-rc.9".toList = some ⟨["1".toList, "0".toList, "0".toList], "-rc.9".toList⟩ := by decide
  have h13 : ascii.readTag "v1.3".toList = some ⟨["1".toList, "3".toList], []⟩ := by decide
  have h12 : ascii.readTag "v1.2.0".toList = some ⟨["1".toList, "2".toList, "0".toList], []⟩ := by decide
  refine ⟨by decide, by decide, by decide, ?_, by decide, by decide, by decide, ?_⟩
  · rw [ascii.higher_iff h10 h9, precedence, precedence, SemVer.precedence_lt_iff]
    have hs : "rc.10".toList.splitOn '.' = ["rc".toList, "10".toList] := by decide
    have ht : "rc.9".toList.splitOn '.' = ["rc".toList, "9".toList] := by decide
    refine Or.inr ⟨by decide, Or.inr ⟨_, _, rfl, rfl, ?_⟩⟩
    change (("rc.9".toList.splitOn '.').map ascii.ident) < (("rc.10".toList.splitOn '.').map ascii.ident)
    rw [hs, ht]
    simp only [List.map_cons, List.map_nil, List.cons_lt_cons_self]
    rw [List.cons_lt_cons_iff]
    have h9 : ascii.ident "9".toList = toLex (Sum.inl 9) := by decide
    have h10 : ascii.ident "10".toList = toLex (Sum.inl 10) := by decide
    rw [h9, h10, Sum.Lex.inl_lt_inl_iff]
    exact Or.inl (by decide)
  · rw [ascii.higher_iff h13 h12, precedence, precedence, SemVer.precedence_lt_iff]
    exact Or.inl (by decide)

end VersionChars

end ProxmoxTool
