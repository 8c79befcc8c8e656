import ProxmoxTool.Lib.Fields
import ProxmoxTool.Lib.Url
import ProxmoxTool.Lib.WebUrl

/-!
# `urllib.parse`

`urlsplit`, `parse_qsl` and `urlencode`.  What `urlencode` makes of a list of pairs is read back by `parse_qsl` (`parseQsl_urlencode`), and a
path of plain characters with such a query behind it is split into the two (`urlsplit_local`).
-/

namespace ProxmoxTool.UrlParse

open Utf8 Url

/-- The five parts of a URL. -/
structure Parts where
  scheme : Text
  netloc : Text
  path : Text
  query : Text
  fragment : Text

/-- The authority behind two slashes. -/
def splitNetloc : Text → Text × Text
  | '/' :: '/' :: t => (t.takeWhile inAuthority, t.dropWhile inAuthority)
  | t => ([], t)

/-- `urlsplit`; `netlocOk` is false for an authority that raises a `ValueError`. -/
def urlsplit (netlocOk : Text → Bool) (url : Text) : Option Parts :=
  let url := WebUrl.kept (url.dropWhile WebUrl.isC0OrSpace)
  let (scheme, url) := (WebUrl.splitScheme url).getD ([], url)
  let (netloc, url) := splitNetloc url
  let (url, _, fragment) := partition '#' url
  let (path, _, query) := partition '?' url
  if netlocOk netloc then some ⟨scheme, netloc, path, query, fragment⟩ else none

/-- `unquote_plus`. -/
def unquotePlus (t : Text) : Text := unquote (t.map fun c => if c = '+' then ' ' else c)

/-- `parse_qsl` with `keep_blank_values`. -/
def parseQsl (qs : Text) : List (Text × Text) :=
  ((qs.splitOn '&').filter (· ≠ [])).map fun nameValue =>
    (unquotePlus (partition '=' nameValue).1, unquotePlus (partition '=' nameValue).2.2)

/-- The characters that `quote` leaves in any case. -/
def isUnreserved (c : Char) : Bool := c.isAlphanum || c = '_' || c = '.' || c = '-' || c = '~'

def hexUpper (n : Nat) : Char := (Nat.digitChar n).toUpper

def escape (b : UInt8) : Text := ['%', hexUpper (b.toNat / 16), hexUpper (b.toNat % 16)]

/-- `quote_plus` of one character, with the characters that it leaves as well. -/
def quoteChar (safe : Text) (c : Char) : Text :=
  if c = ' ' then ['+'] else if isUnreserved c || safe.contains c then [c] else (String.utf8EncodeChar c).flatMap escape

def quotePlus (safe t : Text) : Text := t.flatMap (quoteChar safe)

def urlencode (safe : Text) (items : List (Text × Text)) : Text :=
  joinText ['&'] (items.map fun item => quotePlus safe item.1 ++ '=' :: quotePlus safe item.2)

/-! ### Percent-encoding -/

theorem hexDigit_hexUpper : ∀ n < 16, Json.hexDigit (hexUpper n) = some n := by decide

theorem isAlphanum_hexUpper : ∀ n < 16, (hexUpper n).isAlphanum = true := by decide

theorem div_mod_lt (b : UInt8) : b.toNat / 16 < 16 ∧ b.toNat % 16 < 16 := by
  have hb := b.toNat_lt
  omega

theorem unquoteFrom_escape (pending : Bytes) (b : UInt8) (t : Text) : unquoteFrom pending (escape b ++ t) = unquoteFrom (pending ++ [b]) t := by
  obtain ⟨hhigh, hlow⟩ := div_mod_lt b
  have hbyte : UInt8.ofNat (b.toNat / 16 * 16 + b.toNat % 16) = b := by
    rw [Nat.div_add_mod', UInt8.ofNat_toNat]
  change unquoteFrom pending ('%' :: hexUpper (b.toNat / 16) :: hexUpper (b.toNat % 16) :: t) = _
  rw [unquoteFrom, hexDigit_hexUpper _ hhigh, hexDigit_hexUpper _ hlow]
  dsimp only
  rw [hbyte]

theorem unquoteFrom_flatMap_escape (pending bs : Bytes) (t : Text) :
    unquoteFrom pending (bs.flatMap escape ++ t) = unquoteFrom (pending ++ bs) t := by
  induction bs generalizing pending with
  | nil => rw [List.flatMap_nil, List.nil_append, List.append_nil]
  | cons b bs ih => rw [List.flatMap_cons, List.append_assoc, unquoteFrom_escape, ih, List.append_assoc, List.singleton_append]

theorem unquote_escapes (c : Char) (t : Text) : unquote ((String.utf8EncodeChar c).flatMap escape ++ t) = c :: unquote t := by
  have hencode : String.utf8EncodeChar c = encode [c] ++ [] := by
    rw [encode, List.flatMap_singleton, List.append_nil]
  unfold unquote
  rw [unquoteFrom_flatMap_escape, List.nil_append, hencode, unquoteFrom_append]
  rfl

/-- The characters of what `quote_plus` gives. -/
def isQuoted (safe : Text) (c : Char) : Bool := isUnreserved c || safe.contains c || c = '+' || c = '%'

theorem isQuoted_of_mem_escape (safe : Text) {b : UInt8} {c : Char} (h : c ∈ escape b) : isQuoted safe c = true ∧ c ≠ '+' := by
  obtain ⟨hhigh, hlow⟩ := div_mod_lt b
  have hdigit : ∀ n < 16, isQuoted safe (hexUpper n) = true ∧ hexUpper n ≠ '+' := by
    intro n hn
    have halnum := isAlphanum_hexUpper n hn
    refine ⟨?_, fun heq => ?_⟩
    · rw [isQuoted, isUnreserved, halnum]
      simp
    · rw [heq] at halnum
      cases halnum
  simp only [escape, List.mem_cons, List.not_mem_nil, or_false] at h
  rcases h with rfl | rfl | rfl
  · exact ⟨by simp [isQuoted], by decide⟩
  · exact hdigit _ hhigh
  · exact hdigit _ hlow

theorem isQuoted_of_mem_quotePlus {safe t : Text} {c : Char} (h : c ∈ quotePlus safe t) : isQuoted safe c = true := by
  obtain ⟨d, -, hc⟩ := List.mem_flatMap.1 h
  unfold quoteChar at hc
  split_ifs at hc with hspace hsafe
  · rw [List.mem_singleton.1 hc]
    simp [isQuoted]
  · rw [List.mem_singleton.1 hc, isQuoted, hsafe]
    rfl
  · obtain ⟨b, -, hb⟩ := List.mem_flatMap.1 hc
    exact (isQuoted_of_mem_escape safe hb).1

/-- Pairs are taken apart at characters that are quoted in them. -/
structure SafeChars (safe : Text) : Prop where
  plain : ∀ c ∈ safe, 33 ≤ c.toNat ∧ c.toNat ≤ 126
  reserved : ∀ c ∈ safe, c ≠ '+' ∧ c ≠ '%' ∧ c ≠ '&' ∧ c ≠ '=' ∧ c ≠ '#'

section

variable {safe : Text} (hsafe : SafeChars safe)

include hsafe

theorem unquotePlus_quoteChar_append (c : Char) (t : Text) : unquotePlus (quoteChar safe c ++ t) = c :: unquotePlus t := by
  unfold unquotePlus quoteChar
  rw [List.map_append]
  split_ifs with hspace hplain
  · rw [hspace]
    exact unquote_append (s := [' ']) (by decide) _
  · have hne : c ≠ '+' ∧ c ≠ '%' := by
      rcases Bool.or_eq_true _ _ ▸ hplain with hun | hmem
      · constructor
        · rintro rfl
          cases hun
        · rintro rfl
          cases hun
      · have hreserved := hsafe.reserved c (List.contains_iff_mem.1 hmem)
        exact ⟨hreserved.1, hreserved.2.1⟩
    rw [List.map_singleton, if_neg hne.1]
    exact unquote_append (s := [c]) (by simpa using hne.2.symm) _
  · have hplus : ((String.utf8EncodeChar c).flatMap escape).map (fun d => if d = '+' then ' ' else d) =
        (String.utf8EncodeChar c).flatMap escape := by
      refine (List.map_congr_left fun d hd => ?_).trans (List.map_id _)
      obtain ⟨b, -, hb⟩ := List.mem_flatMap.1 hd
      exact if_neg (isQuoted_of_mem_escape safe hb).2
    rw [hplus, unquote_escapes]

theorem unquotePlus_quotePlus (t : Text) : unquotePlus (quotePlus safe t) = t := by
  induction t with
  | nil => rfl
  | cons c t ih => rw [quotePlus, List.flatMap_cons, unquotePlus_quoteChar_append hsafe, ← quotePlus, ih]

/-- What is not in a quoted text. -/
theorem isQuoted_plain {c : Char} (h : isQuoted safe c = true) :
    (33 ≤ c.toNat ∧ c.toNat ≤ 126) ∧ c ≠ '&' ∧ c ≠ '=' ∧ c ≠ '#' := by
  simp only [isQuoted, isUnreserved, Bool.or_eq_true, decide_eq_true_iff, List.contains_iff_mem] at h
  rcases h with ((((((halnum | rfl) | rfl) | rfl) | rfl) | hmem) | rfl) | rfl
  · refine ⟨between_of_isAlphanum halnum, ?_, ?_, ?_⟩
    · rintro rfl
      cases halnum
    · rintro rfl
      cases halnum
    · rintro rfl
      cases halnum
  · decide
  · decide
  · decide
  · decide
  · exact ⟨hsafe.plain c hmem, (hsafe.reserved c hmem).2.2⟩
  · decide
  · decide

/-- The pairs are read back. -/
theorem parseQsl_urlencode (items : List (Text × Text)) : parseQsl (urlencode safe items) = items := by
  have hnot : ∀ (d : Char), (d = '&' ∨ d = '=') → ∀ t, d ∉ quotePlus safe t := by
    intro d hd t hmem
    obtain ⟨-, hamp, heq, -⟩ := isQuoted_plain hsafe (isQuoted_of_mem_quotePlus hmem)
    rcases hd with rfl | rfl
    · exact hamp rfl
    · exact heq rfl
  cases items with
  | nil => rfl
  | cons item items =>
    have hamp : ∀ row ∈ (item :: items).map (fun item => quotePlus safe item.1 ++ '=' :: quotePlus safe item.2), '&' ∉ row := by
      intro row hrow
      obtain ⟨⟨k, v⟩, -, rfl⟩ := List.mem_map.1 hrow
      rw [List.mem_append, List.mem_cons]
      rintro (hmem | heq | hmem)
      · exact hnot '&' (.inl rfl) k hmem
      · cases heq
      · exact hnot '&' (.inl rfl) v hmem
    have hne : ∀ row ∈ (item :: items).map (fun item => quotePlus safe item.1 ++ '=' :: quotePlus safe item.2), decide (row ≠ []) = true := by
      intro row hrow
      obtain ⟨⟨k, v⟩, -, rfl⟩ := List.mem_map.1 hrow
      simp
    unfold parseQsl urlencode
    rw [joinText, List.splitOn_intercalate '&' hamp (by simp), List.filter_eq_self.2 hne, List.map_map]
    refine (List.map_congr_left fun p _ => ?_).trans (List.map_id _)
    dsimp only [Function.comp_apply]
    rw [partition_append (hnot '=' (.inr rfl) p.1)]
    dsimp only
    rw [unquotePlus_quotePlus hsafe, unquotePlus_quotePlus hsafe]
    rfl

theorem plain_of_mem_urlencode {items : List (Text × Text)} {c : Char} (h : c ∈ urlencode safe items) :
    (33 ≤ c.toNat ∧ c.toNat ≤ 126) ∧ c ≠ '#' := by
  rcases mem_joinText h with hc | ⟨row, hrow, hc⟩
  · rw [List.mem_singleton.1 hc]
    decide
  · obtain ⟨⟨k, v⟩, -, rfl⟩ := List.mem_map.1 hrow
    rcases List.mem_append.1 hc with hc | hc
    · have hplain := isQuoted_plain hsafe (isQuoted_of_mem_quotePlus hc)
      exact ⟨hplain.1, hplain.2.2.2⟩
    · rcases List.mem_cons.1 hc with rfl | hc
      · decide
      · have hplain := isQuoted_plain hsafe (isQuoted_of_mem_quotePlus hc)
        exact ⟨hplain.1, hplain.2.2.2⟩

end

/-! ### Local URLs -/

/-- A path with a query behind it, if there is one. -/
def withQuery (path query : Text) : Text := if query = [] then path else path ++ '?' :: query

theorem partition_of_not_mem {c : Char} {t : Text} (h : c ∉ t) : partition c t = (t, false, []) := by
  induction t with
  | nil => rfl
  | cons d t ih =>
    rw [List.mem_cons, not_or] at h
    rw [partition, if_neg (Ne.symm h.1), ih h.2]

theorem partition_withQuery {path : Text} (h : '?' ∉ path) (query : Text) :
    (partition '?' (withQuery path query)).1 = path ∧ (partition '?' (withQuery path query)).2.2 = query := by
  unfold withQuery
  split_ifs with hquery
  · rw [partition_of_not_mem h]
    exact ⟨rfl, hquery.symm⟩
  · rw [partition_append h]
    exact ⟨rfl, rfl⟩

/-- A path that begins with one slash, and a query. -/
theorem urlsplit_local {netlocOk : Text → Bool} (hok : netlocOk [] = true) {path query : Text} (hslash : path.head? = some '/')
    (hsecond : path.tail.head? ≠ some '/') (hpath : ∀ c ∈ path, (33 ≤ c.toNat ∧ c.toNat ≤ 126) ∧ c ≠ '#' ∧ c ≠ '?')
    (hquery : ∀ c ∈ query, (33 ≤ c.toNat ∧ c.toNat ≤ 126) ∧ c ≠ '#') :
    urlsplit netlocOk (withQuery path query) = some ⟨[], [], path, query, []⟩ := by
  have hplain : ∀ c ∈ withQuery path query, (33 ≤ c.toNat ∧ c.toNat ≤ 126) ∧ c ≠ '#' := by
    intro c hc
    unfold withQuery at hc
    split_ifs at hc
    · exact ⟨(hpath c hc).1, (hpath c hc).2.1⟩
    · rcases List.mem_append.1 hc with hc | hc
      · exact ⟨(hpath c hc).1, (hpath c hc).2.1⟩
      · rcases List.mem_cons.1 hc with rfl | hc
        · decide
        · exact hquery c hc
  obtain ⟨rest, hurl, hrest⟩ : ∃ rest, withQuery path query = '/' :: rest ∧ rest.head? ≠ some '/' := by
    obtain ⟨c, p, rfl⟩ := List.exists_cons_of_ne_nil (l := path) (by rintro rfl; cases hslash)
    obtain rfl : c = '/' := Option.some.inj hslash
    unfold withQuery
    split_ifs
    · exact ⟨p, rfl, hsecond⟩
    · refine ⟨p ++ '?' :: query, rfl, ?_⟩
      cases p with
      | nil => simp
      | cons d p => exact hsecond
  have hkept : WebUrl.kept ((withQuery path query).dropWhile WebUrl.isC0OrSpace) = withQuery path query := by
    have hdrop : (withQuery path query).dropWhile WebUrl.isC0OrSpace = withQuery path query := by
      rw [hurl]
      exact List.dropWhile_cons_of_neg (by decide)
    rw [hdrop]
    refine List.filter_eq_self.2 fun c hc => ?_
    obtain ⟨⟨hlow, -⟩, -⟩ := hplain c hc
    rw [Bool.not_eq_true']
    simp only [WebUrl.isTabOrNewline, Bool.or_eq_false_iff, decide_eq_false_iff_not]
    refine ⟨⟨?_, ?_⟩, ?_⟩
    · rintro rfl
      exact absurd hlow (by decide)
    · rintro rfl
      exact absurd hlow (by decide)
    · rintro rfl
      exact absurd hlow (by decide)
  have hscheme : WebUrl.splitScheme (withQuery path query) = none := by
    rw [hurl, WebUrl.splitScheme_slash]
  have hnetloc : splitNetloc (withQuery path query) = ([], withQuery path query) := by
    rw [hurl]
    unfold splitNetloc
    split
    · rename_i t heq
      rw [List.cons.injEq] at heq
      rw [heq.2] at hrest
      exact absurd rfl hrest
    · rfl
  have hfragment : partition '#' (withQuery path query) = (withQuery path query, false, []) :=
    partition_of_not_mem fun hmem => (hplain '#' hmem).2 rfl
  have hmark : '?' ∉ path := fun hmem => (hpath '?' hmem).2.2 rfl
  obtain ⟨hfront, hbehind⟩ := partition_withQuery hmark query
  unfold urlsplit
  dsimp only
  rw [hkept, hscheme, Option.getD_none, hnetloc]
  dsimp only
  rw [hfragment, if_pos hok, hfront, hbehind]

end ProxmoxTool.UrlParse
