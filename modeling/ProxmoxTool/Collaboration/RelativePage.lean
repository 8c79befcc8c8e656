import ProxmoxTool.Lib.WebUrl

/-!
# The page of a presence

`_is_safe_relative_page` of `routes/api.py` decides which pages a user may say to be on; the page becomes a link for the other users.  The
check looks at the first two characters, and a browser does so after it has taken out tabs and ends of line: `relative_page_iff`.
-/

namespace ProxmoxTool.Collaboration

open WebUrl

def maxCollabPageLen : Nat := 512

/-- `_is_safe_relative_page`, for a string. -/
def isSafeRelativePage (page : Text) : Bool :=
  if !(0 < page.length && page.length ≤ maxCollabPageLen) then false
  else if page.head? ≠ some '/' || (page.drop 1).head? = some '/' then false
  else if '\\' ∈ page then false
  else
    let firstSlash := page.idxOf '/'
    if ':' ∈ page.take firstSlash then false else true

/-- The first character behind the slash at the beginning that is neither a tab nor an end of a line is a slash. -/
def hidesSlash (page : Text) : Bool := (kept page.tail).head? = some '/'

theorem isSafeRelativePage_spec {page : Text} (h : isSafeRelativePage page = true) : ∃ t, page = '/' :: t ∧ '\\' ∉ t := by
  unfold isSafeRelativePage at h
  split_ifs at h with hlength hslash hbackslash
  rw [Bool.not_eq_true, Bool.or_eq_false_iff, decide_eq_false_iff_not, not_not] at hslash
  cases page with
  | nil => cases hslash.1
  | cons c t =>
    obtain rfl := Option.some.inj hslash.1
    exact ⟨t, rfl, fun hmem => hbackslash (List.mem_cons_of_mem _ hmem)⟩

/-- An accepted page stays on the site of every page that links to it, unless a slash hides behind tabs and ends of line. -/
theorem relative_page_iff (hostParser : Text → Option Text) (page : Text) (h : isSafeRelativePage page = true) :
    (∀ base, resolve hostParser base page = some (.web base)) ↔ hidesSlash page = false := by
  obtain ⟨t, rfl, hbackslash⟩ := isSafeRelativePage_spec h
  obtain ⟨s, hcleaned, hhead⟩ := head_cleaned (t := t)
  rw [stays_iff hostParser hcleaned, hhead, hidesSlash, List.tail_cons]
  cases hkept : kept t with
  | nil => simp
  | cons c rest =>
    have hc : c ≠ '\\' := by
      rintro rfl
      exact hbackslash (List.mem_of_mem_filter (hkept ▸ List.mem_cons_self : '\\' ∈ kept t))
    simp [isSlash, hc]

theorem relative_page_of_guest : resolve some ⟨.https, "tool.example".toList, none⟩ "/guests/7?tab=a".toList =
    some (.web ⟨.https, "tool.example".toList, none⟩) :=
  (relative_page_iff some "/guests/7?tab=a".toList (by decide)).2 (by decide) _

/-- A tab between two slashes is accepted, and gone before a browser looks. -/
theorem tab_leads_away : ¬ ∀ (page : Text) (base : Base), isSafeRelativePage page = true →
    resolve some base page = some (.web base) := by
  intro hall
  have haway := hall "/\t/evil.example/".toList ⟨.https, "tool.example".toList, none⟩ (by decide)
  revert haway
  decide

end ProxmoxTool.Collaboration
