import ProxmoxTool.Lib.Text

/-!
# Comma-separated header values

A header value as a list of items: a comma separates two items unless a quoted string is open, and in a quoted string a backslash
escapes the next character.  Empty items are left out, and a value whose last quoted string is not closed has no items at all.  So what
a hop appends after a comma is the last item if the value before it leaves no quoted string open (`headerItems_closed`), and otherwise
the list is empty (`headerItems_opened`).
-/

namespace ProxmoxTool

/-- The items of a text that follows `part`, the beginning of an item. -/
def splitItems (part : Text) (quote escape : Bool) : Text → List Text
  | [] => if part = [] then [] else [part]
  | c :: t =>
    if escape then splitItems (part ++ [c]) quote false t
    else if quote then
      if c = '\\' then splitItems part quote true t
      else splitItems (part ++ [c]) (decide (c ≠ '"')) false t
    else if c = ',' then part :: splitItems [] false false t
    else splitItems (part ++ [c]) (decide (c = '"')) false t

/-- Surrounding quotes are removed from an item. -/
def unquoteItem (item : Text) : Text :=
  if 2 ≤ item.length ∧ item.head? = some '"' ∧ item.getLast? = some '"' then item.tail.dropLast else item

/-- Whether a quoted string is open after a text, and whether its next character is escaped. -/
def quoteState (quote escape : Bool) : Text → Bool × Bool
  | [] => (quote, escape)
  | c :: t =>
    if escape then quoteState quote false t
    else if quote then if c = '\\' then quoteState quote true t else quoteState (decide (c ≠ '"')) false t
    else quoteState (decide (c = '"')) false t

def quoteOpen (t : Text) : Bool := (quoteState false false t).1

/-- The items of a header value. -/
def headerItems (t : Text) : List Text :=
  if quoteOpen t then [] else ((splitItems [] false false t).map fun item => unquoteItem (strip item)).filter (· ≠ [])

/-- A text that is one item as it stands, such as an address. -/
structure Plain (t : Text) : Prop where
  nonempty : t ≠ []
  chars : ∀ c ∈ t, c ≠ '"' ∧ c ≠ ',' ∧ c ≠ '\\' ∧ isSpace c = false

/-! ### One item -/

theorem Plain.strip_eq {t : Text} (h : Plain t) : strip t = t := strip_of_forall_not_space fun c hc => (h.chars c hc).2.2.2

theorem unquoteItem_of_head {t : Text} (h : ∀ c ∈ t, c ≠ '"') : unquoteItem t = t := by
  unfold unquoteItem
  refine if_neg fun hquoted => ?_
  have hmem : '"' ∈ t := List.mem_of_mem_head? hquoted.2.1
  exact h _ hmem rfl

theorem splitItems_plain {part t : Text} (h : ∀ c ∈ t, c ≠ '"' ∧ c ≠ ',') (hne : part ++ t ≠ []) :
    splitItems part false false t = [part ++ t] := by
  induction t generalizing part with
  | nil =>
    rw [List.append_nil] at hne ⊢
    exact if_neg hne
  | cons c t ih =>
    obtain ⟨hquote, hcomma⟩ := h c List.mem_cons_self
    rw [splitItems, if_neg (by decide), if_neg (by decide), if_neg hcomma, decide_eq_false hquote,
      ih (fun d hd => h d (List.mem_cons_of_mem _ hd)) (by simp)]
    simp

/-- The items of a text before an appended part: those of the text itself are complete if no quoted string is open. -/
theorem splitItems_append (part t rest : Text) (quote escape : Bool) (hescape : escape = true → quote = true) :
    ∃ items part', splitItems part quote escape (t ++ rest) =
      items ++ splitItems part' (quoteState quote escape t).1 (quoteState quote escape t).2 rest ∧
      ((quoteState quote escape t).2 = true → (quoteState quote escape t).1 = true) := by
  induction t generalizing part quote escape with
  | nil => exact ⟨[], part, rfl, hescape⟩
  | cons c t ih =>
    cases escape with
    | true =>
      simp only [List.cons_append, splitItems, quoteState, if_true]
      exact ih _ _ _ (fun h => absurd h (by decide))
    | false =>
      cases quote with
      | true =>
        simp only [List.cons_append, splitItems, quoteState, Bool.false_eq_true, if_true, if_false]
        split
        · exact ih _ _ _ (fun _ => rfl)
        · exact ih _ _ _ (fun h => absurd h (by decide))
      | false =>
        simp only [List.cons_append, splitItems, quoteState, Bool.false_eq_true, if_false]
        split
        · rename_i hcomma
          obtain ⟨items, part', heq, hstate⟩ := ih [] false false (fun h => absurd h (by decide))
          rw [hcomma, decide_eq_false (by decide)]
          exact ⟨part :: items, part', by rw [heq]; rfl, hstate⟩
        · exact ih _ _ _ (fun h => absurd h (by decide))

/-! ### What is appended to a value -/

theorem Plain.splitItems {c : Text} (h : Plain c) : splitItems [] false false c = [c] := by
  have hchars : ∀ d ∈ c, d ≠ '"' ∧ d ≠ ',' := fun d hd => ⟨(h.chars d hd).1, (h.chars d hd).2.1⟩
  have hne : [] ++ c ≠ [] := h.nonempty
  rw [splitItems_plain hchars hne, List.nil_append]

theorem quoteState_append (t rest : Text) (quote escape : Bool) : quoteState quote escape (t ++ rest) =
    quoteState (quoteState quote escape t).1 (quoteState quote escape t).2 rest := by
  induction t generalizing quote escape with
  | nil => rfl
  | cons c t ih =>
    rw [List.cons_append, quoteState, quoteState]
    split
    · exact ih _ _
    · split
      · split
        · exact ih _ _
        · exact ih _ _
      · exact ih _ _

/-- A text without quotes and backslashes opens and closes nothing. -/
theorem quoteState_plain {t : Text} (h : ∀ c ∈ t, c ≠ '"' ∧ c ≠ '\\') (quote escape : Bool) :
    (quoteState quote escape t).1 = quote := by
  induction t generalizing escape with
  | nil => rfl
  | cons c t ih =>
    obtain ⟨hquote, hslash⟩ := h c List.mem_cons_self
    have hrest := ih fun d hd => h d (List.mem_cons_of_mem _ hd)
    rw [quoteState, if_neg hslash, decide_eq_true hquote, decide_eq_false hquote]
    cases escape with
    | true => exact hrest false
    | false =>
      cases quote with
      | true => exact hrest false
      | false => exact hrest false

theorem quoteOpen_append {v c : Text} (h : Plain c) : quoteOpen (v ++ ',' :: c) = quoteOpen v := by
  unfold quoteOpen
  rw [quoteState_append]
  refine quoteState_plain (fun d hd => ?_) _ _
  rcases List.mem_cons.1 hd with rfl | hd
  · decide
  · exact ⟨(h.chars d hd).1, (h.chars d hd).2.2.1⟩

theorem headerItems_plain {c : Text} (h : Plain c) : headerItems c = [c] := by
  have hclosed : quoteOpen c = false := quoteState_plain (fun d hd => ⟨(h.chars d hd).1, (h.chars d hd).2.2.1⟩) _ _
  unfold headerItems
  rw [hclosed, h.splitItems, List.map_singleton, h.strip_eq, unquoteItem_of_head fun d hd => (h.chars d hd).1]
  simp [h.nonempty]

theorem headerItems_closed {v c : Text} (h : Plain c) (hclosed : quoteOpen v = false) :
    (headerItems (v ++ ',' :: c)).getLast? = some c := by
  have happended := (quoteOpen_append h).trans hclosed
  obtain ⟨items, part, heq, hstate⟩ := splitItems_append [] v (',' :: c) false false (fun h => absurd h (by decide))
  unfold quoteOpen at hclosed
  have hescape : (quoteState false false v).2 = false := by
    by_contra hne
    rw [hstate (by simpa using hne)] at hclosed
    cases hclosed
  have hlast : splitItems [] false false (v ++ ',' :: c) = (items ++ [part]) ++ [c] := by
    rw [heq, hclosed, hescape, splitItems, if_neg (by decide), if_neg (by decide), if_pos rfl, h.splitItems]
    simp
  unfold headerItems
  rw [happended, if_neg Bool.false_ne_true, hlast, List.map_append, List.map_singleton, List.filter_append, h.strip_eq,
    unquoteItem_of_head fun d hd => (h.chars d hd).1, List.filter_singleton, decide_eq_true h.nonempty]
  exact List.getLast?_concat

/-- An open quoted string leaves no items. -/
theorem headerItems_opened {v c : Text} (h : Plain c) (hopen : quoteOpen v = true) : headerItems (v ++ ',' :: c) = [] :=
  if_pos ((quoteOpen_append h).trans hopen)

end ProxmoxTool
