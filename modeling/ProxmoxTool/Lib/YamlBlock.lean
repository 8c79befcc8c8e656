import ProxmoxTool.Lib.Dict
import ProxmoxTool.Lib.Fields
import ProxmoxTool.Lib.Json
import ProxmoxTool.Lib.Yaml

/-!
# Documents of YAML in block style

Mappings and sequences that are told by their indentation, with scalars, or sequences of scalars between brackets, at their ends.  Plain scalars
have letters, digits, `_` and `/`, and double-quoted ones end in their line.  A text with anything else, such as comments, tags or anchors, is not
read.

A double-quoted text is read back exactly if it has no quote, no backslash, no end of line and no character that is not allowed
(`readDouble_iff`).
-/

namespace ProxmoxTool.Yaml

/-! ### Scalars -/

/-- What follows a backslash: a character of its own, or a number of digits. -/
inductive Escape
  | char (c : Char)
  | digits (n : Nat)

def escapes : List (Char × Escape) :=
  [('0', .char (Char.ofNat 0)), ('a', .char (Char.ofNat 7)), ('b', .char (Char.ofNat 8)), ('t', .char '\t'), ('\t', .char '\t'),
    ('n', .char '\n'), ('v', .char (Char.ofNat 11)), ('f', .char (Char.ofNat 12)), ('r', .char '\r'), ('e', .char (Char.ofNat 27)),
    (' ', .char ' '), ('"', .char '"'), ('/', .char '/'), ('\\', .char '\\'), ('N', .char (Char.ofNat 0x85)),
    ('_', .char (Char.ofNat 0xa0)), ('L', .char (Char.ofNat 0x2028)), ('P', .char (Char.ofNat 0x2029)), ('x', .digits 2), ('u', .digits 4),
    ('U', .digits 8)]

inductive Mode
  | plain
  | escaped
  | digits (left value : Nat)

/-- The text of a double-quoted scalar behind its first quote, and what follows the last one. -/
def readDouble (v : Version) : Mode → Text → Option (Text × Text)
  | _, [] => none
  | .plain, c :: t =>
    if c = '"' then some ([], t)
    else if c = '\\' then readDouble v .escaped t
    else if v.isAllowed c && !v.isBreak c then (readDouble v .plain t).map fun p => (c :: p.1, p.2)
    else none
  | .escaped, c :: t =>
    match escapes.lookup c with
    | some (.char d) => (readDouble v .plain t).map fun p => (d :: p.1, p.2)
    | some (.digits n) => readDouble v (.digits n 0) t
    | none => none
  | .digits left value, c :: t =>
    match Json.hexDigit c with
    | none => none
    | some digit =>
      let value := 16 * value + digit
      if 1 < left then readDouble v (.digits (left - 1) value) t
      else if value.isValidChar then (readDouble v .plain t).map fun p => (Char.ofNat value :: p.1, p.2)
      else none

def isWordChar (c : Char) : Bool := c.isAlphanum || c = '_' || c = '/'

def readScalar (v : Version) : Text → Option (Text × Text)
  | '"' :: t => readDouble v .plain t
  | t => if t.takeWhile isWordChar = [] then none else some (t.takeWhile isWordChar, t.dropWhile isWordChar)

/-- The scalars up to the closing bracket. -/
def readScalars (v : Version) : Nat → Text → Option (List Text × Text)
  | 0, _ => none
  | fuel + 1, t =>
    (readScalar v (t.dropWhile isBlank)).bind fun p =>
      match p.2.dropWhile isBlank with
      | ']' :: rest => some ([p.1], rest)
      | ',' :: rest => (readScalars v fuel rest).map fun q => (p.1 :: q.1, q.2)
      | _ => none

/-! ### Lines -/

/-- What is written behind a key. -/
inductive Value
  | text (t : Text)
  | texts (ts : List Text)

inductive Item
  | dash
  | key (k : Text) (value : Option Value)

/-- The value that is the rest of a line. -/
def readValue (v : Version) (t : Text) : Option Value :=
  let read : Option (Value × Text) :=
    match t with
    | '[' :: rest => (readScalars v rest.length rest).map fun p => (.texts p.1, p.2)
    | t => (readScalar v t).map fun p => (.text p.1, p.2)
  read.bind fun p => if p.2.all isBlank then some p.1 else none

/-- A key has at most 1024 characters, and a blank stands between its colon and its value. -/
def readKey (v : Version) (t : Text) : Option Item :=
  let k := t.takeWhile isWordChar
  if k = [] || 1024 < k.length then none
  else
    match t.dropWhile isWordChar with
    | ':' :: rest =>
      if rest.all isBlank then some (.key k none)
      else
        match rest with
        | ' ' :: rest => (readValue v (rest.dropWhile (· = ' '))).map fun value => .key k (some value)
        | _ => none
    | _ => none

/-- The items behind an indentation, with the column of each. -/
def readItems (v : Version) : Nat → Text → Option (List (Nat × Item))
  | n, '-' :: ' ' :: t => (readItems v (n + 2) t).map ((n, .dash) :: ·)
  | n, t => (readKey v t).map fun item => [(n, item)]

def readLine (v : Version) (t : Text) : Option (List (Nat × Item)) :=
  if t.all isBlank then some [] else readItems v (t.takeWhile (· = ' ')).length (t.dropWhile (· = ' '))

def readLines (v : Version) (t : Text) : Option (List (Nat × Item)) := ((t.splitOn '\n').mapM (readLine v)).map List.flatten

/-! ### Nodes -/

inductive Tree
  | node (column : Nat) (item : Item) (children : List Tree)

def Tree.column : Tree → Nat
  | .node n _ _ => n

/-- Each item has the items that follow it at greater columns below it. -/
def forest : List (Nat × Item) → List Tree
  | [] => []
  | (n, item) :: items =>
    .node n item ((forest items).takeWhile fun t => n < t.column) :: (forest items).dropWhile fun t => n < t.column

inductive Node
  | null
  | text (t : Text)
  | list (nodes : List Node)
  | map (entries : List (Text × Node))

def Value.toNode : Value → Node
  | .text t => .text t
  | .texts ts => .list (ts.map .text)

def Tree.key? : Tree → Option Text
  | .node _ (.key k _) _ => some k
  | .node _ .dash _ => none

/-- A sequence or a mapping, of items in one column. -/
def collect (trees : List Tree) (nodes : List Node) : Option Node :=
  match trees with
  | [] => some .null
  | first :: _ =>
    if !trees.all fun t => t.column = first.column then none
    else
      match trees.mapM Tree.key? with
      | some keys => if keys.Nodup then some (.map (keys.zip nodes)) else none
      | none => if trees.all fun t => t.key?.isNone then some (.list nodes) else none

mutual

def Tree.toNode : Tree → Option Node
  | .node _ (.key _ (some value)) children => if children.isEmpty then some value.toNode else none
  | .node _ _ children => (toNodes children).bind (collect children)

def toNodes : List Tree → Option (List Node)
  | [] => some []
  | t :: ts => t.toNode.bind fun node => (toNodes ts).map (node :: ·)

end

def parse (v : Version) (t : Text) : Option Node :=
  (readLines v t).bind fun items => (toNodes (forest items)).bind (collect (forest items))

def Node.field (k : Text) : Node → Option Node
  | .map entries => entries.lookup k
  | _ => none

def Node.asText : Node → Option Text
  | .text t => some t
  | _ => none

def Node.asList : Node → Option (List Node)
  | .list nodes => some nodes
  | _ => none

theorem mapM_asText (ts : List Text) : (ts.map Node.text).mapM Node.asText = some ts := by
  induction ts with
  | nil => rfl
  | cons t ts ih =>
    rw [List.map_cons, List.mapM_cons, ih]
    rfl

/-! ### What is read back -/

section

variable {v : Version}

/-- The text stands for itself between double quotes. -/
def Plain (v : Version) (t : Text) : Prop := ∀ c ∈ t, c ≠ '"' ∧ c ≠ '\\' ∧ v.isAllowed c = true ∧ v.isBreak c = false

instance (v : Version) (t : Text) : Decidable (Plain v t) :=
  decidable_of_iff ((t.all fun c => c ≠ '"' && (c ≠ '\\' && (v.isAllowed c && !v.isBreak c))) = true) (by simp [Plain])

/-- What is read ends at a quote, and is no longer than what stands before it. -/
theorem exists_of_readDouble {mode : Mode} {t u rest : Text} (h : readDouble v mode t = some (u, rest)) :
    ∃ s, t = s ++ '"' :: rest ∧ u.length ≤ s.length := by
  induction t generalizing mode u with
  | nil => cases mode <;> cases h
  | cons c t ih =>
    have hpush : ∀ {d : Char}, (readDouble v .plain t).map (fun p => (d :: p.1, p.2)) = some (u, rest) →
        ∃ s, c :: t = s ++ '"' :: rest ∧ u.length ≤ s.length := by
      intro d hmap
      obtain ⟨⟨u', rest'⟩, hread, heq⟩ := Option.map_eq_some_iff.1 hmap
      obtain ⟨rfl, rfl⟩ := Prod.mk.inj heq
      obtain ⟨s, hs, hle⟩ := ih hread
      exact ⟨c :: s, congrArg (List.cons c) hs, Nat.succ_le_succ hle⟩
    have hskip : ∀ {mode : Mode}, readDouble v mode t = some (u, rest) → ∃ s, c :: t = s ++ '"' :: rest ∧ u.length ≤ s.length := by
      intro mode hread
      obtain ⟨s, hs, hle⟩ := ih hread
      exact ⟨c :: s, congrArg (List.cons c) hs, Nat.le_succ_of_le hle⟩
    cases mode with
    | plain =>
      rw [readDouble] at h
      split_ifs at h with hquote
      · cases h
        exact ⟨[], by rw [hquote]; rfl, Nat.le_refl _⟩
      · exact hskip h
      · exact hpush h
    | escaped =>
      rw [readDouble] at h
      split at h
      · exact hpush h
      · exact hskip h
      · cases h
    | digits left value =>
      rw [readDouble] at h
      split at h
      · cases h
      · dsimp only at h
        split_ifs at h
        · exact hskip h
        · exact hpush h

theorem readDouble_iff {t rest : Text} : readDouble v .plain (t ++ '"' :: rest) = some (t, rest) ↔ Plain v t := by
  induction t with
  | nil => exact iff_of_true rfl fun c hc => nomatch hc
  | cons c t ih =>
    rw [Plain, List.forall_mem_cons, List.cons_append, readDouble]
    split_ifs with hquote hbackslash hallowed
    · refine iff_of_false (fun h => ?_) fun h => h.1.1 hquote
      have hrest := congrArg List.length (Prod.mk.inj (Option.some.inj h)).2
      rw [List.length_append, List.length_cons] at hrest
      omega
    · -- an escape sequence is longer than what it stands for
      refine iff_of_false (fun h => ?_) fun h => h.1.2.1 hbackslash
      obtain ⟨s, hs, hle⟩ := exists_of_readDouble h
      have hlength := congrArg List.length hs
      rw [List.length_append, List.length_append, List.length_cons] at hlength
      rw [List.length_cons] at hle
      omega
    · rw [Bool.and_eq_true, Bool.not_eq_true'] at hallowed
      rw [← Plain, ← ih, Option.map_eq_some_iff]
      constructor
      · rintro ⟨p, hread, heq⟩
        obtain ⟨hcons, hrest⟩ := Prod.mk.inj heq
        rw [hread, ← (List.cons.inj hcons).2, ← hrest]
        exact ⟨⟨hquote, hbackslash, hallowed⟩, rfl⟩
      · exact fun h => ⟨_, h.2, rfl⟩
    · refine iff_of_false (fun h => nomatch h) fun h => hallowed ?_
      rw [h.1.2.2.1, h.1.2.2.2]
      rfl

theorem readDouble_append {t : Text} (h : Plain v t) (rest : Text) : readDouble v .plain (t ++ '"' :: rest) = some (t, rest) := readDouble_iff.2 h

/-- A text that is read as itself, whatever follows. -/
theorem plain_of_readDouble {t rest rest' : Text} (h : readDouble v .plain (t ++ '"' :: rest) = some (t, rest')) (hquote : '"' ∉ rest) :
    Plain v t := by
  obtain ⟨s, hs, hle⟩ := exists_of_readDouble h
  have hlength := congrArg List.length hs
  rw [List.length_append, List.length_append, List.length_cons, List.length_cons] at hlength
  by_cases hshort : rest'.length = rest.length
  · obtain ⟨-, hrest⟩ := List.append_inj hs (by omega)
    rw [(List.cons.inj hrest).2] at h
    exact readDouble_iff.1 h
  · -- the last quote would stand in what follows
    have hlast : t.length + 1 ≤ s.length := by omega
    have hmem : '"' ∈ rest := by
      have hdrop := congrArg (List.drop (t.length + 1)) hs
      rw [List.drop_append_of_le_length hlast, ← List.drop_drop, List.drop_left, List.drop_one, List.tail_cons] at hdrop
      rw [hdrop]
      exact List.mem_append_right _ List.mem_cons_self
    exact absurd hmem hquote

theorem Plain.append {t u : Text} (ht : Plain v t) (hu : Plain v u) : Plain v (t ++ u) :=
  fun c hc => (List.mem_append.1 hc).elim (ht c) (hu c)

theorem plain_of_between {t : Text} (h : ∀ c ∈ t, (32 ≤ c.toNat ∧ c.toNat ≤ 126) ∧ c ≠ '"' ∧ c ≠ '\\') : Plain v t := by
  intro c hc
  obtain ⟨⟨hlow, hhigh⟩, hquote, hbackslash⟩ := h c hc
  have hne : ∀ d : Char, d.toNat < 32 → c ≠ d := by
    rintro d hd rfl
    omega
  have hnewline := hne '\n' (by decide)
  have hreturn := hne '\r' (by decide)
  refine ⟨hquote, hbackslash, ?_, ?_⟩
  · cases v
    · simp only [Version.isAllowed, Bool.or_eq_true, Bool.and_eq_true, decide_eq_true_eq]
      omega
    · simp only [Version.isAllowed, Bool.or_eq_true, decide_eq_true_eq]
      omega
  · simp only [Version.isBreak, isSpecific, decide_eq_false hnewline, decide_eq_false hreturn, Bool.false_or, Bool.and_eq_false_iff,
      Bool.or_eq_false_iff, decide_eq_false_iff_not]
    omega

/-- A key is a plain scalar. -/
def IsKey (k : Text) : Prop := k ≠ [] ∧ k.length ≤ 1024 ∧ ∀ c ∈ k, isWordChar c = true

instance (k : Text) : Decidable (IsKey k) :=
  decidable_of_iff (k ≠ [] ∧ k.length ≤ 1024 ∧ k.all isWordChar = true) (by simp [IsKey])

/-- The text of a value, behind a key and a blank. -/
structure Written (v : Version) (t : Text) (value : Value) : Prop where
  newline : '\n' ∉ t
  head : ∃ c rest, t = c :: rest ∧ isBlank c = false
  read : readValue v t = some value

/-- The text of some items, behind the indentation. -/
structure Entry (v : Version) (n : Nat) (t : Text) (items : List (Nat × Item)) : Prop where
  newline : '\n' ∉ t
  head : ∃ c rest, t = c :: rest ∧ isBlank c = false
  read : readItems v n t = some items

/-- Lines with their items. -/
structure Reads (v : Version) (lines : List Text) (items : List (Nat × Item)) : Prop where
  newline : ∀ l ∈ lines, '\n' ∉ l
  read : (lines.mapM (readLine v)).map List.flatten = some items

/-! ### Values -/

theorem not_isWordChar_of_isBlank {c : Char} (h : isBlank c = true) : isWordChar c = false := by
  simp only [isBlank, Bool.or_eq_true, decide_eq_true_eq] at h
  rcases h with rfl | rfl
  · decide
  · decide

theorem newline_not_mem_word {w : Text} (h : ∀ c ∈ w, isWordChar c = true) : '\n' ∉ w := by
  intro hmem
  have hnewline := h '\n' hmem
  revert hnewline
  decide

theorem Plain.newline_not_mem {t : Text} (h : Plain v t) : '\n' ∉ t := by
  intro hmem
  have hbreak := (h '\n' hmem).2.2.2
  cases v <;> cases hbreak

theorem word_head {w : Text} (hne : w ≠ []) (h : ∀ c ∈ w, isWordChar c = true) : ∃ c rest, w = c :: rest ∧ isBlank c = false := by
  cases w with
  | nil => exact absurd rfl hne
  | cons c rest =>
    refine ⟨c, rest, rfl, Bool.eq_false_iff.2 fun hblank => ?_⟩
    have hword := h c List.mem_cons_self
    rw [not_isWordChar_of_isBlank hblank] at hword
    cases hword

theorem takeWhile_word {w rest : Text} (h : ∀ c ∈ w, isWordChar c = true) (hrest : ∀ c ∈ rest.head?, isWordChar c = false) :
    (w ++ rest).takeWhile isWordChar = w := by
  rw [List.takeWhile_append_of_pos h]
  cases rest with
  | nil => rw [List.takeWhile_nil, List.append_nil]
  | cons c rest => rw [List.takeWhile_cons_of_neg (by simp [hrest c rfl]), List.append_nil]

theorem dropWhile_word {w rest : Text} (h : ∀ c ∈ w, isWordChar c = true) (hrest : ∀ c ∈ rest.head?, isWordChar c = false) :
    (w ++ rest).dropWhile isWordChar = rest := by
  rw [List.dropWhile_append_of_pos h]
  cases rest with
  | nil => rfl
  | cons c rest => rw [List.dropWhile_cons_of_neg (by simp [hrest c rfl])]

theorem readScalar_word {w rest : Text} (hne : w ≠ []) (h : ∀ c ∈ w, isWordChar c = true)
    (hrest : ∀ c ∈ rest.head?, isWordChar c = false) :
    readScalar v (w ++ rest) = some (w, rest) := by
  rw [readScalar]
  · rw [takeWhile_word h hrest, dropWhile_word h hrest, if_neg hne]
  · intro t heq
    cases w with
    | nil => exact hne rfl
    | cons c w =>
      have hquote := h c List.mem_cons_self
      rw [(List.cons.inj heq).1] at hquote
      revert hquote
      decide

theorem written_word {w : Text} (hne : w ≠ []) (h : ∀ c ∈ w, isWordChar c = true) : Written v w (.text w) where
  newline := newline_not_mem_word h
  head := word_head hne h
  read := by
    have hrest : ∀ c ∈ ([] : Text).head?, isWordChar c = false := fun c hc => nomatch hc
    have hscalar := readScalar_word (v := v) hne h hrest
    rw [List.append_nil] at hscalar
    unfold readValue
    split
    · exact absurd (h '[' List.mem_cons_self) (by decide)
    · rw [hscalar]
      rfl

/-- A value between double quotes, with blanks behind it. -/
theorem written_quoted {t blanks : Text} (h : Plain v t) (hblanks : ∀ c ∈ blanks, isBlank c = true) :
    Written v ('"' :: (t ++ '"' :: blanks)) (.text t) where
  newline := by
    have hblank : '\n' ∉ blanks := by
      intro hmem
      have hnewline := hblanks '\n' hmem
      revert hnewline
      decide
    simp [h.newline_not_mem, hblank]
  head := ⟨_, _, rfl, rfl⟩
  read := by
    change ((readDouble v .plain (t ++ '"' :: blanks)).map fun p => (Value.text p.1, p.2)).bind _ = _
    rw [readDouble_append h]
    exact if_pos (List.all_eq_true.2 hblanks)

/-- Texts between double quotes, with commas. -/
def quoteAll (ts : List Text) : Text := joinText [',', ' '] (ts.map fun t => '"' :: (t ++ ['"']))

theorem readScalars_quoteAll {ts : List Text} (hne : ts ≠ []) (h : ∀ t ∈ ts, Plain v t) {fuel : Nat} (hfuel : ts.length ≤ fuel)
    (rest : Text) :
    readScalars v fuel (quoteAll ts ++ ']' :: rest) = some (ts, rest) := by
  induction ts generalizing fuel with
  | nil => exact absurd rfl hne
  | cons t ts ih =>
    obtain ⟨fuel, rfl⟩ : ∃ n, fuel = n + 1 := ⟨fuel - 1, by rw [List.length_cons] at hfuel; omega⟩
    have ht := h t List.mem_cons_self
    cases ts with
    | nil =>
      have hread : readScalar v ('"' :: (t ++ '"' :: ']' :: rest)) = some (t, ']' :: rest) := readDouble_append ht _
      have htext : quoteAll [t] ++ ']' :: rest = '"' :: (t ++ '"' :: ']' :: rest) := by simp [quoteAll, joinText]
      rw [htext, readScalars]
      change (readScalar v ('"' :: (t ++ '"' :: ']' :: rest))).bind _ = _
      rw [hread]
      rfl
    | cons u ts =>
      have hread : ∀ r, readScalar v ('"' :: (t ++ '"' :: r)) = some (t, r) := fun r => readDouble_append ht _
      have htext : quoteAll (t :: u :: ts) ++ ']' :: rest = '"' :: (t ++ '"' :: ',' :: ' ' :: (quoteAll (u :: ts) ++ ']' :: rest)) := by
        simp [quoteAll, joinText, List.intercalate_cons_cons]
      have hblank : ∀ n r, readScalars v n (' ' :: r) = readScalars v n r := by
        intro n r
        cases n <;> rfl
      rw [htext, readScalars]
      change (readScalar v ('"' :: (t ++ '"' :: _))).bind _ = _
      rw [hread]
      change (readScalars v fuel (' ' :: (quoteAll (u :: ts) ++ ']' :: rest))).map _ = _
      rw [hblank, ih (List.cons_ne_nil _ _) (fun t' ht' => h t' (List.mem_cons_of_mem _ ht')) (by simpa using hfuel)]
      rfl

theorem length_le_length_quoteAll (ts : List Text) : ts.length ≤ (quoteAll ts).length := by
  induction ts with
  | nil => exact Nat.zero_le _
  | cons t ts ih =>
    cases ts with
    | nil => simp [quoteAll, joinText]
    | cons u ts =>
      have htext : quoteAll (t :: u :: ts) = '"' :: (t ++ '"' :: ',' :: ' ' :: quoteAll (u :: ts)) := by
        simp [quoteAll, joinText, List.intercalate_cons_cons]
      rw [htext]
      simp only [List.length_cons, List.length_append] at ih ⊢
      omega

theorem written_texts {ts : List Text} (hne : ts ≠ []) (h : ∀ t ∈ ts, Plain v t) :
    Written v ('[' :: (quoteAll ts ++ [']'])) (.texts ts) where
  newline := by
    have hjoin : '\n' ∉ quoteAll ts := by
      intro hmem
      rcases mem_joinText hmem with hsep | ⟨u, hu, hmem⟩
      · revert hsep
        decide
      · obtain ⟨t, ht, rfl⟩ := List.mem_map.1 hu
        have hnot := (h t ht).newline_not_mem
        simp [hnot] at hmem
    simp [hjoin]
  head := ⟨_, _, rfl, rfl⟩
  read := by
    have hfuel : ts.length ≤ (quoteAll ts ++ [']']).length := by
      rw [List.length_append]
      exact (length_le_length_quoteAll ts).trans (Nat.le_add_right _ _)
    change ((readScalars v _ (quoteAll ts ++ [']'])).map fun p => (Value.texts p.1, p.2)).bind _ = _
    rw [readScalars_quoteAll hne h hfuel]
    rfl

/-! ### Lines -/

variable {n : Nat} {t : Text} {items items' : List (Nat × Item)} {lines lines' : List Text}

theorem readKey_append {k : Text} (hk : IsKey k) (rest : Text) : readKey v (k ++ ':' :: rest) =
    if rest.all isBlank then some (.key k none)
    else
      match rest with
      | ' ' :: rest => (readValue v (rest.dropWhile (· = ' '))).map fun value => .key k (some value)
      | _ => none := by
  obtain ⟨hne, hlength, hword⟩ := hk
  have hcolon : ∀ c ∈ (':' :: rest).head?, isWordChar c = false := fun c hc => by cases hc; decide
  have hguard : (k = [] || 1024 < k.length : Bool) = false := by simp [hne, hlength]
  unfold readKey
  dsimp only
  rw [takeWhile_word hword hcolon, dropWhile_word hword hcolon, hguard]
  rfl

/-- A key starts no other item. -/
theorem readItems_key {k : Text} (hk : IsKey k) (n : Nat) (rest : Text) :
    readItems v n (k ++ rest) = (readKey v (k ++ rest)).map fun item => [(n, item)] := by
  rw [readItems]
  intro t heq
  obtain ⟨hne, -, hword⟩ := hk
  cases k with
  | nil => exact hne rfl
  | cons c k =>
    have hdash := hword c List.mem_cons_self
    rw [(List.cons.inj heq).1] at hdash
    revert hdash
    decide

theorem IsKey.head {k : Text} (hk : IsKey k) (rest : Text) : ∃ c rest', k ++ rest = c :: rest' ∧ isBlank c = false := by
  obtain ⟨c, t, rfl, hc⟩ := word_head hk.1 hk.2.2
  exact ⟨c, t ++ rest, rfl, hc⟩

theorem entry_key {k : Text} (hk : IsKey k) (n : Nat) : Entry v n (k ++ [':']) [(n, .key k none)] where
  newline := by simp [newline_not_mem_word hk.2.2]
  head := hk.head _
  read := by
    rw [readItems_key hk, readKey_append hk]
    rfl

/-- The value of a key is what follows the blank. -/
theorem readItems_value {k : Text} (hk : IsKey k) (n : Nat) (ht : ∃ c rest, t = c :: rest ∧ isBlank c = false) :
    readItems v n (k ++ ':' :: ' ' :: t) = (readValue v t).map fun value => [(n, .key k (some value))] := by
  obtain ⟨c, rest, rfl, hc⟩ := ht
  have hnot : ((' ' :: c :: rest).all isBlank) = false := by simp [hc]
  have hdrop : (c :: rest).dropWhile (· = ' ') = c :: rest := by
    rw [List.dropWhile_cons_of_neg]
    intro hblank
    rw [of_decide_eq_true hblank] at hc
    cases hc
  rw [readItems_key hk, readKey_append hk, hnot]
  change ((readValue v ((c :: rest).dropWhile (· = ' '))).map _).map _ = _
  rw [hdrop, Option.map_map]
  rfl

theorem entry_value {k : Text} (hk : IsKey k) (n : Nat) {value : Value} (h : Written v t value) :
    Entry v n (k ++ ':' :: ' ' :: t) [(n, .key k (some value))] where
  newline := by simp [newline_not_mem_word hk.2.2, h.newline]
  head := hk.head _
  read := by
    rw [readItems_value hk n h.head, h.read]
    rfl

theorem Entry.dash (h : Entry v (n + 2) t items) : Entry v n ('-' :: ' ' :: t) ((n, .dash) :: items) where
  newline := by simp [h.newline]
  head := ⟨_, _, rfl, rfl⟩
  read := by
    rw [readItems, h.read]
    rfl

/-- A line with an indentation. -/
theorem readLine_indent (n : Nat) (ht : ∃ c rest, t = c :: rest ∧ isBlank c = false) :
    readLine v (List.replicate n ' ' ++ t) = readItems v n t := by
  obtain ⟨c, rest, rfl, hc⟩ := ht
  have hspace : (decide (c = ' ')) = false := by
    refine decide_eq_false ?_
    rintro rfl
    cases hc
  have hspaces : ∀ d ∈ List.replicate n ' ', (decide (d = ' ')) = true := fun d hd => decide_eq_true (List.eq_of_mem_replicate hd)
  have hnot : ((List.replicate n ' ' ++ c :: rest).all isBlank) = false := by simp [hc]
  rw [readLine, hnot, List.takeWhile_append_of_pos hspaces, List.dropWhile_append_of_pos hspaces,
    List.takeWhile_cons_of_neg (by simp [hspace]), List.dropWhile_cons_of_neg (by simp [hspace]), List.append_nil, List.length_replicate]
  rfl

theorem Entry.reads (h : Entry v n t items) : Reads v [List.replicate n ' ' ++ t] items where
  newline l hl := by
    rw [List.mem_singleton.1 hl]
    simp [h.newline, List.mem_replicate]
  read := by
    rw [List.mapM_cons, readLine_indent n h.head, h.read]
    simp

theorem reads_key {k : Text} (h : IsKey k) (n : Nat) : Reads v [List.replicate n ' ' ++ (k ++ [':'])] [(n, .key k none)] :=
  (entry_key h n).reads

/-- A plain scalar. -/
def IsWord (w : Text) : Prop := w ≠ [] ∧ ∀ c ∈ w, isWordChar c = true

instance (w : Text) : Decidable (IsWord w) := decidable_of_iff (w ≠ [] ∧ w.all isWordChar = true) (by simp [IsWord])

theorem reads_word {k w : Text} (hk : IsKey k) (hw : IsWord w) (n : Nat) :
    Reads v [List.replicate n ' ' ++ (k ++ ':' :: ' ' :: w)] [(n, .key k (some (.text w)))] :=
  (entry_value hk n (written_word hw.1 hw.2)).reads

/-- A word between brackets. -/
theorem written_bracketed {w : Text} (hw : IsWord w) : Written v ('[' :: (w ++ [']'])) (.texts [w]) where
  newline := by simp [newline_not_mem_word hw.2]
  head := ⟨_, _, rfl, rfl⟩
  read := by
    have hscalar : readScalar v (w ++ [']']) = some (w, [']']) := readScalar_word hw.1 hw.2 fun c hc => by cases hc; decide
    obtain ⟨c, rest, hcons, hblank⟩ := word_head hw.1 hw.2
    have hdrop : (w ++ [']']).dropWhile isBlank = w ++ [']'] := by
      rw [hcons, List.cons_append, List.dropWhile_cons_of_neg (by simp [hblank])]
    change ((readScalars v (w ++ [']']).length (w ++ [']'])).map fun p => (Value.texts p.1, p.2)).bind _ = _
    rw [List.length_append, List.length_singleton, readScalars, hdrop, hscalar]
    rfl

theorem reads_blank : Reads v [[]] [] where
  newline l hl := by rw [List.mem_singleton.1 hl]; exact List.not_mem_nil
  read := rfl

theorem Reads.append (h : Reads v lines items) (h' : Reads v lines' items') : Reads v (lines ++ lines') (items ++ items') where
  newline l hl := (List.mem_append.1 hl).elim (h.newline l) (h'.newline l)
  read := by
    obtain ⟨read, hread, rfl⟩ := Option.map_eq_some_iff.1 h.read
    obtain ⟨read', hread', rfl⟩ := Option.map_eq_some_iff.1 h'.read
    rw [List.mapM_append, hread, hread']
    simp

theorem Reads.readLines (h : Reads v lines items) (hne : lines ≠ []) : readLines v (joinText ['\n'] lines) = some items := by
  rw [Yaml.readLines, splitOn_joinText h.newline hne, h.read]

/-! ### Trees -/

theorem exists_column_of_mem_forest {tree : Tree} (h : tree ∈ forest items) : ∃ x ∈ items, x.1 = tree.column := by
  induction items with
  | nil => cases h
  | cons x items ih =>
    rcases List.mem_cons.1 h with rfl | h
    · exact ⟨x, List.mem_cons_self, rfl⟩
    · obtain ⟨y, hy, heq⟩ := ih ((List.dropWhile_suffix _).mem h)
      exact ⟨y, List.mem_cons_of_mem _ hy, heq⟩

theorem takeWhile_append_of_stop {α : Type} {p : α → Bool} (l : List α) {l' : List α} (h : ∀ a ∈ l'.head?, p a = false) :
    (l ++ l').takeWhile p = l.takeWhile p ∧ (l ++ l').dropWhile p = l.dropWhile p ++ l' := by
  induction l with
  | nil =>
    cases l' with
    | nil => exact ⟨rfl, rfl⟩
    | cons a l' =>
      have ha := h a rfl
      exact ⟨List.takeWhile_cons_of_neg (by simp [ha]), List.dropWhile_cons_of_neg (by simp [ha])⟩
  | cons a l ih =>
    rw [List.cons_append, List.takeWhile_cons, List.takeWhile_cons, List.dropWhile_cons, List.dropWhile_cons, ih.1, ih.2]
    split_ifs
    · exact ⟨rfl, rfl⟩
    · exact ⟨rfl, rfl⟩

/-- Items behind some others, none of which has a smaller column than the first of them, are no children of these. -/
theorem forest_append (h : ∀ y ∈ items'.head?, ∀ x ∈ items, y.1 ≤ x.1) : forest (items ++ items') = forest items ++ forest items' := by
  induction items with
  | nil => rfl
  | cons x items ih =>
    have hhead : ∀ t ∈ (forest items').head?, decide (x.1 < t.column) = false := by
      intro t ht
      cases items' with
      | nil => cases ht
      | cons y items' =>
        cases ht
        exact decide_eq_false (Nat.not_lt.2 (h y rfl x List.mem_cons_self))
    obtain ⟨htake, hdrop⟩ := takeWhile_append_of_stop (forest items) hhead
    rw [List.cons_append, forest, forest, ih fun y hy x' hx' => h y hy x' (List.mem_cons_of_mem _ hx'), htake, hdrop]
    rfl

/-- All items below the first one. -/
theorem forest_cons_of_lt {item : Item} (h : ∀ x ∈ items, n < x.1) : forest ((n, item) :: items) = [.node n item (forest items)] := by
  have hall : ∀ t ∈ forest items, decide (n < t.column) = true := by
    intro t ht
    obtain ⟨x, hx, heq⟩ := exists_column_of_mem_forest ht
    rw [← heq]
    exact decide_eq_true (h x hx)
  have htake : (forest items).takeWhile (fun t => n < t.column) = forest items := List.takeWhile_eq_self_iff.2 hall
  have hdrop : (forest items).dropWhile (fun t => n < t.column) = [] := List.dropWhile_eq_nil_iff.2 hall
  rw [forest, htake, hdrop]

/-- A mapping of two keys. -/
theorem collect_pair {k k' : Text} (hne : k ≠ k') (n : Nat) (value value' : Option Value) (children children' : List Tree)
    (node node' : Node) :
    collect [.node n (.key k value) children, .node n (.key k' value') children'] [node, node'] = some (.map [(k, node), (k', node')]) := by
  have hkeys : [k, k'].Nodup := by simp [hne]
  have haligned : ([Tree.node n (.key k value) children, .node n (.key k' value') children'].all fun t =>
      t.column = (Tree.node n (.key k value) children).column) = true := by
    simp [Tree.column]
  unfold collect
  dsimp only
  rw [haligned]
  exact if_pos hkeys

theorem toNodes_append {trees trees' : List Tree} {nodes nodes' : List Node} (h : toNodes trees = some nodes)
    (h' : toNodes trees' = some nodes') :
    toNodes (trees ++ trees') = some (nodes ++ nodes') := by
  induction trees generalizing nodes with
  | nil =>
    cases h
    exact h'
  | cons t trees ih =>
    rw [toNodes, Option.bind_eq_some_iff] at h
    obtain ⟨node, hnode, hmap⟩ := h
    obtain ⟨rest, hrest, rfl⟩ := Option.map_eq_some_iff.1 hmap
    rw [List.cons_append, toNodes, hnode, Option.bind_some, ih hrest]
    rfl

/-! ### Sequences -/

theorem readLines_eq_none {t l : Text} (hmem : l ∈ t.splitOn '\n') (h : readLine v l = none) : readLines v t = none := by
  have hnone : ∀ ls : List Text, l ∈ ls → ls.mapM (readLine v) = none := by
    intro ls hl
    induction ls with
    | nil => cases hl
    | cons l' ls ih =>
      rw [List.mapM_cons]
      rcases List.mem_cons.1 hl with rfl | hl
      · rw [h]
        rfl
      · rw [ih hl]
        cases readLine v l' <;> rfl
  rw [readLines, hnone _ hmem]
  rfl

theorem readLines_append {t t' : Text} (h : readLines v t = some items) (h' : readLines v t' = some items') :
    readLines v (t ++ '\n' :: t') = some (items ++ items') := by
  unfold readLines at h h' ⊢
  obtain ⟨read, hread, rfl⟩ := Option.map_eq_some_iff.1 h
  obtain ⟨read', hread', rfl⟩ := Option.map_eq_some_iff.1 h'
  rw [List.splitOn_append_cons_self, List.mapM_append, hread, hread']
  simp

/-- The text has the entries of a sequence, in column `n`. -/
structure Sequence (v : Version) (n : Nat) (t : Text) (nodes : List Node) : Prop where
  read : ∃ items, readLines v t = some items ∧ (∀ x ∈ items.head?, x.1 = n) ∧ (∀ x ∈ items, n ≤ x.1) ∧
    (∀ tree ∈ forest items, tree.column = n ∧ tree.key? = none) ∧ toNodes (forest items) = some nodes

theorem sequence_nil (v : Version) (n : Nat) : Sequence v n [] [] :=
  ⟨[], rfl, fun _ h => (nomatch h), fun _ h => (nomatch h), fun _ h => (nomatch h), rfl⟩

theorem Sequence.append {t t' : Text} {nodes nodes' : List Node} (h : Sequence v n t nodes) (h' : Sequence v n t' nodes') :
    Sequence v n (t ++ '\n' :: t') (nodes ++ nodes') := by
  obtain ⟨items, hread, hhead, hle, htrees, hnodes⟩ := h
  obtain ⟨items', hread', hhead', hle', htrees', hnodes'⟩ := h'
  have hforest : forest (items ++ items') = forest items ++ forest items' := by
    refine forest_append fun y hy x hx => ?_
    rw [hhead' y hy]
    exact hle x hx
  refine ⟨items ++ items', readLines_append hread hread', fun x hx => ?_, fun x hx => ?_, fun tree htree => ?_, ?_⟩
  · cases items with
    | nil => exact hhead' x hx
    | cons y items => exact hhead x hx
  · exact (List.mem_append.1 hx).elim (hle x) (hle' x)
  · rw [hforest] at htree
    exact (List.mem_append.1 htree).elim (htrees tree) (htrees' tree)
  · rw [hforest]
    exact toNodes_append hnodes hnodes'

/-- One entry, with the items of its mapping. -/
theorem Reads.sequence (h : Reads v lines ((n, .dash) :: items)) (hne : lines ≠ []) (hall : (items.all fun x => n < x.1) = true) {node : Node}
    (hnode : (toNodes (forest items)).bind (collect (forest items)) = some node) : Sequence v n (joinText ['\n'] lines) [node] := by
  have hlt : ∀ x ∈ items, n < x.1 := fun x hx => of_decide_eq_true (List.all_eq_true.1 hall x hx)
  have hforest : forest ((n, .dash) :: items) = [.node n .dash (forest items)] := forest_cons_of_lt hlt
  refine ⟨_, h.readLines hne, fun x hx => ?_, fun x hx => ?_, fun tree htree => ?_, ?_⟩
  · cases hx
    rfl
  · rcases List.mem_cons.1 hx with rfl | hx
    · exact le_rfl
    · exact (hlt x hx).le
  · rw [hforest, List.mem_singleton] at htree
    rw [htree]
    exact ⟨rfl, rfl⟩
  · rw [hforest, toNodes, Tree.toNode, hnode]
    · rfl
    · intro k value heq
      cases heq

theorem Sequence.collect {t : Text} {nodes : List Node} (h : Sequence v n t nodes) (hne : nodes ≠ []) :
    ∃ items, readLines v t = some items ∧ (∀ x ∈ items, n ≤ x.1) ∧
      (toNodes (forest items)).bind (collect (forest items)) = some (.list nodes) := by
  obtain ⟨items, hread, -, hle, htrees, hnodes⟩ := h
  refine ⟨items, hread, hle, ?_⟩
  rw [hnodes, Option.bind_some]
  cases hforest : forest items with
  | nil =>
    rw [hforest] at hnodes
    cases hnodes
    exact absurd rfl hne
  | cons first trees =>
    rw [hforest] at htrees
    have haligned : ((first :: trees).all fun t => t.column = first.column) = true := by
      refine List.all_eq_true.2 fun t ht => decide_eq_true ?_
      rw [(htrees t ht).1, (htrees first List.mem_cons_self).1]
    have hkeys : (first :: trees).mapM Tree.key? = none := by
      rw [List.mapM_cons, (htrees first List.mem_cons_self).2]
      rfl
    have hdashes : ((first :: trees).all fun t => t.key?.isNone) = true := by
      refine List.all_eq_true.2 fun t ht => ?_
      rw [(htrees t ht).2]
      rfl
    unfold Yaml.collect
    dsimp only
    rw [haligned, hkeys, hdashes]
    rfl

end

end ProxmoxTool.Yaml
