import ProxmoxTool.Lib.Dict
import ProxmoxTool.Lib.Fields
import ProxmoxTool.Lib.Posix

/-!
# Environment files

How systemd reads an `EnvironmentFile`: a machine that takes one character at a time, and the assignments whose names are valid.  A file with an
assignment that has a noncharacter in it is not loaded.  A line with a name, `=` and a value as `shlex.quote` writes it is read as this
assignment (`read_line`).
-/

namespace ProxmoxTool.EnvFile

def isNewline (c : Char) : Bool := c = '\n' || c = '\r'

def isWhitespace (c : Char) : Bool := c = ' ' || c = '\t' || isNewline c

/-- The states of the reader. -/
inductive State
  | preKey
  | key
  | preValue
  | value
  | valueEscape
  | singleQuote
  | doubleQuote
  | doubleQuoteEscape
  | comment
  | commentEscape
  deriving DecidableEq

/-- `pushed` are the assignments of the lines that are done. -/
structure Reader where
  state : State := .preKey
  name : Text := []
  content : Text := []
  pushed : List (Text × Text) := []
  deriving DecidableEq

/-- White space at the end of a name or of a bare value does not belong to it. -/
def chomp (t : Text) : Text := t.rdropWhile isWhitespace

def Reader.push (r : Reader) (content : Text) : Reader := { pushed := r.pushed ++ [(chomp r.name, content)] }

def Reader.addName (r : Reader) (c : Char) : Reader := { r with name := r.name ++ [c] }

def Reader.add (r : Reader) (t : Text) : Reader := { r with content := r.content ++ t }

def Reader.goto (r : Reader) (state : State) : Reader := { r with state := state }

def step (r : Reader) (c : Char) : Reader :=
  match r.state with
  | .preKey =>
    if c = '#' ∨ c = ';' then r.goto .comment
    else if isWhitespace c then r
    else (r.addName c).goto .key
  | .key =>
    if isNewline c then { pushed := r.pushed }
    else if c = '=' then r.goto .preValue
    else r.addName c
  | .preValue =>
    if isNewline c then r.push r.content
    else if c = '\'' then r.goto .singleQuote
    else if c = '"' then r.goto .doubleQuote
    else if c = '\\' then r.goto .valueEscape
    else if isWhitespace c then r
    else (r.add [c]).goto .value
  | .value =>
    if isNewline c then r.push (chomp r.content)
    else if c = '\\' then r.goto .valueEscape
    else r.add [c]
  | .valueEscape => if isNewline c then r.goto .value else (r.add [c]).goto .value
  | .singleQuote => if c = '\'' then r.goto .preValue else r.add [c]
  | .doubleQuote =>
    if c = '"' then r.goto .preValue
    else if c = '\\' then r.goto .doubleQuoteEscape
    else r.add [c]
  | .doubleQuoteEscape =>
    if c ∈ ['"', '\\', '`', '$'] then (r.add [c]).goto .doubleQuote
    else if c = '\n' then r.goto .doubleQuote
    else (r.add ['\\', c]).goto .doubleQuote
  | .comment => if c = '\\' then r.goto .commentEscape else if isNewline c then { pushed := r.pushed } else r
  | .commentEscape => r.goto .comment

def run (r : Reader) (t : Text) : Reader := t.foldl step r

/-- The assignments at the end of the file. -/
def Reader.finish (r : Reader) : List (Text × Text) :=
  match r.state with
  | .preKey | .key | .comment | .commentEscape => r.pushed
  | .value => (r.push (chomp r.content)).pushed
  | _ => (r.push r.content).pushed

def isNameStart (c : Char) : Bool := c.isAlpha || c = '_'

def isNameChar (c : Char) : Bool := c.isAlphanum || c = '_'

def isName (t : Text) : Bool := t.head?.any isNameStart && t.all isNameChar

/-- The manual does not allow the byte order mark, which the program lets through. -/
inductive Rules
  | manual
  | program
  deriving DecidableEq

/-- No NUL and none of the noncharacters of Unicode. -/
def isValidChar (rules : Rules) (c : Char) : Bool :=
  c.toNat ≠ 0 && !(0xFDD0 ≤ c.toNat && c.toNat ≤ 0xFDEF) && c.toNat % 0x10000 < 0xFFFE && !(rules = .manual && c.toNat = 0xFEFF)

def isValid (rules : Rules) (e : Text × Text) : Bool := e.1.all (isValidChar rules) && e.2.all (isValidChar rules)

/-- The environment that a file gives, or `none` if it is not loaded: names that are none are left out, and a later assignment counts more than
an earlier one. -/
def environment (rules : Rules) (t : Text) : Option (Dict Text Text) :=
  let entries := (run {} t).finish
  if entries.all (isValid rules) then some (Dict.setAll [] (entries.filter fun e => isName e.1)) else none

/-! ### A line -/

theorem run_append (r : Reader) (t u : Text) : run r (t ++ u) = run (run r t) u := List.foldl_append

theorem run_cons (r : Reader) (c : Char) (t : Text) : run r (c :: t) = run (step r c) t := rfl

theorem not_isWhitespace_of {p : Char → Bool} (h : ∀ c, isWhitespace c = true → p c = false) {c : Char} (hc : p c = true) :
    isWhitespace c = false := by
  refine Bool.eq_false_iff.2 fun hspace => ?_
  rw [h c hspace] at hc
  cases hc

theorem eq_of_isWhitespace {c : Char} (h : isWhitespace c = true) : c = ' ' ∨ c = '\t' ∨ c = '\n' ∨ c = '\r' := by
  simpa [isWhitespace, isNewline, or_assoc] using h

theorem isNameChar_space {c : Char} (h : isWhitespace c = true) : isNameChar c = false := by
  rcases eq_of_isWhitespace h with rfl | rfl | rfl | rfl <;> rfl

theorem isSafe_space {c : Char} (h : isWhitespace c = true) : Posix.isSafe c = false := by
  rcases eq_of_isWhitespace h with rfl | rfl | rfl | rfl <;> rfl

theorem not_isNewline {c : Char} (h : isWhitespace c = false) : isNewline c = false := (Bool.or_eq_false_iff.1 h).2

theorem chomp_eq_self {t : Text} (h : ∀ c ∈ t, isWhitespace c = false) : chomp t = t := by
  refine List.rdropWhile_eq_self_iff.2 fun hne hlast => ?_
  rw [h _ (List.getLast_mem hne)] at hlast
  cases hlast

/-- The characters of a name are read as they are. -/
theorem run_key {t : Text} (h : ∀ c ∈ t, isNameChar c = true) {r : Reader} (hstate : r.state = .key) :
    run r t = { r with name := r.name ++ t } := by
  induction t generalizing r with
  | nil => rw [List.append_nil]; rfl
  | cons c t ih =>
    have hchar := h c List.mem_cons_self
    have hspace := not_isWhitespace_of (fun c => isNameChar_space) hchar
    have hequals : c ≠ '=' := by
      rintro rfl
      cases hchar
    have hstep : step r c = r.addName c := by
      unfold step
      rw [hstate]
      dsimp only
      rw [not_isNewline hspace, if_neg Bool.false_ne_true, if_neg hequals]
    rw [run_cons, hstep, ih (r := r.addName c) (fun d hd => h d (List.mem_cons_of_mem _ hd)) hstate]
    simp [Reader.addName]

theorem run_name {t : Text} (h : isName t = true) (pushed : List (Text × Text)) :
    run { pushed := pushed } (t ++ ['=']) = { state := .preValue, name := t, pushed := pushed } := by
  cases t with
  | nil => cases h
  | cons c t =>
    obtain ⟨hstart, hall⟩ := Bool.and_eq_true_iff.1 h
    have hchars := List.all_eq_true.1 hall
    have hchar := hchars c List.mem_cons_self
    have hspace := not_isWhitespace_of (fun c => isNameChar_space) hchar
    have hcomment : ¬(c = '#' ∨ c = ';') := by
      rintro (rfl | rfl)
      · cases hchar
      · cases hchar
    have hfirst : step { pushed := pushed } c = { state := .key, name := [c], pushed := pushed } := by
      unfold step
      dsimp only
      rw [if_neg hcomment, hspace, if_neg Bool.false_ne_true]
      rfl
    rw [List.cons_append, run_cons, hfirst, run_append, run_key (fun d hd => hchars d (List.mem_cons_of_mem _ hd)) rfl]
    rfl

/-- The characters that `shlex.quote` leaves bare. -/
theorem run_value {t : Text} (h : ∀ c ∈ t, Posix.isSafe c = true) {r : Reader} (hstate : r.state = .value) : run r t = r.add t := by
  induction t generalizing r with
  | nil => rw [Reader.add, List.append_nil]; rfl
  | cons c t ih =>
    have hsafe := h c List.mem_cons_self
    have hspace := not_isWhitespace_of (fun c => isSafe_space) hsafe
    have hbackslash : c ≠ '\\' := by
      rintro rfl
      cases hsafe
    have hstep : step r c = r.add [c] := by
      unfold step
      rw [hstate]
      dsimp only
      rw [not_isNewline hspace, if_neg Bool.false_ne_true, if_neg hbackslash]
    rw [run_cons, hstep, ih (r := r.add [c]) (fun d hd => h d (List.mem_cons_of_mem _ hd)) hstate]
    simp [Reader.add]

/-- Between single quotes, with a quote put between double quotes. -/
theorem run_singleQuote (t : Text) {r : Reader} (hstate : r.state = .singleQuote) :
    run r (Posix.replaceQuote "'\"'\"'".toList t) = r.add t := by
  induction t generalizing r with
  | nil => rw [Reader.add, List.append_nil]; rfl
  | cons c t ih =>
    have hcons : Posix.replaceQuote "'\"'\"'".toList (c :: t) =
        (if c = '\'' then "'\"'\"'".toList else [c]) ++ Posix.replaceQuote "'\"'\"'".toList t := List.flatMap_cons
    have hfirst : run r (if c = '\'' then "'\"'\"'".toList else [c]) = r.add [c] := by
      split_ifs with hquote
      · obtain ⟨state, name, content, pushed⟩ := r
        obtain rfl : state = .singleQuote := hstate
        rw [hquote]
        rfl
      · have hstep : step r c = r.add [c] := by
          unfold step
          rw [hstate]
          exact if_neg hquote
        exact hstep
    rw [hcons, run_append, hfirst, ih (r := r.add [c]) hstate]
    simp [Reader.add]

/-- A value as `shlex.quote` writes it, up to the end of the line. -/
theorem run_quote (t name : Text) (pushed : List (Text × Text)) (hname : chomp name = name) :
    run { state := .preValue, name := name, pushed := pushed } (Posix.quote t ++ ['\n']) = { pushed := pushed ++ [(name, t)] } := by
  have hend : ∀ {content}, Reader.push { state := .preValue, name := name, content := content, pushed := pushed } content =
      { pushed := pushed ++ [(name, content)] } := by
    intro content
    rw [Reader.push, hname]
  unfold Posix.quote
  split_ifs with hnil hsafe
  · rw [hnil]
    exact hend
  · have hall := List.all_eq_true.1 hsafe
    obtain ⟨c, u, rfl⟩ := List.exists_cons_of_ne_nil hnil
    have hchar := hall c List.mem_cons_self
    have hspace := not_isWhitespace_of (fun c => isSafe_space) hchar
    have hplain : c ≠ '\'' ∧ c ≠ '"' ∧ c ≠ '\\' := by
      refine ⟨?_, ?_, ?_⟩
      · rintro rfl
        cases hchar
      · rintro rfl
        cases hchar
      · rintro rfl
        cases hchar
    have hfirst : step { state := .preValue, name := name, pushed := pushed } c =
        { state := .value, name := name, content := [c], pushed := pushed } := by
      unfold step
      dsimp only
      rw [not_isNewline hspace, if_neg Bool.false_ne_true, if_neg hplain.1, if_neg hplain.2.1, if_neg hplain.2.2, hspace,
        if_neg Bool.false_ne_true]
      rfl
    have hvalue : chomp (c :: u) = c :: u := chomp_eq_self fun d hd => not_isWhitespace_of (fun c => isSafe_space) (hall d hd)
    rw [List.cons_append, run_cons, hfirst, run_append, run_value (fun d hd => hall d (List.mem_cons_of_mem _ hd)) rfl]
    change Reader.push { state := .value, name := name, content := [c] ++ u, pushed := pushed } (chomp ([c] ++ u)) = _
    rw [List.singleton_append, hvalue, Reader.push, hname]
  · have hquoted : run { state := .preValue, name := name, pushed := pushed } ('\'' :: (Posix.replaceQuote "'\"'\"'".toList t ++ ['\''])) =
        { state := .preValue, name := name, content := t, pushed := pushed } := by
      have hopen : step { state := .preValue, name := name, pushed := pushed } '\'' =
          { state := .singleQuote, name := name, pushed := pushed } := rfl
      rw [run_cons, hopen, run_append, run_singleQuote t rfl]
      rfl
    rw [run_append, hquoted]
    exact hend

/-- A name, `=` and a quoted value. -/
theorem read_line {name : Text} (hname : isName name = true) (value : Text) (pushed : List (Text × Text)) :
    run { pushed := pushed } (name ++ '=' :: (Posix.quote value ++ ['\n'])) = { pushed := pushed ++ [(name, value)] } := by
  have hsplit : name ++ '=' :: (Posix.quote value ++ ['\n']) = (name ++ ['=']) ++ (Posix.quote value ++ ['\n']) := by simp
  have hchomp : chomp name = name :=
    chomp_eq_self fun c hc => not_isWhitespace_of (fun c => isNameChar_space) (List.all_eq_true.1 (Bool.and_eq_true_iff.1 hname).2 c hc)
  rw [hsplit, run_append, run_name hname, run_quote value name pushed hchomp]

theorem isValidChar_name (rules : Rules) {c : Char} (h : isNameChar c = true) : isValidChar rules c = true := by
  have hascii : 33 ≤ c.toNat ∧ c.toNat ≤ 126 := by
    rcases Bool.or_eq_true_iff.1 h with halnum | hline
    · exact between_of_isAlphanum halnum
    · rw [of_decide_eq_true hline]
      decide
  obtain ⟨hlow, hhigh⟩ := hascii
  have hmod : c.toNat % 0x10000 = c.toNat := Nat.mod_eq_of_lt (by omega)
  rw [isValidChar, hmod]
  simp only [Bool.and_eq_true, Bool.not_eq_true', Bool.and_eq_false_iff, decide_eq_true_eq, decide_eq_false_iff_not]
  exact ⟨⟨⟨by omega, .inl (by omega)⟩, by omega⟩, .inr (by omega)⟩

/-- Lines with names and quoted values. -/
theorem environment_lines {rules : Rules} {entries : List (Text × Text)} (hnames : ∀ e ∈ entries, isName e.1 = true)
    (hvalues : ∀ e ∈ entries, ∀ c ∈ e.2, isValidChar rules c = true) (hnodup : (entries.map Prod.fst).Nodup) :
    environment rules (entries.flatMap fun e => e.1 ++ '=' :: (Posix.quote e.2 ++ ['\n'])) = some entries := by
  have hrun : ∀ (rest : List (Text × Text)) (pushed : List (Text × Text)), (∀ e ∈ rest, isName e.1 = true) →
      run { pushed := pushed } (rest.flatMap fun e => e.1 ++ '=' :: (Posix.quote e.2 ++ ['\n'])) = { pushed := pushed ++ rest } := by
    intro rest
    induction rest with
    | nil =>
      intro pushed _
      rw [List.append_nil]
      rfl
    | cons e rest ih =>
      intro pushed hrest
      rw [List.flatMap_cons, run_append, read_line (hrest e List.mem_cons_self),
        ih _ fun e' he' => hrest e' (List.mem_cons_of_mem _ he'), List.append_assoc, List.singleton_append]
  have hentries : (run {} (entries.flatMap fun e => e.1 ++ '=' :: (Posix.quote e.2 ++ ['\n']))).finish = entries := by
    have hall := hrun entries [] hnames
    rw [List.nil_append] at hall
    rw [hall]
    rfl
  have hvalid : entries.all (isValid rules) = true := by
    refine List.all_eq_true.2 fun e he => Bool.and_eq_true_iff.2 ⟨List.all_eq_true.2 fun c hc => ?_, List.all_eq_true.2 (hvalues e he)⟩
    exact isValidChar_name rules (List.all_eq_true.1 (Bool.and_eq_true_iff.1 (hnames e he)).2 c hc)
  have hfilter : entries.filter (fun e => isName e.1) = entries := List.filter_eq_self.2 hnames
  unfold environment
  dsimp only
  rw [hentries, if_pos hvalid, hfilter, Dict.setAll_of_nodup (by rwa [List.nil_append]), List.nil_append]

/-- An environment has names and valid values only. -/
theorem mem_environment {rules : Rules} {t : Text} {d : Dict Text Text} (h : environment rules t = some d) {e : Text × Text} (he : e ∈ d) :
    isName e.1 = true ∧ ∀ c ∈ e.2, isValidChar rules c = true := by
  have hset : ∀ (entries d : List (Text × Text)), e ∈ Dict.setAll d entries → e ∈ d ∨ e ∈ entries := by
    intro entries
    induction entries with
    | nil => exact fun d hd => .inl hd
    | cons e' entries ih =>
      intro d hd
      rcases ih _ hd with hmem | hmem
      · rcases Dict.mem_set hmem with heq | hmem
        · obtain rfl : e = e' := heq
          exact .inr List.mem_cons_self
        · exact .inl hmem
      · exact .inr (List.mem_cons_of_mem _ hmem)
  unfold environment at h
  dsimp only at h
  split_ifs at h with hall
  obtain rfl := Option.some.inj h
  rcases hset _ _ he with hnil | hmem
  · cases hnil
  · obtain ⟨hpushed, hname⟩ := List.mem_filter.1 hmem
    exact ⟨hname, List.all_eq_true.1 (Bool.and_eq_true_iff.1 (List.all_eq_true.1 hall e hpushed)).2⟩

end ProxmoxTool.EnvFile
