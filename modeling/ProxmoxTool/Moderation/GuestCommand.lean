import Mathlib
import ProxmoxTool.Lib.PosixLogin
import ProxmoxTool.Moderation.Maintenance

/-!
# What a maintenance command runs

Both commands of `core/mastodon_maintenance.py` hand `su` a command line between quotes, which changes to the directory of Mastodon and
runs one program there.  The shell of root reads `su` with its words, and the shell of the user reads `export`, `cd` and the program with
the words that were meant (`run_suLine`, `parse_guestLine`).  What runs is that program (`programs_su`), unless the user is a word that `su`
takes for options or that the shell of root expands.
-/

namespace ProxmoxTool.Moderation.Admin

open Posix

/-- The command line between the quotes. -/
def guestLine (appDir : Text) (argv : List Text) : Text :=
  rbenvPath ++ "; cd ".toList ++ appDir ++ " && ".toList ++ joinText [' '] ("RAILS_ENV=production".toList :: argv)

def suLine (user line : Text) : Text := "su - ".toList ++ user ++ " -c ".toList ++ nest line

def suWords (user line : Text) : List Word := ["su", "-"].map (unquoted ·.toList) ++ [unquoted user, unquoted "-c".toList, quoted line]

def environment : List Text := ["RAILS_ENV=production".toList]

/-- The word `PATH=$HOME/.rbenv/bin:$HOME/.rbenv/shims:$PATH`. -/
def pathWord : Word :=
  unquoted "PATH=".toList ++ .param false "HOME".toList :: unquoted "/.rbenv/bin:".toList ++ .param false "HOME".toList ::
    unquoted "/.rbenv/shims:".toList ++ [.param false "PATH".toList]

/-- What the shell of the user reads. -/
def guestCommands (appDir : Text) (argv : List Text) : List (Simple × Op) :=
  [({ words := [unquoted "export".toList, pathWord] }, .semi), ({ words := [unquoted "cd".toList, unquoted appDir] }, .andIf),
    ({ assignments := environment.map unquoted, words := argv.map unquoted }, .semi)]

/-- The program runs once, for the user and in the directory, if there are such. -/
def runsIn (m : Machine) (user appDir : Text) (argv : List Text) (input : Utf8.Bytes) : List Program :=
  match m.passwd user with
  | none => []
  | some home =>
    match m.directory home (m.tilde user appDir) with
    | none => []
    | some dir => [⟨user, dir, environment, argv, input⟩]

/-! ### The characters that are let through -/

/-- A word of characters that the shell takes as they are. -/
def Plain (t : Text) : Prop := t ≠ [] ∧ t.all isSafe = true

section

variable {u : TextTable}

theorem isShellSafe_spec {c : Char} (h : u.isShellSafe c = true) :
    isOrdinary c = true ∧ (c = '~' ∨ isInert c = true) ∧ c ≠ '\x00' ∧ c ≠ '\'' := by
  refine ⟨?_, ?_, ?_, ?_⟩
  · by_contra hspecial
    simp only [isOrdinary, Bool.not_eq_true', Bool.not_eq_false, Bool.or_eq_true, decide_eq_true_eq] at hspecial
    rcases hspecial with
      ((((((((((((((rfl | rfl) | rfl) | rfl) | rfl) | rfl) | rfl) | rfl) | rfl) | rfl) | rfl) | rfl) | rfl) | rfl) | rfl) | rfl <;>
      exact absurd h (Bool.eq_false_iff.1 rfl)
  · by_contra hspecial
    simp only [isInert, Bool.not_eq_true', Bool.not_eq_false, Bool.or_eq_true, decide_eq_true_eq, not_or] at hspecial
    obtain ⟨htilde, (((rfl | rfl) | rfl) | rfl) | rfl⟩ := hspecial
    · exact absurd h (Bool.eq_false_iff.1 rfl)
    · exact absurd h (Bool.eq_false_iff.1 rfl)
    · exact absurd h (Bool.eq_false_iff.1 rfl)
    · exact absurd h (Bool.eq_false_iff.1 rfl)
    · exact htilde rfl
  · rintro rfl
    exact absurd h (Bool.eq_false_iff.1 rfl)
  · rintro rfl
    exact absurd h (Bool.eq_false_iff.1 rfl)

theorem shellParam_spec {t : Text} (h : u.validateShellParam t = true) :
    t ≠ [] ∧ t.all isOrdinary = true ∧ (∀ c ∈ t, c = '~' ∨ isInert c = true) ∧ '\x00' ∉ t ∧ '\'' ∉ t := by
  rw [CharTable.validateShellParam, Bool.and_eq_true, List.all_eq_true] at h
  obtain ⟨hne, hall⟩ := h
  refine ⟨?_, List.all_eq_true.2 fun c hc => (isShellSafe_spec (hall c hc)).1, fun c hc => (isShellSafe_spec (hall c hc)).2.1,
    fun hmem => (isShellSafe_spec (hall _ hmem)).2.2.1 rfl, fun hmem => (isShellSafe_spec (hall _ hmem)).2.2.2 rfl⟩
  rintro rfl
  cases hne

end

theorem plain_environment : Plain "RAILS_ENV=production".toList := ⟨by simp, by decide⟩

theorem Plain.not_mem {t : Text} (h : Plain t) {c : Char} (hc : isSafe c = false) : c ∉ t := by
  intro hmem
  have hsafe := List.all_eq_true.1 h.2 c hmem
  rw [hc] at hsafe
  cases hsafe

/-! ### What the shells read -/

theorem joinText_cons_cons (sep a b : Text) (ts : List Text) : joinText sep (a :: b :: ts) = a ++ sep ++ joinText sep (b :: ts) :=
  List.intercalate_cons_cons

theorem not_mem_joinText {c : Char} {ts : List Text} (hts : ∀ t ∈ ts, c ∉ t) (hc : c ≠ ' ') : c ∉ joinText [' '] ts := by
  induction ts with
  | nil => exact List.not_mem_nil
  | cons a ts ih =>
    cases ts with
    | nil => simpa [joinText] using hts a List.mem_cons_self
    | cons b ts =>
      have hrest := ih fun t ht => hts t (List.mem_cons_of_mem _ ht)
      rw [joinText_cons_cons, List.mem_append, List.mem_append, List.mem_singleton]
      exact fun h => h.elim (fun h => h.elim (hts a List.mem_cons_self) hc) hrest

/-- Words with blanks between them. -/
theorem run_joinText {a : Text} {ts : List Text} (h : ∀ t ∈ a :: ts, Plain t) (us : List Token) :
    ∃ w us', run ⟨.plain, none, us⟩ (joinText [' '] (a :: ts)) = some ⟨.plain, some w, us'⟩ ∧
      us' ++ [.word w] = us ++ ((a :: ts).map unquoted).map .word := by
  induction ts generalizing a us with
  | nil =>
    obtain ⟨hne, hall⟩ := h a List.mem_cons_self
    have hordinary : a.all isOrdinary = true :=
      List.all_eq_true.2 fun c hc => isOrdinary_of_isSafe (List.all_eq_true.1 hall c hc)
    refine ⟨unquoted a, us, ?_, rfl⟩
    rw [joinText, List.intercalate_singleton]
    exact run_ordinary_start hordinary hne us
  | cons b ts ih =>
    obtain ⟨hne, hall⟩ := h a List.mem_cons_self
    have hordinary : a.all isOrdinary = true :=
      List.all_eq_true.2 fun c hc => isOrdinary_of_isSafe (List.all_eq_true.1 hall c hc)
    have hblank : run ⟨.plain, some (unquoted a), us⟩ [' '] = some ⟨.plain, none, us ++ [.word (unquoted a)]⟩ := rfl
    obtain ⟨w, us', hrun, htokens⟩ := ih (fun t ht => h t (List.mem_cons_of_mem _ ht)) (us ++ [.word (unquoted a)])
    refine ⟨w, us', ?_, ?_⟩
    · rw [joinText_cons_cons, List.append_assoc, run_append_of (run_ordinary_start hordinary hne us), run_append_of hblank, hrun]
    · rw [htokens]
      simp

theorem replaceQuote_of_not_mem (e : Text) {t : Text} (h : '\'' ∉ t) : replaceQuote e t = t := by
  induction t with
  | nil => rfl
  | cons c t ih =>
    rw [List.mem_cons, not_or] at h
    rw [replaceQuote, List.flatMap_cons, if_neg (Ne.symm h.1)]
    exact congrArg (c :: ·) (ih h.2)

theorem nest_of_not_mem {t : Text} (h : '\'' ∉ t) : nest t = '\'' :: (t ++ ['\'']) := by
  rw [nest, replaceQuote_of_not_mem _ h]

/-- The shell of root reads `su` with the user and the command line, whatever stands in front. -/
theorem run_suLine {user : Text} (hne : user ≠ []) (hall : user.all isOrdinary = true) (line : Text) (ts : List Token) :
    run ⟨.plain, none, ts⟩ (suLine user line) =
      some ⟨.plain, some (quoted line), ts ++ ([unquoted "su".toList, unquoted "-".toList, unquoted user, unquoted "-c".toList].map .word)⟩ := by
  have hsu : run ⟨.plain, none, ts⟩ "su - ".toList =
      some ⟨.plain, none, ts ++ [.word (unquoted "su".toList)] ++ [.word (unquoted "-".toList)]⟩ := rfl
  have hcommand : run ⟨.plain, some (unquoted user), ts ++ [.word (unquoted "su".toList)] ++ [.word (unquoted "-".toList)]⟩ " -c ".toList =
      some ⟨.plain, none, ts ++ [.word (unquoted "su".toList)] ++ [.word (unquoted "-".toList)] ++ [.word (unquoted user)] ++
        [.word (unquoted "-c".toList)]⟩ := rfl
  unfold suLine
  rw [List.append_assoc, List.append_assoc, run_append_of hsu, run_append_of (run_ordinary_start hall hne _), run_append_of hcommand,
    run_nest]
  simp

section

variable {u : TextTable} {appDir program : Text} {args : List Text}

theorem not_mem_guestLine {c : Char} (hc : isSafe c = false) (hblank : c ≠ ' ') (hfixed : c ∉ rbenvPath ++ "; cd && ".toList)
    (happDir : c ∉ appDir) {argv : List Text} (hargv : ∀ t ∈ argv, Plain t) : c ∉ guestLine appDir argv := by
  have hjoin : c ∉ joinText [' '] ("RAILS_ENV=production".toList :: argv) := by
    refine not_mem_joinText (fun t ht => ?_) hblank
    rcases List.mem_cons.1 ht with rfl | ht
    · exact plain_environment.not_mem hc
    · exact (hargv t ht).not_mem hc
  have hcd : "; cd && ".toList = "; cd ".toList ++ "&& ".toList := rfl
  have hand : " && ".toList = ' ' :: "&& ".toList := rfl
  rw [hcd] at hfixed
  simp only [guestLine, hand, List.mem_append, List.mem_cons, not_or] at hfixed ⊢
  exact ⟨⟨⟨⟨hfixed.1, hfixed.2.1⟩, happDir⟩, hblank, hfixed.2.2⟩, hjoin⟩

/-- The tokens in front of the environment. -/
def frontTokens (appDir : Text) : List Token :=
  [.word (unquoted "export".toList), .word pathWord, .op .semi, .word (unquoted "cd".toList), .word (unquoted appDir), .op .andIf]

theorem run_front : run {} (rbenvPath ++ "; cd ".toList) =
    some ⟨.plain, none, [.word (unquoted "export".toList), .word pathWord, .op .semi, .word (unquoted "cd".toList)]⟩ := by
  decide

theorem lex_guestLine (happDir : u.validateShellParam appDir = true) {argv : List Text} (hargv : ∀ t ∈ argv, Plain t) :
    lex (guestLine appDir argv) =
      some (frontTokens appDir ++ (("RAILS_ENV=production".toList :: argv).map unquoted).map .word) := by
  obtain ⟨hne, hordinary, -, hnul, -⟩ := shellParam_spec happDir
  have hand : run ⟨.plain, some (unquoted appDir),
        [.word (unquoted "export".toList), .word pathWord, .op .semi, .word (unquoted "cd".toList)]⟩ " && ".toList =
      some ⟨.plain, none, frontTokens appDir⟩ := rfl
  have hplain : ∀ t ∈ "RAILS_ENV=production".toList :: argv, Plain t := by
    intro t ht
    rcases List.mem_cons.1 ht with rfl | ht
    · exact plain_environment
    · exact hargv t ht
  obtain ⟨w, ts, hwords, htokens⟩ := run_joinText hplain (frontTokens appDir)
  have hrun : run {} (guestLine appDir argv) = some ⟨.plain, some w, ts⟩ := by
    rw [guestLine, List.append_assoc, List.append_assoc, run_append_of run_front, run_append_of (run_ordinary_start hordinary hne _),
      run_append_of hand, hwords]
  have hfree : '\x00' ∉ guestLine appDir argv := not_mem_guestLine rfl (by decide) (by decide) hnul hargv
  rw [lex, if_neg hfree, hrun, ← htokens]
  rfl

/-- The shell of the user reads `export`, `cd` and the program. -/
theorem parse_guestLine (happDir : u.validateShellParam appDir = true) (hargs : ∀ t ∈ program :: args, Plain t)
    (hassign : (unquoted program).isAssignment = false) (hreserved : unquoted program ∉ reserved.map unquoted) :
    parse (guestLine appDir (program :: args)) = some (guestCommands appDir (program :: args)) := by
  have hfront : (frontTokens appDir ++ [Token.word (unquoted "RAILS_ENV=production".toList)]).foldlM parseStep {} =
      some ⟨(guestCommands appDir (program :: args)).take 2, { assignments := environment.map unquoted }, none⟩ := rfl
  have hprogram : parseStep ⟨(guestCommands appDir (program :: args)).take 2, { assignments := environment.map unquoted }, none⟩
      (.word (unquoted program)) =
      some ⟨(guestCommands appDir (program :: args)).take 2,
        { assignments := environment.map unquoted, words := [unquoted program] }, none⟩ := by
    simp [parseStep, Simple.addWord, hassign, hreserved]
  have hrest := foldlM_words (args.map unquoted) [unquoted program]
    ⟨(guestCommands appDir (program :: args)).take 2, { assignments := environment.map unquoted, words := [unquoted program] }, none⟩
    rfl rfl (by simp)
  rw [parse, lex_guestLine happDir hargs, Option.bind_some, List.map_cons, List.map_cons, List.append_cons, List.foldlM_append, hfront]
  change (Option.bind (List.foldlM parseStep _ _) Parser.finish) = _
  rw [List.map_cons, List.map_cons, List.foldlM_cons, hprogram]
  change (Option.bind (List.foldlM parseStep _ _) Parser.finish) = _
  rw [hrest]
  rfl

end

/-! ### What runs -/

section

variable {u : TextTable} (m : Machine)

theorem isOption_of_head {t : Text} (h : t.head? ≠ some '-') : (t = ['-'] || isOption t) = false := by
  rw [isOption, decide_eq_false h, Bool.false_and, Bool.or_false, decide_eq_false_iff_not]
  rintro rfl
  exact h rfl

/-- A home directory is no option either. -/
theorem tilde_head {user t : Text} (h : t.head? ≠ some '-') : (m.tilde user t).head? ≠ some '-' := by
  unfold Machine.tilde
  split_ifs with htilde
  · dsimp only
    split
    · next home hhome =>
      have habsolute := m.absolute _ _ hhome
      cases home with
      | nil => cases habsolute
      | cons c home =>
        rw [List.cons_append, List.head?_cons] at *
        rw [habsolute]
        decide
    · exact h
  · exact h

theorem expand_plain (user : Text) {t : Text} (h : t.all isInert = true) : m.expand user (unquoted t) = some t := by
  have htilde : t.head? ≠ some '~' := by
    intro hhead
    exact absurd (List.all_eq_true.1 h '~' (List.mem_of_mem_head? hhead)) (by decide)
  rw [m.expand_unquoted user fun c hc => Or.inr (List.all_eq_true.1 h c hc), m.tilde_of_ne user htilde]

theorem isInert_of_plain {t : Text} (h : Plain t) : t.all isInert = true :=
  List.all_eq_true.2 fun c hc => isInert_of_isSafe (List.all_eq_true.1 h.2 c hc)

theorem mapM_expand (user : Text) {ts : List Text} (h : ∀ t ∈ ts, Plain t) : (ts.map unquoted).mapM (m.expand user) = some ts := by
  induction ts with
  | nil => rfl
  | cons t ts ih =>
    rw [List.map_cons, List.mapM_cons, expand_plain m user (isInert_of_plain (h t List.mem_cons_self)),
      ih fun t' ht' => h t' (List.mem_cons_of_mem _ ht')]
    rfl

/-- A command that is none of those that are known is a program. -/
theorem call_program (n : Nat) (user dir : Text) (env : List Text) {program : Text} (args : List Text) (input : Utf8.Bytes)
    (hprogram : program ∉ ["cd", "printf", "base64", "su"].map String.toList) :
    (m.call (n + 1) user dir env (program :: args) input).programs = [⟨user, dir, env, program :: args, input⟩] := by
  simp only [List.map_cons, List.map_nil, List.mem_cons, List.not_mem_nil, or_false, not_or] at hprogram
  obtain ⟨hcd, hprintf, hbase64, hsu⟩ := hprogram
  unfold Machine.call
  dsimp only
  rw [if_neg hcd, if_neg hprintf, if_neg hbase64, if_neg hsu]

theorem call_cd (n : Nat) (user dir : Text) {path : Text} (hpath : path.head? ≠ some '-') (input : Utf8.Bytes) :
    m.call (n + 1) user dir [] ["cd".toList, path] input =
      match m.directory dir path with
      | some d => { ok := true, dir := d }
      | none => { ok := false, dir := dir } := by
  change (match if path = ['-'] || isOption path then none else m.directory dir path with
    | some d => Ran.mk [] [] true d
    | none => Ran.mk [] [] false dir) = _
  rw [isOption_of_head hpath, if_neg Bool.false_ne_true]

/-- The line between the quotes runs the program in the directory, if there is such a directory, and nothing else. -/
theorem programs_guestLine {appDir program : Text} {args : List Text} (happDir : u.validateShellParam appDir = true)
    (hoption : appDir.head? ≠ some '-') (hargs : ∀ t ∈ program :: args, Plain t) (hassign : (unquoted program).isAssignment = false)
    (hreserved : unquoted program ∉ reserved.map unquoted) (hexport : program ≠ "export".toList)
    (hprogram : program ∉ ["cd", "printf", "base64", "su"].map String.toList) (n : Nat) (user home : Text) (input : Utf8.Bytes) :
    (m.runText (m.call (n + 1)) user home (guestLine appDir (program :: args)) input).programs =
      match m.directory home (m.tilde user appDir) with
      | none => []
      | some dir => [⟨user, dir, environment, program :: args, input⟩] := by
  have hfirst : m.runPipeline (m.call (n + 1)) user home [{ words := [unquoted "export".toList, pathWord] }] input =
      { ok := true, dir := home } := rfl
  have hwords : [unquoted "cd".toList, unquoted appDir].mapM (m.expand user) = some ["cd".toList, m.tilde user appDir] := by
    rw [List.mapM_cons, expand_plain m user (by decide), List.mapM_cons, m.expand_unquoted user (shellParam_spec happDir).2.2.1]
    rfl
  have hname : ∀ {name : Text} {ws : List Word}, name ≠ "export".toList → (unquoted name :: ws).head? ≠ some (unquoted "export".toList) :=
    fun hne h => hne (unquoted_injective (Option.some.inj h))
  have hcd : m.runPipeline (m.call (n + 1)) user home [{ words := [unquoted "cd".toList, unquoted appDir] }] input = _ :=
    (m.runSimple_of rfl (hname (by decide)) rfl hwords).trans (call_cd m n user home (tilde_head m hoption) input)
  have hlast : ∀ dir, m.runPipeline (m.call (n + 1)) user dir
      [{ assignments := environment.map unquoted, words := (program :: args).map unquoted }] input =
      m.call (n + 1) user dir environment (program :: args) input := fun dir =>
    m.runSimple_of rfl (hname hexport) rfl (mapM_expand m user hargs)
  have hpipelines : Machine.pipelines (guestCommands appDir (program :: args)) =
      [([{ words := [unquoted "export".toList, pathWord] }], .semi), ([{ words := [unquoted "cd".toList, unquoted appDir] }], .andIf),
        ([{ assignments := environment.map unquoted, words := (program :: args).map unquoted }], .semi)] := rfl
  unfold Machine.runText
  rw [parse_guestLine happDir hargs hassign hreserved]
  dsimp only
  rw [hpipelines, m.runList_run (by simp [Machine.Skips]) hfirst, m.runList_run (by simp [Machine.Skips]) hcd]
  cases m.directory home (m.tilde user appDir) with
  | none =>
    dsimp only
    rw [m.runList_skip (Or.inl ⟨rfl, rfl⟩)]
    rfl
  | some dir =>
    dsimp only
    rw [m.runList_run (by simp [Machine.Skips]) (hlast dir), call_program m n user dir environment args input hprogram]
    rfl

/-- `su` takes a user that is no option for its user. -/
theorem call_su_eq (user : Text) (n : Nat) (dir : Text) (env : List Text) (line : Text) (input : Utf8.Bytes) :
    m.call (n + 1) "root".toList dir env ["su".toList, "-".toList, user, "-c".toList, line] input =
      match (Machine.suArgs {} ["-".toList, user, "-c".toList, line]).bind fun a => (Machine.suUser a).map fun u => (a, u) with
      | some (a, login, target) =>
        match if "root".toList = "root".toList then m.passwd target else none, a.command with
        | some home, some command =>
          let start := if login then home else dir
          match a.shell with
          | none => { m.runText (m.call n) target start command input with dir := dir }
          | some shell => { programs := [⟨target, start, [], [shell, "-c".toList, command], input⟩], ok := true, dir := dir }
        | _, _ => { ok := false, dir := dir }
      | none => { ok := false, dir := dir } := rfl

theorem call_su {user : Text} (huser : isOption user = false) (n : Nat) (dir : Text) (env : List Text) (line : Text) (input : Utf8.Bytes) :
    (m.call (n + 1) "root".toList dir env ["su".toList, "-".toList, user, "-c".toList, line] input).programs =
      match m.passwd user with
      | none => []
      | some home => (m.runText (m.call n) user home line input).programs := by
  have hne : ∀ {w : Text}, isOption w = true → user ≠ w := by
    rintro w hw rfl
    rw [huser] at hw
    cases hw
  have hword : Machine.suWord { operands := ["-".toList] } user = some { operands := ["-".toList, user] } := by
    rw [Machine.suWord, if_neg (hne (by decide)), huser, if_neg Bool.false_ne_true]
    rfl
  have hargs : Machine.suArgs {} ["-".toList, user, "-c".toList, line] = some { command := some line, operands := ["-".toList, user] } := by
    change (if user = "-c".toList then _ else if user = "-s".toList then _ else (Machine.suWord { operands := ["-".toList] } user).bind
      fun a => Machine.suArgs a ["-c".toList, line]) = _
    rw [if_neg (hne (by decide)), if_neg (hne (by decide)), hword]
    rfl
  have hsuUser : Machine.suUser { command := some line, operands := ["-".toList, user] } = some (true, user) := rfl
  rw [call_su_eq, hargs, Option.bind_some, hsuUser]
  cases hpasswd : m.passwd user with
  | none => simp only [Option.map_some, if_true, hpasswd]
  | some home => simp only [Option.map_some, if_true, hpasswd]

theorem mapM_expand_su {user : Text} (hinert : ∀ c ∈ user, c = '~' ∨ isInert c = true) (htilde : user.head? ≠ some '~') (line : Text) :
    (suWords user line).mapM (m.expand "root".toList) = some ["su".toList, "-".toList, user, "-c".toList, line] := by
  have hsu := expand_plain m "root".toList (t := "su".toList) (by decide)
  have hminus := expand_plain m "root".toList (t := "-".toList) (by decide)
  have hcommand := expand_plain m "root".toList (t := "-c".toList) (by decide)
  have huser := m.expand_unquoted "root".toList hinert
  rw [m.tilde_of_ne _ htilde] at huser
  change List.mapM _ [unquoted "su".toList, unquoted "-".toList, unquoted user, unquoted "-c".toList, quoted line] = _
  rw [List.mapM_cons, hsu, List.mapM_cons, hminus, List.mapM_cons, huser, List.mapM_cons, hcommand, List.mapM_cons, m.expand_quoted]
  rfl

/-- The shell of root runs `su`. -/
theorem runSimple_su {user : Text} (huser : u.validateShellParam user = true) (hoption : isOption user = false)
    (htilde : user.head? ≠ some '~') (n : Nat) (dir line : Text) (input : Utf8.Bytes) :
    (m.runSimple (m.call (n + 1)) "root".toList dir { words := suWords user line } input).programs =
      match m.passwd user with
      | none => []
      | some home => (m.runText (m.call n) user home line input).programs := by
  have hname : (suWords user line).head? ≠ some (unquoted "export".toList) := fun h =>
    absurd (unquoted_injective (Option.some.inj h)) (by decide)
  rw [m.runSimple_of rfl hname rfl (mapM_expand_su m (shellParam_spec huser).2.2.1 htilde line)]
  exact call_su m hoption n dir [] line input

end

end ProxmoxTool.Moderation.Admin
