import ProxmoxTool.Lib.PosixRun

/-!
# Login shells

What a machine runs for a command line with `su`: the programs, each with its user, directory, environment, words and input, where the
builtins and utilities `cd`, `export`, `printf '%s'`, `base64 -d` and `su` do what they do and every other command is a program.  A command
line is a list of pipelines between `;`, `&&` and `||`, without redirections; a command with another form does nothing and fails.
-/

namespace ProxmoxTool.Posix

open Utf8 (Bytes)

/-- A program that runs. -/
structure Program where
  user : Text
  dir : Text
  env : List Text
  argv : List Text
  input : Bytes
  deriving DecidableEq

/-- The accounts with their home directories, the directory that a path names seen from another one, and what a program prints and whether
it succeeds. -/
structure Machine where
  passwd : Text → Option Text
  directory : Text → Text → Option Text
  output : Program → Bytes
  succeeds : Program → Bool
  absolute : ∀ user home, passwd user = some home → home.head? = some '/'

structure Ran where
  programs : List Program := []
  out : Bytes := []
  ok : Bool
  dir : Text

namespace Machine

variable (m : Machine)

/-! ### Words -/

/-- The home directory that a leading `~` or `~name` stands for. -/
def tilde (user t : Text) : Text :=
  if t.head? = some '~' then
    let name := t.tail.takeWhile (· ≠ '/')
    match m.passwd (if name = [] then user else name) with
    | some home => home ++ t.tail.drop name.length
    | none => t
  else t

def isUnquoted : Piece → Bool
  | .char quoted _ => !quoted
  | .param _ _ => false

/-- The text of a word; a word with a leading `~` and quotes is not read. -/
def expand (user : Text) (w : Word) : Option Text :=
  if w.head? = some (.char false '~') then if w.all isUnquoted then (w.mapM Piece.literal).map (m.tilde user) else none
  else w.mapM Piece.literal

/-! ### Commands -/

/-- A command with its environment, run by a user in a directory. -/
abbrev Call := Text → Text → List Text → List Text → Bytes → Ran

/-- `export` takes its words as they are, and only changes the environment of the shell. -/
def runSimple (call : Call) (user dir : Text) (s : Simple) (input : Bytes) : Ran :=
  if s.redirects ≠ [] then { ok := false, dir := dir }
  else if s.words.head? = some (unquoted "export".toList) then { ok := true, dir := dir }
  else
    match s.assignments.mapM Word.literal, s.words.mapM (m.expand user) with
    | some env, some argv => call user dir env argv input
    | _, _ => { ok := false, dir := dir }

/-- Every command of a pipeline of more than one runs in a shell of its own. -/
def runPipeline (call : Call) (user dir : Text) : List Simple → Bytes → Ran
  | [], _ => { ok := false, dir := dir }
  | [s], input => m.runSimple call user dir s input
  | s :: s' :: rest, input =>
    let first := m.runSimple call user dir s input
    let behind := runPipeline call user dir (s' :: rest) first.out
    { behind with programs := first.programs ++ behind.programs, dir := dir }

/-- The pipelines of a command line, each with the operator behind it. -/
def pipelines : List (Simple × Op) → List (List Simple × Op)
  | [] => []
  | (s, o) :: rest =>
    if o = .pipe then
      match pipelines rest with
      | [] => [([s], .semi)]
      | (p, o') :: ps => (s :: p, o') :: ps
    else ([s], o) :: pipelines rest

/-- A pipeline behind `&&` runs if the one before has succeeded, and one behind `||` if it has failed. -/
def runList (call : Call) (user : Text) (input : Bytes) : Op → Bool → Text → List (List Simple × Op) → Ran
  | _, ok, dir, [] => { ok := ok, dir := dir }
  | before, ok, dir, (p, o) :: rest =>
    if (before = .andIf ∧ ok = false) ∨ (before = .orIf ∧ ok = true) then runList call user input o ok dir rest
    else
      let first := m.runPipeline call user dir p input
      let behind := runList call user input o first.ok first.dir rest
      { behind with programs := first.programs ++ behind.programs, out := first.out ++ behind.out }

def runText (call : Call) (user dir t : Text) (input : Bytes) : Ran :=
  match parse t with
  | some cmds => m.runList call user input .semi true dir (pipelines cmds)
  | none => { ok := false, dir := dir }

/-! ### `su` -/

structure SuArgs where
  login : Bool := false
  shell : Option Text := none
  command : Option Text := none
  operands : List Text := []

def suWord (a : SuArgs) (w : Text) : Option SuArgs :=
  if w = "-l".toList then some { a with login := true }
  else if isOption w then
    if w.take 2 = "-c".toList ∧ w.length ≠ 2 then some { a with command := some (w.drop 2) }
    else if w.take 2 = "-s".toList ∧ w.length ≠ 2 then some { a with shell := some (w.drop 2) }
    else none
  else some { a with operands := a.operands ++ [w] }

/-- The arguments of `su`; those with other options than `-c`, `-l` and `-s` are not read. -/
def suArgs (a : SuArgs) : List Text → Option SuArgs
  | [] => some a
  | [w] => suWord a w
  | w :: v :: rest =>
    if w = "-c".toList then suArgs { a with command := some v } rest
    else if w = "-s".toList then suArgs { a with shell := some v } rest
    else (suWord a w).bind fun a => suArgs a (v :: rest)

/-- The first operand may be a `-` for a login; the next one is the user. -/
def suUser (a : SuArgs) : Option (Bool × Text) :=
  match a.operands with
  | [] => some (a.login, "root".toList)
  | ['-'] :: [] => some (true, "root".toList)
  | ['-'] :: [user] => some (true, user)
  | [user] => some (a.login, user)
  | _ => none

/-- A command of a shell; the number bounds how deep `su` goes.  Only root changes users, and a shell that `-s` names is a program. -/
def call : Nat → Call
  | 0, _, dir, _, _, _ => { ok := false, dir := dir }
  | n + 1, user, dir, env, argv, input =>
    match argv with
    | [] => { ok := true, dir := dir }
    | name :: args =>
      if name = "cd".toList then
        match args with
        | [path] =>
          match if path = ['-'] || isOption path then none else m.directory dir path with
          | some d => { ok := true, dir := d }
          | none => { ok := false, dir := dir }
        | _ => { ok := false, dir := dir }
      else if name = "printf".toList then
        match args with
        | [format, t] => if format = "%s".toList then { out := Utf8.encode t, ok := true, dir := dir } else { ok := false, dir := dir }
        | _ => { ok := false, dir := dir }
      else if name = "base64".toList then
        match if args = ["-d".toList] then base64Decode input else none with
        | some bytes => { out := bytes, ok := true, dir := dir }
        | none => { ok := false, dir := dir }
      else if name = "su".toList then
        match (suArgs {} args).bind fun a => (suUser a).map fun u => (a, u) with
        | some (a, login, target) =>
          match if user = "root".toList then m.passwd target else none, a.command with
          | some home, some command =>
            let start := if login then home else dir
            match a.shell with
            | none => { m.runText (call n) target start command input with dir := dir }
            | some shell => { programs := [⟨target, start, [], [shell, "-c".toList, command], input⟩], ok := true, dir := dir }
          | _, _ => { ok := false, dir := dir }
        | none => { ok := false, dir := dir }
      else
        let p : Program := ⟨user, dir, env, name :: args, input⟩
        { programs := [p], out := m.output p, ok := m.succeeds p, dir := dir }

/-- What a shell of root runs for a command line. -/
def shell (depth : Nat) (dir t : Text) (input : Bytes) : Ran := m.runText (m.call depth) "root".toList dir t input

/-! ### What is known of a word or a command -/

theorem tilde_of_ne (user : Text) {t : Text} (h : t.head? ≠ some '~') : m.tilde user t = t := if_neg h

/-- A word without quotes whose characters mean nothing but a home directory. -/
theorem expand_unquoted (user : Text) {t : Text} (h : ∀ c ∈ t, c = '~' ∨ isInert c = true) :
    m.expand user (unquoted t) = some (m.tilde user t) := by
  have hliteral : (unquoted t).mapM Piece.literal = some t := by
    refine mapM_literal rfl fun c hc => if_neg ?_
    rcases h c hc with rfl | hinert
    · decide
    · simp only [isInert, Bool.not_eq_true', Bool.or_eq_false_iff, decide_eq_false_iff_not] at hinert
      tauto
  have hall : (unquoted t).all isUnquoted = true := by
    simp [unquoted, isUnquoted]
  rw [expand, hall, if_pos rfl, hliteral]
  split_ifs with htilde
  · rfl
  · rw [tilde_of_ne]
    cases t with
    | nil => simp
    | cons c t => simpa [unquoted] using htilde

theorem expand_quoted (user t : Text) : m.expand user (quoted t) = some t := by
  have hhead : (quoted t).head? ≠ some (.char false '~') := by
    cases t <;> simp [quoted]
  rw [expand, if_neg hhead]
  exact mapM_literal rfl fun c _ => rfl

variable {call : Call} {user dir : Text} {input : Bytes}

theorem runSimple_of {s : Simple} {env argv : List Text} (hredirects : s.redirects = [])
    (hexport : s.words.head? ≠ some (unquoted "export".toList)) (henv : s.assignments.mapM Word.literal = some env)
    (hargv : s.words.mapM (m.expand user) = some argv) : m.runSimple call user dir s input = call user dir env argv input := by
  unfold runSimple
  rw [if_neg (not_not_intro hredirects), if_neg hexport, henv, hargv]

/-- Whether the pipeline behind an operator is passed over. -/
def Skips (before : Op) (ok : Bool) : Prop := (before = .andIf ∧ ok = false) ∨ (before = .orIf ∧ ok = true)

theorem runList_skip {before o : Op} {ok : Bool} (h : Skips before ok) (p : List Simple) (rest : List (List Simple × Op)) :
    m.runList call user input before ok dir ((p, o) :: rest) = m.runList call user input o ok dir rest := by
  rw [runList]
  exact if_pos h

theorem runList_run {before o : Op} {ok : Bool} (h : ¬ Skips before ok) {p : List Simple} {first : Ran}
    (hfirst : m.runPipeline call user dir p input = first) (rest : List (List Simple × Op)) :
    (m.runList call user input before ok dir ((p, o) :: rest)).programs =
      first.programs ++ (m.runList call user input o first.ok first.dir rest).programs := by
  subst hfirst
  rw [runList]
  exact congrArg Ran.programs (if_neg h)

end Machine

end ProxmoxTool.Posix
