import ProxmoxTool.Lib.Base64
import ProxmoxTool.Lib.Posix

/-!
# Running a pipeline

What a host does with a command line that is one pipeline of `echo`, `base64 -d`, `install`, `sudo` and `sh -c`, with its output in a file or
at the end of one.  What the host lets a user do is a part of it: the paths that can be written, the modes and owners that `install` can
give, and whether `sudo` goes on.  A command line of another kind does nothing here.
-/

namespace ProxmoxTool.Posix

open Utf8 (Bytes)

/-- The files of a host, which has no directories, and what it lets a user do, who may be root. -/
structure Host where
  files : Text → Option Bytes
  writable : Bool → Text → Bool
  grants : Bool → Option Text → Option Text → Option Text → Bool
  sudoer : Bool

def Host.write (h : Host) (path : Text) (bytes : Bytes) : Host :=
  { h with files := fun p => if p = path then some bytes else h.files p }

structure Result where
  host : Host
  out : Bytes
  status : Nat

/-- A command that does nothing and fails. -/
def refused (h : Host) : Result := ⟨h, [], 1⟩

/-! ### Utilities -/

def echo (args : List Text) : Bytes := Utf8.encode (joinText [' '] args ++ ['\n'])

/-- `base64 -d`, which passes over ends of line. -/
def base64Decode (input : Bytes) : Option Bytes := Base64.decode ((Utf8.decodeReplace input).filter (· ≠ '\n'))

structure InstallArgs where
  mode : Option Text := none
  owner : Option Text := none
  group : Option Text := none
  operands : List Text := []

/-- A word that is taken for options. -/
def isOption (w : Text) : Bool := w.head? = some '-' && w ≠ ['-']

/-- The arguments of `install`; those with other options than `-m`, `-o` and `-g` are not read. -/
def installArgs (a : InstallArgs) : List Text → Option InstallArgs
  | [] => some a
  | [w] => if isOption w then none else some { a with operands := a.operands ++ [w] }
  | w :: v :: rest =>
    if w = "-m".toList then installArgs { a with mode := some v } rest
    else if w = "-o".toList then installArgs { a with owner := some v } rest
    else if w = "-g".toList then installArgs { a with group := some v } rest
    else if isOption w then none
    else installArgs { a with operands := a.operands ++ [w] } (v :: rest)

def install (root : Bool) (args : List Text) (h : Host) (input : Bytes) : Result :=
  match installArgs {} args with
  | some ⟨mode, owner, group, [source, target]⟩ =>
    match if source = "/dev/stdin".toList then some input else h.files source with
    | some bytes => if h.writable root target && h.grants root mode owner group then ⟨h.write target bytes, [], 0⟩ else refused h
    | none => refused h
  | _ => refused h

/-- The command behind the options of `sudo`, and whether a password is read. -/
def sudoArgs (reads : Bool) : List Text → Option (Bool × List Text)
  | [] => none
  | [w] => if isOption w then none else some (reads, [w])
  | w :: v :: rest =>
    if w = "-n".toList then sudoArgs reads (v :: rest)
    else if w = "-S".toList then sudoArgs true (v :: rest)
    else if w = "-p".toList then sudoArgs reads rest
    else if isOption w then none
    else some (reads, w :: v :: rest)

/-! ### Commands -/

/-- A command of the given words, run as root or not. -/
abbrev Exec := Bool → List Text → Host → Bytes → Result

/-- A simple command with at most one redirection, of its output. -/
def runSimple (exec : Exec) (root : Bool) (s : Simple) (h : Host) (input : Bytes) : Result :=
  match s.assignments, s.argv, s.redirects with
  | [], some argv, [] => exec root argv h input
  | [], some argv, [(o, w)] =>
    match w.literal with
    | some path =>
      if h.writable root path then
        let r := exec root argv h input
        if o = .great then { r with host := r.host.write path r.out, out := [] }
        else if o = .dgreat then { r with host := r.host.write path ((r.host.files path).getD [] ++ r.out), out := [] }
        else refused h
      else refused h
    | none => refused h
  | _, _, _ => refused h

/-- The output of each command is the input of the next. -/
def runPipeline (exec : Exec) (root : Bool) : List Simple → Host → Bytes → Result
  | [], h, _ => refused h
  | [s], h, input => runSimple exec root s h input
  | s :: rest, h, input =>
    let r := runSimple exec root s h input
    runPipeline exec root rest r.host r.out

/-- The commands, if nothing but pipes stands between them. -/
def pipelineOf (cmds : List (Simple × Op)) : Option (List Simple) :=
  if (cmds.dropLast.all fun c => c.2 = .pipe) ∧ (cmds.getLast?.any fun c => c.2 = .semi || c.2 = .newline) then some (cmds.map Prod.fst)
  else none

def runText (exec : Exec) (root : Bool) (t : Text) (h : Host) (input : Bytes) : Result :=
  match (parse t).bind pipelineOf with
  | some ss => runPipeline exec root ss h input
  | none => refused h

/-- `sudo` and `sh -c` run another command; the number bounds how deep. -/
def exec : Nat → Exec
  | 0, _, _, h, _ => refused h
  | n + 1, root, argv, h, input =>
    match argv with
    | [] => ⟨h, [], 0⟩
    | name :: args =>
      if name = "echo".toList then ⟨h, echo args, 0⟩
      else if name = "base64".toList ∧ args = ["-d".toList] then
        match base64Decode input with
        | some bytes => ⟨h, bytes, 0⟩
        | none => refused h
      else if name = "install".toList then install root args h input
      else if name = "sudo".toList then
        match sudoArgs false args with
        | some (reads, argv) =>
          if h.sudoer || root then exec n true argv h (if reads then (input.dropWhile (· ≠ 10)).tail else input) else refused h
        | none => refused h
      else if name = "sh".toList then
        match args with
        | [option, command] => if option = "-c".toList then runText (exec n) root command h input else refused h
        | _ => refused h
      else refused h

/-- A shell that is given a command line. -/
def shell (depth : Nat) (root : Bool) (t : Text) (h : Host) (input : Bytes) : Result := runText (exec depth) root t h input

/-! ### One command -/

/-- An encoding has no ends of line to pass over. -/
theorem filter_encode (bs : Bytes) : (Base64.encode bs).filter (· ≠ '\n') = Base64.encode bs := by
  refine List.filter_eq_self.2 fun c hc => decide_eq_true ?_
  rintro rfl
  exact absurd (List.all_eq_true.1 (Base64.all_isChar_encode bs) _ hc) (by decide)

theorem base64Decode_encode (bs : Bytes) : base64Decode (Utf8.encode (Base64.encode bs)) = some bs := by
  rw [base64Decode, Utf8.decodeReplace_encode, filter_encode, Base64.decode_encode]

variable (n : Nat) (root : Bool) (h : Host) (input : Bytes)

theorem exec_echo (args : List Text) : exec (n + 1) root ("echo".toList :: args) h input = ⟨h, echo args, 0⟩ := rfl

theorem exec_base64 {bytes : Bytes} (hdecode : base64Decode input = some bytes) :
    exec (n + 1) root ["base64".toList, "-d".toList] h input = ⟨h, bytes, 0⟩ := by
  change (match base64Decode input with
    | some bytes => Result.mk h bytes 0
    | none => refused h) = _
  rw [hdecode]

theorem exec_install (args : List Text) : exec (n + 1) root ("install".toList :: args) h input = install root args h input := rfl

theorem exec_sudo {args argv : List Text} {reads : Bool} (hargs : sudoArgs false args = some (reads, argv)) :
    exec (n + 1) root ("sudo".toList :: args) h input =
      if h.sudoer || root then exec n true argv h (if reads then (input.dropWhile (· ≠ 10)).tail else input) else refused h := by
  change (match sudoArgs false args with
    | some (reads, argv) =>
      if h.sudoer || root then exec n true argv h (if reads then (input.dropWhile (· ≠ 10)).tail else input) else refused h
    | none => refused h) = _
  rw [hargs]

theorem exec_sh (command : Text) : exec (n + 1) root ["sh".toList, "-c".toList, command] h input = shell n root command h input := rfl

theorem runPipeline_cons (exec : Exec) (s s' : Simple) (ss : List Simple) :
    runPipeline exec root (s :: s' :: ss) h input =
      runPipeline exec root (s' :: ss) (runSimple exec root s h input).host (runSimple exec root s h input).out := rfl

theorem runSimple_words {exec : Exec} {ws : List Word} {argv : List Text} (hargv : ws.mapM Word.literal = some argv) :
    runSimple exec root { words := ws } h input = exec root argv h input := by
  simp only [runSimple, Simple.argv, hargv]

theorem runSimple_redirect {exec : Exec} {ws : List Word} {argv : List Text} (hargv : ws.mapM Word.literal = some argv) {w : Word}
    {path : Text} (hpath : w.literal = some path) (hhost : (exec root argv h input).host = h) {o : Op} (ho : o = .great ∨ o = .dgreat) :
    (runSimple exec root { words := ws, redirects := [(o, w)] } h input).host =
      if h.writable root path then
        h.write path ((if o = .great then [] else (h.files path).getD []) ++ (exec root argv h input).out)
      else h := by
  simp only [runSimple, Simple.argv, hargv, hpath]
  split_ifs with hwritable hgreat hdgreat
  · rw [List.nil_append, hhost]
  · rw [hhost]
  · exact absurd ho (by tauto)
  · rfl

end ProxmoxTool.Posix
