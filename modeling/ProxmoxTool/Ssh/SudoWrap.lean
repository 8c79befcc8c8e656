import ProxmoxTool.Lib.Posix

/-!
# Commands under sudo

`sudo_wrap` of `clients/ssh_client.py`.  A shell that parses the wrapped command sees one simple command, whose last three words are `sh`,
`-c` and the command (`parse_sudoWrap`).
-/

namespace ProxmoxTool.Ssh

open Posix

/-- `needs_sudo`. -/
def needsSudo (username : Text) : Bool := username ≠ "root".toList

/-- `sudo_wrap`. -/
def sudoWrap (username : Text) (sudoPassword : Option Text) (command : Text) : Text :=
  if !needsSudo username then command
  else
    let escapedCmd := replaceQuote "'\\''".toList command
    if sudoPassword.any (· ≠ []) then "sudo -S -p '' sh -c '".toList ++ escapedCmd ++ "'".toList
    else "sudo -n sh -c '".toList ++ escapedCmd ++ "'".toList

/-- The words in front of `sh`. -/
def sudoWords (sudoPassword : Option Text) : List Text :=
  if sudoPassword.any (· ≠ []) then ["sudo".toList, "-S".toList, "-p".toList, []] else ["sudo".toList, "-n".toList]

/-- A text that ends between words, and a command in quotes behind it. -/
theorem parse_append_nest {front : Text} {w : Word} {ws : List Word} (hrun : run {} front = some ⟨.plain, none, (w :: ws).map .word⟩)
    (hassign : w.isAssignment = false) (hreserved : w ∉ reserved.map unquoted) {command : Text} (hnul : '\x00' ∉ front ++ nest command) :
    parse (front ++ nest command) = some [({ words := w :: (ws ++ [quoted command]) }, .semi)] := by
  rw [parse_of_run hnul ((run_append_of hrun _).trans (run_nest command _)), ← parse_words hassign hreserved]
  have hfinish : finish ⟨.plain, some (quoted command), (w :: ws).map .word⟩ = some ((w :: (ws ++ [quoted command])).map .word) := by
    simp [finish, Lexer.flush]
  rw [hfinish, Option.bind_some]

theorem sudoWrap_of_password {username : Text} (huser : needsSudo username = true) {sudoPassword : Option Text} (command : Text) :
    sudoWrap username sudoPassword command =
      (if sudoPassword.any (· ≠ []) then "sudo -S -p '' sh -c ".toList else "sudo -n sh -c ".toList) ++ nest command := by
  rw [sudoWrap, huser, Bool.not_true, if_neg Bool.false_ne_true]
  dsimp only
  split_ifs <;> simp [nest]

/-- A shell sees one simple command, which hands the command as one word to `sh -c`. -/
theorem parse_sudoWrap {username : Text} (huser : needsSudo username = true) (sudoPassword : Option Text) {command : Text}
    (hnul : '\x00' ∉ command) :
    ∃ s, parse (sudoWrap username sudoPassword command) = some [(s, .semi)] ∧ s.assignments = [] ∧ s.redirects = [] ∧
      s.argv = some (sudoWords sudoPassword ++ ["sh".toList, "-c".toList, command]) := by
  have hnest : '\x00' ∉ nest command := not_mem_nest (by decide) hnul
  rw [sudoWrap_of_password huser, sudoWords]
  split_ifs with hpassword
  · have hrun : run {} "sudo -S -p '' sh -c ".toList = some ⟨.plain, none, [unquoted "sudo".toList, unquoted "-S".toList,
      unquoted "-p".toList, [], unquoted "sh".toList, unquoted "-c".toList].map .word⟩ := by decide
    have hfree : '\x00' ∉ "sudo -S -p '' sh -c ".toList ++ nest command := by
      rw [List.mem_append, not_or]
      exact ⟨by decide, hnest⟩
    refine ⟨_, parse_append_nest hrun (by decide) (by decide) hfree, rfl, rfl, ?_⟩
    simp only [Simple.argv, List.cons_append, List.nil_append, List.mapM_cons, List.mapM_nil, literal_quoted]
    rfl
  · have hrun : run {} "sudo -n sh -c ".toList = some ⟨.plain, none, [unquoted "sudo".toList, unquoted "-n".toList,
      unquoted "sh".toList, unquoted "-c".toList].map .word⟩ := by decide
    have hfree : '\x00' ∉ "sudo -n sh -c ".toList ++ nest command := by
      rw [List.mem_append, not_or]
      exact ⟨by decide, hnest⟩
    refine ⟨_, parse_append_nest hrun (by decide) (by decide) hfree, rfl, rfl, ?_⟩
    simp only [Simple.argv, List.cons_append, List.nil_append, List.mapM_cons, List.mapM_nil, literal_quoted]
    rfl

end ProxmoxTool.Ssh
