import ProxmoxTool.Mastodon.Remote

/-!
# Runtime versions

`_remediate_environment`: Ruby, then Bundler, then Node.js are brought to the versions the checked-out tree asks for.  The
version patterns are searched as the source's regular expressions do; none of them needs backtracking, since what follows
a run of digits is never a digit.  Digits and letters are ASCII here.  `engines` stands for
`json.loads(out).get("engines", {}).get("node", "")`, `none` where it raises.  The functions take `ssh.execute` as an argument:
`Mastodon/Upgrade` gives them the outcomes of a run, `Mastodon/Commands` what it asks of either guest.
-/

namespace ProxmoxTool.Mastodon

/-- `re.search`: the first position at which `m` matches. -/
def search (m : Text → Option Text) : Text → Option Text
  | [] => m []
  | c :: t => (m (c :: t)).orElse fun _ => search m t

/-- `(\d+)` at the start. -/
def digits (t : Text) : Option Text :=
  let ds := t.takeWhile Char.isDigit
  if ds.isEmpty then none else some ds

/-- `\d+\.` and then `m`, at the start. -/
def digitsDot (m : Text → Option Text) (t : Text) : Option Text := do
  let ds ← digits t
  match t.drop ds.length with
  | '.' :: rest => (m rest).map fun more => ds ++ '.' :: more
  | _ => none

/-- `\d+\.\d+\.\d+`. -/
def version3 : Text → Option Text := digitsDot (digitsDot digits)

/-- `\d+\.\d+[\.\d]*`. -/
def version2 : Text → Option Text :=
  digitsDot fun t => (digits t).map fun _ => t.takeWhile fun c => c.isDigit || c == '.'

/-- The text `lead`, white space, and then `m`. -/
def afterLead (lead : Text) (m : Text → Option Text) (t : Text) : Option Text :=
  if lead.isPrefixOf t then
    match t.drop lead.length with
    | c :: rest => if isSpace c then m ((c :: rest).dropWhile isSpace) else none
    | [] => none
  else none

/-- `_RUBY_VERSION_RE`: `\d+\.\d+\.\d+(?:-[\w.]+)?`, the whole text. -/
def plainRubyVersion (t : Text) : Bool :=
  match version3 t with
  | none => false
  | some v => match t.drop v.length with
    | [] => true
    | '-' :: rest => !rest.isEmpty && rest.all fun c => c.isAlphanum || c == '_' || c == '.'
    | _ => false

def number (t : Text) : Nat := Nat.ofDigitChars 10 t 0

variable {m : Type → Type} [Monad m] (execute : Site → m Reply)

/-- The installed version, asked without and then with rbenv's path. -/
def installedVersion (site : Bool → Site) (pattern : Text → Option Text) : m (Option Text) := do
  let r ← execute (site false)
  match if r.ok then search pattern r.out else none with
  | some v => return some v
  | none =>
    let r ← execute (site true)
    return if r.ok then search pattern r.out else none

/-- `_remediate_ruby`. -/
def remediateRuby : m Bool := do
  let r ← execute .rubyVersionFile
  let required := strip r.out
  if required.isEmpty || !plainRubyVersion required then return false
  let installed ← installedVersion execute .ruby (afterLead ['r', 'u', 'b', 'y'] version3)
  if installed = some required then return true
  let r ← execute .rubyInstall
  if !r.ok then return false
  let r ← execute .rubyVerify
  return r.ok && search (afterLead ['r', 'u', 'b', 'y'] version3) r.out == some required

/-- `_bundler_from_lock`. -/
def bundlerFromLock : Text → Option Text :=
  search (afterLead ['B', 'U', 'N', 'D', 'L', 'E', 'D', ' ', 'W', 'I', 'T', 'H'] fun t =>
    let v := t.takeWhile fun c => c.isDigit || c == '.'
    if v.isEmpty then none else some v)

/-- `_remediate_bundler`. -/
def remediateBundler : m Bool := do
  let r ← execute .gemfileLock
  let required := bundlerFromLock r.out
  let matched ← match required with
    | none => pure false
    | some v => do
      let installed ← installedVersion execute .bundler version2
      pure (installed = some v)
  if matched then return true
  let r ← execute .gemInstall
  return r.ok

/-- `_node_major_from_range`. -/
def nodeMajorFromRange (range : Text) : Option Nat := (search digits range).map number

/-- `_remediate_node`. -/
def remediateNode (requiredMajor : Option Nat) (installedNode : Option Text) : m Bool := do
  match requiredMajor with
  | none => return true
  | some major =>
    if (installedNode.bind digits).map number = some major then return true
    let r ← execute .nodeSetup
    if !r.ok then return false
    let r ← execute .nodeVerify
    return r.ok && (search digits r.out).map number == some major

/-- `_remediate_environment`. -/
def remediateEnvironment (engines : Text → Option Text) : m Bool := do
  if !(← remediateRuby execute) then return false
  if !(← remediateBundler execute) then return false
  let r ← execute .packageJson
  let requiredMajor := if r.ok && !(strip r.out).isEmpty then (engines r.out).bind nodeMajorFromRange else none
  let r ← execute .node
  let installedNode := if r.ok then search version3 (strip r.out) else none
  remediateNode execute requiredMajor installedNode

end ProxmoxTool.Mastodon
