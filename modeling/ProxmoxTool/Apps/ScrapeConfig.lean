import Mathlib
import ProxmoxTool.Lib.YamlBlock

/-!
# The scrape jobs of Prometheus

The text that `_regenerate_prometheus_config` writes, with `_slugify_job_name`, `_dedupe_job_name`, `_generate_prometheus_yml` and
`get_unpoller_scrape_config`, what is read of it as YAML, and what it should say.

All jobs are added, under names that are in use once (`exists_addJobs`), and the groups by type have all the targets (`perm_sortedTypes`).
-/

namespace ProxmoxTool.ScrapeConfig

/-! ### The database -/

structure Guest where
  id : Int
  ipAddress : Option Text
  deriving DecidableEq

structure ProxmoxHost where
  id : Int
  name : Text
  hostname : Text
  ipmiAddress : Option Text

/-- A row of `exporter_instances` or of `host_exporter_instances`, of the guest or the host with the id. -/
structure ExporterInstance where
  targetId : Int
  exporterType : Text
  port : Int
  status : Text

/-- `authToken` is what `get_secret_setting` gives. -/
structure Database where
  guests : List Guest
  hosts : List ProxmoxHost
  exporters : List ExporterInstance
  hostExporters : List ExporterInstance
  settings : Dict Text Text
  authToken : Text

/-- `Setting.get`. -/
def Database.setting (db : Database) (key default : String) : Text := (db.settings.get? key.toList).getD default.toList

/-- `Guest.query.get(int(id))`, if the setting is set. -/
def Database.guestOf (db : Database) (key : String) : Option Guest :=
  (parseInt (db.setting key "")).bind fun id => db.guests.find? fun guest => guest.id = id

def Database.installed (db : Database) : List (ExporterInstance × Guest) :=
  (db.exporters.filter fun exp => exp.status = "installed".toList).filterMap fun exp =>
    (db.guests.find? fun guest => guest.id = exp.targetId).map fun guest => (exp, guest)

def Database.hostInstalled (db : Database) : List (ExporterInstance × ProxmoxHost) :=
  (db.hostExporters.filter fun exp => exp.status = "installed".toList).filterMap fun exp =>
    (db.hosts.find? fun host => host.id = exp.targetId).map fun host => (exp, host)

/-! ### Exporters -/

structure ExporterInfo where
  jobName : Text
  defaultPort : Int
  builtin : Bool := false
  hostLevel : Bool := false

def jitsiJvb : ExporterInfo := { jobName := "jitsi_jvb".toList, defaultPort := 8080, builtin := true }

/-- `KNOWN_EXPORTERS`. -/
def knownExporters : List (Text × ExporterInfo) :=
  [("node_exporter".toList, { jobName := "node".toList, defaultPort := 9100 }),
    ("postgres_exporter".toList, { jobName := "postgres".toList, defaultPort := 9187 }),
    ("redis_exporter".toList, { jobName := "redis".toList, defaultPort := 9121 }),
    ("elasticsearch_exporter".toList, { jobName := "elasticsearch".toList, defaultPort := 9114 }),
    ("jitsi_jvb".toList, jitsiJvb),
    ("ipmi_exporter".toList, { jobName := "ipmi".toList, defaultPort := 9290, hostLevel := true })]

/-- `BUILTIN_EXPORTERS`. -/
def builtinExporters : List (Text × ExporterInfo) := [("mastodon".toList, { jobName := "mastodon".toList, defaultPort := 9394 })]

/-- The job of a type, or a job with its name. -/
def jobNameOf (etype : Text) : Text :=
  match (knownExporters.lookup etype).or (builtinExporters.lookup etype) with
  | some info => info.jobName
  | none => etype

section

variable (lower : Text → Text)

/-- An address that is set, and that is none of the words for automatic ones. -/
def usable (ip : Option Text) : Option Text :=
  ip.filter fun ip => ip ≠ [] && lower ip ∉ ["dhcp".toList, "dhcp6".toList, "auto".toList]

def address (ip : Text) (port : Int) : Text := ip ++ ':' :: intText port

/-- The exporters of guests, with their types. -/
def guestTargets (db : Database) : List (Text × Text) :=
  db.installed.filterMap fun p => (usable lower p.2.ipAddress).map fun ip => (p.1.exporterType, address ip p.1.port)

def isIpmi (exp : ExporterInstance) : Bool := exp.exporterType = "ipmi_exporter".toList

def hostTargets (db : Database) : List (Text × Text) :=
  (db.hostInstalled.filter fun p => !isIpmi p.1).map fun p => (p.1.exporterType, address p.2.hostname p.1.port)

/-- The bridge of Jitsi. -/
def jitsiTargets (db : Database) : List (Text × Text) :=
  if db.setting "jitsi_prometheus_scrape" "false" = "true".toList then
    match (db.guestOf "jitsi_guest_id").bind fun guest => usable lower guest.ipAddress with
    | some ip => [("jitsi_jvb".toList, address ip jitsiJvb.defaultPort)]
    | none => []
  else []

/-- `by_type.setdefault(etype, []).append(target)`. -/
def addTarget (byType : Dict Text (List Text)) (target : Text × Text) : Dict Text (List Text) :=
  byType.set target.1 ((byType.get? target.1).getD [] ++ [target.2])

def byType (db : Database) : Dict Text (List Text) := (guestTargets lower db ++ hostTargets db ++ jitsiTargets lower db).foldl addTarget []

structure IpmiTarget where
  bmcIp : Text
  hostIp : Text
  port : Int
  hostName : Text

/-- `host.ipmi_address or host.hostname`. -/
def bmcOf (host : ProxmoxHost) : Text :=
  match host.ipmiAddress with
  | some ip => if ip = [] then host.hostname else ip
  | none => host.hostname

def ipmiTargets (db : Database) : List IpmiTarget :=
  (db.hostInstalled.filter fun p => isIpmi p.1).map fun p => ⟨bmcOf p.2, p.2.hostname, p.1.port, p.2.name⟩

/-! ### Job names -/

def isSlugChar (c : Char) : Bool := ('a' ≤ c && c ≤ 'z') || c.isDigit || c = '_' || c = '-'

/-- `_SLUG_RE.sub("_", t)`; `inRun` is true behind a character that is replaced. -/
def replaceRuns (inRun : Bool) : Text → Text
  | [] => []
  | c :: t =>
    if isSlugChar c then c :: replaceRuns false t
    else if inRun then replaceRuns true t
    else '_' :: replaceRuns true t

/-- `t.strip("_")`. -/
def stripUnderscores (t : Text) : Text := rstripChar '_' (t.dropWhile (· = '_'))

/-- `_slugify_job_name`. -/
def slugifyJobName (text : Text) : Text :=
  let slug := stripUnderscores (replaceRuns false (lower (strip text)))
  if slug = [] then "unnamed".toList else slug

/-- The loop of `_dedupe_job_name`. -/
def dedupeLoop (base : Text) (used : List Text) : Nat → Nat → Text → Option Text
  | 0, _, _ => none
  | fuel + 1, n, name => if name ∈ used then dedupeLoop base used fuel (n + 1) (base ++ '_' :: natText n) else some name

/-- `_dedupe_job_name`; there are fewer names in use than rounds. -/
def dedupeJobName (base : Text) (used : List Text) : Option Text := dedupeLoop base used (used.length + 1) 2 base

/-! ### The text -/

def quoted (t : Text) : Text := '"' :: (t ++ ['"'])

/-- A job behind an empty line. -/
def jobText (lines : List Text) : Text := '\n' :: '\n' :: joinText ['\n'] lines

def selfJob : List Text :=
  ["  - job_name: \"prometheus\"".toList,
    "    static_configs:".toList,
    "      - targets: [\"localhost:9090\"]".toList]

def typeJob (name : Text) (targets : List Text) : List Text :=
  ["  - job_name: ".toList ++ quoted name,
    "    static_configs:".toList,
    "      - targets: [".toList ++ joinText ", ".toList (targets.map quoted) ++ [']']]

def ipmiJob (name : Text) (target : IpmiTarget) : List Text :=
  ["  - job_name: ".toList ++ quoted name,
    "    scrape_interval: 60s".toList,
    "    scrape_timeout: 30s".toList,
    "    metrics_path: /ipmi".toList,
    "    params:".toList,
    "      module: [\"default\"]".toList,
    "    static_configs:".toList,
    "      - targets: [".toList ++ quoted target.bmcIp ++ [']'],
    "    relabel_configs:".toList,
    "      - source_labels: [__address__]".toList,
    "        target_label: __param_target".toList,
    "      - source_labels: [__param_target]".toList,
    "        target_label: instance".toList,
    "      - target_label: __address__".toList,
    "        replacement: ".toList ++ quoted (address target.hostIp target.port) ++ [' ']]

/-- The job of `get_unpoller_scrape_config`. -/
def getUnpollerScrapeConfig (guestIp port : Text) : List Text :=
  ["  - job_name: \"unpoller\"".toList,
    "    scrape_interval: 30s".toList,
    "    static_configs:".toList,
    "      - targets: [".toList ++ quoted (guestIp ++ ':' :: port) ++ [']']]

def authSection (authToken : Text) : List Text :=
  if authToken = [] then []
  else
    ["    authorization:".toList,
      "      type: Bearer".toList,
      "      credentials: ".toList ++ quoted authToken ++ [' ']]

def metricsJob (metricsUrl authToken : Text) : List Text :=
  ["  - job_name: \"mstdnca\"".toList,
    "    scrape_interval: 60s".toList,
    "    static_configs:".toList,
    "      - targets: [".toList ++ quoted metricsUrl ++ [']']] ++ authSection authToken

def metricsSection (metricsUrl authToken : Text) : Text :=
  if metricsUrl = [] then [] else jobText (metricsJob metricsUrl authToken)

/-- `_generate_prometheus_yml`. -/
def generatePrometheusYml (metricsUrl authToken extraScrapeConfigs : Text) : Text :=
  let scrapeConfigs :=
    joinText ['\n'] selfJob ++ metricsSection metricsUrl authToken ++ extraScrapeConfigs
  joinText ['\n']
    ["global:".toList,
      "  scrape_interval: 15s".toList,
      "  evaluation_interval: 15s".toList,
      [],
      "scrape_configs:".toList] ++ '\n' :: (scrapeConfigs ++ ['\n'])

/-- The loops that add a job for each target; `none` if a name is not found. -/
def addJobs {ι : Type} (base : ι → Text) (job : Text → ι → List Text) : List ι → Text × List Text → Option (Text × List Text)
  | [], extra => some extra
  | i :: is, (extraConfigs, used) =>
    (dedupeJobName (base i) used).bind fun name => addJobs base job is (extraConfigs ++ jobText (job name i), name :: used)

/-- `t <= u` of strings. -/
def textLe (t u : Text) : Bool := decide (t.map Char.toNat ≤ u.map Char.toNat)

/-- `<=` of the tuples. -/
def ipmiLe (a b : IpmiTarget) : Bool :=
  if a.bmcIp ≠ b.bmcIp then textLe a.bmcIp b.bmcIp
  else if a.hostIp ≠ b.hostIp then textLe a.hostIp b.hostIp
  else if a.port ≠ b.port then decide (a.port ≤ b.port)
  else textLe a.hostName b.hostName

def sortedTypes (db : Database) : List (Text × List Text) :=
  ((byType lower db).mergeSort fun a b => textLe a.1 b.1).map fun e => (e.1, e.2.mergeSort textLe)

def unpollerJob (db : Database) (guest : Guest) : Text :=
  if db.setting "unpoller_installed" "false" = "true".toList then
    match usable lower guest.ipAddress with
    | some ip => jobText (getUnpollerScrapeConfig ip (db.setting "unpoller_listen_port" "9130"))
    | none => []
  else []

def metricsUrl (db : Database) : Text := db.setting "prometheus_mstdnca_metrics_url" ""

/-- The text of `_regenerate_prometheus_config`; `none` if there is no guest with Prometheus. -/
def regeneratePrometheusConfig (db : Database) : Option Text :=
  (db.guestOf "prometheus_guest_id").bind fun guest =>
    (addJobs (fun e => jobNameOf e.1) (fun name e => typeJob name e.2) (sortedTypes lower db) ([], [])).bind fun extra =>
      (addJobs (fun target => "ipmi_".toList ++ slugifyJobName lower target.hostName) ipmiJob ((ipmiTargets db).mergeSort ipmiLe) extra).map
        fun extra => generatePrometheusYml (metricsUrl db) db.authToken (extra.1 ++ unpollerJob lower db guest)

end

/-! ### What the text says -/

structure Job where
  name : Text
  targets : List Text
  replacement : Option Text
  credentials : Option Text

/-- The replacement of the address. -/
def readReplacement (node : Yaml.Node) : Option Text :=
  ((node.field "relabel_configs".toList).bind Yaml.Node.asList).bind fun rules =>
    ((rules.find? fun rule => ((rule.field "target_label".toList).bind Yaml.Node.asText) = some "__address__".toList).bind fun rule =>
      rule.field "replacement".toList).bind Yaml.Node.asText

def readTargets (node : Yaml.Node) : Option (List Text) :=
  ((node.field "targets".toList).bind Yaml.Node.asList).bind fun targets => targets.mapM Yaml.Node.asText

def readJob (node : Yaml.Node) : Option Job :=
  ((node.field "job_name".toList).bind Yaml.Node.asText).bind fun name =>
    (((node.field "static_configs".toList).bind Yaml.Node.asList).bind fun configs => configs.mapM readTargets).map fun targets =>
      { name := name
        targets := targets.flatten
        replacement := readReplacement node
        credentials := ((node.field "authorization".toList).bind fun node => node.field "credentials".toList).bind Yaml.Node.asText }

/-- The jobs of a configuration. -/
def readJobs (v : Yaml.Version) (text : Text) : Option (List Job) :=
  (((Yaml.parse v text).bind fun node => node.field "scrape_configs".toList).bind Yaml.Node.asList).bind fun nodes => nodes.mapM readJob

/-- A target, with its job or, if the address is replaced, with what stands for it. -/
structure Target where
  job : Option Text
  address : Text
  replacement : Option Text

def Job.scrapes (job : Job) : List Target :=
  job.targets.map fun t => ⟨if job.replacement.isSome then none else some job.name, t, job.replacement⟩

/-- The name of a job with its token. -/
def Job.credential (job : Job) : Option (Text × Text) := job.credentials.map fun token => (job.name, token)

section

variable (lower : Text → Text)

/-- The exporter of UnPoller. -/
def unpollerTargets (db : Database) (guest : Guest) : List Target :=
  if db.setting "unpoller_installed" "false" = "true".toList then
    match usable lower guest.ipAddress with
    | some ip => [⟨some "unpoller".toList, ip ++ ':' :: db.setting "unpoller_listen_port" "9130", none⟩]
    | none => []
  else []

def metricsTargets (db : Database) : List Target :=
  if metricsUrl db = [] then [] else [⟨some "mstdnca".toList, metricsUrl db, none⟩]

/-- The targets that the database has, with the guest that Prometheus runs on. -/
def wanted (db : Database) (guest : Guest) : List Target :=
  ⟨some "prometheus".toList, "localhost:9090".toList, none⟩ :: (metricsTargets db ++
    (guestTargets lower db ++ hostTargets db ++ jitsiTargets lower db).map (fun e => ⟨some (jobNameOf e.1), e.2, none⟩) ++
    (ipmiTargets db).map (fun t => ⟨none, t.bmcIp, some (address t.hostIp t.port)⟩) ++ unpollerTargets lower db guest)

/-- The jobs say what the database says. -/
structure Says (db : Database) (guest : Guest) (jobs : List Job) : Prop where
  names : (jobs.map Job.name).Nodup
  targets : (jobs.flatMap Job.scrapes).Perm (wanted lower db guest)
  credentials : jobs.filterMap Job.credential =
    if metricsUrl db = [] ∨ db.authToken = [] then [] else [("mstdnca".toList, db.authToken)]

/-- The types of exporters that are added to guests. -/
def guestTypes : List Text :=
  (knownExporters.filter fun e => !e.2.builtin && !e.2.hostLevel).map Prod.fst ++ builtinExporters.map Prod.fst

def hostTypes : List Text := (knownExporters.filter fun e => e.2.hostLevel).map Prod.fst

/-- `_SCRAPE_TARGET_RE`. -/
def isScrapeTarget (t : Text) : Bool :=
  t ≠ [] && decide (t.length ≤ 255) && t.all fun c => c.isAlphanum || c = '.' || c = '_' || c = '-' || c = ':' || c = '/'

/-- What the forms take. -/
structure Accepted (db : Database) : Prop where
  exporters : ∀ exp ∈ db.exporters, exp.exporterType ∈ guestTypes
  hostExporters : ∀ exp ∈ db.hostExporters, exp.exporterType ∈ hostTypes
  metricsUrl : metricsUrl db = [] ∨ isScrapeTarget (metricsUrl db) = true
  authToken : ∀ c ∈ db.authToken, 32 ≤ c.toNat ∧ c.toNat ≠ 127
  listenPort : ∃ port : Int, 1 ≤ port ∧ port ≤ 65535 ∧ db.setting "unpoller_listen_port" "9130" = intText port

/-- The addresses and the host names stand for themselves between double quotes. -/
structure Quotable (v : Yaml.Version) (db : Database) (guest : Guest) : Prop where
  guests : ∀ p ∈ db.installed, ∀ ip ∈ usable lower p.2.ipAddress, Yaml.Plain v ip
  hosts : ∀ p ∈ db.hostInstalled, Yaml.Plain v p.2.hostname ∧ ∀ ip ∈ p.2.ipmiAddress, Yaml.Plain v ip
  jitsi : db.setting "jitsi_prometheus_scrape" "false" = "true".toList →
    ∀ ip ∈ (db.guestOf "jitsi_guest_id").bind fun guest => usable lower guest.ipAddress, Yaml.Plain v ip
  unpoller : db.setting "unpoller_installed" "false" = "true".toList → ∀ ip ∈ usable lower guest.ipAddress, Yaml.Plain v ip

end

/-! ### Names -/

theorem natText_injective {m n : Nat} (h : natText m = natText n) : m = n := by
  have hparse := parseNat_natText m
  rw [h, parseNat_natText] at hparse
  exact (Option.some.inj hparse).symm

/-- The name is the base, or it has a number behind it. -/
def Extends (base name : Text) : Prop := name = base ∨ ∃ m, name = base ++ '_' :: natText m

theorem of_dedupeLoop {base name name' : Text} {used : List Text} {fuel n : Nat} (h : dedupeLoop base used fuel n name = some name') :
    name' ∉ used ∧ (name' = name ∨ ∃ m, name' = base ++ '_' :: natText m) := by
  induction fuel generalizing n name with
  | zero => cases h
  | succ fuel ih =>
    rw [dedupeLoop] at h
    split_ifs at h with hmem
    · obtain ⟨hnot, hname⟩ := ih h
      exact ⟨hnot, .inr (hname.elim (fun heq => ⟨n, heq⟩) id)⟩
    · cases h
      exact ⟨hmem, .inl rfl⟩

/-- A loop that ends without a name has found all of them in use. -/
theorem mem_of_dedupeLoop_none {base name : Text} {used : List Text} {fuel n : Nat} (h : dedupeLoop base used (fuel + 1) n name = none) :
    name ∈ used ∧ ∀ i < fuel, base ++ '_' :: natText (n + i) ∈ used := by
  induction fuel generalizing n name with
  | zero =>
    rw [dedupeLoop] at h
    split_ifs at h with hmem
    exact ⟨hmem, fun i hi => absurd hi (Nat.not_lt_zero i)⟩
  | succ fuel ih =>
    rw [dedupeLoop] at h
    split_ifs at h with hmem
    obtain ⟨hfirst, hlater⟩ := ih h
    refine ⟨hmem, fun i hi => ?_⟩
    cases i with
    | zero => exact hfirst
    | succ i =>
      have hnext := hlater i (Nat.lt_of_succ_lt_succ hi)
      rwa [Nat.add_right_comm] at hnext

/-- Among more names than are in use, one is not in use. -/
theorem exists_dedupeJobName (base : Text) (used : List Text) :
    ∃ name, dedupeJobName base used = some name ∧ name ∉ used ∧ Extends base name := by
  cases hname : dedupeJobName base used with
  | some name => exact ⟨name, rfl, of_dedupeLoop hname⟩
  | none =>
    obtain ⟨hbase, hothers⟩ := mem_of_dedupeLoop_none hname
    have hinjective : Function.Injective fun i => base ++ '_' :: natText (2 + i) := by
      intro i j heq
      have htext := natText_injective (List.cons.inj (List.append_cancel_left heq)).2
      omega
    have hnodup : (base :: (List.range used.length).map fun i => base ++ '_' :: natText (2 + i)).Nodup := by
      refine List.nodup_cons.2 ⟨fun hmem => ?_, List.nodup_range.map hinjective⟩
      obtain ⟨i, -, heq⟩ := List.mem_map.1 hmem
      have hlength := congrArg List.length heq
      rw [List.length_append, List.length_cons] at hlength
      omega
    have hsubset : (base :: (List.range used.length).map fun i => base ++ '_' :: natText (2 + i)) ⊆ used := by
      refine List.cons_subset.2 ⟨hbase, fun name hmem => ?_⟩
      obtain ⟨i, hi, rfl⟩ := List.mem_map.1 hmem
      exact hothers i (List.mem_range.1 hi)
    have hle := (List.subperm_of_subset hnodup hsubset).length_le
    rw [List.length_cons, List.length_map, List.length_range] at hle
    omega

theorem dedupeJobName_of_not_mem {base : Text} {used : List Text} (h : base ∉ used) : dedupeJobName base used = some base := if_neg h

section

variable {ι : Type}

/-- All jobs are added, under new names. -/
theorem exists_addJobs (base : ι → Text) (job : Text → ι → List Text) (is : List ι) (text : Text) (used : List Text) :
    ∃ named : List (Text × ι), named.map Prod.snd = is ∧ (named.map Prod.fst).Nodup ∧
      (∀ e ∈ named, e.1 ∉ used ∧ Extends (base e.2) e.1) ∧
      addJobs base job is (text, used) = some (text ++ named.flatMap (fun e => jobText (job e.1 e.2)), (named.map Prod.fst).reverse ++ used) := by
  induction is generalizing text used with
  | nil => exact ⟨[], rfl, List.nodup_nil, fun e he => (nomatch he), by simp [addJobs]⟩
  | cons i is ih =>
    obtain ⟨name, hname, hnot, hextends⟩ := exists_dedupeJobName (base i) used
    obtain ⟨named, hsnd, hnodup, hnew, hadd⟩ := ih (text ++ jobText (job name i)) (name :: used)
    refine ⟨(name, i) :: named, by rw [List.map_cons, hsnd], List.nodup_cons.2 ⟨fun hmem => ?_, hnodup⟩, fun e he => ?_, ?_⟩
    · obtain ⟨e, he, heq⟩ := List.mem_map.1 hmem
      exact (hnew e he).1 (heq ▸ List.mem_cons_self)
    · rcases List.mem_cons.1 he with rfl | he
      · exact ⟨hnot, hextends⟩
      · exact ⟨fun hmem => (hnew e he).1 (List.mem_cons_of_mem _ hmem), (hnew e he).2⟩
    · rw [addJobs, hname, Option.bind_some, hadd]
      simp

/-- Names that are different keep their form. -/
theorem addJobs_of_nodup (base : ι → Text) (job : Text → ι → List Text) {is : List ι} (hnodup : (is.map base).Nodup) (text : Text)
    {used : List Text} (hused : ∀ i ∈ is, base i ∉ used) :
    addJobs base job is (text, used) = some (text ++ is.flatMap (fun i => jobText (job (base i) i)), (is.map base).reverse ++ used) := by
  induction is generalizing text used with
  | nil => simp [addJobs]
  | cons i is ih =>
    obtain ⟨hnot, hrest⟩ := List.nodup_cons.1 hnodup
    have hused' : ∀ j ∈ is, base j ∉ base i :: used := by
      intro j hj hmem
      rcases List.mem_cons.1 hmem with heq | hmem
      · exact hnot (heq ▸ List.mem_map_of_mem hj)
      · exact hused j (List.mem_cons_of_mem _ hj) hmem
    rw [addJobs, dedupeJobName_of_not_mem (hused i List.mem_cons_self), Option.bind_some, ih hrest _ hused']
    simp

end

/-! ### Plain texts -/

section

variable {v : Yaml.Version}

theorem between_of_isDigit {c : Char} (h : c.isDigit = true) : (32 ≤ c.toNat ∧ c.toNat ≤ 126) ∧ c ≠ '"' ∧ c ≠ '\\' := by
  obtain ⟨hlow, hhigh⟩ := toNat_of_isDigit h
  refine ⟨by omega, ?_, ?_⟩
  · rintro rfl
    cases h
  · rintro rfl
    cases h

theorem plain_intText (i : Int) : Yaml.Plain v (intText i) := by
  refine Yaml.plain_of_between fun c hc => ?_
  rcases mem_intText hc with rfl | hdigit
  · decide
  · exact between_of_isDigit hdigit

theorem plain_colon {t u : Text} (ht : Yaml.Plain v t) (hu : Yaml.Plain v u) : Yaml.Plain v (t ++ ':' :: u) := by
  have hcolon : Yaml.Plain v [':'] := Yaml.plain_of_between fun c hc => by rw [List.mem_singleton.1 hc]; decide
  exact ht.append (hcolon.append hu)

theorem plain_address {ip : Text} (h : Yaml.Plain v ip) (port : Int) : Yaml.Plain v (address ip port) := plain_colon h (plain_intText port)

theorem between_of_isSlugChar {c : Char} (h : isSlugChar c = true) : (32 ≤ c.toNat ∧ c.toNat ≤ 126) ∧ c ≠ '"' ∧ c ≠ '\\' := by
  simp only [isSlugChar, Bool.or_eq_true, Bool.and_eq_true, decide_eq_true_eq] at h
  rcases h with ((⟨hlow, hhigh⟩ | hdigit) | rfl) | rfl
  · have hlow' : 'a'.toNat ≤ c.toNat := hlow
    have hhigh' : c.toNat ≤ 'z'.toNat := hhigh
    refine ⟨⟨(by decide : 32 ≤ 'a'.toNat).trans hlow', hhigh'.trans (by decide)⟩, ?_, ?_⟩
    · rintro rfl
      revert hlow
      decide
    · rintro rfl
      revert hlow
      decide
  · exact between_of_isDigit hdigit
  · decide
  · decide

theorem isSlugChar_of_mem_replaceRuns {c : Char} {t : Text} {inRun : Bool} (h : c ∈ replaceRuns inRun t) : isSlugChar c = true := by
  induction t generalizing inRun with
  | nil => cases h
  | cons d t ih =>
    rw [replaceRuns] at h
    split_ifs at h with hslug hrun
    · rcases List.mem_cons.1 h with rfl | h
      · exact hslug
      · exact ih h
    · exact ih h
    · rcases List.mem_cons.1 h with rfl | h
      · decide
      · exact ih h

theorem mem_of_mem_stripUnderscores {c : Char} {t : Text} (h : c ∈ stripUnderscores t) : c ∈ t := by
  unfold stripUnderscores rstripChar at h
  exact (List.dropWhile_suffix _).mem (List.mem_reverse.1 ((List.dropWhile_suffix _).mem (List.mem_reverse.1 h)))

theorem isSlugChar_of_mem_slugifyJobName {lower : Text → Text} {c : Char} {t : Text} (h : c ∈ slugifyJobName lower t) :
    isSlugChar c = true := by
  unfold slugifyJobName at h
  dsimp only at h
  split_ifs at h
  · have hall : "unnamed".toList.all isSlugChar = true := by decide
    exact List.all_eq_true.1 hall c h
  · exact isSlugChar_of_mem_replaceRuns (mem_of_mem_stripUnderscores h)

/-- The name of a job for IPMI. -/
theorem plain_of_extends {base name : Text} (h : Extends base name) (hbase : Yaml.Plain v base) : Yaml.Plain v name := by
  rcases h with rfl | ⟨m, rfl⟩
  · exact hbase
  · refine hbase.append (Yaml.plain_of_between fun c hc => ?_)
    rcases List.mem_cons.1 hc with rfl | hc
    · decide
    · exact between_of_isDigit (isDigit_of_mem_natText hc)

theorem plain_ipmiName (lower : Text → Text) (t : Text) : Yaml.Plain v ("ipmi_".toList ++ slugifyJobName lower t) := by
  have hipmi : Yaml.Plain v "ipmi_".toList := by cases v <;> decide
  exact hipmi.append (Yaml.plain_of_between fun c hc => between_of_isSlugChar (isSlugChar_of_mem_slugifyJobName hc))

theorem plain_of_isScrapeTarget {t : Text} (h : isScrapeTarget t = true) : Yaml.Plain v t := by
  refine Yaml.plain_of_between fun c hc => ?_
  have hchar := List.all_eq_true.1 (Bool.and_eq_true_iff.1 h).2 c hc
  simp only [Bool.or_eq_true, decide_eq_true_eq] at hchar
  rcases hchar with ((((halnum | rfl) | rfl) | rfl) | rfl) | rfl
  · have hbetween := between_of_isAlphanum halnum
    refine ⟨by omega, ?_, ?_⟩
    · rintro rfl
      cases halnum
    · rintro rfl
      cases halnum
  · decide
  · decide
  · decide
  · decide
  · decide

end

/-! ### Targets -/

/-- The targets of a grouping, with their types. -/
def ungroup (byType : Dict Text (List Text)) : List (Text × Text) := byType.flatMap fun e => e.2.map fun t => (e.1, t)

theorem ungroup_addTarget (d : Dict Text (List Text)) (target : Text × Text) : (ungroup (addTarget d target)).Perm (ungroup d ++ [target]) := by
  obtain ⟨etype, t⟩ := target
  unfold addTarget
  dsimp only
  induction d with
  | nil => exact List.Perm.refl _
  | cons e d ih =>
    have hcons : ∀ (e : Text × List Text) d, ungroup (e :: d) = e.2.map (fun t => (e.1, t)) ++ ungroup d := fun _ _ => List.flatMap_cons
    rw [Dict.set, Dict.get?]
    split_ifs with heq
    · subst heq
      rw [hcons, hcons, Option.getD_some, List.map_append, List.append_assoc, List.append_assoc]
      exact List.perm_append_comm.append_left _
    · rw [hcons, hcons, List.append_assoc]
      exact ih.append_left _

theorem ungroup_foldl (targets : List (Text × Text)) (d : Dict Text (List Text)) :
    (ungroup (targets.foldl addTarget d)).Perm (ungroup d ++ targets) := by
  induction targets generalizing d with
  | nil =>
    rw [List.append_nil]
    exact List.Perm.refl _
  | cons target targets ih =>
    have hcons : ungroup d ++ target :: targets = ungroup d ++ [target] ++ targets := by rw [List.append_assoc, List.singleton_append]
    rw [List.foldl_cons, hcons]
    exact (ih _).trans ((ungroup_addTarget d target).append_right _)

/-- Every type has a target, and no type is there twice. -/
structure Grouping (d : Dict Text (List Text)) : Prop where
  nodup : (d.map Prod.fst).Nodup
  targets : ∀ e ∈ d, e.2 ≠ []

theorem grouping_foldl (targets : List (Text × Text)) {d : Dict Text (List Text)} (h : Grouping d) : Grouping (targets.foldl addTarget d) := by
  induction targets generalizing d with
  | nil => exact h
  | cons target targets ih =>
    refine ih ⟨Dict.nodup_keys_set h.nodup _ _, fun e he => ?_⟩
    rcases Dict.mem_set he with heq | he
    · rw [(Prod.mk.inj heq).2]
      exact List.append_ne_nil_of_right_ne_nil _ (List.cons_ne_nil _ _)
    · exact h.targets e he

section

variable {lower : Text → Text} {db : Database} {v : Yaml.Version} {guest : Guest}

theorem perm_sortedTypes (lower : Text → Text) (db : Database) :
    (ungroup (sortedTypes lower db)).Perm (guestTargets lower db ++ hostTargets db ++ jitsiTargets lower db) := by
  have hinner : ∀ e : Text × List Text, ((e.2.mergeSort textLe).map fun t => (e.1, t)).Perm (e.2.map fun t => (e.1, t)) :=
    fun e => (List.mergeSort_perm _ _).map _
  have hgroups : (ungroup (sortedTypes lower db)).Perm (ungroup (byType lower db)) := by
    unfold ungroup sortedTypes
    rw [List.flatMap_map]
    exact (List.Perm.flatMap_left _ fun e _ => hinner e).trans ((List.mergeSort_perm _ _).flatMap_right _)
  exact hgroups.trans (ungroup_foldl _ [])

theorem grouping_sortedTypes (lower : Text → Text) (db : Database) : Grouping (sortedTypes lower db) := by
  have hgrouping : Grouping (byType lower db) := grouping_foldl _ ⟨List.nodup_nil, fun e he => nomatch he⟩
  constructor
  · have hkeys : (sortedTypes lower db).map Prod.fst = ((byType lower db).mergeSort fun a b => textLe a.1 b.1).map Prod.fst := by
      rw [sortedTypes, List.map_map]
      rfl
    rw [hkeys]
    exact ((List.mergeSort_perm _ _).map _).nodup_iff.2 hgrouping.nodup
  · intro e he
    obtain ⟨e', he', rfl⟩ := List.mem_map.1 he
    have hne := hgrouping.targets e' (List.mem_mergeSort.1 he')
    intro hnil
    have hperm := List.mergeSort_perm e'.2 textLe
    rw [show e'.2.mergeSort textLe = [] from hnil] at hperm
    exact hne (List.nil_perm.1 hperm)

/-- The types that have targets. -/
def scrapedTypes : List Text := "jitsi_jvb".toList :: guestTypes

theorem mem_exporters_of_mem_installed {p : ExporterInstance × Guest} (h : p ∈ db.installed) : p.1 ∈ db.exporters := by
  obtain ⟨exp, hexp, hmap⟩ := List.mem_filterMap.1 h
  obtain ⟨guest, -, rfl⟩ := Option.map_eq_some_iff.1 hmap
  exact (List.mem_filter.1 hexp).1

theorem mem_hostExporters_of_mem_hostInstalled {p : ExporterInstance × ProxmoxHost} (h : p ∈ db.hostInstalled) : p.1 ∈ db.hostExporters := by
  obtain ⟨exp, hexp, hmap⟩ := List.mem_filterMap.1 h
  obtain ⟨host, -, rfl⟩ := Option.map_eq_some_iff.1 hmap
  exact (List.mem_filter.1 hexp).1

/-- The exporters of hosts are those for IPMI. -/
theorem Accepted.hostTargets (h : Accepted db) : hostTargets db = [] := by
  rw [ScrapeConfig.hostTargets, List.map_eq_nil_iff, List.filter_eq_nil_iff]
  intro p hp
  have htype := h.hostExporters _ (mem_hostExporters_of_mem_hostInstalled hp)
  have hipmi : ∀ etype ∈ hostTypes, etype = "ipmi_exporter".toList := by decide
  rw [isIpmi, decide_eq_true (hipmi _ htype)]
  exact Bool.false_ne_true

/-- What is scraped is of a known type, and stands for itself. -/
theorem target_facts (h : Accepted db) (hquotable : Quotable lower v db guest) {target : Text × Text}
    (htarget : target ∈ guestTargets lower db ++ hostTargets db ++ jitsiTargets lower db) :
    target.1 ∈ scrapedTypes ∧ Yaml.Plain v target.2 := by
  rw [h.hostTargets, List.append_nil] at htarget
  rcases List.mem_append.1 htarget with hguest | hjitsi
  · obtain ⟨p, hp, hmap⟩ := List.mem_filterMap.1 hguest
    obtain ⟨ip, hip, rfl⟩ := Option.map_eq_some_iff.1 hmap
    exact ⟨List.mem_cons_of_mem _ (h.exporters _ (mem_exporters_of_mem_installed hp)), plain_address (hquotable.guests p hp ip hip) _⟩
  · unfold jitsiTargets at hjitsi
    split_ifs at hjitsi with hscrape
    · split at hjitsi
      · rename_i ip hip
        rw [List.mem_singleton.1 hjitsi]
        exact ⟨List.mem_cons_self, plain_address (hquotable.jitsi hscrape ip hip) _⟩
      · cases hjitsi
    · cases hjitsi

end

end ProxmoxTool.ScrapeConfig
