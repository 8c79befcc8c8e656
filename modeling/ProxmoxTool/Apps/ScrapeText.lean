import ProxmoxTool.Apps.ScrapeConfig

/-!
# How the scrape jobs are read

The lines of each job as YAML, and the job that they are.  Texts that stand for themselves between double quotes come back as they are
(`isJob_typeJob`, `isJob_ipmiJob`), and what is read of a whole configuration is what is read of its jobs (`readJobs_generatePrometheusYml`).
-/

namespace ProxmoxTool.ScrapeConfig

/-! ### Lines -/

section

variable {v : Yaml.Version}

theorem reads_jobName {name : Text} (h : Yaml.Plain v name) :
    Yaml.Reads v ["  - job_name: ".toList ++ quoted name] [(2, .dash), (4, .key "job_name".toList (some (.text name)))] := by
  have hkey : Yaml.IsKey "job_name".toList := by decide
  have hnil : ∀ c ∈ ([] : Text), Yaml.isBlank c = true := fun c hc => nomatch hc
  rw [String.toList_ofList] at hkey
  repeat rw [String.toList_ofList]
  exact (Yaml.entry_value hkey 4 (Yaml.written_quoted h hnil)).dash.reads

theorem reads_staticConfigs : Yaml.Reads v ["    static_configs:".toList] [(4, .key "static_configs".toList none)] := by
  have hkey : Yaml.IsKey "static_configs".toList := by decide
  rw [String.toList_ofList] at hkey
  repeat rw [String.toList_ofList]
  exact Yaml.reads_key hkey 4

theorem reads_targets {targets : List Text} (hne : targets ≠ []) (h : ∀ t ∈ targets, Yaml.Plain v t) :
    Yaml.Reads v ["      - targets: [".toList ++ joinText ", ".toList (targets.map quoted) ++ [']']]
      [(6, .dash), (8, .key "targets".toList (some (.texts targets)))] := by
  have hkey : Yaml.IsKey "targets".toList := by decide
  rw [String.toList_ofList] at hkey
  repeat rw [String.toList_ofList]
  exact (Yaml.entry_value hkey 8 (Yaml.written_texts hne h)).dash.reads

theorem reads_target {t : Text} (h : Yaml.Plain v t) :
    Yaml.Reads v ["      - targets: [".toList ++ quoted t ++ [']']] [(6, .dash), (8, .key "targets".toList (some (.texts [t])))] := by
  have hreads := reads_targets (List.cons_ne_nil t []) fun u hu => by rwa [List.mem_singleton.1 hu]
  rwa [List.map_singleton, joinText, List.intercalate_singleton] at hreads

theorem reads_scrapeInterval {w : Text} (hw : Yaml.IsWord w) :
    Yaml.Reads v ["    scrape_interval: ".toList ++ w] [(4, .key "scrape_interval".toList (some (.text w)))] := by
  have hkey : Yaml.IsKey "scrape_interval".toList := by decide
  rw [String.toList_ofList] at hkey
  repeat rw [String.toList_ofList]
  exact Yaml.reads_word hkey hw 4

/-- A text with a blank behind its quotes. -/
theorem quoted_blank (t : Text) : quoted t ++ [' '] = '"' :: (t ++ '"' :: [' ']) := by simp [quoted]

theorem written_quoted {t : Text} (h : Yaml.Plain v t) : Yaml.Written v (quoted t ++ [' ']) (.text t) := by
  have hblanks : ∀ c ∈ [' '], Yaml.isBlank c = true := fun c hc => by rw [List.mem_singleton.1 hc]; rfl
  rw [quoted_blank]
  exact Yaml.written_quoted h hblanks

theorem readValue_quoted (t : Text) : Yaml.readValue v (quoted t ++ [' ']) =
    ((Yaml.readDouble v .plain (t ++ '"' :: [' '])).map fun p => (Yaml.Value.text p.1, p.2)).bind fun p =>
      if p.2.all Yaml.isBlank then some p.1 else none := by
  rw [quoted_blank]
  rfl

/-- What is written between quotes is a text, if it is read at all. -/
theorem exists_text_of_readValue {t : Text} {value : Yaml.Value} (h : Yaml.readValue v (quoted t ++ [' ']) = some value) :
    ∃ u, value = .text u := by
  rw [readValue_quoted, Option.bind_eq_some_iff] at h
  obtain ⟨p, hp, hvalue⟩ := h
  obtain ⟨q, -, rfl⟩ := Option.map_eq_some_iff.1 hp
  split_ifs at hvalue
  exact ⟨q.1, (Option.some.inj hvalue).symm⟩

theorem plain_of_readValue {t : Text} (h : Yaml.readValue v (quoted t ++ [' ']) = some (.text t)) : Yaml.Plain v t := by
  have hquote : '"' ∉ [' '] := by decide
  rw [readValue_quoted, Option.bind_eq_some_iff] at h
  obtain ⟨p, hp, hvalue⟩ := h
  obtain ⟨⟨u, rest⟩, hread, rfl⟩ := Option.map_eq_some_iff.1 hp
  split_ifs at hvalue
  cases hvalue
  exact Yaml.plain_of_readDouble hread hquote

theorem reads_quoted {k t : Text} (hk : Yaml.IsKey k) {value : Yaml.Value} (h : Yaml.Written v (quoted t ++ [' ']) value) (n : Nat) :
    Yaml.Reads v [List.replicate n ' ' ++ (k ++ ':' :: ' ' :: (quoted t ++ [' ']))] [(n, .key k (some value))] :=
  (Yaml.entry_value hk n h).reads

theorem reads_authSection {authToken token : Text} (hne : authToken ≠ []) (h : Yaml.Written v (quoted authToken ++ [' ']) (.text token)) :
    Yaml.Reads v (authSection authToken)
      [(4, .key "authorization".toList none), (6, .key "type".toList (some (.text "Bearer".toList))),
        (6, .key "credentials".toList (some (.text token)))] := by
  have hauthorization : Yaml.IsKey "authorization".toList := by decide
  have htype : Yaml.IsKey "type".toList := by decide
  have hbearer : Yaml.IsWord "Bearer".toList := by decide
  have hcredentials : Yaml.IsKey "credentials".toList := by decide
  rw [authSection, if_neg hne]
  rw [String.toList_ofList] at hauthorization htype hbearer hcredentials
  repeat rw [String.toList_ofList]
  exact (Yaml.reads_key hauthorization 4).append ((Yaml.reads_word htype hbearer 6).append (reads_quoted hcredentials h 6))

theorem reads_params : Yaml.Reads v
    ["    scrape_timeout: 30s".toList, "    metrics_path: /ipmi".toList, "    params:".toList, "      module: [\"default\"]".toList]
    [(4, .key "scrape_timeout".toList (some (.text "30s".toList))), (4, .key "metrics_path".toList (some (.text "/ipmi".toList))),
      (4, .key "params".toList none), (6, .key "module".toList (some (.texts ["default".toList])))] := by
  have htimeout : Yaml.IsKey "scrape_timeout".toList := by decide
  have hseconds : Yaml.IsWord "30s".toList := by decide
  have hpath : Yaml.IsKey "metrics_path".toList := by decide
  have hipmi : Yaml.IsWord "/ipmi".toList := by decide
  have hparams : Yaml.IsKey "params".toList := by decide
  have hmodule : Yaml.IsKey "module".toList := by decide
  have hdefault : ∀ t ∈ ["default".toList], Yaml.Plain v t := by cases v <;> decide
  rw [String.toList_ofList] at htimeout hseconds hpath hipmi hparams hmodule hdefault
  repeat rw [String.toList_ofList]
  exact (Yaml.reads_word htimeout hseconds 4).append ((Yaml.reads_word hpath hipmi 4).append ((Yaml.reads_key hparams 4).append
    (Yaml.entry_value hmodule 6 (Yaml.written_texts (List.cons_ne_nil _ _) hdefault)).reads))

theorem reads_sourceLabels {w : Text} (hw : Yaml.IsWord w) :
    Yaml.Reads v ["      - source_labels: [".toList ++ w ++ [']']] [(6, .dash), (8, .key "source_labels".toList (some (.texts [w])))] := by
  have hkey : Yaml.IsKey "source_labels".toList := by decide
  rw [String.toList_ofList] at hkey
  repeat rw [String.toList_ofList]
  exact (Yaml.entry_value hkey 8 (Yaml.written_bracketed hw)).dash.reads

theorem reads_relabelConfigs {replacement : Text} (h : Yaml.Plain v replacement) : Yaml.Reads v
    ["    relabel_configs:".toList, "      - source_labels: [__address__]".toList, "        target_label: __param_target".toList,
      "      - source_labels: [__param_target]".toList, "        target_label: instance".toList,
      "      - target_label: __address__".toList, "        replacement: ".toList ++ quoted replacement ++ [' ']]
    [(4, .key "relabel_configs".toList none), (6, .dash), (8, .key "source_labels".toList (some (.texts ["__address__".toList]))),
      (8, .key "target_label".toList (some (.text "__param_target".toList))), (6, .dash),
      (8, .key "source_labels".toList (some (.texts ["__param_target".toList]))),
      (8, .key "target_label".toList (some (.text "instance".toList))), (6, .dash),
      (8, .key "target_label".toList (some (.text "__address__".toList))), (8, .key "replacement".toList (some (.text replacement)))] := by
  have hrelabel : Yaml.IsKey "relabel_configs".toList := by decide
  have hlabel : Yaml.IsKey "target_label".toList := by decide
  have hreplacement : Yaml.IsKey "replacement".toList := by decide
  have haddress : Yaml.IsWord "__address__".toList := by decide
  have hparam : Yaml.IsWord "__param_target".toList := by decide
  have hinstance : Yaml.IsWord "instance".toList := by decide
  rw [String.toList_ofList] at hrelabel hlabel hreplacement haddress hparam hinstance
  repeat rw [String.toList_ofList]
  exact (Yaml.reads_key hrelabel 4).append ((reads_sourceLabels haddress).append ((Yaml.reads_word hlabel hparam 8).append
    ((reads_sourceLabels hparam).append ((Yaml.reads_word hlabel hinstance 8).append
    ((Yaml.entry_value hlabel 8 (Yaml.written_word haddress.1 haddress.2)).dash.reads.append (reads_quoted hreplacement (written_quoted h) 8))))))

/-! ### Jobs -/

/-- The lines are one job. -/
def IsJob (v : Yaml.Version) (lines : List Text) (job : Job) : Prop :=
  ∃ node, Yaml.Sequence v 2 (joinText ['\n'] lines) [node] ∧ readJob node = some job

/-- The text has the jobs. -/
def Describes (v : Yaml.Version) (text : Text) (jobs : List Job) : Prop :=
  ∃ nodes, Yaml.Sequence v 2 text nodes ∧ nodes.mapM readJob = some jobs

theorem IsJob.describes {lines : List Text} {job : Job} (h : IsJob v lines job) : Describes v (joinText ['\n'] lines) [job] := by
  obtain ⟨node, hnode, hread⟩ := h
  refine ⟨[node], hnode, ?_⟩
  rw [List.mapM_cons, hread]
  rfl

theorem Describes.append {text : Text} {lines : List Text} {jobs : List Job} {job : Job} (h : Describes v text jobs) (hjob : IsJob v lines job) :
    Describes v (text ++ jobText lines) (jobs ++ [job]) := by
  obtain ⟨nodes, hnodes, hread⟩ := h
  obtain ⟨node, hnode, hread'⟩ := hjob
  have htext : text ++ jobText lines = (text ++ '\n' :: []) ++ '\n' :: joinText ['\n'] lines := by simp [jobText]
  refine ⟨nodes ++ [] ++ [node], ?_, ?_⟩
  · rw [htext]
    exact (hnodes.append (Yaml.sequence_nil v 2)).append hnode
  · rw [List.append_nil, List.mapM_append, hread, List.mapM_cons, hread']
    rfl

theorem Describes.flatMap {ι : Type} {f : ι → List Text} {g : ι → Job} {is : List ι} {text : Text} {jobs : List Job}
    (h : Describes v text jobs) (his : ∀ i ∈ is, IsJob v (f i) (g i)) :
    Describes v (text ++ is.flatMap fun i => jobText (f i)) (jobs ++ is.map g) := by
  induction is generalizing text jobs with
  | nil => simpa using h
  | cons i is ih =>
    have hnext := ih (h.append (his i List.mem_cons_self)) fun j hj => his j (List.mem_cons_of_mem _ hj)
    rw [List.append_assoc, List.append_assoc] at hnext
    exact hnext

/-- A job with one list of targets. -/
theorem readJob_eq {node config : Yaml.Node} {name : Text} {targets : List Text}
    (hname : (node.field "job_name".toList).bind Yaml.Node.asText = some name)
    (hconfigs : (node.field "static_configs".toList).bind Yaml.Node.asList = some [config])
    (htargets : (config.field "targets".toList).bind Yaml.Node.asList = some (targets.map .text)) :
    readJob node = some
      { name := name
        targets := targets
        replacement := readReplacement node
        credentials := ((node.field "authorization".toList).bind fun node => node.field "credentials".toList).bind Yaml.Node.asText } := by
  have hread : [config].mapM readTargets = some [targets] := by
    rw [List.mapM_cons, readTargets, htargets, Option.bind_some, Yaml.mapM_asText]
    rfl
  rw [readJob, hname, hconfigs, Option.bind_some, Option.bind_some, hread, Option.map_some, List.flatten_singleton]

theorem isJob_typeJob {name : Text} {targets : List Text} (hname : Yaml.Plain v name) (hne : targets ≠ [])
    (h : ∀ t ∈ targets, Yaml.Plain v t) :
    IsJob v (typeJob name targets) { name := name, targets := targets, replacement := none, credentials := none } := by
  have hreads := (reads_jobName hname).append (reads_staticConfigs.append (reads_targets hne h))
  exact ⟨_, hreads.sequence (List.cons_ne_nil _ _) rfl rfl, readJob_eq rfl rfl rfl⟩

theorem isJob_selfJob : IsJob v selfJob
    { name := "prometheus".toList, targets := ["localhost:9090".toList], replacement := none, credentials := none } := by
  have hname : Yaml.Plain v "prometheus".toList := by cases v <;> decide
  have htarget : Yaml.Plain v "localhost:9090".toList := by cases v <;> decide
  have hreads := (reads_jobName hname).append (reads_staticConfigs.append (reads_target htarget))
  exact ⟨_, hreads.sequence (List.cons_ne_nil _ _) rfl rfl, readJob_eq rfl rfl rfl⟩

theorem isJob_metricsJob {metricsUrl authToken token : Text} (hurl : Yaml.Plain v metricsUrl)
    (htoken : authToken ≠ [] → Yaml.Written v (quoted authToken ++ [' ']) (.text token)) :
    IsJob v (metricsJob metricsUrl authToken)
      { name := "mstdnca".toList
        targets := [metricsUrl]
        replacement := none
        credentials := if authToken = [] then none else some token } := by
  have hname : Yaml.Plain v "mstdnca".toList := by cases v <;> decide
  have hinterval : Yaml.IsWord "60s".toList := by decide
  have hreads := (reads_jobName hname).append ((reads_scrapeInterval hinterval).append (reads_staticConfigs.append (reads_target hurl)))
  unfold metricsJob
  split_ifs with hnil
  · rw [authSection, if_pos hnil]
    exact ⟨_, hreads.sequence (List.cons_ne_nil _ _) rfl rfl, readJob_eq rfl rfl rfl⟩
  · have hall := hreads.append (reads_authSection hnil (htoken hnil))
    exact ⟨_, hall.sequence (List.cons_ne_nil _ _) rfl rfl, readJob_eq rfl rfl rfl⟩

theorem isJob_getUnpollerScrapeConfig {guestIp port : Text} (h : Yaml.Plain v (guestIp ++ ':' :: port)) :
    IsJob v (getUnpollerScrapeConfig guestIp port)
      { name := "unpoller".toList, targets := [guestIp ++ ':' :: port], replacement := none, credentials := none } := by
  have hname : Yaml.Plain v "unpoller".toList := by cases v <;> decide
  have hinterval : Yaml.IsWord "30s".toList := by decide
  have hreads := (reads_jobName hname).append ((reads_scrapeInterval hinterval).append (reads_staticConfigs.append (reads_target h)))
  exact ⟨_, hreads.sequence (List.cons_ne_nil _ _) rfl rfl, readJob_eq rfl rfl rfl⟩

theorem isJob_ipmiJob {name : Text} {target : IpmiTarget} (hname : Yaml.Plain v name) (hbmc : Yaml.Plain v target.bmcIp)
    (hhost : Yaml.Plain v target.hostIp) :
    IsJob v (ipmiJob name target)
      { name := name, targets := [target.bmcIp], replacement := some (address target.hostIp target.port), credentials := none } := by
  have hinterval : Yaml.IsWord "60s".toList := by decide
  have hreads := (reads_jobName hname).append ((reads_scrapeInterval hinterval).append (reads_params.append (reads_staticConfigs.append
    ((reads_target hbmc).append (reads_relabelConfigs (plain_address hhost target.port))))))
  exact ⟨_, hreads.sequence (List.cons_ne_nil _ _) rfl rfl, readJob_eq rfl rfl rfl⟩

end

/-! ### The document -/

section

variable {v : Yaml.Version}

theorem reads_header : Yaml.Reads v
    ["global:".toList, "  scrape_interval: 15s".toList, "  evaluation_interval: 15s".toList, [], "scrape_configs:".toList]
    [(0, .key "global".toList none), (2, .key "scrape_interval".toList (some (.text "15s".toList))),
      (2, .key "evaluation_interval".toList (some (.text "15s".toList))), (0, .key "scrape_configs".toList none)] := by
  have hglobal : Yaml.IsKey "global".toList := by decide
  have hscrape : Yaml.IsKey "scrape_interval".toList := by decide
  have hevaluation : Yaml.IsKey "evaluation_interval".toList := by decide
  have hconfigs : Yaml.IsKey "scrape_configs".toList := by decide
  have hseconds : Yaml.IsWord "15s".toList := by decide
  rw [String.toList_ofList] at hglobal hscrape hevaluation hconfigs hseconds
  repeat rw [String.toList_ofList]
  exact (Yaml.reads_key hglobal 0).append ((Yaml.reads_word hscrape hseconds 2).append ((Yaml.reads_word hevaluation hseconds 2).append
    (Yaml.reads_blank.append (Yaml.reads_key hconfigs 0))))

/-- The items of the jobs stand below the last key. -/
theorem collect_header {k₀ k₁ k₂ k₃ : Text} (hne : k₀ ≠ k₃) (hne' : k₁ ≠ k₂) (value value' : Yaml.Value)
    {items : List (Nat × Yaml.Item)} (hle : ∀ x ∈ items, 2 ≤ x.1) {nodes : List Yaml.Node}
    (hcollect : (Yaml.toNodes (Yaml.forest items)).bind (Yaml.collect (Yaml.forest items)) = some (.list nodes)) {trees : List Yaml.Tree}
    (htrees : trees =
      Yaml.forest ([(0, .key k₀ none), (2, .key k₁ (some value)), (2, .key k₂ (some value')), (0, .key k₃ none)] ++ items)) :
    (Yaml.toNodes trees).bind (Yaml.collect trees) =
      some (.map [(k₀, .map [(k₁, value.toNode), (k₂, value'.toNode)]), (k₃, .list nodes)]) := by
  have hlast : Yaml.forest ((0, .key k₃ none) :: items) = [.node 0 (.key k₃ none) (Yaml.forest items)] :=
    Yaml.forest_cons_of_lt fun x hx => (by decide : 0 < 2).trans_le (hle x hx)
  have hforest : trees = [.node 0 (.key k₀ none) [.node 2 (.key k₁ (some value)) [], .node 2 (.key k₂ (some value')) []],
      .node 0 (.key k₃ none) (Yaml.forest items)] := by
    rw [htrees]
    change Yaml.forest ([(0, .key k₀ none), (2, .key k₁ (some value)), (2, .key k₂ (some value'))] ++ (0, .key k₃ none) :: items) = _
    rw [Yaml.forest_append, hlast]
    · rfl
    · intro y hy x _
      cases hy
      exact Nat.zero_le _
  have hconfigs : (Yaml.Tree.node 0 (.key k₃ none) (Yaml.forest items)).toNode = some (.list nodes) := by
    rw [Yaml.Tree.toNode, hcollect]
    intro key other heq
    cases heq
  have hglobal : (Yaml.Tree.node 0 (.key k₀ none) [.node 2 (.key k₁ (some value)) [], .node 2 (.key k₂ (some value')) []]).toNode =
      some (.map [(k₁, value.toNode), (k₂, value'.toNode)]) := by
    have hchildren : Yaml.toNodes [.node 2 (.key k₁ (some value)) [], .node 2 (.key k₂ (some value')) []] =
        some [value.toNode, value'.toNode] := rfl
    rw [Yaml.Tree.toNode, hchildren, Option.bind_some]
    · exact Yaml.collect_pair hne' _ _ _ _ _ _ _
    · intro key other heq
      cases heq
  rw [hforest, Yaml.toNodes, Yaml.toNodes, Yaml.toNodes, hglobal, hconfigs]
  simp only [Option.bind_some, Option.map_some]
  exact Yaml.collect_pair hne _ _ _ _ _ _ _

/-- What is read of a configuration is what is read of its jobs. -/
theorem readJobs_generatePrometheusYml {metricsUrl authToken extra : Text} {jobs : List Job} (hne : jobs ≠ [])
    (h : Describes v (joinText ['\n'] selfJob ++ metricsSection metricsUrl authToken ++ extra) jobs) :
    readJobs v (generatePrometheusYml metricsUrl authToken extra) = some jobs := by
  obtain ⟨nodes, hnodes, hread⟩ := h
  have hnodesNe : nodes ++ [] ≠ [] := by
    rintro hnil
    rw [List.append_nil] at hnil
    rw [hnil] at hread
    cases hread
    exact hne rfl
  obtain ⟨items, hitems, hle, hcollect⟩ := (hnodes.append (Yaml.sequence_nil v 2)).collect hnodesNe
  rw [List.append_nil] at hcollect
  have hlines := Yaml.readLines_append (reads_header.readLines (List.cons_ne_nil _ _)) hitems
  have hne : "global".toList ≠ "scrape_configs".toList := by decide
  have hne' : "scrape_interval".toList ≠ "evaluation_interval".toList := by decide
  have hparse := collect_header hne hne' (.text "15s".toList) (.text "15s".toList) hle hcollect rfl
  have hbeq : ("scrape_configs".toList == "global".toList) = false := beq_eq_false_iff_ne.2 hne.symm
  unfold readJobs Yaml.parse generatePrometheusYml
  dsimp only
  rw [hlines, Option.bind_some, hparse, Option.bind_some, Yaml.Node.field, List.lookup, hbeq]
  dsimp only
  rw [List.lookup, beq_self_eq_true]
  exact hread

end

end ProxmoxTool.ScrapeConfig
