import ProxmoxTool.Apps.ScrapeText

/-!
# What the configuration of Prometheus says

Addresses, host names and the auth token are put between double quotes as they are.  If the addresses and the host names stand for themselves
there, the configuration says what the database says exactly if the token does so, too (`regenerated_says_iff`).  The form takes other tokens: of
one with a backslash another credential is read (`backslash_lost`).
-/

namespace ProxmoxTool.ScrapeConfig

/-! ### The jobs -/

def metricsJobs (db : Database) (token : Text) : List Job :=
  if metricsUrl db = [] then []
  else [⟨"mstdnca".toList, [metricsUrl db], none, if db.authToken = [] then none else some token⟩]

def unpollerJobs (lower : Text → Text) (db : Database) (guest : Guest) : List Job :=
  if db.setting "unpoller_installed" "false" = "true".toList then
    match usable lower guest.ipAddress with
    | some ip => [⟨"unpoller".toList, [ip ++ ':' :: db.setting "unpoller_listen_port" "9130"], none, none⟩]
    | none => []
  else []

/-- The jobs of the text, with the token that is read and the names of those for IPMI. -/
def jobsOf (lower : Text → Text) (db : Database) (guest : Guest) (token : Text) (named : List (Text × IpmiTarget)) : List Job :=
  [⟨"prometheus".toList, ["localhost:9090".toList], none, none⟩] ++ metricsJobs db token ++
    (sortedTypes lower db).map (fun e => ⟨jobNameOf e.1, e.2, none, none⟩) ++
    named.map (fun e => ⟨e.1, [e.2.bmcIp], some (address e.2.hostIp e.2.port), none⟩) ++ unpollerJobs lower db guest

/-- The part behind the job of the metrics URL. -/
def extraConfigs (lower : Text → Text) (db : Database) (guest : Guest) (named : List (Text × IpmiTarget)) : Text :=
  ((sortedTypes lower db).flatMap fun e => jobText (typeJob (jobNameOf e.1) e.2)) ++
    (named.flatMap fun e => jobText (ipmiJob e.1 e.2)) ++ unpollerJob lower db guest

/-- The names are those of the targets for IPMI, and they are new. -/
structure Named (lower : Text → Text) (db : Database) (named : List (Text × IpmiTarget)) : Prop where
  targets : named.map Prod.snd = (ipmiTargets db).mergeSort ipmiLe
  nodup : (named.map Prod.fst).Nodup
  extend : ∀ e ∈ named, Extends ("ipmi_".toList ++ slugifyJobName lower e.2.hostName) e.1

section

variable {lower : Text → Text} {db : Database} {v : Yaml.Version} {guest : Guest} {token : Text} {named : List (Text × IpmiTarget)}

/-- The types of a group, and its targets. -/
theorem group_facts (h : Accepted db) (hquotable : Quotable lower v db guest) {e : Text × List Text} (he : e ∈ sortedTypes lower db) :
    e.1 ∈ scrapedTypes ∧ e.2 ≠ [] ∧ ∀ t ∈ e.2, Yaml.Plain v t := by
  have hne := (grouping_sortedTypes lower db).targets e he
  have hfacts : ∀ t ∈ e.2, e.1 ∈ scrapedTypes ∧ Yaml.Plain v t := fun t ht =>
    target_facts h hquotable ((perm_sortedTypes lower db).subset (List.mem_flatMap.2 ⟨e, he, List.mem_map_of_mem ht⟩))
  obtain ⟨t, ht⟩ := List.exists_mem_of_ne_nil _ hne
  exact ⟨(hfacts t ht).1, hne, fun u hu => (hfacts u hu).2⟩

/-- The names of the jobs of types. -/
theorem jobNameOf_facts : ∀ etype ∈ scrapedTypes, (∀ v, Yaml.Plain v (jobNameOf etype)) ∧
    "ipmi_".toList.isPrefixOf (jobNameOf etype) = false ∧
    jobNameOf etype ∉ ["prometheus".toList, "mstdnca".toList, "unpoller".toList] ∧
    ∀ other ∈ scrapedTypes, jobNameOf etype = jobNameOf other → etype = other := by
  have hplain : ∀ etype ∈ scrapedTypes, Yaml.Plain .v1_1 (jobNameOf etype) ∧ Yaml.Plain .v1_2 (jobNameOf etype) := by decide
  have hothers : ∀ etype ∈ scrapedTypes, "ipmi_".toList.isPrefixOf (jobNameOf etype) = false ∧
      jobNameOf etype ∉ ["prometheus".toList, "mstdnca".toList, "unpoller".toList] ∧
      ∀ other ∈ scrapedTypes, jobNameOf etype = jobNameOf other → etype = other := by decide
  refine fun etype hetype => ⟨fun v => ?_, hothers etype hetype⟩
  cases v with
  | v1_1 => exact (hplain etype hetype).1
  | v1_2 => exact (hplain etype hetype).2

theorem nodup_jobNames (h : Accepted db) (hquotable : Quotable lower v db guest) :
    ((sortedTypes lower db).map fun e => jobNameOf e.1).Nodup := by
  have hmap : ((sortedTypes lower db).map fun e => jobNameOf e.1) = ((sortedTypes lower db).map Prod.fst).map jobNameOf := by
    rw [List.map_map]
    rfl
  rw [hmap]
  have hmem : ∀ etype ∈ (sortedTypes lower db).map Prod.fst, etype ∈ scrapedTypes := by
    intro etype hetype
    obtain ⟨e, he, rfl⟩ := List.mem_map.1 hetype
    exact (group_facts h hquotable he).1
  exact List.Nodup.map_on (fun a ha b hb => (jobNameOf_facts a (hmem a ha)).2.2.2 b (hmem b hb)) (grouping_sortedTypes lower db).nodup

/-- The text has a job for each type and one for each target for IPMI. -/
theorem exists_regenerated (h : Accepted db) (hquotable : Quotable lower v db guest) (hguest : db.guestOf "prometheus_guest_id" = some guest) :
    ∃ named, Named lower db named ∧ regeneratePrometheusConfig lower db = some
      (generatePrometheusYml (metricsUrl db) db.authToken (extraConfigs lower db guest named)) := by
  have hunused : ∀ e ∈ sortedTypes lower db, jobNameOf e.1 ∉ [] := fun e _ => List.not_mem_nil
  have htypes := addJobs_of_nodup (fun e : Text × List Text => jobNameOf e.1) (fun name e => typeJob name e.2) (nodup_jobNames h hquotable) []
    hunused
  obtain ⟨named, htargets, hnodup, hnew, hadd⟩ := exists_addJobs
    (fun target => "ipmi_".toList ++ slugifyJobName lower target.hostName) ipmiJob
    ((ipmiTargets db).mergeSort ipmiLe) ([] ++ (sortedTypes lower db).flatMap fun e => jobText (typeJob (jobNameOf e.1) e.2))
    (((sortedTypes lower db).map fun e => jobNameOf e.1).reverse ++ [])
  refine ⟨named, ⟨htargets, hnodup, fun e he => (hnew e he).2⟩, ?_⟩
  rw [regeneratePrometheusConfig, hguest, Option.bind_some, htypes, Option.bind_some, hadd, Option.map_some, List.nil_append]
  rfl

theorem ipmiTarget_facts (hquotable : Quotable lower v db guest) (hnamed : Named lower db named) {e : Text × IpmiTarget} (he : e ∈ named) :
    Yaml.Plain v e.1 ∧ Yaml.Plain v e.2.bmcIp ∧ Yaml.Plain v e.2.hostIp := by
  have hmem : e.2 ∈ (ipmiTargets db).mergeSort ipmiLe := hnamed.targets ▸ List.mem_map_of_mem he
  obtain ⟨p, hp, heq⟩ := List.mem_map.1 (List.mem_mergeSort.1 hmem)
  obtain ⟨hhost, hbmc⟩ := hquotable.hosts p (List.mem_filter.1 hp).1
  refine ⟨plain_of_extends (hnamed.extend e he) (plain_ipmiName lower _), ?_, ?_⟩
  · rw [← heq]
    change Yaml.Plain v (bmcOf p.2)
    unfold bmcOf
    split
    · rename_i ip hip
      split_ifs
      · exact hhost
      · exact hbmc ip hip
    · exact hhost
  · rw [← heq]
    exact hhost

theorem plain_unpoller (h : Accepted db) (hquotable : Quotable lower v db guest)
    (hinstalled : db.setting "unpoller_installed" "false" = "true".toList) {ip : Text} (hip : usable lower guest.ipAddress = some ip) : Yaml.Plain v (ip ++ ':' :: db.setting "unpoller_listen_port" "9130") := by
  obtain ⟨port, -, -, hport⟩ := h.listenPort
  rw [hport]
  exact plain_colon (hquotable.unpoller hinstalled ip hip) (plain_intText port)

theorem describes_jobsOf (h : Accepted db) (hquotable : Quotable lower v db guest) (hnamed : Named lower db named)
    (htoken : metricsUrl db ≠ [] → db.authToken ≠ [] → Yaml.Written v (quoted db.authToken ++ [' ']) (.text token)) :
    Describes v (joinText ['\n'] selfJob ++ metricsSection (metricsUrl db) db.authToken ++ extraConfigs lower db guest named)
      (jobsOf lower db guest token named) := by
  have hself : Describes v (joinText ['\n'] selfJob) [⟨"prometheus".toList, ["localhost:9090".toList], none, none⟩] := isJob_selfJob.describes
  have hmetrics : Describes v (joinText ['\n'] selfJob ++ metricsSection (metricsUrl db) db.authToken)
      ([⟨"prometheus".toList, ["localhost:9090".toList], none, none⟩] ++ metricsJobs db token) := by
    unfold metricsSection metricsJobs
    by_cases hnil : metricsUrl db = []
    · rw [if_pos hnil, if_pos hnil, List.append_nil, List.append_nil]
      exact hself
    · rw [if_neg hnil, if_neg hnil]
      exact hself.append (isJob_metricsJob (plain_of_isScrapeTarget (h.metricsUrl.resolve_left hnil)) (htoken hnil))
  have htype : ∀ e ∈ sortedTypes lower db, IsJob v (typeJob (jobNameOf e.1) e.2) ⟨jobNameOf e.1, e.2, none, none⟩ := by
    intro e he
    obtain ⟨hscraped, hne, hplain⟩ := group_facts h hquotable he
    exact isJob_typeJob ((jobNameOf_facts e.1 hscraped).1 v) hne hplain
  have hnamedJob : ∀ e ∈ named, IsJob v (ipmiJob e.1 e.2) ⟨e.1, [e.2.bmcIp], some (address e.2.hostIp e.2.port), none⟩ := by
    intro e he
    obtain ⟨hname, hbmc, hhost⟩ := ipmiTarget_facts hquotable hnamed he
    exact isJob_ipmiJob hname hbmc hhost
  have hipmi := (hmetrics.flatMap htype).flatMap hnamedJob
  have hall : Describes v (joinText ['\n'] selfJob ++ metricsSection (metricsUrl db) db.authToken ++
      ((sortedTypes lower db).flatMap fun e => jobText (typeJob (jobNameOf e.1) e.2)) ++
      (named.flatMap fun e => jobText (ipmiJob e.1 e.2)) ++ unpollerJob lower db guest) (jobsOf lower db guest token named) := by
    unfold jobsOf unpollerJob unpollerJobs
    split_ifs with hinstalled
    · cases hip : usable lower guest.ipAddress with
      | some ip => exact hipmi.append (isJob_getUnpollerScrapeConfig (plain_unpoller h hquotable hinstalled hip))
      | none =>
        rw [List.append_nil, List.append_nil]
        exact hipmi
    · rw [List.append_nil, List.append_nil]
      exact hipmi
  unfold extraConfigs
  rw [← List.append_assoc, ← List.append_assoc]
  exact hall

/-! ### What the jobs say -/

theorem scrapes_typeJob (e : Text × List Text) :
    Job.scrapes ⟨jobNameOf e.1, e.2, none, none⟩ = (e.2.map fun t => (e.1, t)).map fun p => ⟨some (jobNameOf p.1), p.2, none⟩ := by
  rw [List.map_map]
  rfl

theorem scrapes_ipmiJobs (named : List (Text × IpmiTarget)) :
    (named.map fun e => (⟨e.1, [e.2.bmcIp], some (address e.2.hostIp e.2.port), none⟩ : Job)).flatMap Job.scrapes =
      (named.map Prod.snd).map fun t => ⟨none, t.bmcIp, some (address t.hostIp t.port)⟩ := by
  induction named with
  | nil => rfl
  | cons e named ih =>
    rw [List.map_cons, List.flatMap_cons, ih]
    rfl

theorem perm_scrapes (hnamed : Named lower db named) :
    ((jobsOf lower db guest token named).flatMap Job.scrapes).Perm (wanted lower db guest) := by
  have hself : Job.scrapes ⟨"prometheus".toList, ["localhost:9090".toList], none, none⟩ =
      [⟨some "prometheus".toList, "localhost:9090".toList, none⟩] := rfl
  have hmetrics : (metricsJobs db token).flatMap Job.scrapes = metricsTargets db := by
    unfold metricsJobs metricsTargets
    by_cases hnil : metricsUrl db = []
    · rw [if_pos hnil, if_pos hnil]
      rfl
    · rw [if_neg hnil, if_neg hnil]
      rfl
  have htypes : (((sortedTypes lower db).map fun e => (⟨jobNameOf e.1, e.2, none, none⟩ : Job)).flatMap Job.scrapes).Perm
      ((guestTargets lower db ++ hostTargets db ++ jitsiTargets lower db).map fun e => ⟨some (jobNameOf e.1), e.2, none⟩) := by
    have hflat : ((sortedTypes lower db).map fun e => (⟨jobNameOf e.1, e.2, none, none⟩ : Job)).flatMap Job.scrapes =
        (ungroup (sortedTypes lower db)).map fun p => ⟨some (jobNameOf p.1), p.2, none⟩ := by
      rw [List.flatMap_map, ungroup, List.map_flatMap]
      exact List.flatMap_congr fun e _ => scrapes_typeJob e
    rw [hflat]
    exact (perm_sortedTypes lower db).map _
  have hipmi : ((named.map fun e => (⟨e.1, [e.2.bmcIp], some (address e.2.hostIp e.2.port), none⟩ : Job)).flatMap Job.scrapes).Perm
      ((ipmiTargets db).map fun t => ⟨none, t.bmcIp, some (address t.hostIp t.port)⟩) := by
    have hflat : (named.map fun e => (⟨e.1, [e.2.bmcIp], some (address e.2.hostIp e.2.port), none⟩ : Job)).flatMap Job.scrapes =
        (named.map Prod.snd).map fun t => ⟨none, t.bmcIp, some (address t.hostIp t.port)⟩ := scrapes_ipmiJobs named
    rw [hflat, hnamed.targets]
    exact (List.mergeSort_perm _ _).map _
  have hunpoller : (unpollerJobs lower db guest).flatMap Job.scrapes = unpollerTargets lower db guest := by
    unfold unpollerJobs unpollerTargets
    split_ifs
    · cases usable lower guest.ipAddress with
      | some ip => rfl
      | none => rfl
    · rfl
  unfold jobsOf wanted
  rw [List.flatMap_append, List.flatMap_append, List.flatMap_append, List.flatMap_append, hmetrics, hunpoller, List.flatMap_singleton, hself]
  exact ((htypes.append_left _).append hipmi).append_right _

/-- Names of jobs, those of types and those for IPMI among them. -/
theorem nodup_names_of {metrics types ipmi unpoller : List Text} (hmetrics : metrics.Sublist ["mstdnca".toList])
    (hunpoller : unpoller.Sublist ["unpoller".toList]) (htypes : types.Nodup) (hipmi : ipmi.Nodup)
    (hnotType : ∀ name ∈ types, "ipmi_".toList.isPrefixOf name = false ∧
      name ∉ ["prometheus".toList, "mstdnca".toList, "unpoller".toList])
    (hlead : ∀ name ∈ ipmi, "ipmi_".toList.isPrefixOf name = true) :
    (["prometheus".toList] ++ metrics ++ types ++ ipmi ++ unpoller).Nodup := by
  have hfixed : (["prometheus".toList] ++ metrics ++ unpoller).Sublist ["prometheus".toList, "mstdnca".toList, "unpoller".toList] :=
    ((List.Sublist.refl ["prometheus".toList]).append hmetrics).append hunpoller
  have hfixedNodup : ["prometheus".toList, "mstdnca".toList, "unpoller".toList].Nodup := by decide
  have hfixedPrefix : ∀ name ∈ ["prometheus".toList, "mstdnca".toList, "unpoller".toList], "ipmi_".toList.isPrefixOf name = false := by
    decide
  have hothers : (types ++ ipmi).Nodup := by
    refine List.nodup_append.2 ⟨htypes, hipmi, fun a ha b hb heq => ?_⟩
    have hfalse := (hnotType a ha).1
    rw [heq, hlead b hb] at hfalse
    cases hfalse
  have hall : ((["prometheus".toList] ++ metrics ++ unpoller) ++ (types ++ ipmi)).Nodup := by
    refine List.nodup_append.2 ⟨hfixedNodup.sublist hfixed, hothers, fun a ha b hb heq => ?_⟩
    have hmem := hfixed.subset ha
    rcases List.mem_append.1 hb with hb | hb
    · exact (hnotType b hb).2 (heq ▸ hmem)
    · have htrue := hlead b hb
      rw [← heq, hfixedPrefix a hmem] at htrue
      cases htrue
  have hperm : ((["prometheus".toList] ++ metrics ++ unpoller) ++ (types ++ ipmi)).Perm
      (["prometheus".toList] ++ metrics ++ types ++ ipmi ++ unpoller) := by
    rw [List.append_assoc _ types ipmi, List.append_assoc _ unpoller, List.append_assoc _ (types ++ ipmi) unpoller]
    exact List.perm_append_comm.append_left _
  exact hperm.nodup_iff.1 hall

theorem isPrefixOf_of_extends {lead base name : Text} (h : Extends (lead ++ base) name) : lead.isPrefixOf name = true := by
  rw [List.isPrefixOf_iff_prefix]
  rcases h with rfl | ⟨m, rfl⟩
  · exact List.prefix_append _ _
  · rw [List.append_assoc]
    exact List.prefix_append _ _

theorem nodup_names (h : Accepted db) (hquotable : Quotable lower v db guest) (hnamed : Named lower db named) :
    ((jobsOf lower db guest token named).map Job.name).Nodup := by
  have hmetrics : ((metricsJobs db token).map Job.name).Sublist ["mstdnca".toList] := by
    unfold metricsJobs
    by_cases hnil : metricsUrl db = []
    · rw [if_pos hnil]
      exact List.nil_sublist _
    · rw [if_neg hnil]
      exact List.Sublist.refl _
  have hunpoller : ((unpollerJobs lower db guest).map Job.name).Sublist ["unpoller".toList] := by
    unfold unpollerJobs
    split_ifs
    · split
      · exact List.Sublist.refl _
      · exact List.nil_sublist _
    · exact List.nil_sublist _
  have hnotType : ∀ name ∈ (sortedTypes lower db).map (fun e => jobNameOf e.1), "ipmi_".toList.isPrefixOf name = false ∧
      name ∉ ["prometheus".toList, "mstdnca".toList, "unpoller".toList] := by
    intro name hname
    obtain ⟨e, he, rfl⟩ := List.mem_map.1 hname
    obtain ⟨-, hlead, hfixed, -⟩ := jobNameOf_facts e.1 (group_facts h hquotable he).1
    exact ⟨hlead, hfixed⟩
  have hlead : ∀ name ∈ named.map Prod.fst, "ipmi_".toList.isPrefixOf name = true := by
    intro name hname
    obtain ⟨e, he, rfl⟩ := List.mem_map.1 hname
    exact isPrefixOf_of_extends (hnamed.extend e he)
  have hnodup := nodup_names_of hmetrics hunpoller (nodup_jobNames h hquotable) hnamed.nodup hnotType hlead
  unfold jobsOf
  rw [List.map_append, List.map_append, List.map_append, List.map_append, List.map_map, List.map_map]
  exact hnodup

theorem filterMap_credential_eq_nil {jobs : List Job} (h : ∀ job ∈ jobs, job.credentials = none) : jobs.filterMap Job.credential = [] := by
  rw [List.filterMap_eq_nil_iff]
  intro job hjob
  rw [Job.credential, h job hjob]
  rfl

theorem credentials_eq (lower : Text → Text) (db : Database) (guest : Guest) (token : Text) (named : List (Text × IpmiTarget)) :
    (jobsOf lower db guest token named).filterMap Job.credential =
      if metricsUrl db = [] ∨ db.authToken = [] then [] else [("mstdnca".toList, token)] := by
  have hmetrics : (metricsJobs db token).filterMap Job.credential =
      if metricsUrl db = [] ∨ db.authToken = [] then [] else [("mstdnca".toList, token)] := by
    unfold metricsJobs
    by_cases hnil : metricsUrl db = []
    · rw [if_pos hnil, if_pos (.inl hnil)]
      rfl
    · by_cases htoken : db.authToken = []
      · rw [if_neg hnil, if_pos htoken, if_pos (.inr htoken)]
        rfl
      · rw [if_neg hnil, if_neg htoken, if_neg (not_or.2 ⟨hnil, htoken⟩)]
        rfl
  have hself : [(⟨"prometheus".toList, ["localhost:9090".toList], none, none⟩ : Job)].filterMap Job.credential = [] := rfl
  have htypes : ((sortedTypes lower db).map fun e => (⟨jobNameOf e.1, e.2, none, none⟩ : Job)).filterMap Job.credential = [] := by
    refine filterMap_credential_eq_nil fun job hjob => ?_
    obtain ⟨e, -, rfl⟩ := List.mem_map.1 hjob
    rfl
  have hipmi : (named.map fun e => (⟨e.1, [e.2.bmcIp], some (address e.2.hostIp e.2.port), none⟩ : Job)).filterMap Job.credential = [] := by
    refine filterMap_credential_eq_nil fun job hjob => ?_
    obtain ⟨e, -, rfl⟩ := List.mem_map.1 hjob
    rfl
  have hunpoller : (unpollerJobs lower db guest).filterMap Job.credential = [] := by
    unfold unpollerJobs
    split_ifs
    · split
      · rfl
      · rfl
    · rfl
  unfold jobsOf
  rw [List.filterMap_append, List.filterMap_append, List.filterMap_append, List.filterMap_append, hself, hmetrics, htypes, hipmi, hunpoller,
    List.nil_append, List.append_nil, List.append_nil, List.append_nil]

end

section

variable {lower : Text → Text} {db : Database} {v : Yaml.Version} {guest : Guest} {named : List (Text × IpmiTarget)}

theorem readLine_credentials_eq_none {authToken : Text} (h : Yaml.readValue v (quoted authToken ++ [' ']) = none) :
    Yaml.readLine v ("      credentials: ".toList ++ quoted authToken ++ [' ']) = none := by
  have hkey : Yaml.IsKey "credentials".toList := by decide
  have hline := Yaml.readLine_indent (v := v) 6 (hkey.head (':' :: ' ' :: (quoted authToken ++ [' '])))
  have hhead : ∃ c rest, quoted authToken ++ [' '] = c :: rest ∧ Yaml.isBlank c = false := ⟨_, _, rfl, rfl⟩
  rw [Yaml.readItems_value hkey 6 hhead, h] at hline
  exact hline

theorem exists_newline_flatMap {ι : Type} (f : ι → List Text) (is : List ι) {t : Text} (h : ∃ rest, t = '\n' :: rest) :
    ∃ rest, (is.flatMap fun i => jobText (f i)) ++ t = '\n' :: rest := by
  cases is with
  | nil => exact h
  | cons i is =>
    rw [List.flatMap_cons]
    exact ⟨_, rfl⟩

/-- A line ends behind the job of the metrics URL. -/
theorem exists_newline_extraConfigs (lower : Text → Text) (db : Database) (guest : Guest) (named : List (Text × IpmiTarget)) :
    ∃ rest, extraConfigs lower db guest named ++ ['\n'] = '\n' :: rest := by
  have hunpoller : ∃ rest, unpollerJob lower db guest ++ ['\n'] = '\n' :: rest := by
    unfold unpollerJob
    split_ifs
    · split
      · exact ⟨_, rfl⟩
      · exact ⟨_, rfl⟩
    · exact ⟨_, rfl⟩
  unfold extraConfigs
  rw [List.append_assoc, List.append_assoc]
  exact exists_newline_flatMap _ _ (exists_newline_flatMap _ _ hunpoller)

theorem joinText_concat_line {lines : List Text} (hne : lines ≠ []) (l : Text) :
    joinText ['\n'] (lines ++ [l]) = joinText ['\n'] lines ++ '\n' :: l := by
  induction lines with
  | nil => exact absurd rfl hne
  | cons first lines ih =>
    cases lines with
    | nil => simp [joinText, List.intercalate_cons_cons]
    | cons second lines =>
      have hlater := ih (List.cons_ne_nil _ _)
      unfold joinText at hlater ⊢
      rw [List.cons_append, List.cons_append, List.intercalate_cons_cons, ← List.cons_append, hlater, List.intercalate_cons_cons,
        List.append_assoc, List.append_assoc, List.append_assoc]

/-- The line of the token is a line of the text. -/
theorem mem_splitOn_generatePrometheusYml {metricsUrl authToken extra : Text} (hurl : metricsUrl ≠ []) (hne : authToken ≠ [])
    (hnewline : '\n' ∉ authToken) (hextra : ∃ rest, extra ++ ['\n'] = '\n' :: rest) :
    "      credentials: ".toList ++ quoted authToken ++ [' '] ∈ (generatePrometheusYml metricsUrl authToken extra).splitOn '\n' := by
  have hline : '\n' ∉ "      credentials: ".toList ++ quoted authToken ++ [' '] := by simp [quoted, hnewline]
  obtain ⟨rest, hrest⟩ := hextra
  refine mem_splitOn_of_between hline ?_
  have hauth : authSection authToken = ["    authorization:".toList, "      type: Bearer".toList] ++
      ["      credentials: ".toList ++ quoted authToken ++ [' ']] := if_neg hne
  have hsection : ∃ a, metricsSection metricsUrl authToken = a ++ '\n' :: ("      credentials: ".toList ++ quoted authToken ++ [' ']) := by
    rw [metricsSection, if_neg hurl, metricsJob, hauth, ← List.append_assoc, jobText, joinText_concat_line]
    · exact ⟨_ :: _ :: _, rfl⟩
    · exact List.cons_ne_nil _ _
  obtain ⟨a, ha⟩ := hsection
  have hyml : generatePrometheusYml metricsUrl authToken extra =
      (joinText ['\n'] ["global:".toList, "  scrape_interval: 15s".toList, "  evaluation_interval: 15s".toList, [], "scrape_configs:".toList] ++
        '\n' :: (joinText ['\n'] selfJob ++ a)) ++ ('\n' :: (("      credentials: ".toList ++ quoted authToken ++ [' ']) ++ ['\n'])) ++ rest := by
    unfold generatePrometheusYml
    dsimp only
    rw [ha, List.append_assoc _ extra, hrest]
    simp only [List.append_assoc, List.cons_append, List.nil_append]
  rw [hyml]
  exact ⟨_, _, rfl⟩

/-- The text is read as its jobs, with the token that is read of its line. -/
theorem exists_jobsOf (h : Accepted db) (hquotable : Quotable lower v db guest) (hguest : db.guestOf "prometheus_guest_id" = some guest) :
    ∃ text named, Named lower db named ∧ regeneratePrometheusConfig lower db = some text ∧
      text = generatePrometheusYml (metricsUrl db) db.authToken (extraConfigs lower db guest named) ∧
      ∀ token, (metricsUrl db ≠ [] → db.authToken ≠ [] → Yaml.Written v (quoted db.authToken ++ [' ']) (.text token)) →
        readJobs v text = some (jobsOf lower db guest token named) := by
  obtain ⟨named, hnamed, htext⟩ := exists_regenerated h hquotable hguest
  refine ⟨_, named, hnamed, htext, rfl, fun token htoken => ?_⟩
  have hne : jobsOf lower db guest token named ≠ [] := by
    unfold jobsOf
    exact fun hnil => nomatch hnil
  exact readJobs_generatePrometheusYml hne (describes_jobsOf h hquotable hnamed htoken)

end

/-- If every address and every host name stands for itself between double quotes, the text is read as jobs that say what the database says exactly
if the token, where it is written, does so, too. -/
theorem regenerated_says_iff (lower : Text → Text) (v : Yaml.Version) {db : Database} {guest : Guest}
    (hguest : db.guestOf "prometheus_guest_id" = some guest) (h : Accepted db) (hquotable : Quotable lower v db guest) :
    (∃ text jobs, regeneratePrometheusConfig lower db = some text ∧ readJobs v text = some jobs ∧ Says lower db guest jobs) ↔
      (metricsUrl db ≠ [] → Yaml.Plain v db.authToken) := by
  obtain ⟨text, named, hnamed, htext, hyml, hread⟩ := exists_jobsOf h hquotable hguest
  constructor
  · rintro ⟨text', jobs, htext', hjobs, hsays⟩ hurl
    by_cases hne : db.authToken = []
    · rw [hne]
      exact fun c hc => nomatch hc
    · rw [htext, Option.some_inj] at htext'
      rw [← htext'] at hjobs
      have hnewline : '\n' ∉ db.authToken := fun hmem => absurd (h.authToken '\n' hmem).1 (by decide)
      cases hvalue : Yaml.readValue v (quoted db.authToken ++ [' ']) with
      | none =>
        have hline := mem_splitOn_generatePrometheusYml hurl hne hnewline (exists_newline_extraConfigs lower db guest named)
        rw [hyml, readJobs, Yaml.parse, Yaml.readLines_eq_none hline (readLine_credentials_eq_none hvalue)] at hjobs
        cases hjobs
      | some value =>
        obtain ⟨token, rfl⟩ := exists_text_of_readValue hvalue
        have hwritten : Yaml.Written v (quoted db.authToken ++ [' ']) (.text token) :=
          ⟨by simp [quoted, hnewline], ⟨_, _, rfl, rfl⟩, hvalue⟩
        rw [hread token fun _ _ => hwritten, Option.some_inj] at hjobs
        have hcredentials := hsays.credentials
        rw [← hjobs, credentials_eq, if_neg (not_or.2 ⟨hurl, hne⟩), if_neg (not_or.2 ⟨hurl, hne⟩)] at hcredentials
        rw [(Prod.mk.inj (List.cons.inj hcredentials).1).2] at hvalue
        exact plain_of_readValue hvalue
  · intro hplain
    refine ⟨text, _, htext, hread db.authToken fun hurl _ => written_quoted (hplain hurl), ?_⟩
    exact ⟨nodup_names h hquotable hnamed, perm_scrapes hnamed, credentials_eq lower db guest db.authToken named⟩

def promGuest : Guest := { id := 1, ipAddress := some "10.0.0.200".toList }

/-- A guest with Prometheus and UnPoller, one with an exporter, and a host with IPMI. -/
def everyExporter : Database where
  guests := [promGuest, { id := 2, ipAddress := some "10.0.0.201".toList }]
  hosts := [{ id := 1, name := "Weird Host Name!".toList, hostname := "10.0.0.202".toList, ipmiAddress := none }]
  exporters := [{ targetId := 2, exporterType := "node_exporter".toList, port := 9100, status := "installed".toList }]
  hostExporters := [{ targetId := 1, exporterType := "ipmi_exporter".toList, port := 9290, status := "installed".toList }]
  settings :=
    [("prometheus_guest_id".toList, "1".toList), ("prometheus_mstdnca_metrics_url".toList, "10.0.0.5:5000".toList),
      ("unpoller_installed".toList, "true".toList), ("unpoller_listen_port".toList, "9130".toList)]
  authToken := "test-only-token".toList

def lowerAscii (t : Text) : Text := t.map Char.toLower

theorem everyExporter_guest : everyExporter.guestOf "prometheus_guest_id" = some promGuest := by
  unfold Database.guestOf Database.setting everyExporter promGuest
  repeat rw [String.toList_ofList]
  decide

theorem everyExporter_metricsUrl : metricsUrl everyExporter = "10.0.0.5:5000".toList := by
  unfold metricsUrl Database.setting everyExporter
  repeat rw [String.toList_ofList]
  decide

theorem everyExporter_accepted : Accepted everyExporter where
  exporters := by
    unfold everyExporter guestTypes knownExporters builtinExporters
    repeat rw [String.toList_ofList]
    decide
  hostExporters := by
    unfold everyExporter hostTypes knownExporters
    repeat rw [String.toList_ofList]
    decide
  metricsUrl := by
    rw [everyExporter_metricsUrl]
    decide
  authToken := by
    have hall : (everyExporter.authToken.all fun c => decide (32 ≤ c.toNat ∧ c.toNat ≠ 127)) = true := by decide
    exact fun c hc => of_decide_eq_true (List.all_eq_true.1 hall c hc)
  listenPort := by
    refine ⟨9130, by decide, by decide, ?_⟩
    unfold Database.setting everyExporter
    repeat rw [String.toList_ofList]
    decide

theorem everyExporter_quotable (v : Yaml.Version) : Quotable lowerAscii v everyExporter promGuest where
  guests := by
    unfold Database.installed usable everyExporter
    repeat rw [String.toList_ofList]
    cases v <;> decide
  hosts := by
    unfold Database.hostInstalled everyExporter
    repeat rw [String.toList_ofList]
    cases v <;> decide
  jitsi := by
    unfold Database.setting Database.guestOf everyExporter
    repeat rw [String.toList_ofList]
    cases v <;> decide
  unpoller := by
    unfold Database.setting usable everyExporter promGuest
    repeat rw [String.toList_ofList]
    cases v <;> decide

theorem everyExporter_says : ∃ text jobs, regeneratePrometheusConfig lowerAscii everyExporter = some text ∧
    readJobs .v1_1 text = some jobs ∧ Says lowerAscii everyExporter promGuest jobs := by
  have htoken : Yaml.Plain .v1_1 everyExporter.authToken := by
    unfold everyExporter
    repeat rw [String.toList_ofList]
    decide +kernel
  exact (regenerated_says_iff lowerAscii .v1_1 everyExporter_guest everyExporter_accepted (everyExporter_quotable _)).2 fun _ => htoken

/-- A token with a backslash. -/
def backslashToken : Database :=
  { everyExporter with authToken := ['a', '\\', 't', 'b'] }

theorem backslashToken_accepted : Accepted backslashToken where
  exporters := everyExporter_accepted.exporters
  hostExporters := everyExporter_accepted.hostExporters
  metricsUrl := everyExporter_accepted.metricsUrl
  authToken := by
    have hall : (backslashToken.authToken.all fun c => decide (32 ≤ c.toNat ∧ c.toNat ≠ 127)) = true := by decide
    exact fun c hc => of_decide_eq_true (List.all_eq_true.1 hall c hc)
  listenPort := everyExporter_accepted.listenPort

theorem backslashToken_quotable (v : Yaml.Version) : Quotable lowerAscii v backslashToken promGuest where
  guests := (everyExporter_quotable v).guests
  hosts := (everyExporter_quotable v).hosts
  jitsi := (everyExporter_quotable v).jitsi
  unpoller := (everyExporter_quotable v).unpoller

/-- Of a token with a backslash and a `t` behind it, a tab is read. -/
theorem backslash_lost : Accepted backslashToken ∧ backslashToken.guestOf "prometheus_guest_id" = some promGuest ∧
    ∀ v, ∃ text jobs, regeneratePrometheusConfig lowerAscii backslashToken = some text ∧ readJobs v text = some jobs ∧
      jobs.filterMap Job.credential = [("mstdnca".toList, ['a', '\t', 'b'])] ∧ ¬ Says lowerAscii backslashToken promGuest jobs := by
  refine ⟨backslashToken_accepted, everyExporter_guest, fun v => ?_⟩
  obtain ⟨text, named, -, htext, -, hread⟩ := exists_jobsOf backslashToken_accepted (backslashToken_quotable v) everyExporter_guest
  have hwritten : Yaml.Written v (quoted backslashToken.authToken ++ [' ']) (.text ['a', '\t', 'b']) :=
    ⟨by decide, ⟨_, _, rfl, rfl⟩, by cases v <;> rfl⟩
  have hurl : metricsUrl backslashToken ≠ [] := by
    rw [show metricsUrl backslashToken = "10.0.0.5:5000".toList from everyExporter_metricsUrl]
    decide
  have hne : ¬(metricsUrl backslashToken = [] ∨ backslashToken.authToken = []) := not_or.2 ⟨hurl, List.cons_ne_nil _ _⟩
  have hcredentials := credentials_eq lowerAscii backslashToken promGuest ['a', '\t', 'b'] named
  rw [if_neg hne] at hcredentials
  refine ⟨text, _, htext, hread _ fun _ _ => hwritten, hcredentials, fun hsays => ?_⟩
  have hsame := hsays.credentials
  rw [hcredentials, if_neg hne] at hsame
  have htoken := (Prod.mk.inj (List.cons.inj hsame).1).2
  revert htoken
  decide

end ProxmoxTool.ScrapeConfig
