import ProxmoxTool.Apps.Validate
import ProxmoxTool.Lib.PromQL

/-!
# Selectors with label values

The PromQL queries that `clients/prometheus_query.py` builds for the UniFi and UnPoller charts.  Every label value goes through
`escape_label_value`, which makes a string literal of any text (`run_escapeLabelValue`).  Two queries of the same chart have the same
tokens but for the values of their matchers, and these are the ones that were asked for (`label_values_enclosed`).
-/

namespace ProxmoxTool.Metrics

open PromQL

/-- `t.replace(c, e)`. -/
def replaceChar (c : Char) (e t : Text) : Text := t.flatMap fun d => if d = c then e else [d]

/-- `escape_label_value`. -/
def escapeLabelValue : Option Text → Text
  | none => []
  | some value => replaceChar '\n' "\\n".toList (replaceChar '"' "\\\"".toList (replaceChar '\\' "\\\\".toList value))

/-- `name="value"`. -/
def labelMatcher (label : Text × Text) : Text := label.1 ++ "=\"".toList ++ escapeLabelValue (some label.2) ++ ['"']

/-- `metric{name="value",…}`. -/
def selector (metric : Text) (labels : List (Text × Text)) : Text :=
  metric ++ '\x7b' :: joinText [','] (labels.map labelMatcher) ++ ['\x7d']

/-- `rate(selector[{ri}])`. -/
def rate (step : Nat) (selector : Text) : Text :=
  "rate(".toList ++ selector ++ '[' :: natText (max (step * 2) 120) ++ "s])".toList

/-- A query of a chart, a rate or not. -/
def chartQuery (step : Nat) (rated : Bool) (metric : Text) (labels : List (Text × Text)) : Text :=
  if rated then rate step (selector metric labels) else selector metric labels

/-- The queries of a chart by their names: of each the metric behind of `p`, and whether it is its rate. -/
def chartQueries (step : Nat) (p : Text) (labels : List (Text × Text)) (qs : List (String × String × Bool)) : List (Text × Text) :=
  qs.map fun q => (q.1.toList, chartQuery step q.2.2 (p ++ q.2.1.toList) labels)

/-! ### The charts -/

section

variable (lower : Text → Text) (step : Nat)

def unifiDeviceMetrics : List (String × String × Bool) :=
  [("cpu", "mstdnca_unifi_device_cpu_percent", false), ("memory", "mstdnca_unifi_device_memory_percent", false),
    ("clients", "mstdnca_unifi_device_clients", false), ("tx_bytes", "mstdnca_unifi_device_tx_bytes", false),
    ("rx_bytes", "mstdnca_unifi_device_rx_bytes", false), ("temperature", "mstdnca_unifi_device_temperature_celsius", false)]

/-- `get_unifi_device_history`. -/
def unifiDeviceQueries (deviceMac : Text) : List (Text × Text) :=
  chartQueries step [] [("device_mac".toList, lower deviceMac)] unifiDeviceMetrics

def unifiSiteMetrics : List (String × String × Bool) :=
  [("clients", "mstdnca_unifi_client_count", false), ("devices", "mstdnca_unifi_device_count", false),
    ("wan_latency", "mstdnca_unifi_wan_latency_ms", false), ("wan_tx", "mstdnca_unifi_wan_tx_bytes_per_sec", false),
    ("wan_rx", "mstdnca_unifi_wan_rx_bytes_per_sec", false), ("speedtest_dl", "mstdnca_unifi_speedtest_download_mbps", false),
    ("speedtest_ul", "mstdnca_unifi_speedtest_upload_mbps", false)]

/-- `get_unifi_site_history`. -/
def unifiSiteQueries (siteName : Text) : List (Text × Text) := chartQueries step [] [("site_name".toList, siteName)] unifiSiteMetrics

def unpollerDeviceMetrics : List (String × String × Bool) :=
  [("cpu", "_device_system_cpu", false), ("memory", "_device_system_mem", false), ("clients", "_device_num_sta", false),
    ("temperature", "_device_general_temperature", false), ("uptime", "_device_uptime_seconds", false),
    ("tx_bytes", "_device_stat_bytes_sent", false), ("rx_bytes", "_device_stat_bytes_received", false)]

/-- `get_unpoller_device_history`. -/
def unpollerDeviceQueries (p site deviceName : Text) : List (Text × Text) :=
  chartQueries step p [("site_name".toList, site), ("name".toList, deviceName)] unpollerDeviceMetrics

def unpollerClientMetrics : List (String × String × Bool) :=
  [("rssi", "_client_rssi_db", false), ("signal", "_client_radio_signal_db", false), ("satisfaction", "_client_satisfaction_ratio", false),
    ("noise", "_client_noise_db", false), ("tx_rate", "_client_transmit_bytes_total", true), ("rx_rate", "_client_receive_bytes_total", true),
    ("uptime", "_client_uptime_seconds", false)]

/-- `get_unpoller_client_history`. -/
def unpollerClientQueries (p site clientMac : Text) : List (Text × Text) :=
  chartQueries step p [("site_name".toList, site), ("mac".toList, lower clientMac)] unpollerClientMetrics

def unpollerRadioMetrics : List (String × String × Bool) :=
  [("channel", "_device_radio_channel", false), ("channel_utilization", "_device_radio_channel_utilization_total_ratio", false),
    ("stations", "_device_radio_stations", false), ("tx_power", "_device_radio_transmit_power", false)]

/-- `get_unpoller_radio_history`. -/
def unpollerRadioQueries (p site deviceName radioName : Text) : List (Text × Text) :=
  chartQueries step p [("site_name".toList, site), ("name".toList, deviceName), ("radio_name".toList, radioName)] unpollerRadioMetrics

def unpollerSiteMetrics : List (String × String × Bool) :=
  [("clients", "_site_num_user", false), ("guests", "_site_num_guest", false), ("devices", "_site_num_adopted", false),
    ("wan_latency", "_site_latency_seconds", false), ("wan_tx", "_site_transmit_rate_bytes", false),
    ("wan_rx", "_site_receive_rate_bytes", false), ("speedtest_dl", "_site_xput_down_rate", false),
    ("speedtest_ul", "_site_xput_up_rate", false), ("aps", "_site_num_ap", false), ("switches", "_site_num_sw", false),
    ("gateways", "_site_num_gw", false)]

/-- `get_unpoller_site_history`. -/
def unpollerSiteQueries (p site : Text) : List (Text × Text) := chartQueries step p [("site_name".toList, site)] unpollerSiteMetrics

def unpollerWanMetrics : List (String × String × Bool) :=
  [("latency", "_site_latency_seconds", false), ("wan_tx_rate", "_site_transmit_rate_bytes", false),
    ("wan_rx_rate", "_site_receive_rate_bytes", false), ("speedtest_download", "_site_xput_down_rate", false),
    ("speedtest_upload", "_site_xput_up_rate", false), ("speedtest_ping", "_site_speedtest_ping", false),
    ("internet_drops", "_site_intenet_drops_total", false)]

/-- `get_unpoller_wan_history`. -/
def unpollerWanQueries (p site : Text) : List (Text × Text) := chartQueries step p [("site_name".toList, site)] unpollerWanMetrics

def unpollerDpiMetrics : List (String × String × Bool) :=
  [("rx", "_site_dpi_receive_bytes", true), ("tx", "_site_dpi_transmit_bytes", true)]

/-- `get_unpoller_dpi_history`, whose queries have no names. -/
def unpollerDpiQueries (p site : Text) : List (Text × Text) := chartQueries step p [("site_name".toList, site)] unpollerDpiMetrics

end

/-! ### Escaping -/

theorem escapeLabelValue_eq (v : Text) : escapeLabelValue (some v) = v.flatMap escapeChar := by
  change (replaceChar '\n' _ (replaceChar '"' _ (replaceChar '\\' _ v))) = _
  unfold replaceChar
  rw [List.flatMap_assoc, List.flatMap_assoc]
  refine List.flatMap_congr fun c _ => ?_
  unfold escapeChar
  -- each replacement leaves what the ones before have written
  by_cases hbackslash : c = '\\'
  · subst hbackslash
    rfl
  · by_cases hquote : c = '"'
    · subst hquote
      rfl
    · by_cases hline : c = '\n'
      · subst hline
        rfl
      · simp [hbackslash, hquote, hline]

/-- The text between the quotes is one literal, whatever the value. -/
theorem run_escapeLabelValue {s : Lexer} (h : s.Outside) (v : Text) :
    run s ('"' :: (escapeLabelValue (some v) ++ ['"'])) = some ⟨.plain, .string v :: s.done⟩ := by
  rw [escapeLabelValue_eq]
  exact run_literal h v

/-! ### Queries of the same matchers -/

/-- The tokens of two queries are the same but for the values of the matchers, and these are the given ones. -/
def SameTokens (values values' : List Text) (q q' : Text) : Prop :=
  (lex q = none ∧ lex q' = none) ∨
    ∃ ts ts', lex q = some ts ∧ lex q' = some ts' ∧ List.Forall₂ Token.Alike ts ts' ∧
      ts.filterMap Token.value? = values ∧ ts'.filterMap Token.value? = values'

/-- Two charts with the same matchers, that all have tokens if the metrics are names. -/
structure SameMatchers (named : Bool) (values values' : List Text) (qs qs' : List (Text × Text)) : Prop where
  tokens : List.Forall₂ (fun q q' => q.1 = q'.1 ∧ SameTokens values values' q.2 q'.2) qs qs'
  lexed : named = true → ∀ q ∈ qs, (lex q.2).isSome = true

/-! ### The pieces of a query -/

def labelPieces : List (Text × Text) → List Piece
  | [] => []
  | [label] => [.fixed (label.1 ++ "=".toList), .literal label.2]
  | label :: label' :: labels => .fixed (label.1 ++ "=".toList) :: .literal label.2 :: .fixed [','] :: labelPieces (label' :: labels)

theorem labelPieces_text (labels : List (Text × Text)) :
    (labelPieces labels).flatMap Piece.text = joinText [','] (labels.map labelMatcher) := by
  fun_induction labelPieces labels with
  | case1 => rfl
  | case2 label =>
    rw [List.map_singleton, joinText, List.intercalate_singleton, labelMatcher, escapeLabelValue_eq]
    simp [Piece.text]
  | case3 label label' labels ih =>
    have hjoin : joinText [','] (labelMatcher label :: (label' :: labels).map labelMatcher) =
        labelMatcher label ++ [','] ++ joinText [','] ((label' :: labels).map labelMatcher) := List.intercalate_cons_cons
    rw [List.map_cons, hjoin, ← ih, labelMatcher, escapeLabelValue_eq]
    simp [Piece.text]

theorem labelPieces_value (labels : List (Text × Text)) : (labelPieces labels).filterMap Piece.value? = labels.map Prod.snd := by
  fun_induction labelPieces labels with
  | case1 => rfl
  | case2 label => rfl
  | case3 label label' labels ih =>
    change label.2 :: (labelPieces (label' :: labels)).filterMap Piece.value? = _
    rw [ih]
    rfl

/-- The same label, whatever its value. -/
def SameLabel (l l' : Text × Text) : Prop := l.1 = l'.1 ∧ isName l.1 = true

theorem SameLabel.fixed_alike {l l' : Text × Text} (h : SameLabel l l') :
    (Piece.fixed (l.1 ++ "=".toList)).Alike (.fixed (l'.1 ++ "=".toList)) := by
  refine ⟨by rw [h.1], ?_⟩
  rw [List.mem_append, not_or]
  exact ⟨quote_not_mem_of_isName h.2, by decide⟩

theorem labelPieces_alike {labels labels' : List (Text × Text)} (h : List.Forall₂ SameLabel labels labels') :
    List.Forall₂ Piece.Alike (labelPieces labels) (labelPieces labels') := by
  induction h with
  | nil => exact .nil
  | @cons l l' ls ls' hlabel hrest ih =>
    cases hrest with
    | nil => exact .cons hlabel.fixed_alike (.cons trivial .nil)
    | cons hlabel' hrest' => exact .cons hlabel.fixed_alike (.cons trivial (.cons ⟨rfl, by decide⟩ ih))

/-- What stands before the labels of a query, and what behind. -/
def opening (rated : Bool) (metric : Text) : Text := (if rated then "rate(".toList else []) ++ (metric ++ ['\x7b'])

def closing (step : Nat) (rated : Bool) : Text := '\x7d' :: if rated then '[' :: natText (max (step * 2) 120) ++ "s])".toList else []

def queryPieces (step : Nat) (rated : Bool) (metric : Text) (labels : List (Text × Text)) : List Piece :=
  .fixed (opening rated metric) :: (labelPieces labels ++ [.fixed (closing step rated)])

theorem queryPieces_text (step : Nat) (rated : Bool) (metric : Text) (labels : List (Text × Text)) :
    (queryPieces step rated metric labels).flatMap Piece.text = chartQuery step rated metric labels := by
  unfold queryPieces chartQuery
  rw [List.flatMap_cons, List.flatMap_append, labelPieces_text]
  cases rated with
  | false => simp [Piece.text, opening, closing, selector]
  | true =>
    unfold rate
    simp [Piece.text, opening, closing, selector]

theorem queryPieces_value (step : Nat) (rated : Bool) (metric : Text) (labels : List (Text × Text)) :
    (queryPieces step rated metric labels).filterMap Piece.value? = labels.map Prod.snd := by
  change (labelPieces labels ++ [Piece.fixed (closing step rated)]).filterMap Piece.value? = _
  rw [List.filterMap_append, labelPieces_value]
  exact List.append_nil _

theorem quote_not_mem_opening (rated : Bool) {metric : Text} (h : '"' ∉ metric) : '"' ∉ opening rated metric := by
  unfold opening
  rw [List.mem_append, List.mem_append, not_or, not_or]
  refine ⟨?_, h, by decide⟩
  cases rated <;> decide

theorem quote_not_mem_closing (step : Nat) (rated : Bool) : '"' ∉ closing step rated := by
  have hnumber : '"' ∉ natText (max (step * 2) 120) := not_mem_natText rfl
  cases rated with
  | false => simp [closing]
  | true => simp [closing, hnumber]

theorem queryPieces_alike (step : Nat) (rated : Bool) {metric : Text} (hmetric : '"' ∉ metric) {labels labels' : List (Text × Text)}
    (hlabels : List.Forall₂ SameLabel labels labels') :
    List.Forall₂ Piece.Alike (queryPieces step rated metric labels) (queryPieces step rated metric labels') :=
  .cons ⟨rfl, quote_not_mem_opening rated hmetric⟩
    (List.rel_append (labelPieces_alike hlabels) (.cons ⟨rfl, quote_not_mem_closing step rated⟩ .nil))

theorem fixed_of_alike {ps ps' : List Piece} (h : List.Forall₂ Piece.Alike ps ps') : ∀ t, Piece.fixed t ∈ ps → '"' ∉ t := by
  induction h with
  | nil =>
    intro t ht
    cases ht
  | @cons p p' ps ps' hp _ ih =>
    intro t ht
    rcases List.mem_cons.1 ht with rfl | ht
    · cases p' with
      | fixed t' => exact hp.2
      | literal v' => exact hp.elim
    · exact ih t ht

theorem sameLabel_symm {l l' : Text × Text} (h : SameLabel l l') : SameLabel l' l := ⟨h.1.symm, h.1 ▸ h.2⟩

theorem chartQuery_sameTokens (step : Nat) (rated : Bool) {metric : Text} (hmetric : '"' ∉ metric) {labels labels' : List (Text × Text)}
    (hlabels : List.Forall₂ SameLabel labels labels') :
    SameTokens (labels.map Prod.snd) (labels'.map Prod.snd) (chartQuery step rated metric labels)
      (chartQuery step rated metric labels') := by
  have halike := queryPieces_alike step rated hmetric hlabels
  have hlabels' : List.Forall₂ SameLabel labels' labels := (hlabels.imp fun _ _ h => sameLabel_symm h).flip
  have halike' := queryPieces_alike step rated hmetric hlabels'
  rw [← queryPieces_text, ← queryPieces_text]
  rcases lex_pieces_alike halike with hnone | ⟨ts, ts', hts, hts', htokens⟩
  · exact .inl hnone
  · refine .inr ⟨ts, ts', hts, hts', htokens, ?_, ?_⟩
    · rw [lex_pieces_values (fixed_of_alike halike) hts, queryPieces_value]
    · rw [lex_pieces_values (fixed_of_alike halike') hts', queryPieces_value]

/-! ### The tokens of a query -/

theorem run_labelMatcher {l : Text × Text} (hl : isName l.1 = true) (ts : List Token) :
    run ⟨.plain, ts⟩ (labelMatcher l) = some ⟨.plain, .string l.2 :: .sign '=' :: .name l.1 :: ts⟩ := by
  have hsign : step ⟨.name l.1, ts⟩ '=' = some ⟨.plain, .sign '=' :: .name l.1 :: ts⟩ := step_sign_name rfl _ _
  have hshape : labelMatcher l = l.1 ++ '=' :: ('"' :: (escapeLabelValue (some l.2) ++ ['"'])) := by
    simp [labelMatcher]
  rw [hshape, run_append, run_name hl, Option.bind_some, run_cons_of hsign,
    run_escapeLabelValue (s := ⟨.plain, .sign '=' :: .name l.1 :: ts⟩) trivial]
  rfl

theorem run_labels {labels : List (Text × Text)} (hlabels : ∀ l ∈ labels, isName l.1 = true) (ts : List Token) :
    ∃ ts', run ⟨.plain, ts⟩ (joinText [','] (labels.map labelMatcher)) = some ⟨.plain, ts'⟩ := by
  induction labels generalizing ts with
  | nil => exact ⟨ts, rfl⟩
  | cons l ls ih =>
    have hmatcher := run_labelMatcher (hlabels l List.mem_cons_self) ts
    cases ls with
    | nil =>
      rw [List.map_singleton, joinText, List.intercalate_singleton, hmatcher]
      exact ⟨_, rfl⟩
    | cons l' ls =>
      have hjoin : joinText [','] ((l :: l' :: ls).map labelMatcher) =
          labelMatcher l ++ ([','] ++ joinText [','] ((l' :: ls).map labelMatcher)) :=
        List.intercalate_cons_cons.trans (List.append_assoc ..)
      obtain ⟨ts', hts'⟩ := ih (fun x hx => hlabels x (List.mem_cons_of_mem _ hx))
        (.sign ',' :: .string l.2 :: .sign '=' :: .name l.1 :: ts)
      refine ⟨ts', ?_⟩
      rw [hjoin, run_append, hmatcher, Option.bind_some, List.singleton_append, run_cons_of (step_sign_plain rfl _)]
      exact hts'

theorem lex_chartQuery (step : Nat) (rated : Bool) {metric : Text} (hmetric : isName metric = true) {labels : List (Text × Text)}
    (hlabels : ∀ l ∈ labels, isName l.1 = true) : (lex (chartQuery step rated metric labels)).isSome = true := by
  have hselector : ∀ ts, ∃ ts', run ⟨.plain, ts⟩ (selector metric labels) = some ⟨.plain, ts'⟩ := by
    intro ts
    have hopen : PromQL.step ⟨.name metric, ts⟩ '\x7b' = some ⟨.plain, .sign '\x7b' :: .name metric :: ts⟩ :=
      step_sign_name rfl _ _
    obtain ⟨ts', hts'⟩ := run_labels hlabels (.sign '\x7b' :: .name metric :: ts)
    refine ⟨.sign '\x7d' :: ts', ?_⟩
    unfold selector
    rw [List.append_assoc, List.cons_append, run_append, run_name hmetric, Option.bind_some, run_cons_of hopen, run_append, hts',
      Option.bind_some, run_cons_of (step_sign_plain rfl _)]
    rfl
  unfold lex chartQuery
  cases rated with
  | false =>
    obtain ⟨ts', hts'⟩ := hselector []
    rw [if_neg Bool.false_ne_true, hts']
    rfl
  | true =>
    obtain ⟨ts', hts'⟩ := hselector [.sign '(', .name "rate".toList]
    have hrate : run {} "rate(".toList = some ⟨.plain, [.sign '(', .name "rate".toList]⟩ := by decide
    obtain ⟨d, digits, hdigits⟩ := List.exists_cons_of_ne_nil (natText_ne_nil (max (step * 2) 120))
    have hall : ∀ c ∈ natText (max (step * 2) 120), c.isDigit = true := fun c hc => isDigit_of_mem_natText hc
    rw [hdigits] at hall
    have hnumber : (digits ++ ['s']).all isNumberChar = true := by
      rw [List.all_append, Bool.and_eq_true, List.all_eq_true]
      refine ⟨fun c hc => ?_, rfl⟩
      have hdigit := hall c (List.mem_cons_of_mem _ hc)
      unfold isNumberChar Char.isAlphanum
      rw [hdigit, Bool.or_true, Bool.true_or]
    have hshape : '[' :: natText (max (step * 2) 120) ++ "s])".toList = '[' :: (d :: (digits ++ ['s'])) ++ [']', ')'] := by
      rw [hdigits]
      simp
    rw [if_pos rfl]
    unfold rate
    rw [List.append_assoc, run_append, run_append, hrate, Option.bind_some, hts', Option.bind_some, hshape,
      List.cons_append, run_cons_of (step_sign_plain rfl _), run_append, run_number (hall d List.mem_cons_self) hnumber, Option.bind_some,
      run_cons_of (step_sign_number rfl _ _), run_cons_of (step_sign_plain rfl _)]
    rfl

/-! ### Charts of the same matchers -/

theorem isName_of_forall₂ {labels labels' : List (Text × Text)} (h : List.Forall₂ SameLabel labels labels') :
    ∀ l ∈ labels, isName l.1 = true := by
  induction h with
  | nil =>
    intro l hl
    cases hl
  | cons hlabel _ ih =>
    intro l hl
    rcases List.mem_cons.1 hl with rfl | hl
    · exact hlabel.2
    · exact ih l hl

theorem chartQueries_sameMatchers (step : Nat) {p : Text} {qs : List (String × String × Bool)} {labels labels' : List (Text × Text)}
    (hlabels : List.Forall₂ SameLabel labels labels') {named : Bool} (hp : ∀ q ∈ qs, '"' ∉ p ++ q.2.1.toList)
    (hnamed : named = true → ∀ q ∈ qs, isName (p ++ q.2.1.toList) = true) :
    SameMatchers named (labels.map Prod.snd) (labels'.map Prod.snd) (chartQueries step p labels qs) (chartQueries step p labels' qs) := by
  refine ⟨?_, fun h q hq => ?_⟩
  · unfold chartQueries
    rw [List.forall₂_map_left_iff, List.forall₂_map_right_iff, List.forall₂_same]
    exact fun q hq => ⟨rfl, chartQuery_sameTokens step q.2.2 (hp q hq) hlabels⟩
  · obtain ⟨q', hq', rfl⟩ := List.mem_map.1 hq
    exact lex_chartQuery step q'.2.2 (hnamed h q' hq') (isName_of_forall₂ hlabels)

/-- Metrics of a prefix without quotes. -/
theorem prefix_sameMatchers (step : Nat) {p : Text} (hp : '"' ∉ p) {qs : List (String × String × Bool)}
    {labels labels' : List (Text × Text)} (hlabels : List.Forall₂ SameLabel labels labels')
    (hqs : ∀ q ∈ qs, q.2.1.toList.all isNameChar = true) :
    SameMatchers (isName p) (labels.map Prod.snd) (labels'.map Prod.snd) (chartQueries step p labels qs)
      (chartQueries step p labels' qs) := by
  refine chartQueries_sameMatchers step hlabels (fun q hq => ?_) fun hname q hq => isName_append hname (hqs q hq)
  rw [List.mem_append, not_or]
  exact ⟨hp, quote_not_mem_of_nameChars (hqs q hq)⟩

/-- Metrics without a prefix. -/
theorem names_sameMatchers (step : Nat) {qs : List (String × String × Bool)} {labels labels' : List (Text × Text)}
    (hlabels : List.Forall₂ SameLabel labels labels') (hqs : ∀ q ∈ qs, isName q.2.1.toList = true) :
    SameMatchers true (labels.map Prod.snd) (labels'.map Prod.snd) (chartQueries step [] labels qs) (chartQueries step [] labels' qs) :=
  chartQueries_sameMatchers step hlabels (fun q hq => quote_not_mem_of_isName (hqs q hq)) fun _ => hqs

theorem unifi_named : ∀ q ∈ unifiDeviceMetrics ++ unifiSiteMetrics, isName q.2.1.toList = true := by
  unfold unifiDeviceMetrics unifiSiteMetrics
  simp only [-String.reduceToList, List.forall_mem_append, List.forall_mem_cons]
  repeat rw [String.toList_ofList]
  decide

theorem unpoller_named : ∀ q ∈ unpollerDeviceMetrics ++ unpollerClientMetrics ++ unpollerRadioMetrics ++ unpollerSiteMetrics ++
    unpollerWanMetrics ++ unpollerDpiMetrics, q.2.1.toList.all isNameChar = true := by
  unfold unpollerDeviceMetrics unpollerClientMetrics unpollerRadioMetrics unpollerSiteMetrics unpollerWanMetrics unpollerDpiMetrics
  simp only [-String.reduceToList, List.forall_mem_append, List.forall_mem_cons]
  repeat rw [String.toList_ofList]
  decide

section

variable (u : CharTable)

theorem quote_not_mem_of_shellParam {p : Text} (h : u.validateShellParam p = true) : '"' ∉ p := by
  intro hquote
  have hsafe := List.all_eq_true.1 (Bool.and_eq_true_iff.1 h).2 _ hquote
  cases hsafe

/-- Of every value the text between the quotes is one literal that stands for it, and of every two devices, radios, sites and clients
the queries of a chart are the same but for the values of their matchers, which are the ones asked for.  They all have tokens where the
prefix of the settings is a name. -/
theorem label_values_enclosed (lower : Text → Text) (step : Nat) {p : Text} (hp : u.validateShellParam p = true) :
    (∀ (v : Text) (s : Lexer), s.Outside →
      run s ('"' :: (escapeLabelValue (some v) ++ ['"'])) = some ⟨.plain, .string v :: s.done⟩) ∧
    (∀ mac mac', SameMatchers true [lower mac] [lower mac'] (unifiDeviceQueries lower step mac) (unifiDeviceQueries lower step mac')) ∧
    (∀ site site', SameMatchers true [site] [site'] (unifiSiteQueries step site) (unifiSiteQueries step site')) ∧
    (∀ site site' device device', SameMatchers (isName p) [site, device] [site', device']
      (unpollerDeviceQueries step p site device) (unpollerDeviceQueries step p site' device')) ∧
    (∀ site site' mac mac', SameMatchers (isName p) [site, lower mac] [site', lower mac']
      (unpollerClientQueries lower step p site mac) (unpollerClientQueries lower step p site' mac')) ∧
    (∀ site site' device device' radio radio', SameMatchers (isName p) [site, device, radio] [site', device', radio']
      (unpollerRadioQueries step p site device radio) (unpollerRadioQueries step p site' device' radio')) ∧
    ∀ site site', SameMatchers (isName p) [site] [site'] (unpollerSiteQueries step p site) (unpollerSiteQueries step p site') ∧
      SameMatchers (isName p) [site] [site'] (unpollerWanQueries step p site) (unpollerWanQueries step p site') ∧
      SameMatchers (isName p) [site] [site'] (unpollerDpiQueries step p site) (unpollerDpiQueries step p site') := by
  have hquote := quote_not_mem_of_shellParam u hp
  have hlabel : ∀ (n : String) (v v' : Text), isName n.toList = true → SameLabel (n.toList, v) (n.toList, v') :=
    fun _ _ _ h => ⟨rfl, h⟩
  have hsite : ∀ site site', SameLabel ("site_name".toList, site) ("site_name".toList, site') := fun _ _ => hlabel _ _ _ rfl
  have hunpoller := unpoller_named
  simp only [List.forall_mem_append] at hunpoller
  obtain ⟨⟨⟨⟨⟨hdevices, hclients⟩, hradios⟩, hsites⟩, hwan⟩, hdpi⟩ := hunpoller
  obtain ⟨hunifiDevices, hunifiSites⟩ := List.forall_mem_append.1 unifi_named
  refine ⟨fun v s hs => run_escapeLabelValue hs v, fun mac mac' => ?_, fun site site' => ?_, fun site site' device device' => ?_,
    fun site site' mac mac' => ?_, fun site site' device device' radio radio' => ?_, fun site site' => ⟨?_, ?_, ?_⟩⟩
  · exact names_sameMatchers step (.cons (hlabel "device_mac" _ _ rfl) .nil) hunifiDevices
  · exact names_sameMatchers step (.cons (hsite _ _) .nil) hunifiSites
  · exact prefix_sameMatchers step hquote (.cons (hsite _ _) (.cons (hlabel "name" _ _ rfl) .nil)) hdevices
  · exact prefix_sameMatchers step hquote (.cons (hsite _ _) (.cons (hlabel "mac" _ _ rfl) .nil)) hclients
  · exact prefix_sameMatchers step hquote
      (.cons (hsite _ _) (.cons (hlabel "name" _ _ rfl) (.cons (hlabel "radio_name" _ _ rfl) .nil))) hradios
  · exact prefix_sameMatchers step hquote (.cons (hsite _ _) .nil) hsites
  · exact prefix_sameMatchers step hquote (.cons (hsite _ _) .nil) hwan
  · exact prefix_sameMatchers step hquote (.cons (hsite _ _) .nil) hdpi

end

/-- A device that is named to end the selector. -/
theorem device_name_enclosed :
    let device := "x\"\x7d or up\x7bjob=~\".*".toList
    SameMatchers true ["default".toList, "lobby".toList] ["default".toList, device]
      (unpollerDeviceQueries 300 "unpoller".toList "default".toList "lobby".toList)
      (unpollerDeviceQueries 300 "unpoller".toList "default".toList device) := by
  have hprefix : CharTable.validateShellParam ⟨fun _ => false, fun _ => false⟩ "unpoller".toList = true := by decide
  exact (label_values_enclosed ⟨fun _ => false, fun _ => false⟩ id 300 hprefix).2.2.2.1 _ _ _ _

end ProxmoxTool.Metrics
