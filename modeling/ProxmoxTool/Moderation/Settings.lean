import ProxmoxTool.Lib.Text

/-!
# Moderation settings

`get_watch_settings` reads the settings of the watch poll from their stored texts and clamps each of them, so the poll works
with values in their bounds whatever is stored.  `WatchSettings` carries the bounds.
-/

namespace ProxmoxTool.Moderation

/-- The keys `get_watch_settings` reads, as far as the poll uses their values. -/
inductive Key
  | autoWatchDays
  | silentLoginDays
  | silentMinAgeDays
  | silentScanWindowDays
  | logRetentionDays
  deriving DecidableEq, Repr

def clamp (low : Int) (high : Option Int) (value : Int) : Int :=
  let value := if value < low then low else value
  match high with
  | some high => if high < value then high else value
  | none => value

/-- `_parse_int`: the default for a text that is no number. -/
def parseSetting (raw : Text) (default low : Int) (high : Option Int) : Int :=
  match parseInt raw with
  | some value => clamp low high value
  | none => default

theorem le_clamp {low value : Int} {high : Option Int} (h : ∀ b, high = some b → low ≤ b) : low ≤ clamp low high value := by
  unfold clamp
  cases high with
  | none => dsimp only; split <;> omega
  | some b =>
    have := h b rfl
    dsimp only
    split <;> split <;> omega

theorem clamp_le {low value b : Int} : clamp low (some b) value ≤ b := by
  unfold clamp
  dsimp only
  split
  · omega
  · omega

theorem le_parseSetting {raw : Text} {default low : Int} {high : Option Int} (hd : low ≤ default)
    (h : ∀ b, high = some b → low ≤ b) : low ≤ parseSetting raw default low high := by
  unfold parseSetting
  split
  · exact le_clamp h
  · exact hd

theorem parseSetting_le {raw : Text} {default low b : Int} (hd : default ≤ b) : parseSetting raw default low (some b) ≤ b := by
  unfold parseSetting
  split
  · exact clamp_le
  · exact hd

/-- The settings of the watch poll, in days. -/
structure WatchSettings where
  autoWatchDays : Int
  silentLoginDays : Int
  silentMinAgeDays : Int
  silentScanWindowDays : Int
  logRetentionDays : Int
  autoWatch_mem : 0 ≤ autoWatchDays ∧ autoWatchDays ≤ 90
  silentLogin_pos : 1 ≤ silentLoginDays
  silentMinAge_nonneg : 0 ≤ silentMinAgeDays
  silentScanWindow_pos : 1 ≤ silentScanWindowDays
  logRetention_mem : 30 ≤ logRetentionDays ∧ logRetentionDays ≤ 3650

/-- `get_watch_settings` on the stored texts; the retention is read by `interval_setting`. -/
def getWatchSettings (stored : Key → Option Text) : WatchSettings where
  autoWatchDays := parseSetting ((stored .autoWatchDays).getD ['0']) 0 0 (some 90)
  silentLoginDays := parseSetting ((stored .silentLoginDays).getD ['7']) 7 1 none
  silentMinAgeDays := parseSetting ((stored .silentMinAgeDays).getD ['1', '4']) 14 0 none
  silentScanWindowDays := parseSetting ((stored .silentScanWindowDays).getD ['9', '0']) 90 1 none
  logRetentionDays := parseSetting ((stored .logRetentionDays).getD ['3', '6', '5']) 365 30 (some 3650)
  autoWatch_mem := ⟨le_parseSetting (by decide) (by simp), parseSetting_le (by decide)⟩
  silentLogin_pos := le_parseSetting (by decide) (by simp)
  silentMinAge_nonneg := le_parseSetting (by decide) (by simp)
  silentScanWindow_pos := le_parseSetting (by decide) (by simp)
  logRetention_mem := ⟨le_parseSetting (by decide) (by simp), parseSetting_le (by decide)⟩

def WatchSettings.default : WatchSettings := getWatchSettings fun _ => none

end ProxmoxTool.Moderation
