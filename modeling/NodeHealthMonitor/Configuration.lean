import NodeHealthMonitor.NhmMain

/-! `nhm_main_load_config`. The key file is what GLib makes of `NHM_CFG_FILE`: a lookup of
integers and of string lists. Whatever it holds, the configuration is one that the rest of the
program can use, and every such configuration can be written into a key file. -/

namespace NodeHealthMonitor.Configuration
open NhmMain

/-- `g_key_file_get_integer` and `g_key_file_get_string_list`; `none` is an error. -/
structure KeyFile where
  get_integer : (group key : String) → Option Int32
  get_string_list : (group key : String) → Option (List CString)

def loadUint (file : KeyFile) (group key : String) (defval : UInt32) : UInt32 :=
  match file.get_integer group key with
  | some retval => if 0 ≤ retval then retval.toUInt32 else defval
  | none => defval

/-- `g_strjoinv(";", str_array)` -/
def strjoinv (str_array : List CString) : List UInt8 :=
  List.intercalate [59] (str_array.map (·.bytes))

def loadStringArray (file : KeyFile) (group key : String) (defval : List CString) :
    Option (List CString) :=
  let retval := (file.get_string_list group key).getD defval
  let loaded_list := strjoinv retval
  if loaded_list.length = 0 then none else some retval

/-- The part of `nhm_main_init` about the configuration; `monitored_progs` is forgotten. -/
def init (cfg : Config) : Config where
  max_lc_count := 0
  max_failed_apps := 0
  no_restart_apps := none
  ul_chk_interval := 0
  monitored_files := none
  monitored_progs := cfg.monitored_progs
  monitored_procs := none
  monitored_dbus := none

/-- `nhm_main_load_config`; there is no key file if it cannot be loaded. -/
def loadConfig (file : Option KeyFile) (cfg : Config) : Config :=
  match file with
  | some file =>
      { max_lc_count := loadUint file "node" "historic_lc_count" 0
        max_failed_apps := loadUint file "node" "max_failed_apps" 0
        no_restart_apps := loadStringArray file "node" "no_restart_apps" [.empty]
        ul_chk_interval := loadUint file "userland" "ul_chk_interval" 0
        monitored_files := loadStringArray file "userland" "monitored_files" [.empty]
        monitored_progs := loadStringArray file "userland" "monitored_progs" [.empty]
        monitored_procs := loadStringArray file "userland" "monitored_procs" [.empty]
        monitored_dbus := loadStringArray file "userland" "monitored_dbus" [.empty] }
  | none =>
      -- `monitored_dbus` is left as it was.
      { max_lc_count := 0
        max_failed_apps := 0
        no_restart_apps := none
        ul_chk_interval := 0
        monitored_files := none
        monitored_progs := none
        monitored_procs := none
        monitored_dbus := cfg.monitored_dbus }

def Count (n : UInt32) : Prop := n.toNat < 2 ^ 31

/-- A string array that is there has a string in it that is not empty, or two strings. -/
def Proper (str_array : Option (List CString)) : Prop :=
  str_array ≠ some [] ∧ str_array ≠ some [.empty]

structure Legal (cfg : Config) : Prop where
  max_lc_count : Count cfg.max_lc_count
  max_failed_apps : Count cfg.max_failed_apps
  no_restart_apps : Proper cfg.no_restart_apps
  ul_chk_interval : Count cfg.ul_chk_interval
  monitored_files : Proper cfg.monitored_files
  monitored_progs : Proper cfg.monitored_progs
  monitored_procs : Proper cfg.monitored_procs
  monitored_dbus : Proper cfg.monitored_dbus

theorem count_iff (retval : Int32) : 0 ≤ retval ↔ Count retval.toUInt32 := by
  rw [Int32.le_iff_toInt_le, Count]
  have hsign : 0 ≤ retval.toBitVec.toInt ↔ 2 * retval.toBitVec.toNat < 2 ^ 32 :=
    BitVec.toInt_pos_iff
  change 0 ≤ retval.toBitVec.toInt ↔ retval.toBitVec.toNat < 2 ^ 31
  omega

theorem count_zero : Count 0 := Nat.two_pow_pos 31

theorem loadUint_count (file : KeyFile) (group key : String) (defval : UInt32)
    (h : Count defval) : Count (loadUint file group key defval) := by
  unfold loadUint
  split
  · split
    · rename_i hpos
      exact (count_iff _).mp hpos
    · exact h
  · exact h

theorem loadUint_same {file : KeyFile} {group key : String} {n defval : UInt32} (hn : Count n)
    (h : file.get_integer group key = some n.toInt32) : loadUint file group key defval = n := by
  have hpos : 0 ≤ n.toInt32 := (count_iff n.toInt32).mpr (by rwa [UInt32.toUInt32_toInt32])
  simp only [loadUint, h, if_pos hpos, UInt32.toUInt32_toInt32]

theorem strjoinv_eq_nil (str_array : List CString) :
    strjoinv str_array = [] ↔ str_array = [] ∨ str_array = [.empty] := by
  cases str_array with
  | nil => simp [strjoinv]
  | cons s rest =>
    cases rest with
    | nil =>
      have hbytes : s.bytes = [] ↔ s = .empty := ⟨fun h => CString.ext h, fun h => h ▸ rfl⟩
      simp [strjoinv, hbytes]
    | cons t rest => simp [strjoinv, List.intercalate]

theorem loadStringArray_eq (file : KeyFile) (group key : String) (defval : List CString) :
    loadStringArray file group key defval =
      if (file.get_string_list group key).getD defval = [] ∨
          (file.get_string_list group key).getD defval = [.empty] then none
      else some ((file.get_string_list group key).getD defval) := by
  simp only [loadStringArray, List.length_eq_zero_iff, strjoinv_eq_nil]

theorem proper_none : Proper none := ⟨by simp, by simp⟩

theorem loadStringArray_proper (file : KeyFile) (group key : String) (defval : List CString) :
    Proper (loadStringArray file group key defval) := by
  rw [loadStringArray_eq]
  split
  · exact proper_none
  · rename_i h
    rw [not_or] at h
    exact ⟨fun hnil => h.1 (Option.some.inj hnil), fun hempty => h.2 (Option.some.inj hempty)⟩

theorem loadStringArray_same {file : KeyFile} {group key : String}
    {str_array : Option (List CString)} (proper : Proper str_array)
    (h : file.get_string_list group key = str_array) :
    loadStringArray file group key [.empty] = str_array := by
  rw [loadStringArray_eq, h]
  cases str_array with
  | none => simp
  | some strings =>
    have hnil : strings ≠ [] := fun h => proper.1 (congrArg some h)
    have hempty : strings ≠ [.empty] := fun h => proper.2 (congrArg some h)
    simp [hnil, hempty]

/-- The key file has these settings, where it says nothing of an array that is not there. -/
structure Holds (file : KeyFile) (cfg : Config) : Prop where
  max_lc_count : file.get_integer "node" "historic_lc_count" = some cfg.max_lc_count.toInt32
  max_failed_apps : file.get_integer "node" "max_failed_apps" = some cfg.max_failed_apps.toInt32
  no_restart_apps : file.get_string_list "node" "no_restart_apps" = cfg.no_restart_apps
  ul_chk_interval :
    file.get_integer "userland" "ul_chk_interval" = some cfg.ul_chk_interval.toInt32
  monitored_files : file.get_string_list "userland" "monitored_files" = cfg.monitored_files
  monitored_progs : file.get_string_list "userland" "monitored_progs" = cfg.monitored_progs
  monitored_procs : file.get_string_list "userland" "monitored_procs" = cfg.monitored_procs
  monitored_dbus : file.get_string_list "userland" "monitored_dbus" = cfg.monitored_dbus

def keyFileOf (cfg : Config) : KeyFile where
  get_integer group key :=
    if group = "node" ∧ key = "historic_lc_count" then some cfg.max_lc_count.toInt32
    else if group = "node" ∧ key = "max_failed_apps" then some cfg.max_failed_apps.toInt32
    else if group = "userland" ∧ key = "ul_chk_interval" then some cfg.ul_chk_interval.toInt32
    else none
  get_string_list group key :=
    if group = "node" ∧ key = "no_restart_apps" then cfg.no_restart_apps
    else if group = "userland" ∧ key = "monitored_files" then cfg.monitored_files
    else if group = "userland" ∧ key = "monitored_progs" then cfg.monitored_progs
    else if group = "userland" ∧ key = "monitored_procs" then cfg.monitored_procs
    else if group = "userland" ∧ key = "monitored_dbus" then cfg.monitored_dbus
    else none

theorem holds_keyFileOf (cfg : Config) : Holds (keyFileOf cfg) cfg := by
  constructor <;> simp [keyFileOf]

theorem legal_loadConfig (file : Option KeyFile) (cfg : Config) :
    Legal (loadConfig file (init cfg)) := by
  cases file with
  | none =>
    exact ⟨count_zero, count_zero, proper_none, count_zero, proper_none, proper_none, proper_none,
      proper_none⟩
  | some file =>
    exact ⟨loadUint_count _ _ _ _ count_zero, loadUint_count _ _ _ _ count_zero,
      loadStringArray_proper _ _ _ _, loadUint_count _ _ _ _ count_zero,
      loadStringArray_proper _ _ _ _, loadStringArray_proper _ _ _ _,
      loadStringArray_proper _ _ _ _, loadStringArray_proper _ _ _ _⟩

theorem loadConfig_holds {file : KeyFile} {cfg : Config} (holds : Holds file cfg)
    (legal : Legal cfg) (before : Config) : loadConfig (some file) before = cfg := by
  rw [loadConfig, loadUint_same legal.max_lc_count holds.max_lc_count,
    loadUint_same legal.max_failed_apps holds.max_failed_apps,
    loadUint_same legal.ul_chk_interval holds.ul_chk_interval,
    loadStringArray_same legal.no_restart_apps holds.no_restart_apps,
    loadStringArray_same legal.monitored_files holds.monitored_files,
    loadStringArray_same legal.monitored_progs holds.monitored_progs,
    loadStringArray_same legal.monitored_procs holds.monitored_procs,
    loadStringArray_same legal.monitored_dbus holds.monitored_dbus]

/-- The configurations that the program can start with are the legal ones: its counts are not
negative as a `gint`, and an array that is there has something in it to look for. Each of them
is what is loaded from the key files that hold it. -/
theorem loadConfig_iff (cfg before : Config) :
    ((∃ file, loadConfig file (init before) = cfg) ↔ Legal cfg) ∧
      ∀ file, Holds file cfg → (loadConfig (some file) (init before) = cfg ↔ Legal cfg) := by
  have hlegal : ∀ file, loadConfig file (init before) = cfg → Legal cfg := by
    rintro file rfl
    exact legal_loadConfig file before
  refine ⟨⟨fun ⟨file, h⟩ => hlegal file h, fun legal => ?_⟩, fun file holds => ?_⟩
  · exact ⟨some (keyFileOf cfg), loadConfig_holds (holds_keyFileOf cfg) legal (init before)⟩
  · exact ⟨hlegal (some file), fun legal => loadConfig_holds holds legal (init before)⟩

end NodeHealthMonitor.Configuration
