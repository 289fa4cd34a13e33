import NodeHealthMonitor.ProgramHistory

/-! The life of the node: one process of the program after the other. A process may be killed
at any moment between two events, and may end before it has written anything. What it has
recorded by then is what the later ones find. -/

namespace NodeHealthMonitor.ProcessRuns
open DBus NhmMain MainLoop ReportHistory LcData

structure Process where
  cfg : Config
  nsm : NsmEnv
  /-- The events up to the moment at which it ends or is killed. -/
  events : List MainLoop.Event

variable (glib : GLib) (sees : LoadedLc → NhmLcInfo)

namespace Process

def start (process : Process) (disk : Disk) : Program := .start process.cfg disk process.nsm

def run (process : Process) (disk : Disk) : Option Program :=
  Transition.run (advance glib sees) (process.start disk) process.events

def reports (process : Process) : List Report := history glib {} process.events

def failures (process : Process) (a : CString) : ℕ := turns isFailed a (process.reports glib)

def failed (process : Process) : List CString := failedNow (process.reports glib)

/-- It has acquired the name, or an application has failed. -/
def records (process : Process) : Bool :=
  recorded (process.events.any acquiresName) (process.reports glib)

/-- What the results on many processes assume of one that starts with this disk. -/
structure Regular (process : Process) (disk : Disk) : Prop where
  possible : Transition.AllSteps (advance glib sees)
    (fun p event => Allowed p event ∧ Called p event) (process.start disk) process.events
  opens : process.events.all opens = true
  max_lc_count : process.cfg.max_lc_count.toNat < 2 ^ 31
  failed_apps : (ever isFailed (process.reports glib)).length < 2 ^ 32

end Process

section
variable (process : ℕ → Process)

def maxLcCount (j : ℕ) : ℕ := (process j).cfg.max_lc_count.toNat

/-- The processes whose records are on the disk behind process `j`, latest first. -/
def stored : ℕ → List ℕ
  | 0 => []
  | j + 1 =>
      if (process (j + 1)).records glib then
        ((j + 1) :: (stored j).take (maxLcCount process (j + 1))).take (maxLcCount process (j + 1))
      else stored j

/-- The processes whose records process `j + 1` has in memory, itself first. -/
def known (j : ℕ) : List ℕ := (j + 1) :: (stored glib process j).take (maxLcCount process (j + 1))

def diskAfter (disk : Disk) : ℕ → Option Disk
  | 0 => some disk
  | j + 1 => do
      let before ← diskAfter disk j
      let p ← (process (j + 1)).run glib sees before
      some p.main.disk

def programIn (disk : Disk) (j : ℕ) : Option Program := do
  let before ← diskAfter glib sees process disk j
  (process (j + 1)).run glib sees before

/-- The flag that process `j` finds at its start, and leaves behind it. -/
def marks (flag : Option NhmNodeState) : ℕ → Marks
  | 0 => ⟨.notset, flag⟩
  | j + 1 => (process (j + 1)).events.foldl Marks.after ⟨.notset, (marks flag j).flag⟩

def Remembers (flag : Option NhmNodeState) (ks : List ℕ) (lcs : List NhmLcInfo) : Prop :=
  List.Forall₂ (fun k lc => lc.failed_apps.length < 2 ^ 32 ∧
    lc.start_state = (marks process flag k).start ∧
    ∀ a, appFailcount a lc = UInt32.ofNat ((process k).failures glib a)) ks lcs

end

section
variable {glib sees} {process : ℕ → Process} {flag : Option NhmNodeState} {ks : List ℕ}
  {lcs : List NhmLcInfo}

theorem Remembers.take (remembers : Remembers glib process flag ks lcs) (m : ℕ) :
    Remembers glib process flag (ks.take m) (lcs.take m) :=
  List.forall₂_take m remembers

theorem Remembers.cons (remembers : Remembers glib process flag ks lcs) {j : ℕ} {lc : NhmLcInfo}
    {current : List CString} (tracks : Tracks ((process j).reports glib) lc current)
    (hstart : lc.start_state = (marks process flag j).start)
    (hcount : (ever isFailed ((process j).reports glib)).length < 2 ^ 32) :
    Remembers glib process flag (j :: ks) (lc :: lcs) := by
  refine List.Forall₂.cons ⟨?_, hstart, tracks.failcount⟩ remembers
  rw [tracks.failed_apps_length]
  exact hcount

theorem Remembers.countable (remembers : Remembers glib process flag ks lcs)
    (h : lcs.length < 2 ^ 32) : Countable lcs where
  lcs := h
  apps := by
    intro lc hlc
    induction remembers with
    | nil => exact absurd hlc List.not_mem_nil
    | cons hrecord _ ih =>
      rcases List.mem_cons.mp hlc with rfl | hlc
      · exact hrecord.1
      · exact ih (Nat.lt_of_succ_lt h) hlc

theorem Remembers.failcounts (remembers : Remembers glib process flag ks lcs) (a : CString) :
    lcs.map (appFailcount a) = ks.map fun k => UInt32.ofNat ((process k).failures glib a) := by
  induction remembers with
  | nil => rfl
  | cons hrecord _ ih => rw [List.map_cons, List.map_cons, hrecord.2.2 a, ih]

theorem Remembers.starts (remembers : Remembers glib process flag ks lcs) :
    (lcs.countP fun lc => lc.start_state ≠ NhmNodeState.shutdown) =
      ks.countP fun k => (marks process flag k).start ≠ NhmNodeState.shutdown := by
  induction remembers with
  | nil => rfl
  | cons hrecord _ ih => rw [List.countP_cons, List.countP_cons, hrecord.2.1, ih]

theorem Remembers.readStatistics {lc : NhmLcInfo} {loaded : List NhmLcInfo} {s : NhmMain.State}
    {j : ℕ} {a : CString} (remembers : Remembers glib process flag ks (lc :: loaded))
    (tracks : Tracks ((process j).reports glib) lc s.failedNames) (ready : Ready s lc loaded)
    (hwindow : (lc :: loaded).length ≤ s.cfg.max_lc_count.toNat + 1) (ha : a ≠ CString.empty) :
    NhmMain.readStatistics a s = some ⟨UInt32.ofNat ((process j).failures glib a),
      UInt32.ofNat ((ks.map fun k => (process k).failures glib a).sum), UInt32.ofNat ks.length,
      .ok⟩ := by
  rw [readStatistics_app a s lc _ ha ready.nodeinfo, List.take_of_length_le hwindow,
    min_eq_left hwindow, remembers.failcounts a, sum_map_ofNat, tracks.failcount,
    ← List.Forall₂.length_eq remembers]
  rfl

theorem Process.Regular.run {process : Process} {disk : Disk}
    (regular : process.Regular glib sees disk) (delivers : glib.Delivers)
    (hsees : ∀ lc value, LoadedLc.value lc = some value → sees lc = value)
    (hstored : Stores disk lcs) :
    ∃ p, process.run glib sees disk = some p ∧
      Recording process.cfg disk (lcs.take process.cfg.max_lc_count.toNat) true
        (process.events.any acquiresName)
        (process.events.foldl Marks.after ⟨.notset, disk.shutdown_flag⟩) (process.reports glib)
        p := by
  have start := recording_start process.cfg disk process.nsm
    (lcs.take process.cfg.max_lc_count.toNat) true
  obtain ⟨p, hrun, hrec, -⟩ := start.run sees delivers
    (fun _ => ⟨lcs, hstored, rfl, hsees⟩) process.events regular.possible
  rw [regular.opens, Bool.true_and, Bool.or_false, List.append_nil] at hrec
  exact ⟨p, hrun, hrec⟩

theorem stores_of_filed {cfg : Config} {before disk : Disk} {written : Bool} {lc : NhmLcInfo}
    {older : List NhmLcInfo} (hfile : Filed cfg before older written lc disk)
    (hbefore : Stores before lcs) (hcount : Countable (lc :: older)) :
    Stores disk (if written then (lc :: older).take cfg.max_lc_count.toNat else lcs) := by
  cases written with
  | false =>
    intro r mem
    have hsame : disk.lcdata = before.lcdata := hfile
    rw [hsame]
    exact hbefore r mem
  | true => exact stores_writeData disk (lc :: older) cfg.max_lc_count hfile hcount

theorem diskAfter_remembers (delivers : glib.Delivers)
    (hsees : ∀ lc value, LoadedLc.value lc = some value → sees lc = value) (disk : Disk)
    (hdisk : disk.lcdata = none) (j : ℕ)
    (regular : ∀ i < j, ∀ before, diskAfter glib sees process disk i = some before →
      (process (i + 1)).Regular glib sees before) :
    ∃ after lcs, diskAfter glib sees process disk j = some after ∧ Stores after lcs ∧
      after.shutdown_flag = (marks process disk.shutdown_flag j).flag ∧
      Remembers glib process disk.shutdown_flag (stored glib process j) lcs := by
  induction j with
  | zero => exact ⟨disk, [], rfl, stores_none disk hdisk, rfl, .nil⟩
  | succ j ih =>
    obtain ⟨before, lcs, hbefore, hstored, hflag, hlcs⟩ := ih fun i hi => regular i (by omega)
    have ok := regular j (Nat.lt_succ_self j) before hbefore
    obtain ⟨p, hrun, hrec⟩ := ok.run delivers hsees hstored
    rw [hflag] at hrec
    obtain ⟨lc, current, tracks, hstart, hfile⟩ := hrec.filed
    have hrecord : Remembers glib process disk.shutdown_flag
        ((j + 1) :: (stored glib process j).take (maxLcCount process (j + 1)))
        (lc :: lcs.take (maxLcCount process (j + 1))) :=
      (hlcs.take _).cons tracks hstart ok.failed_apps
    have hlength : (lc :: lcs.take (maxLcCount process (j + 1))).length < 2 ^ 32 := by
      have hmax : maxLcCount process (j + 1) < 2 ^ 31 := ok.max_lc_count
      have htake := List.length_take_le (maxLcCount process (j + 1)) lcs
      rw [List.length_cons]
      omega
    refine ⟨p.main.disk, _, ?_, stores_of_filed (hfile rfl) hstored (hrecord.countable hlength),
      hrec.flag, ?_⟩
    · simp only [diskAfter, hbefore, hrun, Option.bind_eq_bind, Option.bind_some]
    · rw [stored]
      change Remembers glib process _ _ (if (process (j + 1)).records glib then _ else _)
      split
      · exact hrecord.take _
      · exact hlcs

theorem programIn_remembers (delivers : glib.Delivers)
    (hsees : ∀ lc value, LoadedLc.value lc = some value → sees lc = value) (disk : Disk)
    (hdisk : disk.lcdata = none) (n : ℕ)
    (regular : ∀ j ≤ n, ∀ before, diskAfter glib sees process disk j = some before →
      (process (j + 1)).Regular glib sees before) :
    ∃ p, programIn glib sees process disk n = some p ∧
      (p.running = true → p.bus_acquired = true → ∃ lc loaded, Ready p.main lc loaded ∧
        Tracks ((process (n + 1)).reports glib) lc p.main.failedNames ∧
        (lc :: loaded).length ≤ p.main.cfg.max_lc_count.toNat + 1 ∧
        Remembers glib process disk.shutdown_flag (known glib process n) (lc :: loaded)) := by
  obtain ⟨before, lcs, hbefore, hstored, hflag, hlcs⟩ :=
    diskAfter_remembers delivers hsees disk hdisk n fun i hi => regular i (Nat.le_of_lt hi)
  have ok := regular n (Nat.le_refl n) before hbefore
  obtain ⟨p, hrun, hrec⟩ := ok.run delivers hsees hstored
  rw [hflag] at hrec
  refine ⟨p, ?_, fun hrunning hacquired => ?_⟩
  · simp only [programIn, hbefore, hrun, Option.bind_eq_bind, Option.bind_some]
  obtain ⟨hcfg, -, lc, loaded, ready, hstart, tracks, hfile⟩ := hrec.onRecord hrunning hacquired
  obtain ⟨rfl, -⟩ := hfile rfl
  refine ⟨lc, _, ready, tracks, ?_, (hlcs.take _).cons tracks hstart ok.failed_apps⟩
  rw [hcfg, List.length_cons]
  exact Nat.succ_le_succ (List.length_take_le _ _)

/-- The statistics of an application are those of the reports made to the known processes. -/
theorem readStatistics_processes (delivers : glib.Delivers)
    (hsees : ∀ lc value, LoadedLc.value lc = some value → sees lc = value) (disk : Disk)
    (hdisk : disk.lcdata = none) (n : ℕ)
    (regular : ∀ j ≤ n, ∀ before, diskAfter glib sees process disk j = some before →
      (process (j + 1)).Regular glib sees before) :
    ∃ p, programIn glib sees process disk n = some p ∧
      (p.running = true → p.bus_acquired = true → ∀ a, a ≠ CString.empty →
        readStatistics a p.main = some
          ⟨UInt32.ofNat ((process (n + 1)).failures glib a),
            UInt32.ofNat (((known glib process n).map fun k => (process k).failures glib a).sum),
            UInt32.ofNat (known glib process n).length, .ok⟩) := by
  obtain ⟨p, hp, hknown⟩ := programIn_remembers delivers hsees disk hdisk n regular
  refine ⟨p, hp, fun hrunning hacquired a ha => ?_⟩
  obtain ⟨lc, loaded, ready, tracks, hwindow, remembers⟩ := hknown hrunning hacquired
  exact remembers.readStatistics tracks ready hwindow ha

theorem readStatistics_processes_killed :
    let app : CString := CString.literal [97]
    let sees : LoadedLc → NhmLcInfo := fun lc => lc.value.getD ⟨NhmNodeState.notset, []⟩
    let process : Process := ⟨{ max_lc_count := 1 }, {},
      [.busAcquired {}, .request (.registerAppStatus {} app NhmAppStatus.failed)]⟩
    ∃ p, programIn handingOver sees (fun _ => process) ⟨none, none⟩ 1 = some p ∧
      (p.running = true → p.bus_acquired = true → ∀ a, a ≠ CString.empty →
        readStatistics a p.main = some ⟨UInt32.ofNat (process.failures handingOver a),
          UInt32.ofNat (((known handingOver (fun _ => process) 1).map
            fun _ => process.failures handingOver a).sum),
          UInt32.ofNat (known handingOver (fun _ => process) 1).length, .ok⟩) := by
  refine readStatistics_processes handingOver_delivers ?_ ⟨none, none⟩ rfl 1 fun _ _ before _ =>
    ⟨⟨⟨⟨rfl, rfl⟩, trivial⟩, fun _ h => Option.some.inj h ▸ ⟨⟨⟨rfl, rfl⟩, trivial⟩,
      fun _ _ => trivial⟩⟩, rfl, by decide, by decide⟩
  intro lc value h
  rw [h, Option.getD_some]

/-- The failures of the node are the known processes that have not found the flag of a shutdown
at their start. The flag is that of the last process, killed or not, that has written it. -/
theorem readStatistics_node_processes (delivers : glib.Delivers)
    (hsees : ∀ lc value, LoadedLc.value lc = some value → sees lc = value) (disk : Disk)
    (hdisk : disk.lcdata = none) (n : ℕ)
    (regular : ∀ j ≤ n, ∀ before, diskAfter glib sees process disk j = some before →
      (process (j + 1)).Regular glib sees before) :
    ∃ p, programIn glib sees process disk n = some p ∧
      (p.running = true → p.bus_acquired = true → readStatistics CString.empty p.main = some
        ⟨UInt32.ofNat ((process (n + 1)).failed glib).length,
          UInt32.ofNat ((known glib process n).countP fun k =>
            (marks process disk.shutdown_flag k).start ≠ NhmNodeState.shutdown),
          UInt32.ofNat (known glib process n).length, .ok⟩) := by
  obtain ⟨p, hp, hknown⟩ := programIn_remembers delivers hsees disk hdisk n regular
  refine ⟨p, hp, fun hrunning hacquired => ?_⟩
  obtain ⟨lc, loaded, ready, tracks, hwindow, remembers⟩ := hknown hrunning hacquired
  have hfailed : p.main.current_failed_apps.length = ((process (n + 1)).failed glib).length := by
    have hlength : p.main.failedNames.length = p.main.current_failed_apps.length :=
      List.length_map _
    exact hlength.symm.trans (length_current tracks)
  rw [readStatistics_node p.main _ ready.nodeinfo, List.take_of_length_le hwindow,
    min_eq_left hwindow, sum_uncleanStart, remembers.starts, LcData.listLength, hfailed,
    ← List.Forall₂.length_eq remembers]

theorem readStatistics_node_processes_killed :
    let sees : LoadedLc → NhmLcInfo := fun lc => lc.value.getD ⟨NhmNodeState.notset, []⟩
    let process : Process := ⟨{ max_lc_count := 1 }, {}, [.busAcquired {},
      .request (.registerAppStatus {} (CString.literal [97]) NhmAppStatus.failed),
      .request (.lcRequest {} .normal)]⟩
    ∃ p, programIn handingOver sees (fun _ => process) ⟨none, none⟩ 1 = some p ∧
      (p.running = true → p.bus_acquired = true → readStatistics CString.empty p.main = some
        ⟨UInt32.ofNat (process.failed handingOver).length,
          UInt32.ofNat ((known handingOver (fun _ => process) 1).countP fun k =>
            (marks (fun _ => process) none k).start ≠ NhmNodeState.shutdown),
          UInt32.ofNat (known handingOver (fun _ => process) 1).length, .ok⟩) := by
  refine readStatistics_node_processes handingOver_delivers ?_ ⟨none, none⟩ rfl 1
    fun _ _ before _ => ⟨⟨⟨⟨rfl, rfl⟩, trivial⟩, fun _ h => Option.some.inj h ▸
      ⟨⟨⟨rfl, rfl⟩, trivial⟩, fun _ h => Option.some.inj h ▸ ⟨⟨?_, trivial⟩, fun _ _ => trivial⟩⟩⟩,
      rfl, by decide, by decide⟩
  · intro lc value h
    rw [h, Option.getD_some]
  · rfl

end

end NodeHealthMonitor.ProcessRuns
