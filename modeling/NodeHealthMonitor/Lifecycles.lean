import NodeHealthMonitor.AppStatus
import NodeHealthMonitor.Statistics
import NodeHealthMonitor.Transition

/-! Runs over many life cycles. A life cycle loads the data file when the bus is
acquired, puts itself in front, stores all when the name is acquired, and then serves
requests; only the disk reaches the next one. -/

namespace NodeHealthMonitor.NhmMain
open LcData ReportHistory

inductive Request where
  | registerAppStatus (env : Env) (app_name : CString) (app_status : NhmAppStatus)
  | requestNodeRestart (env : Env) (app_name : CString)
  | readStatistics (app_name : CString)
  | lcRequest (env : Env) (shutdown_type : NsmShutdownType)

def handle (s : State) : Request → Option (State × List Effect)
  | .registerAppStatus env app_name app_status => registerAppStatusCb env app_name app_status s
  | .requestNodeRestart env app_name => requestNodeRestartCb env app_name s
  | .readStatistics app_name => readStatisticsCb app_name s
  | .lcRequest env shutdown_type => some (lcRequestCb env shutdown_type s)

def serve (s : State) (request : Request) : Option State := (handle s request).map Prod.fst

namespace Request

def report? : Request → Option Report
  | registerAppStatus _ app_name app_status => some (app_name, app_status)
  | _ => none

def opens : Request → Bool
  | registerAppStatus env _ _ => env.fopen_w
  | _ => true

end Request

def reportsOf (requests : List Request) : List Report := requests.reverse.filterMap Request.report?

/-- One life cycle of the NHM; it serves requests once it has acquired its name. -/
structure Lifecycle where
  cfg : Config
  bus_acquired : Env
  serving : Option (Env × List Request)

namespace Lifecycle

def requests (l : Lifecycle) : List Request := (l.serving.map Prod.snd).getD []

def reports (l : Lifecycle) : List Report := reportsOf l.requests

def failures (l : Lifecycle) (a : CString) : ℕ := turns isFailed a l.reports

def run (l : Lifecycle) (disk : Disk) : Option State := do
  let (s, _) ← busAcquiredCb l.bus_acquired (State.start l.cfg disk)
  match l.serving with
  | none => some s
  | some (env, requests) => do
      let (s, _) ← nameAcquiredCb env s
      Transition.run serve s requests

theorem run_waiting {l : Lifecycle} {disk : Disk} {first : State} {sent : List Effect}
    (hbus : busAcquiredCb l.bus_acquired (State.start l.cfg disk) = some (first, sent))
    (hserving : l.serving = none) : l.run disk = some first := by
  simp only [run, hbus, hserving, Option.bind_eq_bind, Option.bind_some]

theorem run_serving {l : Lifecycle} {disk : Disk} {first second : State} {sent sent' : List Effect}
    {env : Env} {requests : List Request}
    (hbus : busAcquiredCb l.bus_acquired (State.start l.cfg disk) = some (first, sent))
    (hserving : l.serving = some (env, requests))
    (hname : nameAcquiredCb env first = some (second, sent')) :
    l.run disk = Transition.run serve second requests := by
  simp only [run, hbus, hserving, hname, Option.bind_eq_bind, Option.bind_some]

/-- What all results on many life cycles assume: the configured number of life
cycles is a `gint` that is not negative, and the failed applications can be counted. -/
structure Bounded (l : Lifecycle) : Prop where
  max_lc_count : l.cfg.max_lc_count.toNat < 2 ^ 31
  failed_apps : (ever isFailed l.reports).length < 2 ^ 32

structure FilesOk (l : Lifecycle) : Prop where
  read : l.bus_acquired.fopen_r = true
  written : ∀ env requests, l.serving = some (env, requests) →
    env.fopen_w = true ∧ ∀ request ∈ requests, request.opens = true

end Lifecycle

/-- What life cycle `j` leaves on the disk, for a run of the life cycles 1, 2, .. -/
def diskAfter (lifecycle : ℕ → Lifecycle) (disk : Disk) : ℕ → Option Disk
  | 0 => some disk
  | j + 1 => do
      let before ← diskAfter lifecycle disk j
      let s ← (lifecycle (j + 1)).run before
      some s.disk

def stateIn (lifecycle : ℕ → Lifecycle) (disk : Disk) (n : ℕ) : Option State := do
  let before ← diskAfter lifecycle disk (n - 1)
  (lifecycle n).run before

/-- A start that finds this on the disk loads the first of these life cycles. -/
def Stores (disk : Disk) (stored : List NhmLcInfo) : Prop :=
  ∀ (r : UInt32) (mem : List NhmLcInfo),
    readData r disk.lcdata mem = some (mem ++ stored.take r.toNat)

theorem stores_none (disk : Disk) (h : disk.lcdata = none) : Stores disk [] := by
  intro r mem
  rw [h, readData, List.take_nil, List.append_nil]

theorem stores_writeData (disk : Disk) (nodeinfo : List NhmLcInfo) (w : UInt32)
    (h : disk.lcdata = some (LcData.writeData nodeinfo w)) (hn : Countable nodeinfo) :
    Stores disk (nodeinfo.take w.toNat) := by
  intro r mem
  rw [h, readData_complete nodeinfo mem hn w r, List.take_take, min_comm w.toNat,
    List.take_eq_take_min (i := min r.toNat w.toNat), min_comm nodeinfo.length]

theorem busAcquiredCb_eq (env : Env) (cfg : Config) (disk : Disk) (stored : List NhmLcInfo)
    (hstored : Stores disk stored) :
    ∃ sent, busAcquiredCb env (State.start cfg disk) = some
      ({ State.start cfg disk with
          nodeinfo := some (⟨readShutdownFlag env disk, []⟩ ::
            if env.fopen_r then stored.take cfg.max_lc_count.toNat else [])
          dbus_nhm_info_obj := true }, sent) := by
  have hread : ∀ mem, readData cfg.max_lc_count (if env.fopen_r then disk.lcdata else none) mem =
      some (mem ++ if env.fopen_r then stored.take cfg.max_lc_count.toNat else []) := by
    intro mem
    cases env.fopen_r with
    | false => simp [readData]
    | true => exact hstored cfg.max_lc_count mem
  simp only [busAcquiredCb, State.start, hread]
  exact ⟨_, rfl⟩

theorem busAcquiredCb_following (env : Env) (cfg : Config) (disk : Disk)
    (stored : List NhmLcInfo) (hstored : Stores disk stored) :
    ∃ next sent, busAcquiredCb env (State.start cfg disk) = some (next, sent) ∧
      Following [] (if env.fopen_r then stored.take cfg.max_lc_count.toNat else []) next ∧
      next.cfg = cfg ∧ next.disk = disk := by
  obtain ⟨sent, hstep⟩ := busAcquiredCb_eq env cfg disk stored hstored
  exact ⟨_, sent, hstep, ⟨_, ⟨rfl, rfl, rfl⟩, Tracks.nil _⟩, rfl, rfl⟩

theorem writeShutdownFlag_snd (env : Env) (node_state : NhmNodeState) (s : State) :
    ∃ disk, (writeShutdownFlag env node_state s).2 = { s with disk := disk } ∧
      disk.lcdata = s.disk.lcdata ∧
      (env.pclKeyWrite = true → disk.shutdown_flag = some node_state) := by
  unfold writeShutdownFlag
  split
  · exact ⟨_, rfl, rfl, fun _ => rfl⟩
  · rename_i hfails
    exact ⟨s.disk, rfl, rfl, fun hwrite => absurd hwrite hfails⟩

theorem writeData_eq (env : Env) (s : State) (nodeinfo : List NhmLcInfo)
    (h : s.nodeinfo = some nodeinfo) :
    ∃ disk, writeData env s = some { s with disk := disk } ∧
      disk.shutdown_flag = s.disk.shutdown_flag ∧
      (env.fopen_w = true → Saved { s with disk := disk }) ∧
      (env.fopen_w = false → disk = s.disk) := by
  unfold writeData
  cases hw : env.fopen_w with
  | false => exact ⟨s.disk, rfl, rfl, by simp, fun _ => rfl⟩
  | true =>
    exact ⟨{ s.disk with lcdata := some (LcData.writeData nodeinfo s.cfg.max_lc_count) },
      by simp [h], rfl, fun _ => ⟨nodeinfo, h, rfl⟩, by simp⟩

theorem nameAcquiredCb_eq (env : Env) (s : State) (nodeinfo : List NhmLcInfo)
    (h : s.nodeinfo = some nodeinfo) :
    ∃ disk sent, nameAcquiredCb env s = some ({ s with disk := disk }, sent) ∧
      (env.pclKeyWrite = true → disk.shutdown_flag = some NhmNodeState.started) ∧
      (env.fopen_w = true → Saved { s with disk := disk }) ∧
      (env.fopen_w = false → disk.lcdata = s.disk.lcdata) := by
  obtain ⟨flagged, hflag, hlcdata, hwritten⟩ := writeShutdownFlag_snd env NhmNodeState.started s
  obtain ⟨disk, hwrite, hkept, hopen, hclosed⟩ :=
    writeData_eq env { s with disk := flagged } nodeinfo h
  have hstep : ∃ sent, nameAcquiredCb env s = some ({ s with disk := disk }, sent) := by
    simp only [nameAcquiredCb, hflag, hwrite, Option.bind_eq_bind, Option.bind_some]
    exact ⟨_, rfl⟩
  obtain ⟨sent, hstep⟩ := hstep
  refine ⟨disk, sent, hstep, fun hw => hkept.trans (hwritten hw), hopen, fun hw => ?_⟩
  rw [hclosed hw]
  exact hlcdata

theorem requestNodeRestartCb_eq (env : Env) (app_name : CString) (s : State)
    (h : s.dbus_lc_control_obj = true) :
    ∃ sent, requestNodeRestartCb env app_name s = some (s, sent) := by
  by_cases hlist : NhmHelper.strInStrv app_name s.cfg.no_restart_apps = false
  · simp [requestNodeRestartCb, hlist, requestRestart, h]
  · simp [requestNodeRestartCb, hlist]

theorem readStatisticsCb_eq (app_name : CString) (s : State) (lc : NhmLcInfo)
    (older : List NhmLcInfo) (h : s.nodeinfo = some (lc :: older)) :
    ∃ sent, readStatisticsCb app_name s = some (s, sent) := by
  by_cases hname : app_name = CString.empty
  · simp [readStatisticsCb, hname, readStatistics_node s _ h]
  · simp [readStatisticsCb, readStatistics_app _ s lc older hname h]

theorem lcRequestCb_eq (env : Env) (shutdown_type : NsmShutdownType) (s : State) :
    ∃ disk status, lcRequestCb env shutdown_type s =
        ({ s with disk := disk }, [.completeLifecycleRequest status]) ∧
      disk.lcdata = s.disk.lcdata ∧ (env.pclKeyWrite = true → disk.shutdown_flag =
        some (if shutdown_type = .runup then NhmNodeState.started else NhmNodeState.shutdown)) := by
  obtain ⟨disk, hdisk, hlcdata, hflag⟩ := writeShutdownFlag_snd env
    (if shutdown_type = .runup then NhmNodeState.started else NhmNodeState.shutdown) s
  have hstep : ∃ status, lcRequestCb env shutdown_type s =
      ({ s with disk := disk }, [.completeLifecycleRequest status]) := by
    by_cases htype : shutdown_type = .runup
    · rw [if_pos htype] at hdisk
      simp only [lcRequestCb, htype, ne_eq, not_true_eq_false, if_false, hdisk]
      exact ⟨_, rfl⟩
    · rw [if_neg htype] at hdisk
      simp only [lcRequestCb, htype, ne_eq, not_false_eq_true, if_true, hdisk]
      exact ⟨_, rfl⟩
  obtain ⟨status, hstep⟩ := hstep
  exact ⟨disk, status, hstep, hlcdata, hflag⟩

theorem Ready.withDisk {s : State} {lc : NhmLcInfo} {older : List NhmLcInfo}
    (ready : Ready s lc older) (disk : Disk) : Ready { s with disk := disk } lc older :=
  ⟨ready.control, ready.info, ready.nodeinfo⟩

theorem Following.withDisk {h : List Report} {older : List NhmLcInfo} {s : State}
    (following : Following h older s) (disk : Disk) :
    Following h older { s with disk := disk } := by
  have ⟨lc, ready, tracks⟩ := following
  exact ⟨lc, ready.withDisk disk, tracks⟩

theorem nameAcquiredCb_following (env : Env) {h : List Report} {older : List NhmLcInfo}
    {s : State} (following : Following h older s) :
    ∃ next sent, nameAcquiredCb env s = some (next, sent) ∧ Following h older next ∧
      next.cfg = s.cfg ∧ (env.fopen_w = true → Saved next) ∧
      (env.fopen_w = false → next.disk.lcdata = s.disk.lcdata) := by
  have ⟨lc, ready, _⟩ := following
  obtain ⟨disk, sent, hstep, -, hopen, hclosed⟩ := nameAcquiredCb_eq env s _ ready.nodeinfo
  exact ⟨_, sent, hstep, following.withDisk disk, rfl, hopen, hclosed⟩

theorem handle_following (request : Request) {h : List Report} {older : List NhmLcInfo}
    {s : State} (following : Following h older s) :
    ∃ next sent, handle s request = some (next, sent) ∧
      Following (request.report?.toList ++ h) older next ∧ KeepsFile request.opens s next := by
  have ⟨lc, ready, tracks⟩ := following
  cases request with
  | registerAppStatus env app_name app_status =>
    obtain ⟨next, sent, hstep, hnext, hkeeps⟩ :=
      registerAppStatus_following env app_name app_status following
    refine ⟨next, sent ++ [.completeRegisterAppStatus], ?_, hnext, hkeeps⟩
    simp only [handle, registerAppStatusCb, hstep, Option.bind_eq_bind, Option.bind_some]
  | requestNodeRestart env app_name =>
    obtain ⟨sent, hstep⟩ := requestNodeRestartCb_eq env app_name s ready.control
    exact ⟨s, sent, hstep, following, KeepsFile.refl _ s⟩
  | readStatistics app_name =>
    obtain ⟨sent, hstep⟩ := readStatisticsCb_eq app_name s lc older ready.nodeinfo
    exact ⟨s, sent, hstep, following, KeepsFile.refl _ s⟩
  | lcRequest env shutdown_type =>
    obtain ⟨disk, status, hstep, hlcdata, -⟩ := lcRequestCb_eq env shutdown_type s
    exact ⟨_, _, congrArg some hstep, following.withDisk disk, rfl,
      Or.inr ⟨hlcdata, fun _ => rfl⟩⟩

end NodeHealthMonitor.NhmMain
