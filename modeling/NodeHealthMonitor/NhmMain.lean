import NodeHealthMonitor.LcDataCodec
import NodeHealthMonitor.NhmHelper
import NodeHealthMonitor.Watchdog

/-! `nhm-main.c`: its static variables, the handlers that work on the run-time data
and the callbacks of the start. A handler takes the outcomes of the calls it makes
from `Env` and returns the state behind it with what it sent, in order; it returns
`none` where the C code would follow a NULL pointer or leave an array. -/

namespace NodeHealthMonitor

/-- An application status as the D-Bus interface takes it: any `gint`. -/
abbrev NhmAppStatus := Int32

namespace NhmAppStatus

def failed : NhmAppStatus := 0
def restarting : NhmAppStatus := 1
def ok : NhmAppStatus := 2

end NhmAppStatus

inductive NhmErrorStatus where
  | ok | error | unknownApp | restartNotPossible
  deriving DecidableEq

/-- What the NSM returns; the NHM only compares it with `NsmErrorStatus_Ok`. -/
inductive NsmErrorStatus where
  | ok | error
  | other (code : Int32)
  deriving DecidableEq

inductive NsmRestartReason where
  | applicationFailure
  deriving DecidableEq

inductive NsmShutdownType where
  | normal | fast | runup
  | other (type : UInt32)
  deriving DecidableEq

namespace NhmMain
open LcData

inductive UserlandItem where
  | file (name : CString)
  | prog (name : CString)
  | proc (name : CString)
  | dbus (bus_addr : CString)
  deriving DecidableEq

structure ReadStatistics where
  currentFailCount : UInt32
  totalFailures : UInt32
  totalLifecycles : UInt32
  errorStatus : NhmErrorStatus
  deriving DecidableEq

inductive Effect where
  | setAppHealthStatus (name : CString) (running : Bool)
  | emitAppHealthStatus (name : CString) (status : NhmAppStatus)
  | requestNodeRestart (reason : NsmRestartReason) (type : NsmShutdownType)
  | completeReadStatistics (reply : ReadStatistics)
  | completeRegisterAppStatus
  | completeRequestNodeRestart (status : NhmErrorStatus)
  | completeLifecycleRequest (status : NsmErrorStatus)
  | systemdConnect
  | sdNotifyReady
  | userlandTimer (seconds : UInt32)
  | wdogTimer (ms : UInt32)
  | mainLoopQuit
  | probe (item : UserlandItem)
  | log (texts : List String) (value : Option CString)
  deriving DecidableEq

structure Config where
  max_lc_count : UInt32 := 0
  max_failed_apps : UInt32 := 0
  no_restart_apps : Option (List CString) := none
  ul_chk_interval : UInt32 := 0
  monitored_files : Option (List CString) := none
  monitored_progs : Option (List CString) := none
  monitored_procs : Option (List CString) := none
  monitored_dbus : Option (List CString) := none

/-- A monitored bus; a connection is known by its handle. -/
structure NhmCheckedDbus where
  bus_addr : CString
  bus_conn : Option ℕ
  deriving DecidableEq

/-- What outlives the process: the data file and the flag kept by the PCL. -/
structure Disk where
  lcdata : Option (List UInt8)
  shutdown_flag : Option NhmNodeState

structure State where
  cfg : Config
  disk : Disk
  dbus_lc_control_obj : Bool
  dbus_nhm_info_obj : Bool
  nodeinfo : Option (List NhmLcInfo)
  current_failed_apps : List NhmCurrentFailedApp
  checked_dbusses : Option (List NhmCheckedDbus)

/-- Outcomes of the external calls a handler makes; `none` is a D-Bus error. -/
structure Env where
  set_app_health_status : Option NsmErrorStatus := some .ok
  request_node_restart : Option NsmErrorStatus := some .ok
  fopen_r : Bool := true
  fopen_w : Bool := true
  pclKeyRead : Bool := true
  pclKeyWrite : Bool := true
  skeleton_export : Bool := true
  watchdog_usec : Option CString := none

def findFailedApp (lcinfo : NhmLcInfo) (appname : CString) : Option NhmFailedApp :=
  lcinfo.failed_apps.find? fun app => app.name = appname

def findCurrentFailedApp (apps : List NhmCurrentFailedApp) (appname : CString) :
    Option NhmCurrentFailedApp :=
  apps.find? fun app => app.name = appname

def requestRestart (env : Env) (restart_reason : NsmRestartReason)
    (restart_type : NsmShutdownType) (s : State) : Option (NhmErrorStatus × List Effect) :=
  if s.dbus_lc_control_obj then
    let status := match env.request_node_restart with
      | some .ok => NhmErrorStatus.ok
      | some _ => NhmErrorStatus.restartNotPossible
      | none => NhmErrorStatus.error
    some (status, [.requestNodeRestart restart_reason restart_type])
  else none

def checkFailedAppRestart (env : Env) (s : State) : Option (List Effect) :=
  if s.cfg.max_failed_apps ≠ 0 then
    let failed_app_cnt := listLength s.current_failed_apps
    if failed_app_cnt ≥ s.cfg.max_failed_apps then
      (requestRestart env .applicationFailure .normal s).map Prod.snd
    else some []
  else some []

/-- `nhm_main_write_data` as a call that gets to its end; one that is cut short by a kill or a
full disk leaves `LcData.interruptedWrite`. -/
def writeData (env : Env) (s : State) : Option State :=
  if env.fopen_w then do
    let nodeinfo ← s.nodeinfo
    some { s with disk := { s.disk with
      lcdata := some (LcData.writeData nodeinfo s.cfg.max_lc_count) } }
  else some s

/-- `failcount++` on the record that `nhm_main_find_failed_app` finds. -/
def increaseFailcount (name : CString) : List NhmFailedApp → List NhmFailedApp
  | [] => []
  | app :: apps =>
      if app.name = name then { app with failcount := app.failcount + 1 } :: apps
      else app :: increaseFailcount name apps

def countFailure (name : CString) (lc_info : NhmLcInfo) : NhmLcInfo :=
  let failed_apps := match findFailedApp lc_info name with
    | none => lc_info.failed_apps ++ [⟨name, 0⟩]
    | some _ => lc_info.failed_apps
  { lc_info with failed_apps := increaseFailcount name failed_apps }

def registerAppStatus (env : Env) (name : CString) (status : NhmAppStatus) (s : State) :
    Option (State × List Effect) :=
  if s.dbus_lc_control_obj ∧ s.dbus_nhm_info_obj then
    -- The NSM's answer to SetAppHealthStatus is logged and otherwise not looked at.
    let sent := [.setAppHealthStatus name (status = NhmAppStatus.ok),
      .emitAppHealthStatus name status]
    let app_on_list := findCurrentFailedApp s.current_failed_apps name
    if app_on_list = none ∧ status = NhmAppStatus.failed then do
      let nodeinfo ← s.nodeinfo
      let lc_info ← nodeinfo[0]?
      let s := { s with
        current_failed_apps := s.current_failed_apps ++ [⟨name⟩]
        nodeinfo := some (nodeinfo.set 0 (countFailure name lc_info)) }
      let s ← writeData env s
      let restart ← checkFailedAppRestart env s
      some (s, sent ++ restart)
    else if app_on_list ≠ none ∧ status ≠ NhmAppStatus.failed then
      some ({ s with
        current_failed_apps := s.current_failed_apps.eraseP fun app => app.name = name }, sent)
    else some (s, sent)
  else none

def registerAppStatusCb (env : Env) (app_name : CString) (app_status : NhmAppStatus)
    (s : State) : Option (State × List Effect) := do
  let (s, sent) ← registerAppStatus env app_name app_status s
  some (s, sent ++ [.completeRegisterAppStatus])

def requestNodeRestartCb (env : Env) (app_name : CString) (s : State) :
    Option (State × List Effect) :=
  if NhmHelper.strInStrv app_name s.cfg.no_restart_apps = false then do
    let (status, sent) ← requestRestart env .applicationFailure .normal s
    some (s, sent ++ [.completeRequestNodeRestart status])
  else some (s, [.completeRequestNodeRestart .restartNotPossible])

/-- A loop of `nhm_main_read_statistics_cb` over the life cycles from `lc_idx` on. -/
def sumLcs (nodeinfo : List NhmLcInfo) (max_lc_count : UInt32) (count : NhmLcInfo → UInt32)
    (lc_idx : ℕ) (total_failures : UInt32) : Option (UInt32 × ℕ) :=
  if lc_idx < nodeinfo.length ∧ lc_idx ≤ max_lc_count.toNat then do
    let lc_info ← nodeinfo[lc_idx]?
    sumLcs nodeinfo max_lc_count count (lc_idx + 1) (total_failures + count lc_info)
  else some (total_failures, lc_idx)
termination_by nodeinfo.length - lc_idx

def appFailcount (app_name : CString) (lc_info : NhmLcInfo) : UInt32 :=
  match findFailedApp lc_info app_name with
  | some app_info => app_info.failcount
  | none => 0

def uncleanStart (lc_info : NhmLcInfo) : UInt32 :=
  if lc_info.start_state ≠ NhmNodeState.shutdown then 1 else 0

def readStatistics (app_name : CString) (s : State) : Option ReadStatistics := do
  let nodeinfo ← s.nodeinfo
  if app_name = CString.empty then
    let (total, lc_idx) ← sumLcs nodeinfo s.cfg.max_lc_count uncleanStart 0 0
    some ⟨listLength s.current_failed_apps, total, UInt32.ofNat lc_idx, .ok⟩
  else
    let current := appFailcount app_name (← nodeinfo[0]?)
    let (total, lc_idx) ← sumLcs nodeinfo s.cfg.max_lc_count (appFailcount app_name) 1 current
    some ⟨current, total, UInt32.ofNat lc_idx, .ok⟩

def readStatisticsCb (app_name : CString) (s : State) : Option (State × List Effect) := do
  let reply ← readStatistics app_name s
  some (s, [.completeReadStatistics reply])

def readShutdownFlag (env : Env) (disk : Disk) : NhmNodeState :=
  match env.pclKeyRead, disk.shutdown_flag with
  | true, some flag => flag
  | _, _ => NhmNodeState.notset

def writeShutdownFlag (env : Env) (node_state : NhmNodeState) (s : State) : Bool × State :=
  if env.pclKeyWrite then
    (true, { s with disk := { s.disk with shutdown_flag := some node_state } })
  else (false, s)

def lcRequestCb (env : Env) (shutdown_type : NsmShutdownType) (s : State) :
    State × List Effect :=
  let (written, s) :=
    if shutdown_type ≠ .runup then writeShutdownFlag env NhmNodeState.shutdown s
    else writeShutdownFlag env NhmNodeState.started s
  (s, [.completeLifecycleRequest (if written then .ok else .error)])

def prepareChecks (monitored_dbus : Option (List CString)) : Option (List NhmCheckedDbus) :=
  monitored_dbus.map fun addrs => addrs.map fun addr => ⟨addr, none⟩

/-- The state in which `main` enters the main loop, connected to the NSM. -/
def State.start (cfg : Config) (disk : Disk) : State where
  cfg := cfg
  disk := disk
  dbus_lc_control_obj := true
  dbus_nhm_info_obj := false
  nodeinfo := none
  current_failed_apps := []
  checked_dbusses := prepareChecks cfg.monitored_dbus

def busAcquiredCb (env : Env) (s : State) : Option (State × List Effect) := do
  let lc_info : NhmLcInfo := ⟨readShutdownFlag env s.disk, []⟩
  let file := if env.fopen_r then s.disk.lcdata else none
  let nodeinfo ← readData s.cfg.max_lc_count file [lc_info]
  let s := { s with nodeinfo := some nodeinfo, dbus_nhm_info_obj := true }
  some (s, if env.skeleton_export then [] else [.mainLoopQuit])

/-- The call of `nhm_systemd_connect` is an effect here; it leaves this module's data alone. -/
def nameAcquiredCb (env : Env) (s : State) : Option (State × List Effect) := do
  let (_, s) := writeShutdownFlag env NhmNodeState.started s
  let s ← writeData env s
  let timer := if s.cfg.ul_chk_interval ≠ 0 then [.userlandTimer s.cfg.ul_chk_interval] else []
  let wdog := match Watchdog.startWdog env.watchdog_usec with
    | some ms => [.wdogTimer ms]
    | none => []
  some (s, timer ++ [.systemdConnect, .sdNotifyReady] ++ wdog)

end NhmMain

end NodeHealthMonitor
