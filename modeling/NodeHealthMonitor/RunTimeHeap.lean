import NodeHealthMonitor.LinkedList
import NodeHealthMonitor.MainLoop

/-! The run-time data of `nhm-main.c` as it lies in memory: names, application records, the
cells of the GLib lists, the life cycles and their array are blocks of their own, reached by
pointers from the static variables. A function gives the variables behind it, and has no
result where the C code would use memory that is not allocated or not of the type. -/

namespace NodeHealthMonitor.RunTimeHeap
open LcData LinkedList NhmMain OwnedMemory

inductive Block where
  | uninitialised
  | string (s : CString)
  | currentFailedApp (name : ℕ)
  | failedApp (name : ℕ) (failcount : UInt32)
  | lcInfo (start_state : NhmNodeState) (failed_apps : Option ℕ)
  | listCell (data : ℕ) (next : Option ℕ)
  | ptrArray (pdata : List ℕ)
  | skeleton
  | checkedDbus (bus_addr : ℕ) (bus_conn : Option ℕ)
  | connection (conn : ℕ)
  deriving DecidableEq

namespace Block

def listCell? : Block → Option (ℕ × Option ℕ)
  | listCell data next => some (data, next)
  | _ => none

def string? : Block → Option CString
  | string s => some s
  | _ => none

def currentFailedApp? : Block → Option ℕ
  | currentFailedApp name => some name
  | _ => none

def failedApp? : Block → Option (ℕ × UInt32)
  | failedApp name failcount => some (name, failcount)
  | _ => none

def lcInfo? : Block → Option (NhmNodeState × Option ℕ)
  | lcInfo start_state failed_apps => some (start_state, failed_apps)
  | _ => none

def ptrArray? : Block → Option (List ℕ)
  | ptrArray pdata => some pdata
  | _ => none

def checkedDbus? : Block → Option (ℕ × Option ℕ)
  | checkedDbus bus_addr bus_conn => some (bus_addr, bus_conn)
  | _ => none

def connection? : Block → Option ℕ
  | connection conn => some conn
  | _ => none

end Block

instance : ListCell Block := ⟨.listCell, Block.listCell?, fun _ _ => rfl⟩

def loadAs {α : Type} (view : Block → Option α) (a : ℕ) : HeapM Block α := do
  let block ← load a
  ofOption (view block)

/-- The static variables; a `GSList` without cells and an object that does not exist are NULL. -/
structure Vars where
  cfg : Config
  disk : Disk
  dbus_lc_control_obj : Bool
  dbus_nhm_info_obj : Option ℕ
  nodeinfo : Option ℕ
  current_failed_apps : Option ℕ
  checked_dbusses : Option (List NhmCheckedDbus)

/-- What the functions see of the variables that work without the run-time data. -/
def Vars.state (v : Vars) : State where
  cfg := v.cfg
  disk := v.disk
  dbus_lc_control_obj := v.dbus_lc_control_obj
  dbus_nhm_info_obj := v.dbus_nhm_info_obj.isSome
  nodeinfo := none
  current_failed_apps := []
  checked_dbusses := v.checked_dbusses

def Vars.update (v : Vars) (s : State) : Vars :=
  { v with
    cfg := s.cfg, disk := s.disk, dbus_lc_control_obj := s.dbus_lc_control_obj
    checked_dbusses := s.checked_dbusses }

def freeCurrentFailedApp (failed_app : ℕ) : HeapM Block Unit := do
  let name ← loadAs Block.currentFailedApp? failed_app
  free name
  free failed_app

def freeFailedApp (failed_app : ℕ) : HeapM Block Unit := do
  let (name, _) ← loadAs Block.failedApp? failed_app
  free name
  free failed_app

def freeLcInfo (lcinfo : ℕ) : HeapM Block Unit := do
  let (_, failed_apps) ← loadAs Block.lcInfo? lcinfo
  freeFull freeFailedApp failed_apps
  free lcinfo

def currentFailedAppNamed (appname : CString) (a : ℕ) : HeapM Block Bool := do
  let name ← loadAs Block.currentFailedApp? a
  let s ← loadAs Block.string? name
  pure (decide (s = appname))

def failedAppNamed (appname : CString) (a : ℕ) : HeapM Block Bool := do
  let (name, _) ← loadAs Block.failedApp? a
  let s ← loadAs Block.string? name
  pure (decide (s = appname))

def findFailedApp (lcinfo : ℕ) (appname : CString) : HeapM Block (Option ℕ) := do
  let (_, failed_apps) ← loadAs Block.lcInfo? lcinfo
  let n ← blockCount
  find (failedAppNamed appname) n failed_apps

def findCurrentFailedApp (current_failed_apps : Option ℕ) (appname : CString) :
    HeapM Block (Option ℕ) := do
  let n ← blockCount
  find (currentFailedAppNamed appname) n current_failed_apps

def loadArray (array : Option ℕ) : HeapM Block (List ℕ) := do
  let a ← ofOption array
  loadAs Block.ptrArray? a

def arrayAdd (array data : ℕ) : HeapM Block Unit := do
  let pdata ← loadAs Block.ptrArray? array
  store array (.ptrArray (pdata ++ [data]))

/-- `g_ptr_array_unref` of an array made with a free function -/
def arrayUnref (freeData : ℕ → HeapM Block Unit) (array : ℕ) : HeapM Block Unit := do
  let pdata ← loadAs Block.ptrArray? array
  pdata.foldlM (fun _ data => freeData data) ()
  free array

def checkFailedAppRestart (env : Env) (v : Vars) : HeapM Block (List Effect) :=
  if v.cfg.max_failed_apps ≠ 0 then do
    let failed_app_cnt ← length v.current_failed_apps
    if UInt32.ofNat failed_app_cnt ≥ v.cfg.max_failed_apps then
      ofOption ((requestRestart env .applicationFailure .normal v.state).map Prod.snd)
    else pure []
  else pure []

def writeApp (file : List UInt8) (a : ℕ) : HeapM Block (List UInt8) := do
  let (name, failcount) ← loadAs Block.failedApp? a
  let s ← loadAs Block.string? name
  pure (file ++ LcData.writeApp ⟨s, failcount⟩)

def writeLc (file : List UInt8) (a : ℕ) : HeapM Block (List UInt8) := do
  let (start_state, failed_apps) ← loadAs Block.lcInfo? a
  let app_list_size ← length failed_apps
  let n ← blockCount
  fold writeApp n failed_apps (file ++ (ByteStream.encodeWord start_state ++
    ByteStream.encodeWord (UInt32.ofNat app_list_size)))

def writeData (env : Env) (v : Vars) : HeapM Block Vars :=
  if env.fopen_w then do
    let pdata ← loadArray v.nodeinfo
    let lc_list_size := guintMin (listLength pdata) v.cfg.max_lc_count
    let file ← (pdata.take lc_list_size.toNat).foldlM writeLc
      (ByteStream.encodeWord nhmVersion ++ ByteStream.encodeWord lc_list_size)
    pure { v with disk := { v.disk with lcdata := some file } }
  else pure v

def newCurrentFailedApp (A : Allocator Block) (name : CString) : HeapM Block ℕ := do
  let app ← alloc A .uninitialised
  let s ← alloc A (.string name)
  store app (.currentFailedApp s)
  pure app

def newFailedApp (A : Allocator Block) (app : NhmFailedApp) : HeapM Block ℕ := do
  let app_info ← alloc A .uninitialised
  let s ← alloc A (.string app.name)
  store app_info (.failedApp s app.failcount)
  pure app_info

def addCurrentFailedApp (A : Allocator Block) (current_failed_apps : Option ℕ)
    (name : CString) : HeapM Block (Option ℕ) := do
  let app ← newCurrentFailedApp A name
  append A current_failed_apps app

/-- The cell is found by the address of the record, which is freed by then. -/
def dropCurrentFailedApp (current_failed_apps : Option ℕ) (app : ℕ) :
    HeapM Block (Option ℕ) := do
  freeCurrentFailedApp app
  remove current_failed_apps app

def addFailedApp (A : Allocator Block) (failed_apps : Option ℕ) (app : NhmFailedApp) :
    HeapM Block (Option ℕ) := do
  let app_info ← newFailedApp A app
  append A failed_apps app_info

def failedAppOf (A : Allocator Block) (lc_info : ℕ) (name : CString) : HeapM Block ℕ := do
  let app_info ← findFailedApp lc_info name
  match app_info with
  | some app_info => pure app_info
  | none => do
      let app_info ← newFailedApp A ⟨name, 0⟩
      let (start_state, failed_apps) ← loadAs Block.lcInfo? lc_info
      let failed_apps ← append A failed_apps app_info
      store lc_info (.lcInfo start_state failed_apps)
      pure app_info

def increaseFailcount (app_info : ℕ) : HeapM Block Unit := do
  let (name, failcount) ← loadAs Block.failedApp? app_info
  store app_info (.failedApp name (failcount + 1))

def countFailure (A : Allocator Block) (lc_info : ℕ) (name : CString) : HeapM Block Unit := do
  let app_info ← failedAppOf A lc_info name
  increaseFailcount app_info

def registerAppStatus (A : Allocator Block) (env : Env) (name : CString) (status : NhmAppStatus)
    (v : Vars) : HeapM Block (Vars × List Effect) :=
  if v.dbus_lc_control_obj ∧ v.dbus_nhm_info_obj.isSome then do
    let sent := [.setAppHealthStatus name (status = NhmAppStatus.ok),
      .emitAppHealthStatus name status]
    let app_on_list ← findCurrentFailedApp v.current_failed_apps name
    match app_on_list with
    | none =>
        if status = NhmAppStatus.failed then do
          let current_failed_apps ← addCurrentFailedApp A v.current_failed_apps name
          let pdata ← loadArray v.nodeinfo
          let lc_info ← ofOption pdata[0]?
          countFailure A lc_info name
          let v ← writeData env { v with current_failed_apps := current_failed_apps }
          let restart ← checkFailedAppRestart env v
          pure (v, sent ++ restart)
        else pure (v, sent)
    | some app =>
        if status ≠ NhmAppStatus.failed then do
          let current_failed_apps ← dropCurrentFailedApp v.current_failed_apps app
          pure ({ v with current_failed_apps := current_failed_apps }, sent)
        else pure (v, sent)
  else ofOption none

def uncleanStart (lc_info : ℕ) : HeapM Block UInt32 := do
  let (start_state, _) ← loadAs Block.lcInfo? lc_info
  pure (if start_state ≠ NhmNodeState.shutdown then 1 else 0)

def appFailcount (app_name : CString) (lc_info : ℕ) : HeapM Block UInt32 := do
  let app_info ← findFailedApp lc_info app_name
  match app_info with
  | some app_info => do
      let (_, failcount) ← loadAs Block.failedApp? app_info
      pure failcount
  | none => pure 0

def sumLcs (nodeinfo : List ℕ) (max_lc_count : UInt32) (count : ℕ → HeapM Block UInt32)
    (lc_idx : ℕ) (total_failures : UInt32) : HeapM Block (UInt32 × ℕ) :=
  if lc_idx < nodeinfo.length ∧ lc_idx ≤ max_lc_count.toNat then do
    let lc_info ← ofOption nodeinfo[lc_idx]?
    let failures ← count lc_info
    sumLcs nodeinfo max_lc_count count (lc_idx + 1) (total_failures + failures)
  else pure (total_failures, lc_idx)
termination_by nodeinfo.length - lc_idx

def readStatistics (app_name : CString) (v : Vars) : HeapM Block ReadStatistics :=
  if app_name = CString.empty then do
    let current ← length v.current_failed_apps
    let pdata ← loadArray v.nodeinfo
    let (total, lc_idx) ← sumLcs pdata v.cfg.max_lc_count uncleanStart 0 0
    pure ⟨UInt32.ofNat current, total, UInt32.ofNat lc_idx, .ok⟩
  else do
    let pdata ← loadArray v.nodeinfo
    let lc_info ← ofOption pdata[0]?
    let current ← appFailcount app_name lc_info
    let (total, lc_idx) ← sumLcs pdata v.cfg.max_lc_count (appFailcount app_name) 1 current
    pure ⟨current, total, UInt32.ofNat lc_idx, .ok⟩

def readLc (A : Allocator Block) (array : ℕ) (lc : NhmLcInfo) : HeapM Block Unit := do
  let lc_info ← alloc A .uninitialised
  let app_list ← lc.failed_apps.foldlM (addFailedApp A) none
  store lc_info (.lcInfo lc.start_state app_list)
  arrayAdd array lc_info

def readData (A : Allocator Block) (max_lc_count : UInt32) (file : Option (List UInt8))
    (array : ℕ) : HeapM Block Unit := do
  let stored ← ofOption (LcData.readData max_lc_count file [])
  stored.foldlM (fun _ lc => readLc A array lc) ()

def busAcquiredCb (A : Allocator Block) (env : Env) (v : Vars) :
    HeapM Block (Vars × List Effect) := do
  let array ← alloc A (.ptrArray [])
  let lc_info ← alloc A .uninitialised
  store lc_info (.lcInfo (readShutdownFlag env v.disk) none)
  arrayAdd array lc_info
  readData A v.cfg.max_lc_count (if env.fopen_r then v.disk.lcdata else none) array
  let info ← alloc A .skeleton
  pure ({ v with nodeinfo := some array, dbus_nhm_info_obj := some info },
    if env.skeleton_export then [] else [.mainLoopQuit])

def nameAcquiredCb (env : Env) (v : Vars) : HeapM Block (Vars × List Effect) := do
  let v ← writeData env (v.update (writeShutdownFlag env NhmNodeState.started v.state).2)
  let timer := if v.cfg.ul_chk_interval ≠ 0 then [.userlandTimer v.cfg.ul_chk_interval] else []
  let wdog := match Watchdog.startWdog env.watchdog_usec with
    | some ms => [.wdogTimer ms]
    | none => []
  pure (v, timer ++ [.systemdConnect, .sdNotifyReady] ++ wdog)

def unref (object : Option ℕ) : HeapM Block Unit :=
  match object with
  | some a => free a
  | none => pure ()

def freeNhmObjects (v : Vars) : HeapM Block Vars := do
  unref v.dbus_nhm_info_obj
  freeFull freeCurrentFailedApp v.current_failed_apps
  match v.nodeinfo with
  | some array => arrayUnref freeLcInfo array
  | none => pure ()
  pure { v with dbus_nhm_info_obj := none, current_failed_apps := none, nodeinfo := none }

/-- A callback that works without the run-time data. -/
def apart (callback : State → Option (State × List Effect)) (v : Vars) :
    HeapM Block (Vars × List Effect) := do
  let (s, sent) ← ofOption (callback v.state)
  pure (v.update s, sent)

def handle (A : Allocator Block) (v : Vars) : Request → HeapM Block (Vars × List Effect)
  | .registerAppStatus env app_name app_status => do
      let (v, sent) ← registerAppStatus A env app_name app_status v
      pure (v, sent ++ [.completeRegisterAppStatus])
  | .readStatistics app_name => do
      let reply ← readStatistics app_name v
      pure (v, [.completeReadStatistics reply])
  | .requestNodeRestart env app_name => apart (requestNodeRestartCb env app_name) v
  | .lcRequest env shutdown_type => apart (fun s => some (lcRequestCb env shutdown_type s)) v

def callBack (A : Allocator Block) (env : Env) :
    List Report → Vars → HeapM Block (Vars × List Effect)
  | [], v => pure (v, [])
  | (name, status) :: reports, v => do
      let (v, sent) ← registerAppStatus A env name status v
      let (v, rest) ← callBack A env reports v
      pure (v, sent ++ rest)

end NodeHealthMonitor.RunTimeHeap
