import NodeHealthMonitor.Lifecycles
import NodeHealthMonitor.SystemdSession
import NodeHealthMonitor.Userland

/-! `main`: the connection to the NSM, the events of the main loop in any order that GDBus
allows, and the clean-up behind it. The run-time data is created when the bus is acquired
and freed behind the loop; whatever uses it is switched on in between. -/

namespace NodeHealthMonitor.MainLoop
open DBus NhmMain

structure NsmEnv where
  bus_get : Bool := true
  lc_control_proxy : Bool := true
  consumer_proxy : Bool := true
  skeleton_export : Bool := true
  register_shutdown_client : Option NsmErrorStatus := some .ok

def connectToNsm (env : NsmEnv) : Bool × Bool :=
  let dbus_lc_control_obj := env.bus_get && env.lc_control_proxy
  (dbus_lc_control_obj && env.consumer_proxy && env.skeleton_export &&
    decide (env.register_shutdown_client = some .ok), dbus_lc_control_obj)

structure Program where
  main : NhmMain.State
  systemd : NhmSystemd.State := {}
  running : Bool
  quit : Bool := false
  bus_acquired : Bool := false
  exported : Bool := false

/-- `main` up to the main loop, or past it if the NSM cannot be connected to. -/
def Program.start (cfg : Config) (disk : Disk) (env : NsmEnv) : Program where
  main := { State.start cfg disk with dbus_lc_control_obj := (connectToNsm env).2 }
  running := (connectToNsm env).1

inductive Event where
  | busAcquired (env : Env)
  | nameAcquired (env : Env) (connect : NhmSystemd.ConnectEnv)
  | nameLost (connection : Bool)
  | request (request : Request)
  | signal (message : NhmSystemd.Signal) (env : Env)
  | userlandCheck (probes : Probes)
  | sigterm
  | leaveLoop (disconnect : NhmSystemd.ConnectEnv)

/-- `nhm_main_bus_acquired_cb` for any content of the data file: `sees` is what the program
makes of a record that it loads. -/
def busAcquired (sees : LcData.LoadedLc → NhmLcInfo) (env : Env) (s : State) :
    State × List Effect :=
  let lc_info : NhmLcInfo := ⟨readShutdownFlag env s.disk, []⟩
  let loaded := match (if env.fopen_r then s.disk.lcdata else none) with
    | none => []
    | some bytes => (LcData.readRecords s.cfg.max_lc_count bytes).map sees
  ({ s with nodeinfo := some (lc_info :: loaded), dbus_nhm_info_obj := true },
    if env.skeleton_export then [] else [.mainLoopQuit])

def callBack (env : Env) : List Report → State → Option (State × List Effect)
  | [], s => some (s, [])
  | (name, status) :: reports, s => do
      let (s, sent) ← registerAppStatus env name status s
      let (s, rest) ← callBack env reports s
      some (s, sent ++ rest)

def freeNhmObjects (s : State) : State :=
  { s with dbus_nhm_info_obj := false, current_failed_apps := [], nodeinfo := none }

/-- `nhm_main_free_nsm_objects`, `nhm_main_free_check_objects` and
`nhm_main_free_config_objects`. The pointer to the freed busses keeps its value in the code,
where nothing reads it any more; `none` says that they are gone. -/
def freeObjects (s : State) : State :=
  { s with
    dbus_lc_control_obj := false, checked_dbusses := none
    cfg := { s.cfg with
      no_restart_apps := none, monitored_files := none, monitored_progs := none
      monitored_procs := none, monitored_dbus := none } }

def step (glib : GLib) (sees : LcData.LoadedLc → NhmLcInfo) (p : Program) :
    Event → Option (Program × List Effect)
  | .busAcquired env =>
      let (main, sent) := busAcquired sees env p.main
      some ({ p with
        main := main, bus_acquired := true, exported := env.skeleton_export
        quit := p.quit || !env.skeleton_export }, sent)
  | .nameAcquired env connect => do
      let (main, sent) ← nameAcquiredCb env p.main
      let (_, systemd, _) ← NhmSystemd.connect glib connect true p.systemd
      some ({ p with main := main, systemd := systemd }, sent)
  | .nameLost _ => some ({ p with quit := true }, [.mainLoopQuit])
  | .request request => do
      let (main, sent) ← handle p.main request
      some ({ p with main := main }, sent)
  | .signal message env => do
      let (systemd, sent) ← NhmSystemd.dispatch glib message p.systemd
      let (main, effects) ← callBack env (sent.filterMap NhmSystemd.Output.report?) p.main
      some ({ p with main := main, systemd := systemd }, effects)
  | .userlandCheck probes => do
      let (main, sent) ← timerUserlandCheckCb probes p.main
      some ({ p with main := main }, sent)
  | .sigterm => some ({ p with quit := true }, [.mainLoopQuit])
  | .leaveLoop disconnect => do
      let systemd ← SystemdSession.disconnectAny disconnect p.systemd
      some ({ p with
        main := freeObjects (freeNhmObjects p.main), systemd := systemd, running := false }, [])

def advance (glib : GLib) (sees : LcData.LoadedLc → NhmLcInfo) (p : Program) (event : Event) :
    Option Program :=
  (step glib sees p event).map Prod.fst

/-- The bus is acquired once and before the name, methods are called on an exported object,
and only a loop that was told to quit is left. -/
def Allowed (p : Program) : Event → Prop
  | .busAcquired _ => p.running = true ∧ p.bus_acquired = false
  | .nameAcquired _ _ => p.running = true ∧ p.bus_acquired = true
  | .request (.lcRequest _ _) => p.running = true
  | .request _ => p.running = true ∧ p.exported = true
  | .leaveLoop _ => p.running = true ∧ p.quit = true
  | _ => p.running = true

theorem busAcquired_eq {sees : LcData.LoadedLc → NhmLcInfo}
    (hsees : ∀ lc value, LcData.LoadedLc.value lc = some value → sees lc = value) {env : Env}
    {s next : State} {sent : List Effect} (h : busAcquiredCb env s = some (next, sent)) :
    busAcquired sees env s = (next, sent) := by
  simp only [busAcquiredCb, Option.bind_eq_bind, Option.bind_eq_some_iff] at h
  obtain ⟨nodeinfo, hread, hnext⟩ := h
  cases hnext
  unfold LcData.readData at hread
  cases hfile : if env.fopen_r then s.disk.lcdata else none with
  | none =>
    rw [hfile] at hread
    cases hread
    simp [busAcquired, hfile]
  | some bytes =>
    rw [hfile] at hread
    simp only [Option.map_eq_some_iff] at hread
    obtain ⟨values, hvalues, rfl⟩ := hread
    simp [busAcquired, hfile, ByteStream.map_of_collect hsees hvalues]

end NodeHealthMonitor.MainLoop
