import NodeHealthMonitor.Configuration
import NodeHealthMonitor.ProgramHistory
import NodeHealthMonitor.UnitMemory

/-! `main` as a whole: configuration, connection to the NSM, main loop and clean-up. However
the process ends, it gives back all that it has, and its exit code tells what it has ended for. -/

namespace NodeHealthMonitor.ProgramExit
open DBus NhmMain MainLoop SystemdSession NodeHealthMonitor.Configuration

inductive ExitCode where
  | success | failure
  deriving DecidableEq

/-- The pointers of `main` to objects of the NSM's bus that are not NULL. -/
structure NsmObjects where
  nsmbusconn : Bool := false
  dbus_lc_control_obj : Bool := false
  dbus_consumer_obj : Bool := false
  dbus_lc_consumer_obj : Bool := false
  deriving DecidableEq

/-- A step of `nhm_main_connect_to_nsm`, which is made if all before it have succeeded. -/
def connectStep (succeeds : Bool) (store : NsmObjects → NsmObjects) (state : Bool × NsmObjects) :
    Bool × NsmObjects :=
  if state.1 then (succeeds, store state.2) else state

def connectToNsm (env : NsmEnv) (nsm : NsmObjects) : Bool × NsmObjects :=
  let bus := connectStep env.bus_get (fun nsm => { nsm with nsmbusconn := env.bus_get }) (true, nsm)
  let control := connectStep env.lc_control_proxy
    (fun nsm => { nsm with dbus_lc_control_obj := env.lc_control_proxy }) bus
  let consumer := connectStep env.consumer_proxy
    (fun nsm => { nsm with dbus_consumer_obj := env.consumer_proxy }) control
  -- The skeleton is there, also if it cannot be exported.
  let skeleton := connectStep env.skeleton_export
    (fun nsm => { nsm with dbus_lc_consumer_obj := true }) consumer
  connectStep (env.register_shutdown_client = some .ok) id skeleton

def freeNsmObjects (_ : NsmObjects) : NsmObjects := {}

structure Process where
  program : Program
  nsm : NsmObjects
  mainreturn : ExitCode
  mainloop : Bool

def Process.start (file : Option KeyFile) (disk : Disk) (env : NsmEnv) : Process :=
  let cfg := loadConfig file (init {})
  let program := Program.start cfg disk env
  match connectToNsm env {} with
  | (true, nsm) => ⟨program, nsm, .failure, true⟩
  | (false, nsm) =>
      ⟨{ program with main := freeObjects program.main }, freeNsmObjects nsm, .failure, false⟩

/-- What an event writes into `mainreturn`. -/
def verdict? : MainLoop.Event → Option ExitCode
  | .busAcquired env => if env.skeleton_export then none else some .failure
  | .nameLost _ => some .failure
  | .sigterm => some .success
  | _ => none

def Process.ends (q : Process) (program : Program) : MainLoop.Event → Process
  | .leaveLoop _ => { q with program := program, nsm := freeNsmObjects q.nsm, mainloop := false }
  | event => { q with program := program, mainreturn := (verdict? event).getD q.mainreturn }

def step (glib : GLib) (sees : LcData.LoadedLc → NhmLcInfo) (q : Process) (event : MainLoop.Event) :
    Option (Process × List Effect) := do
  let (program, sent) ← MainLoop.step glib sees q.program event
  some (q.ends program event, sent)

def advance (glib : GLib) (sees : LcData.LoadedLc → NhmLcInfo) (q : Process)
    (event : MainLoop.Event) : Option Process :=
  (step glib sees q event).map Prod.fst

theorem connectToNsm_eq (env : NsmEnv) :
    (connectToNsm env {}).1 = (MainLoop.connectToNsm env).1 ∧
      (connectToNsm env {}).2.dbus_lc_control_obj = (MainLoop.connectToNsm env).2 ∧
      ((connectToNsm env {}).1 = true → (connectToNsm env {}).2 = ⟨true, true, true, true⟩) := by
  obtain ⟨bus_get, lc_control_proxy, consumer_proxy, skeleton_export, registered⟩ := env
  cases bus_get <;> cases lc_control_proxy <;> cases consumer_proxy <;> cases skeleton_export <;>
    simp [connectToNsm, connectStep, MainLoop.connectToNsm]

structure Clean (q : Process) : Prop where
  nsm : q.nsm = {}
  mainloop : q.mainloop = false
  control : q.program.main.dbus_lc_control_obj = false
  data : NoData q.program.main
  checked_dbusses : q.program.main.checked_dbusses = none
  cfg : q.program.main.cfg.no_restart_apps = none ∧ q.program.main.cfg.monitored_files = none ∧
    q.program.main.cfg.monitored_progs = none ∧ q.program.main.cfg.monitored_procs = none ∧
    q.program.main.cfg.monitored_dbus = none
  systemd : Disconnected q.program.systemd
  units : ∀ a, q.program.systemd.heap a = none

theorem observe_listed {glib : GLib} (delivers : glib.Delivers) {s next : NhmSystemd.State}
    (h : Connected s ∨ Disconnected s) (listed : Listed s) {event : MainLoop.Event}
    (idle : ∀ env connect, event = .nameAcquired env connect → s.conn = false)
    (hobserve : observe glib s event = some next) : Listed next := by
  cases event with
  | nameAcquired env connect =>
    simp only [observe, Option.map_eq_some_iff] at hobserve
    obtain ⟨⟨retval, systemd, sent⟩, hconnect, rfl⟩ := hobserve
    have hdisconnected : Disconnected s := by
      refine h.resolve_left fun connected => ?_
      exact Bool.noConfusion ((idle env connect rfl).symm.trans connected.coherent.conn)
    exact listed_connect delivers (listed.empty hdisconnected.observed_units) hconnect
  | signal message env =>
    simp only [observe, Option.map_eq_some_iff] at hobserve
    obtain ⟨⟨systemd, sent⟩, hdispatch, rfl⟩ := hobserve
    rcases h with connected | idle
    · obtain ⟨sent', happly, -⟩ := NhmSystemd.dispatch_performs delivers
        connected.coherent.usable message
      rw [happly] at hdispatch
      cases hdispatch
      exact listed_apply listed connected.coherent.nodup _
    · rw [NhmSystemd.dispatch, idle.subscriptions] at hdispatch
      cases hdispatch
      exact listed
  | leaveLoop disconnect => exact listed_of_empty (disconnectAny_frees hobserve listed)
  | _ =>
    cases hobserve
    exact listed

structure Kept (cfg : Config) (h : List MainLoop.Event) (q : Process) : Prop where
  going : Going cfg q.program
  listed : Listed q.program.systemd
  verdict : q.mainreturn = (h.findSome? verdict?).getD .failure
  quit : q.program.quit = (h.findSome? verdict?).isSome
  running : q.program.running = true → q.mainloop = true ∧ q.nsm = ⟨true, true, true, true⟩
  stopped : q.program.running = false → Clean q

theorem kept_start (file : Option KeyFile) (disk : Disk) (env : NsmEnv) :
    Kept (loadConfig file (init {})) [] (.start file disk env) := by
  obtain ⟨hretval, hcontrol, hall⟩ := connectToNsm_eq env
  have hgoing := going_start (loadConfig file (init {})) disk env
  cases hconnect : connectToNsm env {} with
  | mk retval nsm =>
    rw [hconnect] at hretval hall
    cases retval with
    | true =>
      have hstart : Process.start file disk env =
          ⟨Program.start (loadConfig file (init {})) disk env, nsm, .failure, true⟩ := by
        simp only [Process.start, hconnect]
      rw [hstart]
      refine ⟨hgoing, listed_of_empty fun _ => rfl, rfl, rfl, fun _ => ⟨rfl, hall rfl⟩, fun h => ?_⟩
      exact Bool.noConfusion (hretval.trans h)
    | false =>
      have hstart : Process.start file disk env =
          ⟨{ Program.start (loadConfig file (init {})) disk env with
              main := freeObjects (Program.start (loadConfig file (init {})) disk env).main },
            freeNsmObjects nsm, .failure, false⟩ := by
        simp only [Process.start, hconnect]
      have hstopped : (MainLoop.connectToNsm env).1 = false := hretval.symm
      rw [hstart]
      refine ⟨⟨fun h => Bool.noConfusion (hretval.trans h), Or.inr disconnected_start,
          fun _ => ⟨rfl, rfl, rfl⟩⟩, listed_of_empty fun _ => rfl, rfl, rfl,
        fun h => Bool.noConfusion (hretval.trans h), fun _ => ?_⟩
      exact ⟨rfl, rfl, rfl, ⟨rfl, rfl, rfl⟩, rfl, ⟨rfl, rfl, rfl, rfl, rfl⟩, disconnected_start,
        fun _ => rfl⟩

def leaves : MainLoop.Event → Bool
  | .leaveLoop _ => true
  | _ => false

theorem step_flags {glib : GLib} {sees : LcData.LoadedLc → NhmLcInfo} {p next : Program}
    {event : MainLoop.Event} {sent : List Effect}
    (h : MainLoop.step glib sees p event = some (next, sent)) :
    observe glib p.systemd event = some next.systemd ∧
      next.quit = (p.quit || (verdict? event).isSome) ∧
      next.running = (p.running && !leaves event) := by
  cases event with
  | busAcquired env =>
    cases h
    refine ⟨rfl, ?_, (Bool.and_true _).symm⟩
    change (p.quit || !env.skeleton_export) = (p.quit || _)
    rw [verdict?]
    cases env.skeleton_export <;> rfl
  | nameLost connection =>
    cases h
    exact ⟨rfl, (Bool.or_true _).symm, (Bool.and_true _).symm⟩
  | sigterm =>
    cases h
    exact ⟨rfl, (Bool.or_true _).symm, (Bool.and_true _).symm⟩
  | leaveLoop disconnect =>
    simp only [MainLoop.step, Option.bind_eq_bind, Option.bind_eq_some_iff] at h
    obtain ⟨systemd, hdisconnect, hnext⟩ := h
    cases hnext
    exact ⟨hdisconnect, (Bool.or_false _).symm, (Bool.and_false _).symm⟩
  | nameAcquired env connect =>
    simp only [MainLoop.step, Option.bind_eq_bind, Option.bind_eq_some_iff] at h
    obtain ⟨⟨main, sent'⟩, -, ⟨retval, systemd, listed⟩, hconnect, hnext⟩ := h
    cases hnext
    refine ⟨?_, (Bool.or_false _).symm, (Bool.and_true _).symm⟩
    rw [observe, hconnect, Option.map_some]
  | signal message env =>
    simp only [MainLoop.step, Option.bind_eq_bind, Option.bind_eq_some_iff] at h
    obtain ⟨⟨systemd, called⟩, hdispatch, ⟨main, effects⟩, -, hnext⟩ := h
    cases hnext
    refine ⟨?_, (Bool.or_false _).symm, (Bool.and_true _).symm⟩
    rw [observe, hdispatch, Option.map_some]
  | request request =>
    simp only [MainLoop.step, Option.bind_eq_bind, Option.bind_eq_some_iff] at h
    obtain ⟨⟨main, sent'⟩, -, hnext⟩ := h
    cases hnext
    exact ⟨rfl, (Bool.or_false _).symm, (Bool.and_true _).symm⟩
  | userlandCheck probes =>
    simp only [MainLoop.step, Option.bind_eq_bind, Option.bind_eq_some_iff] at h
    obtain ⟨⟨main, sent'⟩, -, hnext⟩ := h
    cases hnext
    exact ⟨rfl, (Bool.or_false _).symm, (Bool.and_true _).symm⟩

theorem leaveLoop_frees {glib : GLib} {sees : LcData.LoadedLc → NhmLcInfo} {p next : Program}
    {disconnect : NhmSystemd.ConnectEnv} {sent : List Effect}
    (h : MainLoop.step glib sees p (.leaveLoop disconnect) = some (next, sent)) :
    next.main = freeObjects (freeNhmObjects p.main) := by
  simp only [MainLoop.step, Option.bind_eq_bind, Option.bind_eq_some_iff] at h
  obtain ⟨systemd, -, hnext⟩ := h
  cases hnext
  rfl

theorem findSome_cons_getD (event : MainLoop.Event) (h : List MainLoop.Event) :
    ((event :: h).findSome? verdict?).getD .failure =
      (verdict? event).getD ((h.findSome? verdict?).getD .failure) := by
  rw [List.findSome?_cons]
  cases verdict? event <;> rfl

theorem findSome_cons_isSome (event : MainLoop.Event) (h : List MainLoop.Event) :
    ((event :: h).findSome? verdict?).isSome =
      ((h.findSome? verdict?).isSome || (verdict? event).isSome) := by
  rw [List.findSome?_cons]
  cases verdict? event with
  | none => exact (Bool.or_false _).symm
  | some code => exact (Bool.or_true _).symm

theorem ends_of_stays {event : MainLoop.Event} (h : leaves event = false) (q : Process)
    (program : Program) : q.ends program event =
      { q with program := program, mainreturn := (verdict? event).getD q.mainreturn } := by
  cases event with
  | leaveLoop disconnect => exact Bool.noConfusion h
  | _ => rfl

section
variable {glib : GLib} (sees : LcData.LoadedLc → NhmLcInfo) (delivers : glib.Delivers)
  {cfg : Config} {h : List MainLoop.Event} {q : Process} (kept : Kept cfg h q)
include delivers kept

theorem Kept.step {event : MainLoop.Event} (allowed : Allowed q.program event)
    (called : Called q.program event) :
    ∃ next, advance glib sees q event = some next ∧ Kept cfg (event :: h) next := by
  have hrunning := allowed_running allowed
  obtain ⟨program, sent, hstep, going⟩ := kept.going.step sees delivers allowed called
  obtain ⟨hobserve, hquit, hrun⟩ := step_flags hstep
  have hsystemd := kept.going.systemd
  have listed : Listed program.systemd := by
    refine observe_listed delivers hsystemd kept.listed (fun env connect hevent => ?_) hobserve
    rw [hevent] at called
    exact called.1
  have hlast : program.quit = ((event :: h).findSome? verdict?).isSome := by
    rw [hquit, kept.quit, findSome_cons_isSome]
  refine ⟨q.ends program event, ?_, ?_⟩
  · simp only [advance, ProgramExit.step, hstep, Option.bind_eq_bind, Option.bind_some,
      Option.map_some]
  rw [hrunning, Bool.true_and] at hrun
  cases hleaves : leaves event with
  | false =>
    rw [hleaves] at hrun
    rw [ends_of_stays hleaves]
    refine ⟨going, listed, ?_, hlast, fun _ => kept.running hrunning, fun hstopped => ?_⟩
    · rw [findSome_cons_getD, ← kept.verdict]
    · exact Bool.noConfusion (hrun.symm.trans hstopped)
  | true =>
    cases event with
    | leaveLoop disconnect =>
      have hmain := leaveLoop_frees hstep
      have idle : Disconnected program.systemd := by
        obtain ⟨systemd, hdisconnect, hidle⟩ := disconnectAny_session disconnect hsystemd
        rw [observe, hdisconnect] at hobserve
        exact Option.some.inj hobserve ▸ hidle
      refine ⟨going, listed, ?_, hlast, fun hstill => ?_, fun hstopped => ?_⟩
      · exact kept.verdict
      · exact Bool.noConfusion (hrun.symm.trans hstill)
      · refine ⟨rfl, rfl, ?_, going.idle (Or.inr hstopped), ?_, ?_, idle,
          listed.empty idle.observed_units⟩
        · exact congrArg NhmMain.State.dbus_lc_control_obj hmain
        · exact congrArg NhmMain.State.checked_dbusses hmain
        · simp only [Process.ends, hmain, freeObjects, and_self]
    | _ => exact Bool.noConfusion hleaves

end

theorem getD_success {code? : Option ExitCode} :
    code?.getD .failure = .success ↔ code? = some .success := by
  cases code? with
  | none => exact ⟨fun h => ExitCode.noConfusion h, fun h => absurd h (Option.some_ne_none _).symm⟩
  | some code => exact Option.some_inj.symm

theorem verdict_success {event : MainLoop.Event} (h : verdict? event = some .success) :
    event = .sigterm := by
  cases event with
  | sigterm => rfl
  | busAcquired env =>
    rw [verdict?] at h
    split at h <;> cases h
  | _ => cases h

/-- Every process runs to the end of its events. It leaves the main loop only when it was told
to, holds nothing behind it, and ends in success just if SIGTERM was the last it was told. -/
theorem exit_run {glib : GLib} (delivers : glib.Delivers) (sees : LcData.LoadedLc → NhmLcInfo)
    (file : Option KeyFile) (disk : Disk) (env : NsmEnv) (events : List MainLoop.Event)
    (possible : Transition.AllSteps (advance glib sees)
      (fun q event => Allowed q.program event ∧ Called q.program event)
      (.start file disk env) events) :
    ∃ q, Transition.run (advance glib sees) (.start file disk env) events = some q ∧
      (q.program.running = true → q.mainloop = true ∧ q.nsm = ⟨true, true, true, true⟩) ∧
      (q.program.running = false → Clean q) ∧
      (q.program.quit = true ↔ ∃ event ∈ events, verdict? event ≠ none) ∧
      (q.mainreturn = .success ↔ ∃ earlier later, events = earlier ++ .sigterm :: later ∧
        ∀ event ∈ later, verdict? event = none) := by
  obtain ⟨q, hrun, kept⟩ := Transition.run_history (advance glib sees)
    (Kept (loadConfig file (init {}))) (fun q event => Allowed q.program event ∧
      Called q.program event) (fun h q event kept ok => kept.step sees delivers ok.1 ok.2) events []
    (.start file disk env) (kept_start file disk env) possible
  rw [List.append_nil] at kept
  refine ⟨q, hrun, kept.running, kept.stopped, ?_, ?_⟩
  · rw [kept.quit, List.findSome?_isSome_iff]
    constructor
    · rintro ⟨event, hmem, hsome⟩
      exact ⟨event, List.mem_reverse.mp hmem, Option.isSome_iff_ne_none.mp hsome⟩
    · rintro ⟨event, hmem, hsome⟩
      exact ⟨event, List.mem_reverse.mpr hmem, Option.isSome_iff_ne_none.mpr hsome⟩
  · rw [kept.verdict, getD_success, List.findSome?_eq_some_iff]
    constructor
    · rintro ⟨later, event, earlier, hevents, hverdict, hlater⟩
      obtain rfl := verdict_success hverdict
      refine ⟨earlier.reverse, later.reverse, ?_, fun event hmem => ?_⟩
      · rw [← List.reverse_reverse events, hevents]
        simp only [List.reverse_append, List.reverse_cons, List.append_assoc,
          List.singleton_append]
      · exact hlater event (List.mem_reverse.mp hmem)
    · rintro ⟨earlier, later, rfl, hlater⟩
      refine ⟨later.reverse, .sigterm, earlier.reverse, ?_, rfl, fun event hmem => ?_⟩
      · simp only [List.reverse_append, List.reverse_cons, List.append_assoc,
          List.singleton_append]
      · exact hlater event (List.mem_reverse.mp hmem)

theorem exit_run_failure :
    let sees : LcData.LoadedLc → NhmLcInfo := fun _ => ⟨NhmNodeState.notset, []⟩
    let events : List MainLoop.Event := [.busAcquired {}, .nameAcquired {} {},
      .request (.registerAppStatus {} (CString.literal [97]) NhmAppStatus.failed), .sigterm,
      .nameLost false, .leaveLoop {}]
    ∃ q, Transition.run (advance handingOver sees) (.start none ⟨none, none⟩ {}) events = some q ∧
      (q.program.running = true → q.mainloop = true ∧ q.nsm = ⟨true, true, true, true⟩) ∧
      (q.program.running = false → Clean q) ∧
      (q.program.quit = true ↔ ∃ event ∈ events, verdict? event ≠ none) ∧
      (q.mainreturn = .success ↔ ∃ earlier later, events = earlier ++ .sigterm :: later ∧
        ∀ event ∈ later, verdict? event = none) := by
  refine exit_run handingOver_delivers _ none ⟨none, none⟩ {} _
    ⟨⟨⟨rfl, rfl⟩, trivial⟩, fun _ h => Option.some.inj h ▸ ⟨⟨⟨rfl, rfl⟩, rfl, ?_⟩,
      fun _ h => Option.some.inj h ▸ ⟨⟨⟨rfl, rfl⟩, trivial⟩, fun _ h => Option.some.inj h ▸
        ⟨⟨rfl, trivial⟩, fun _ h => Option.some.inj h ▸ ⟨⟨rfl, trivial⟩,
          fun _ h => Option.some.inj h ▸ ⟨⟨⟨rfl, rfl⟩, trivial⟩, fun _ _ => trivial⟩⟩⟩⟩⟩⟩
  exact fun _ h => Option.some.inj h ▸ List.nodup_nil

end NodeHealthMonitor.ProgramExit
