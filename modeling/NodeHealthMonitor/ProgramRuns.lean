import NodeHealthMonitor.RunTimeData

/-! Whole runs of the program. Where GLib hands over the values of messages and the module
for systemd is connected at most once at a time, every event of the main loop has a result,
whatever the order of the events and the outcomes of the calls. -/

namespace NodeHealthMonitor.MainLoop
open DBus NhmMain NhmSystemd SystemdSession

structure NoData (s : NhmMain.State) : Prop where
  nodeinfo : s.nodeinfo = none
  info : s.dbus_nhm_info_obj = false
  current : s.current_failed_apps = []

/-- The name is acquired while systemd is not observed, and `ListUnits` lists a name once. -/
def Called (p : Program) : Event → Prop
  | .nameAcquired _ connect => p.systemd.conn = false ∧
      ∀ units, connect.list_units = some units → (units.map (·.name)).Nodup
  | _ => True

structure Going (cfg : Config) (p : Program) : Prop where
  sound : Sound cfg p
  systemd : Connected p.systemd ∨ Disconnected p.systemd
  idle : p.bus_acquired = false ∨ p.running = false → NoData p.main

theorem going_start (cfg : Config) (disk : Disk) (env : NsmEnv) :
    Going cfg (.start cfg disk env) :=
  ⟨sound_start cfg disk env, Or.inr disconnected_start, fun _ => ⟨rfl, rfl, rfl⟩⟩

theorem dispatch_kept {glib : GLib} (delivers : glib.Delivers) {s : NhmSystemd.State}
    (h : Connected s ∨ Disconnected s) (message : Signal) :
    ∃ next sent, dispatch glib message s = some (next, sent) ∧
      (Connected next ∨ Disconnected next) ∧ (s.subscriptions = [] → sent = []) := by
  rcases h with connected | idle
  · obtain ⟨sent, hdispatch, -⟩ := dispatch_performs delivers connected.coherent.usable message
    refine ⟨_, sent, hdispatch,
      Or.inl (connected.apply (move_valid connected.coherent message)), fun hsubs => ?_⟩
    have hadded := connected.added
    rw [hsubs] at hadded
    exact absurd hadded List.not_mem_nil
  · refine ⟨s, [], ?_, Or.inr idle, fun _ => rfl⟩
    rw [dispatch, idle.subscriptions]
    rfl

theorem callBack_total (env : Env) (reports : List Report) {cfg : Config} {p : Program}
    (started : Started cfg p) (hnone : p.bus_acquired = false → reports = []) :
    ∃ next sent, callBack env reports p.main = some (next, sent) := by
  rcases Bool.eq_false_or_eq_true p.bus_acquired with hacquired | hacquired
  · obtain ⟨history, older, following⟩ := started.loaded hacquired
    obtain ⟨next, sent, -, hstep, -⟩ := callBack_following env reports following
    exact ⟨next, sent, hstep⟩
  · rw [hnone hacquired]
    exact ⟨p.main, [], rfl⟩

theorem NoData.of_idle {p : Program} {main : NhmMain.State} (hrunning : p.running = true)
    (hdata : p.bus_acquired = false → NoData main) :
    p.bus_acquired = false ∨ p.running = false → NoData main := by
  rintro (hwaiting | hstopped)
  · exact hdata hwaiting
  · exact Bool.noConfusion (hrunning.symm.trans hstopped)

section
variable {glib : GLib} {sees : LcData.LoadedLc → NhmLcInfo} {cfg : Config} {p : Program}
  (going : Going cfg p)
include going

theorem Going.started (hrunning : p.running = true) : Started cfg p := going.sound hrunning

theorem Going.request (request : Request) (allowed : Allowed p (.request request)) :
    ∃ next sent, step glib sees p (.request request) = some (next, sent) ∧ Going cfg next := by
  have hrunning := allowed_running allowed
  have started := going.started hrunning
  obtain ⟨main, sent, hhandle, hdata⟩ : ∃ main sent, handle p.main request = some (main, sent) ∧
      (p.bus_acquired = false → NoData main) := by
    rcases Bool.eq_false_or_eq_true p.bus_acquired with hacquired | hacquired
    · obtain ⟨reports, older, following⟩ := started.loaded hacquired
      obtain ⟨next, sent, hstep, -⟩ := handle_following request following
      exact ⟨next, sent, hstep, fun h => Bool.noConfusion (hacquired.symm.trans h)⟩
    · -- No object is exported, so that only a lifecycle request can come in.
      obtain ⟨hexported, -⟩ := started.waiting hacquired
      cases request with
      | lcRequest env type =>
        obtain ⟨disk, status, hstep, -⟩ := lcRequestCb_eq env type p.main
        obtain ⟨hnodeinfo, hinfo, hcurrent⟩ := going.idle (Or.inl hacquired)
        exact ⟨_, _, congrArg some hstep, fun _ => ⟨hnodeinfo, hinfo, hcurrent⟩⟩
      | _ => exact Bool.noConfusion (hexported.symm.trans allowed.2)
  refine ⟨{ p with main := main }, sent, ?_, ?_, going.systemd, NoData.of_idle hrunning hdata⟩
  · simp only [step, hhandle, Option.bind_eq_bind, Option.bind_some]
  · exact fun _ => started.handled allowed hhandle

theorem Going.signal (delivers : glib.Delivers) (message : Signal) (env : Env)
    (hrunning : p.running = true) :
    ∃ next sent, step glib sees p (.signal message env) = some (next, sent) ∧
      Going cfg next := by
  have started := going.started hrunning
  obtain ⟨systemd, called, hdispatch, hsystemd, hquiet⟩ :=
    dispatch_kept delivers going.systemd message
  have hnone : p.bus_acquired = false → called.filterMap Output.report? = [] := by
    intro hacquired
    rw [hquiet (started.waiting hacquired).2.1]
    rfl
  obtain ⟨main, sent, hmain⟩ := callBack_total env (called.filterMap Output.report?) started hnone
  refine ⟨{ p with main := main, systemd := systemd }, sent, ?_,
    fun _ => started.signalled hdispatch hmain, hsystemd,
    NoData.of_idle hrunning fun hacquired => ?_⟩
  · simp only [step, hdispatch, hmain, Option.bind_eq_bind, Option.bind_some]
  · rw [hnone hacquired] at hmain
    cases hmain
    exact going.idle (Or.inl hacquired)

theorem Going.step (sees : LcData.LoadedLc → NhmLcInfo) (delivers : glib.Delivers)
    {event : Event} (allowed : Allowed p event) (called : Called p event) :
    ∃ next sent, MainLoop.step glib sees p event = some (next, sent) ∧ Going cfg next := by
  have hrunning := allowed_running allowed
  have started := going.started hrunning
  have sound : ∀ next sent, MainLoop.step glib sees p event = some (next, sent) →
      Sound cfg next := fun _ _ h => step_sound started allowed h
  cases event with
  | request request => exact going.request request allowed
  | signal message env => exact going.signal delivers message env hrunning
  | busAcquired env =>
    refine ⟨_, _, rfl, sound _ _ rfl, going.systemd, ?_⟩
    rintro (hwaiting | hstopped)
    · exact Bool.noConfusion hwaiting
    · exact Bool.noConfusion (hrunning.symm.trans hstopped)
  | nameAcquired env connect =>
    obtain ⟨reports, older, following⟩ := started.loaded allowed.2
    obtain ⟨main, sent, hmain, -⟩ := nameAcquiredCb_following env following
    have idle : Disconnected p.systemd := by
      refine going.systemd.resolve_left fun connected => ?_
      exact Bool.noConfusion (called.1.symm.trans connected.coherent.conn)
    obtain ⟨retval, systemd, listed, hconnect, hsystemd⟩ :=
      connect_session delivers idle connect true called.2
    have hstep : MainLoop.step glib sees p (.nameAcquired env connect) =
        some ({ p with main := main, systemd := systemd }, sent) := by
      simp only [MainLoop.step, hmain, hconnect, Option.bind_eq_bind, Option.bind_some]
    refine ⟨_, _, hstep, sound _ _ hstep, ?_, NoData.of_idle hrunning fun hacquired => ?_⟩
    · cases hlisting : connect.listing true with
      | some units =>
        rw [hlisting] at hsystemd
        exact Or.inl hsystemd.1
      | none =>
        rw [hlisting] at hsystemd
        exact Or.inr hsystemd
    · exact Bool.noConfusion (hacquired.symm.trans allowed.2)
  | userlandCheck probes =>
    obtain ⟨checked, hcheck⟩ := timerUserlandCheckCb_eq probes p.main
    have hstep : ∃ sent, MainLoop.step glib sees p (.userlandCheck probes) =
        some ({ p with main := { p.main with checked_dbusses := checked } }, sent) := by
      simp only [MainLoop.step, hcheck, Option.bind_eq_bind, Option.bind_some]
      exact ⟨_, rfl⟩
    obtain ⟨sent, hstep⟩ := hstep
    refine ⟨_, _, hstep, sound _ _ hstep, going.systemd, NoData.of_idle hrunning fun h => ?_⟩
    obtain ⟨hnodeinfo, hinfo, hcurrent⟩ := going.idle (Or.inl h)
    exact ⟨hnodeinfo, hinfo, hcurrent⟩
  | nameLost connection => exact ⟨_, _, rfl, sound _ _ rfl, going.systemd, going.idle⟩
  | sigterm => exact ⟨_, _, rfl, sound _ _ rfl, going.systemd, going.idle⟩
  | leaveLoop disconnect =>
    obtain ⟨systemd, hdisconnect, hsystemd⟩ := disconnectAny_session disconnect going.systemd
    have hstep : MainLoop.step glib sees p (.leaveLoop disconnect) =
        some ({ p with
          main := freeObjects (freeNhmObjects p.main), systemd := systemd, running := false },
            []) := by
      simp only [MainLoop.step, hdisconnect, Option.bind_eq_bind, Option.bind_some]
    exact ⟨_, _, hstep, sound _ _ hstep, Or.inr hsystemd, fun _ => ⟨rfl, rfl, rfl⟩⟩

end

theorem going_run {glib : GLib} (delivers : glib.Delivers) (sees : LcData.LoadedLc → NhmLcInfo)
    (cfg : Config) (disk : Disk) (env : NsmEnv) (events : List Event)
    (ok : Transition.AllSteps (advance glib sees) (fun p event => Allowed p event ∧ Called p event)
      (.start cfg disk env) events) :
    ∃ p, Transition.run (advance glib sees) (.start cfg disk env) events = some p ∧
      Going cfg p := by
  refine Transition.run_invariant (advance glib sees) (Going cfg) _ ?_ events _
    (going_start cfg disk env) ok
  intro p event going ⟨allowed, called⟩
  obtain ⟨next, sent, hstep, hnext⟩ := going.step sees delivers allowed called
  exact ⟨next, by rw [advance, hstep, Option.map_some], hnext⟩

theorem possible_eventsA (sees : LcData.LoadedLc → NhmLcInfo) :
    Transition.AllSteps (advance handingOver sees)
      (fun p event => Allowed p event ∧ Called p event) (.start {} ⟨none, none⟩ {}) eventsA := by
  refine ⟨⟨⟨rfl, rfl⟩, trivial⟩, fun _ h => Option.some.inj h ▸ ⟨⟨⟨rfl, rfl⟩, rfl, ?_⟩,
    fun _ h => Option.some.inj h ▸ ⟨⟨⟨rfl, rfl⟩, trivial⟩, fun _ h => Option.some.inj h ▸
      ⟨⟨rfl, trivial⟩, fun _ h => Option.some.inj h ▸ ⟨⟨⟨rfl, rfl⟩, trivial⟩,
        fun _ _ => trivial⟩⟩⟩⟩⟩
  exact fun _ h => Option.some.inj h ▸ List.nodup_nil

end NodeHealthMonitor.MainLoop
