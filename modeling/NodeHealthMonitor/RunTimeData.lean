import NodeHealthMonitor.MainLoop

/-! The life of the run-time data. Whatever uses `nodeinfo` runs behind the callback that
creates it and before the end of the main loop: the exported object and the subscriptions
of systemd do not exist earlier. -/

namespace NodeHealthMonitor.MainLoop
open DBus NhmMain

/-- The data `nhm_main_register_app_status`, `nhm_main_read_statistics_cb` and
`nhm_main_write_data` work on is there, and their indexes are inside of it. -/
structure DataExists (s : State) : Prop where
  current : ∃ lc older, Ready s lc older
  stored : ∀ nodeinfo, s.nodeinfo = some nodeinfo →
    (LcData.lcListSize nodeinfo s.cfg.max_lc_count).toNat ≤ nodeinfo.length
  writeData : ∀ env, ∃ next, writeData env s = some next
  readStatistics : ∀ app_name, ∃ reply, readStatistics app_name s = some reply
  registerAppStatus : ∀ env name status, ∃ next sent,
    registerAppStatus env name status s = some (next, sent)

def UsesData (p : Program) : Event → Prop
  | .nameAcquired _ _ => True
  | .request (.registerAppStatus _ _ _) => True
  | .request (.readStatistics _) => True
  | .signal message _ => ∃ handler, p.systemd.handlerOf message.sub_id = some handler
  | _ => False

theorem lcListSize_le (nodeinfo : List NhmLcInfo) (max_lc_count : UInt32) :
    (LcData.lcListSize nodeinfo max_lc_count).toNat ≤ nodeinfo.length := by
  have hlength : (LcData.listLength nodeinfo).toNat ≤ nodeinfo.length := by
    rw [LcData.listLength, UInt32.toNat_ofNat']
    exact Nat.mod_le ..
  unfold LcData.lcListSize LcData.guintMin
  split
  · exact hlength
  · rename_i h
    exact (UInt32.le_iff_toNat_le.mp (UInt32.not_lt.mp h)).trans hlength

theorem dataExists_of_ready {s : State} {lc : NhmLcInfo} {older : List NhmLcInfo}
    (ready : Ready s lc older) : DataExists s where
  current := ⟨lc, older, ready⟩
  stored nodeinfo _ := lcListSize_le nodeinfo _
  writeData env := by
    obtain ⟨disk, hwrite, -⟩ := writeData_eq env s _ ready.nodeinfo
    exact ⟨_, hwrite⟩
  readStatistics app_name := by
    by_cases hname : app_name = CString.empty
    · rw [hname]
      exact ⟨_, readStatistics_node s _ ready.nodeinfo⟩
    · exact ⟨_, readStatistics_app app_name s lc older hname ready.nodeinfo⟩
  registerAppStatus env name status := by
    obtain ⟨next, restart, hstep, -⟩ := registerAppStatus_cases env name status ready
    exact ⟨next, _, hstep⟩

structure Started (cfg : Config) (p : Program) : Prop where
  cfg : p.main.cfg = cfg
  control : p.main.dbus_lc_control_obj = true
  loaded : p.bus_acquired = true → ∃ reports older, Following reports older p.main
  waiting : p.bus_acquired = false →
    p.exported = false ∧ p.systemd.subscriptions = [] ∧ p.main.failedNames = []

def Sound (cfg : Config) (p : Program) : Prop := p.running = true → Started cfg p

theorem sound_start (cfg : Config) (disk : Disk) (env : NsmEnv) :
    Sound cfg (Program.start cfg disk env) := by
  intro hrunning
  refine ⟨rfl, ?_, fun h => Bool.noConfusion h, fun _ => ⟨rfl, rfl, rfl⟩⟩
  simp only [Program.start, connectToNsm, Bool.and_eq_true] at hrunning
  simp [Program.start, connectToNsm, hrunning]

theorem busAcquired_following (sees : LcData.LoadedLc → NhmLcInfo) (env : Env) {s : State}
    (hcontrol : s.dbus_lc_control_obj = true) (hnone : s.failedNames = []) :
    ∃ older, Following [] older (busAcquired sees env s).1 := by
  refine ⟨_, _, ⟨hcontrol, rfl, rfl⟩, ?_⟩
  have hnames : (busAcquired sees env s).1.failedNames = [] := hnone
  rw [hnames]
  exact Tracks.nil _

theorem callBack_following (env : Env) (calls : List Report) {reports : List Report}
    {older : List NhmLcInfo} {s : State} (following : Following reports older s) :
    ∃ next sent reports', callBack env calls s = some (next, sent) ∧
      Following reports' older next ∧ next.cfg = s.cfg := by
  induction calls generalizing reports s with
  | nil => exact ⟨s, [], reports, rfl, following, rfl⟩
  | cons call calls ih =>
    obtain ⟨name, status⟩ := call
    obtain ⟨mid, sent, hstep, hmid, hkeeps⟩ := registerAppStatus_following env name status following
    obtain ⟨next, rest, reports', hrest, hnext, hcfg⟩ := ih hmid
    refine ⟨next, sent ++ rest, reports', ?_, hnext, hcfg.trans hkeeps.cfg⟩
    simp only [callBack, hstep, hrest, Option.bind_eq_bind, Option.bind_some]

theorem timerUserlandCheckCb_frame {probes : Probes} {s next : State} {sent : List Effect}
    (h : timerUserlandCheckCb probes s = some (next, sent)) :
    ∃ checked_dbusses, next = { s with checked_dbusses := checked_dbusses } := by
  simp only [timerUserlandCheckCb, Option.bind_eq_bind, Option.bind_eq_some_iff] at h
  obtain ⟨_, -, _, -, _, -, ⟨_, checked_dbusses, _⟩, -, hnext⟩ := h
  cases hnext
  exact ⟨checked_dbusses, rfl⟩

section
variable {cfg : Config} {p : Program} (started : Started cfg p)
include started

theorem Started.dataExists {event : Event} (allowed : Allowed p event) (uses : UsesData p event) :
    DataExists p.main := by
  have hacquired : p.bus_acquired = true := by
    by_contra hwaiting
    obtain ⟨hexported, hsubs, -⟩ := started.waiting (eq_false_of_ne_true hwaiting)
    cases event with
    | nameAcquired env connect => exact hwaiting allowed.2
    | signal message env =>
      obtain ⟨handler, hhandler⟩ := uses
      rw [NhmSystemd.State.handlerOf, hsubs] at hhandler
      contradiction
    | request request =>
      cases request with
      | registerAppStatus env name status =>
        exact Bool.noConfusion (hexported.symm.trans allowed.2)
      | readStatistics name => exact Bool.noConfusion (hexported.symm.trans allowed.2)
      | requestNodeRestart env name => exact uses
      | lcRequest env type => exact uses
    | _ => exact uses
  obtain ⟨reports, older, lc, ready, -⟩ := started.loaded hacquired
  exact dataExists_of_ready ready

theorem Started.withMain (hacquired : p.bus_acquired = true) {main : State}
    {reports : List Report} {older : List NhmLcInfo} (following : Following reports older main)
    (hcfg : main.cfg = p.main.cfg) (systemd : NhmSystemd.State) :
    Started cfg { p with main := main, systemd := systemd } := by
  have ⟨lc, ready, _⟩ := following
  refine ⟨hcfg.trans started.cfg, ready.control, fun _ => ⟨reports, older, following⟩, fun h => ?_⟩
  exact Bool.noConfusion (hacquired.symm.trans h)

theorem Started.handled {request : Request} (allowed : Allowed p (.request request))
    {main : State} {sent : List Effect} (h : handle p.main request = some (main, sent)) :
    Started cfg { p with main := main } := by
  rcases Bool.eq_false_or_eq_true p.bus_acquired with hacquired | hacquired
  · obtain ⟨reports, older, following⟩ := started.loaded hacquired
    obtain ⟨next, sent', hstep, hnext, hkeeps⟩ := handle_following request following
    rw [hstep] at h
    cases h
    exact started.withMain hacquired hnext hkeeps.cfg p.systemd
  · -- No object is exported, so that only a lifecycle request can come in.
    obtain ⟨hexported, hsubs, hnames⟩ := started.waiting hacquired
    cases request with
    | lcRequest env type =>
      obtain ⟨disk, status, hstep, -⟩ := lcRequestCb_eq env type p.main
      rw [handle, hstep] at h
      cases h
      refine ⟨started.cfg, started.control, fun h => ?_, fun _ => ⟨hexported, hsubs, hnames⟩⟩
      exact Bool.noConfusion (hacquired.symm.trans h)
    | _ => exact Bool.noConfusion (hexported.symm.trans allowed.2)

theorem Started.signalled {glib : GLib} {message : NhmSystemd.Signal} {env : Env}
    {systemd : NhmSystemd.State} {called : List NhmSystemd.Output} {main : State}
    {sent : List Effect} (hdispatch : NhmSystemd.dispatch glib message p.systemd =
      some (systemd, called))
    (hmain : callBack env (called.filterMap NhmSystemd.Output.report?) p.main = some (main, sent)) :
    Started cfg { p with main := main, systemd := systemd } := by
  rcases Bool.eq_false_or_eq_true p.bus_acquired with hacquired | hacquired
  · obtain ⟨reports, older, following⟩ := started.loaded hacquired
    obtain ⟨next, sent', reports', hstep, hnext, hcfg⟩ := callBack_following env _ following
    rw [hstep] at hmain
    cases hmain
    exact started.withMain hacquired hnext hcfg systemd
  · obtain ⟨hexported, hsubs, hnames⟩ := started.waiting hacquired
    rw [NhmSystemd.dispatch, hsubs] at hdispatch
    cases hdispatch
    cases hmain
    exact started

theorem step_sound {glib : GLib} {sees : LcData.LoadedLc → NhmLcInfo} {event : Event}
    {next : Program} {sent : List Effect} (allowed : Allowed p event)
    (h : step glib sees p event = some (next, sent)) : Sound cfg next := by
  intro hrunning
  cases event with
  | busAcquired env =>
    cases h
    obtain ⟨older, following⟩ := busAcquired_following sees env started.control
      (started.waiting allowed.2).2.2
    exact ⟨started.cfg, started.control, fun _ => ⟨[], older, following⟩,
      fun h => Bool.noConfusion h⟩
  | nameAcquired env connect =>
    obtain ⟨reports, older, following⟩ := started.loaded allowed.2
    obtain ⟨main, sent', hmain, hfollowing, hcfg, -⟩ := nameAcquiredCb_following env following
    simp only [step, hmain, Option.bind_eq_bind, Option.bind_some, Option.bind_eq_some_iff] at h
    obtain ⟨⟨_, systemd, _⟩, -, hnext⟩ := h
    cases hnext
    exact started.withMain allowed.2 hfollowing hcfg systemd
  | nameLost connection =>
    cases h
    exact ⟨started.cfg, started.control, started.loaded, started.waiting⟩
  | sigterm =>
    cases h
    exact ⟨started.cfg, started.control, started.loaded, started.waiting⟩
  | request request =>
    simp only [step, Option.bind_eq_bind, Option.bind_eq_some_iff] at h
    obtain ⟨⟨main, sent'⟩, hhandle, hnext⟩ := h
    cases hnext
    exact started.handled allowed hhandle
  | signal message env =>
    simp only [step, Option.bind_eq_bind, Option.bind_eq_some_iff] at h
    obtain ⟨⟨systemd, called⟩, hdispatch, ⟨main, effects⟩, hmain, hnext⟩ := h
    cases hnext
    exact started.signalled hdispatch hmain
  | userlandCheck probes =>
    simp only [step, Option.bind_eq_bind, Option.bind_eq_some_iff] at h
    obtain ⟨⟨main, sent'⟩, hcheck, hnext⟩ := h
    cases hnext
    obtain ⟨checked_dbusses, rfl⟩ := timerUserlandCheckCb_frame hcheck
    refine ⟨started.cfg, started.control, fun hacquired => ?_, started.waiting⟩
    obtain ⟨reports, older, lc, ready, tracks⟩ := started.loaded hacquired
    exact ⟨reports, older, lc, ⟨ready.control, ready.info, ready.nodeinfo⟩, tracks⟩
  | leaveLoop disconnect =>
    simp only [step, Option.bind_eq_bind, Option.bind_eq_some_iff] at h
    obtain ⟨systemd, -, hnext⟩ := h
    cases hnext
    contradiction

end

theorem allowed_running {p : Program} {event : Event} (allowed : Allowed p event) :
    p.running = true := by
  cases event with
  | request request =>
    cases request with
    | lcRequest env type => exact allowed
    | _ => exact allowed.1
  | busAcquired env => exact allowed.1
  | nameAcquired env connect => exact allowed.1
  | leaveLoop disconnect => exact allowed.1
  | _ => exact allowed

theorem advance_sound {glib : GLib} {sees : LcData.LoadedLc → NhmLcInfo} {cfg : Config}
    (p : Program) (event : Event) (next : Program) (sound : Sound cfg p)
    (allowed : Allowed p event) (h : advance glib sees p event = some next) : Sound cfg next := by
  obtain ⟨⟨next', sent⟩, hstep, rfl⟩ := Option.map_eq_some_iff.mp h
  exact step_sound (sound (allowed_running allowed)) allowed hstep

/-- In every run that GDBus allows, whatever uses the run-time data finds it. -/
theorem dataExists_run (glib : GLib) (sees : LcData.LoadedLc → NhmLcInfo) (cfg : Config)
    (disk : Disk) (env : NsmEnv) (events : List Event)
    (allowed : Transition.AllSteps (advance glib sees) Allowed (.start cfg disk env) events) :
    Transition.AllSteps (advance glib sees) (fun p event => UsesData p event → DataExists p.main)
      (.start cfg disk env) events :=
  Transition.allSteps_imp (advance glib sees) (Sound cfg) Allowed _ advance_sound
    (fun _ _ sound allowed uses => (sound (allowed_running allowed)).dataExists allowed uses)
    _ events (sound_start cfg disk env) allowed

def eventsA : List Event :=
  [.busAcquired {}, .nameAcquired {} {},
    .request (.registerAppStatus {} (CString.literal [97]) NhmAppStatus.failed), .sigterm,
    .leaveLoop {}]

theorem allowed_eventsA :
    Transition.AllSteps (advance handingOver fun _ => ⟨NhmNodeState.notset, []⟩) Allowed
      (.start {} ⟨none, none⟩ {}) eventsA :=
  ⟨⟨rfl, rfl⟩, fun _ h => Option.some.inj h ▸ ⟨⟨rfl, rfl⟩, fun _ h => Option.some.inj h ▸
    ⟨⟨rfl, rfl⟩, fun _ h => Option.some.inj h ▸ ⟨rfl, fun _ h => Option.some.inj h ▸
      ⟨⟨rfl, rfl⟩, fun _ _ => trivial⟩⟩⟩⟩⟩

theorem dataExists_run_eventsA :
    Transition.AllSteps (advance handingOver fun _ => ⟨NhmNodeState.notset, []⟩)
      (fun p event => UsesData p event → DataExists p.main)
      (.start {} ⟨none, none⟩ {}) eventsA :=
  dataExists_run handingOver (fun _ => ⟨NhmNodeState.notset, []⟩) {} ⟨none, none⟩ {} eventsA
    allowed_eventsA

end NodeHealthMonitor.MainLoop
