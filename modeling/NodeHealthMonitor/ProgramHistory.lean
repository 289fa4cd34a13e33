import NodeHealthMonitor.ProgramRuns
import NodeHealthMonitor.Shutdowns

/-! What a run of the program records. The status reports of the clients and of the
observation of units are its history, whatever else comes in between. The run-time data, the
data file and the signals that are sent all follow from it. -/

namespace NodeHealthMonitor.MainLoop
open DBus NhmMain NhmSystemd SystemdSession ReportHistory

/-- The reports that an event brings in, in order. -/
def reported (glib : GLib) (systemd : NhmSystemd.State) : Event → List Report
  | .request request => request.report?.toList
  | .signal message _ => match dispatch glib message systemd with
      | some (_, called) => called.filterMap Output.report?
      | none => []
  | _ => []

def observe (glib : GLib) (systemd : NhmSystemd.State) : Event → Option NhmSystemd.State
  | .nameAcquired _ connect =>
      (NhmSystemd.connect glib connect true systemd).map fun result => result.2.1
  | .signal message _ => (dispatch glib message systemd).map Prod.fst
  | .leaveLoop disconnect => disconnectAny disconnect systemd
  | _ => some systemd

def history (glib : GLib) : NhmSystemd.State → List Event → List Report
  | _, [] => []
  | systemd, event :: events => match observe glib systemd event with
      | some next => history glib next events ++ (reported glib systemd event).reverse
      | none => []

inductive Method where
  | registerAppStatus | requestNodeRestart | readStatistics | lifecycleRequest
  deriving DecidableEq

def method : Request → Method
  | .registerAppStatus _ _ _ => .registerAppStatus
  | .requestNodeRestart _ _ => .requestNodeRestart
  | .readStatistics _ => .readStatistics
  | .lcRequest _ _ => .lifecycleRequest

def asked? : Event → Option Method
  | .request request => some (method request)
  | _ => none

def completed? : Effect → Option Method
  | .completeRegisterAppStatus => some .registerAppStatus
  | .completeRequestNodeRestart _ => some .requestNodeRestart
  | .completeReadStatistics _ => some .readStatistics
  | .completeLifecycleRequest _ => some .lifecycleRequest
  | _ => none

def emitted? : Effect → Option Report
  | .emitAppHealthStatus name status => some (name, status)
  | _ => none

def told? : Effect → Option (CString × Bool)
  | .setAppHealthStatus name running => some (name, running)
  | _ => none

def completed (sent : List Effect) : List Method := sent.filterMap completed?

/-- The `AppHealthStatus` signals among what was sent. -/
def emitted (sent : List Effect) : List Report := sent.filterMap emitted?

def told (sent : List Effect) : List (CString × Bool) := sent.filterMap told?

def running (report : Report) : CString × Bool := (report.1, report.2 = NhmAppStatus.ok)

structure Sends (reports : List Report) (asked : Option Method) (sent : List Effect) : Prop where
  emitted : emitted sent = reports
  told : told sent = reports.map running
  completed : completed sent = asked.toList

theorem sends_of_forall {sent : List Effect}
    (h : ∀ e ∈ sent, emitted? e = none ∧ told? e = none ∧ completed? e = none) :
    Sends [] none sent where
  emitted := List.filterMap_eq_nil_iff.mpr fun e he => (h e he).1
  told := List.filterMap_eq_nil_iff.mpr fun e he => (h e he).2.1
  completed := List.filterMap_eq_nil_iff.mpr fun e he => (h e he).2.2

theorem Sends.append {reports reports' : List Report} {asked : Option Method}
    {sent sent' : List Effect} (h : Sends reports none sent) (h' : Sends reports' asked sent') :
    Sends (reports ++ reports') asked (sent ++ sent') where
  emitted := by
    rw [MainLoop.emitted, List.filterMap_append, ← h.emitted, ← h'.emitted]
    rfl
  told := by
    rw [MainLoop.told, List.filterMap_append, List.map_append, ← h.told, ← h'.told]
    rfl
  completed := by
    rw [MainLoop.completed, List.filterMap_append, ← h'.completed]
    exact congrArg (· ++ _) h.completed

theorem Sends.append_nil {reports : List Report} {asked : Option Method} {sent sent' : List Effect}
    (h : Sends reports none sent) (h' : Sends [] asked sent') :
    Sends reports asked (sent ++ sent') := by
  have hboth := h.append h'
  rwa [List.append_nil] at hboth

def acquiresName : Event → Bool
  | .nameAcquired _ _ => true
  | _ => false

def recorded (named : Bool) (reports : List Report) : Bool :=
  named || reports.any fun report => isFailed report.2

/-- The data file can be opened where the event needs it. -/
def opens : Event → Bool
  | .busAcquired env => env.fopen_r
  | .nameAcquired env _ => env.fopen_w
  | .request request => request.opens
  | .signal _ env => env.fopen_w
  | _ => true

structure Marks where
  start : NhmNodeState
  flag : Option NhmNodeState

/-- The start is read from the flag when the bus is acquired; the flag is written when the name
is acquired, and by lifecycle requests. -/
def Marks.after (marks : Marks) : Event → Marks
  | .busAcquired env =>
      let start := if env.pclKeyRead then marks.flag.getD .notset else .notset
      { marks with start := start }
  | .nameAcquired env _ =>
      let flag := if env.pclKeyWrite then some NhmNodeState.started else marks.flag
      { marks with flag := flag }
  | .request (.lcRequest env shutdown_type) =>
      let node_state : NhmNodeState := if shutdown_type = .runup then .started else .shutdown
      { marks with flag := if env.pclKeyWrite then some node_state else marks.flag }
  | _ => marks

section
variable {cfg : Config} {before : Disk} {older : List NhmLcInfo} {ok named : Bool}
  {marks : Marks} {reports : List Report}

/-- The file holds the record of the program in front of the older ones, or what it held. -/
def Filed (cfg : Config) (before : Disk) (older : List NhmLcInfo) (written : Bool)
    (lc : NhmLcInfo) (disk : Disk) : Prop :=
  disk.lcdata = if written then some (LcData.writeData (lc :: older) cfg.max_lc_count)
    else before.lcdata

/-- The data of a program that has acquired the bus, after these reports. As long as every
operation on the data file was `ok`, it has loaded the older records, and all is stored. -/
structure OnRecord (cfg : Config) (before : Disk) (older : List NhmLcInfo) (ok named : Bool)
    (marks : Marks) (reports : List Report) (s : NhmMain.State) : Prop where
  config : s.cfg = cfg
  flag : s.disk.shutdown_flag = marks.flag
  record : ∃ lc loaded, Ready s lc loaded ∧ lc.start_state = marks.start ∧
    Tracks reports lc s.failedNames ∧
    (ok = true → loaded = older ∧ Filed cfg before older (recorded named reports) lc s.disk)

theorem recorded_failure (name : CString) {status : NhmAppStatus} (h : isFailed status = true) :
    recorded named ((name, status) :: reports) = true := by
  simp [recorded, h]

theorem recorded_other (name : CString) {status : NhmAppStatus} (h : isFailed status = false) :
    recorded named ((name, status) :: reports) = recorded named reports := by
  simp [recorded, h]

theorem recorded_repeated {name : CString} {status : NhmAppStatus}
    (h : holds isFailed name reports = true) :
    recorded named ((name, status) :: reports) = recorded named reports := by
  obtain ⟨v, hmem, hv⟩ := (mem_ever isFailed name reports).mp (mem_ever_of_holds _ _ _ h)
  have hany : (reports.any fun report => isFailed report.2) = true :=
    List.any_eq_true.mpr ⟨(name, v), hmem, hv⟩
  simp [recorded, hany]

theorem OnRecord.withDisk {s : NhmMain.State}
    (rec : OnRecord cfg before older ok named marks reports s) {disk : Disk}
    (h : disk.lcdata = s.disk.lcdata) :
    OnRecord cfg before older ok named { marks with flag := disk.shutdown_flag } reports
      { s with disk := disk } := by
  obtain ⟨hcfg, -, lc, loaded, ready, hstart, tracks, hfile⟩ := rec
  exact ⟨hcfg, rfl, lc, loaded, ready.withDisk disk, hstart, tracks,
    fun hok => ⟨(hfile hok).1, h.trans (hfile hok).2⟩⟩

theorem OnRecord.weaken {s : NhmMain.State}
    (rec : OnRecord cfg before older ok named marks reports s) {ok' : Bool}
    (h : ok' = true → ok = true) : OnRecord cfg before older ok' named marks reports s := by
  obtain ⟨hcfg, hflag, lc, loaded, ready, hstart, tracks, hfile⟩ := rec
  exact ⟨hcfg, hflag, lc, loaded, ready, hstart, tracks, fun hok => hfile (h hok)⟩

theorem lcRequestCb_flag (env : Env) (shutdown_type : NsmShutdownType) {s : NhmMain.State}
    (hflag : s.disk.shutdown_flag = marks.flag) :
    ∃ disk status, lcRequestCb env shutdown_type s =
        ({ s with disk := disk }, [.completeLifecycleRequest status]) ∧
      disk.lcdata = s.disk.lcdata ∧
      marks.after (.request (.lcRequest env shutdown_type)) =
        { marks with flag := disk.shutdown_flag } := by
  obtain ⟨disk, status, hstep, hlcdata, hwritten⟩ := lcRequestCb_eq env shutdown_type s
  refine ⟨disk, status, hstep, hlcdata, ?_⟩
  rw [Marks.after]
  cases hwrite : env.pclKeyWrite with
  | true => rw [if_pos rfl, hwritten hwrite]
  | false =>
    have hsame : (lcRequestCb env shutdown_type s).1 = s := by
      simp only [lcRequestCb, writeShutdownFlag, hwrite, Bool.false_eq_true, if_false, ite_self]
    rw [hstep] at hsame
    have hdisk : disk = s.disk := congrArg NhmMain.State.disk hsame
    rw [if_neg Bool.false_ne_true, hdisk, hflag]

theorem readShutdownFlag_start (env : Env) {disk : Disk} (hflag : disk.shutdown_flag = marks.flag) :
    readShutdownFlag env disk = (marks.after (.busAcquired env)).start := by
  rw [readShutdownFlag, hflag, Marks.after]
  cases env.pclKeyRead with
  | false => rfl
  | true => cases marks.flag <;> rfl

theorem nameAcquiredCb_flag {env : Env} {s next : NhmMain.State} {sent : List Effect}
    (hflag : s.disk.shutdown_flag = marks.flag) (connect : ConnectEnv)
    (h : nameAcquiredCb env s = some (next, sent)) :
    next.disk.shutdown_flag = (marks.after (.nameAcquired env connect)).flag := by
  simp only [nameAcquiredCb, Option.bind_eq_bind, Option.bind_eq_some_iff] at h
  obtain ⟨s', hwrite, hnext⟩ := h
  cases hnext
  have hkept : next.disk.shutdown_flag =
      (writeShutdownFlag env NhmNodeState.started s).2.disk.shutdown_flag := by
    unfold NhmMain.writeData at hwrite
    split at hwrite
    · simp only [Option.bind_eq_bind, Option.bind_eq_some_iff] at hwrite
      obtain ⟨nodeinfo, -, hnext⟩ := hwrite
      cases hnext
      rfl
    · cases hwrite
      rfl
  rw [hkept, Marks.after, writeShutdownFlag]
  split
  · rfl
  · exact hflag

theorem restartRequests_sends (s : NhmMain.State) : Sends [] none (restartRequests s) := by
  unfold restartRequests
  split <;> exact ⟨rfl, rfl, rfl⟩

theorem requestRestart_sends {env : Env} {s : NhmMain.State} {status : NhmErrorStatus}
    {sent : List Effect}
    (h : requestRestart env .applicationFailure .normal s = some (status, sent)) :
    Sends [] none sent := by
  unfold requestRestart at h
  split at h
  · cases h
    exact ⟨rfl, rfl, rfl⟩
  · contradiction

theorem nameAcquiredCb_sends {env : Env} {s next : NhmMain.State} {sent : List Effect}
    (h : nameAcquiredCb env s = some (next, sent)) : Sends [] none sent := by
  simp only [nameAcquiredCb, Option.bind_eq_bind, Option.bind_eq_some_iff] at h
  obtain ⟨s', -, hnext⟩ := h
  cases hnext
  -- with or without the two timers
  split <;> split <;> exact ⟨rfl, rfl, rfl⟩

theorem timerUserlandCheckCb_sends {probes : Probes} {s next : NhmMain.State}
    {sent : List Effect} (h : timerUserlandCheckCb probes s = some (next, sent)) :
    Sends [] none sent := by
  obtain ⟨next', sent', hrun, hobserves⟩ := timerUserlandCheckCb_observes probes s
  rw [hrun] at h
  cases h
  refine sends_of_forall fun e he => ?_
  have hobserve := hobserves e he
  cases e with
  | probe item => exact ⟨rfl, rfl, rfl⟩
  | log texts value => exact ⟨rfl, rfl, rfl⟩
  | _ => exact absurd hobserve id

theorem registerAppStatus_onRecord (env : Env) (name : CString) (status : NhmAppStatus)
    {s : NhmMain.State} (rec : OnRecord cfg before older ok named marks reports s) :
    ∃ next sent, registerAppStatus env name status s = some (next, sent) ∧
      OnRecord cfg before older (env.fopen_w && ok) named marks ((name, status) :: reports) next ∧
      Sends [(name, status)] none sent := by
  obtain ⟨hcfg, hflag, lc, loaded, ready, hstart, tracks, hfile⟩ := rec
  obtain ⟨next, restart, hstep, hcase⟩ := registerAppStatus_cases env name status ready
  refine ⟨next, _, hstep, ?_, ?_⟩
  · rcases hcase with ⟨hname, hstatus, rfl, -⟩ | ⟨-, hstatus, rfl, -⟩ | ⟨hsame, rfl, -⟩
    · refine ⟨hcfg, (addFailure_shutdown_flag env name lc loaded s).trans hflag, _, loaded,
        ready.addFailure env name, hstart, ?_, fun hok => ?_⟩
      · rw [failedNames_addFailure]
        exact tracks.failure hname hstatus
      · obtain ⟨hopen, hok⟩ := Bool.and_eq_true_iff.mp hok
        obtain ⟨rfl, -⟩ := hfile hok
        refine ⟨rfl, ?_⟩
        rw [Filed, recorded_failure name hstatus, if_pos rfl, ← hcfg]
        simp only [addFailure, hopen, if_true]
    · refine ⟨hcfg, hflag, lc, loaded, ready.dropFailure name, hstart, ?_, fun hok => ?_⟩
      · rw [failedNames_dropFailure]
        exact tracks.recovery hstatus
      · rw [recorded_other name hstatus]
        exact hfile (Bool.and_eq_true_iff.mp hok).2
    · refine ⟨hcfg, hflag, lc, loaded, ready, hstart, tracks.repeated hsame, fun hok => ?_⟩
      have hrecorded : recorded named ((name, status) :: reports) = recorded named reports := by
        cases hstatus : isFailed status with
        | false => exact recorded_other name hstatus
        | true => exact recorded_repeated ((tracks.mem_current name).mp (hsame.mpr hstatus))
      rw [hrecorded]
      exact hfile (Bool.and_eq_true_iff.mp hok).2
  · have hforwarded : Sends [(name, status)] none (forwarded name status) := ⟨rfl, rfl, rfl⟩
    refine hforwarded.append_nil ?_
    rcases hcase with ⟨-, -, -, rfl⟩ | ⟨-, -, -, rfl⟩ | ⟨-, -, rfl⟩
    · exact restartRequests_sends next
    · exact sends_of_forall fun e he => absurd he List.not_mem_nil
    · exact sends_of_forall fun e he => absurd he List.not_mem_nil

theorem callBack_onRecord (env : Env) (calls : List Report) {s : NhmMain.State}
    (rec : OnRecord cfg before older ok named marks reports s) :
    ∃ next sent, callBack env calls s = some (next, sent) ∧
      OnRecord cfg before older (env.fopen_w && ok) named marks (calls.reverse ++ reports) next ∧
      Sends calls none sent := by
  induction calls generalizing ok reports s with
  | nil => exact ⟨s, [], rfl, rec.weaken fun h => (Bool.and_eq_true_iff.mp h).2, rfl, rfl, rfl⟩
  | cons call calls ih =>
    obtain ⟨name, status⟩ := call
    obtain ⟨mid, sent, hstep, hmid, hsent⟩ := registerAppStatus_onRecord env name status rec
    obtain ⟨next, rest, hrest, hnext, hsends⟩ := ih hmid
    refine ⟨next, sent ++ rest, ?_, ?_, hsent.append hsends⟩
    · simp only [callBack, hstep, hrest, Option.bind_eq_bind, Option.bind_some]
    · rw [← Bool.and_assoc, Bool.and_self] at hnext
      simpa only [List.reverse_cons, List.append_assoc, List.singleton_append] using hnext

theorem handle_onRecord (request : Request) {s : NhmMain.State}
    (rec : OnRecord cfg before older ok named marks reports s) :
    ∃ next sent, handle s request = some (next, sent) ∧
      OnRecord cfg before older (request.opens && ok) named (marks.after (.request request))
        (request.report?.toList ++ reports) next ∧
      Sends request.report?.toList (some (method request)) sent := by
  obtain ⟨lc, loaded, ready, -⟩ := rec.record
  cases request with
  | registerAppStatus env app_name app_status =>
    obtain ⟨next, sent, hstep, hnext, hsent⟩ :=
      registerAppStatus_onRecord env app_name app_status rec
    refine ⟨next, sent ++ [.completeRegisterAppStatus], ?_, hnext, ?_⟩
    · simp only [handle, registerAppStatusCb, hstep, Option.bind_eq_bind, Option.bind_some]
    · exact hsent.append_nil ⟨rfl, rfl, rfl⟩
  | requestNodeRestart env app_name =>
    by_cases hlist : NhmHelper.strInStrv app_name s.cfg.no_restart_apps = false
    · cases hrestart : requestRestart env .applicationFailure .normal s with
      | none => simp [requestRestart, ready.control] at hrestart
      | some result =>
        obtain ⟨status, sent⟩ := result
        refine ⟨s, sent ++ [.completeRequestNodeRestart status], ?_, rec, ?_⟩
        · simp [handle, requestNodeRestartCb, hlist, hrestart]
        · exact (requestRestart_sends hrestart).append_nil ⟨rfl, rfl, rfl⟩
    · exact ⟨s, [.completeRequestNodeRestart .restartNotPossible],
        by simp [handle, requestNodeRestartCb, hlist], rec, rfl, rfl, rfl⟩
  | readStatistics app_name =>
    obtain ⟨reply, hreply⟩ := (dataExists_of_ready ready).readStatistics app_name
    refine ⟨s, [.completeReadStatistics reply], ?_, rec, rfl, rfl, rfl⟩
    simp only [handle, readStatisticsCb, hreply, Option.bind_eq_bind, Option.bind_some]
  | lcRequest env shutdown_type =>
    obtain ⟨disk, status, hstep, hlcdata, hafter⟩ :=
      lcRequestCb_flag env shutdown_type rec.flag
    exact ⟨_, _, congrArg some hstep, hafter ▸ rec.withDisk hlcdata, rfl, rfl, rfl⟩

theorem busAcquired_stored {sees : LcData.LoadedLc → NhmLcInfo}
    (hsees : ∀ lc value, LcData.LoadedLc.value lc = some value → sees lc = value) (env : Env)
    (hopen : env.fopen_r = true) {s : NhmMain.State} {stored : List NhmLcInfo}
    (hstored : Stores s.disk stored) :
    (busAcquired sees env s).1 = { s with
      nodeinfo := some (⟨readShutdownFlag env s.disk, []⟩ :: stored.take s.cfg.max_lc_count.toNat)
      dbus_nhm_info_obj := true } := by
  have hread := hstored s.cfg.max_lc_count [⟨readShutdownFlag env s.disk, []⟩]
  have hstep : ∃ sent, busAcquiredCb env s = some ({ s with
      nodeinfo := some (⟨readShutdownFlag env s.disk, []⟩ :: stored.take s.cfg.max_lc_count.toNat)
      dbus_nhm_info_obj := true }, sent) := by
    simp only [busAcquiredCb, hopen, if_true, hread, Option.bind_eq_bind, Option.bind_some]
    exact ⟨_, rfl⟩
  obtain ⟨sent, hstep⟩ := hstep
  rw [busAcquired_eq hsees hstep]

def failedNow (reports : List Report) : List CString :=
  (ever isFailed reports).filter fun a => holds isFailed a reports

theorem length_current {lc : NhmLcInfo} {current : List CString}
    (tracks : Tracks reports lc current) : current.length = (failedNow reports).length := by
  refine length_eq_of_mem_iff tracks.current_nodup ((ever_nodup _ _).filter _) fun a => ?_
  rw [tracks.mem_current, failedNow, List.mem_filter]
  exact ⟨fun h => ⟨mem_ever_of_holds _ _ _ h, h⟩, And.right⟩

/-- What a run keeps of the reports so far, and of the data file it has found. -/
structure Recording (cfg : Config) (before : Disk) (older : List NhmLcInfo) (ok named : Bool)
    (marks : Marks) (reports : List Report) (p : Program) : Prop where
  going : Going cfg p
  waiting : p.bus_acquired = false → named = false ∧ reports = []
  onRecord : p.running = true → p.bus_acquired = true →
    OnRecord cfg before older ok named marks reports p.main
  flag : p.main.disk.shutdown_flag = marks.flag
  filed : ∃ lc current, Tracks reports lc current ∧ lc.start_state = marks.start ∧
    (ok = true → Filed cfg before older (recorded named reports) lc p.main.disk)

theorem recording_start (cfg : Config) (before : Disk) (env : NsmEnv) (older : List NhmLcInfo)
    (ok : Bool) : Recording cfg before older ok false ⟨NhmNodeState.notset, before.shutdown_flag⟩ []
      (.start cfg before env) where
  going := going_start cfg before env
  waiting _ := ⟨rfl, rfl⟩
  onRecord _ h := Bool.noConfusion h
  flag := rfl
  filed := ⟨⟨NhmNodeState.notset, []⟩, [], Tracks.nil _, rfl, fun _ => rfl⟩

theorem OnRecord.recording {next : Program}
    (rec : OnRecord cfg before older ok named marks reports next.main) (going : Going cfg next)
    (hacquired : next.bus_acquired = true) :
    Recording cfg before older ok named marks reports next := by
  obtain ⟨lc, loaded, -, hstart, tracks, hfile⟩ := rec.record
  exact ⟨going, fun h => Bool.noConfusion (hacquired.symm.trans h), fun _ _ => rec, rec.flag, lc, _,
    tracks, hstart, fun hok => (hfile hok).2⟩

section
variable {glib : GLib} {sees : LcData.LoadedLc → NhmLcInfo} {p next : Program} {sent : List Effect}
  (rec : Recording cfg before older ok named marks reports p) (going : Going cfg next)
include rec going

theorem Recording.request {request : Request} (allowed : Allowed p (.request request))
    (h : step glib sees p (.request request) = some (next, sent)) :
    next.systemd = p.systemd ∧
      Recording cfg before older (request.opens && ok) named (marks.after (.request request))
        (request.report?.toList ++ reports) next ∧
      Sends request.report?.toList (some (method request)) sent := by
  have hrunning := allowed_running allowed
  simp only [step, Option.bind_eq_bind, Option.bind_eq_some_iff] at h
  obtain ⟨⟨main, sent'⟩, hhandle, hnext⟩ := h
  cases hnext
  refine ⟨rfl, ?_⟩
  rcases Bool.eq_false_or_eq_true p.bus_acquired with hacquired | hacquired
  · obtain ⟨main', sent'', hstep, hmain, hsent⟩ :=
      handle_onRecord request (rec.onRecord hrunning hacquired)
    rw [hstep] at hhandle
    cases hhandle
    exact ⟨hmain.recording going hacquired, hsent⟩
  · -- No object is exported, so that only a lifecycle request can come in.
    obtain ⟨hexported, -⟩ := (rec.going.started hrunning).waiting hacquired
    cases request with
    | lcRequest env type =>
      obtain ⟨disk, status, hstep, hlcdata, hafter⟩ := lcRequestCb_flag env type rec.flag
      rw [handle, hstep] at hhandle
      cases hhandle
      obtain ⟨lc, current, tracks, hstart, hfile⟩ := rec.filed
      rw [hafter]
      refine ⟨⟨going, rec.waiting, fun _ h => ?_, rfl, lc, current, tracks, hstart,
        fun hok => hlcdata.trans (hfile hok)⟩, rfl, rfl, rfl⟩
      exact Bool.noConfusion (hacquired.symm.trans h)
    | _ => exact Bool.noConfusion (hexported.symm.trans allowed.2)

theorem Recording.signal (delivers : glib.Delivers) {message : Signal} {env : Env}
    (hrunning : p.running = true)
    (h : step glib sees p (.signal message env) = some (next, sent)) :
    observe glib p.systemd (.signal message env) = some next.systemd ∧
      Recording cfg before older (env.fopen_w && ok) named marks
        ((reported glib p.systemd (.signal message env)).reverse ++ reports) next ∧
      Sends (reported glib p.systemd (.signal message env)) none sent := by
  simp only [step, Option.bind_eq_bind, Option.bind_eq_some_iff] at h
  obtain ⟨⟨systemd, called⟩, hdispatch, ⟨main, sent'⟩, hmain, hnext⟩ := h
  cases hnext
  simp only [observe, reported, hdispatch, Option.map_some]
  refine ⟨trivial, ?_⟩
  rcases Bool.eq_false_or_eq_true p.bus_acquired with hacquired | hacquired
  · obtain ⟨main', sent'', hstep, hmain', hsent⟩ :=
      callBack_onRecord env (called.filterMap Output.report?) (rec.onRecord hrunning hacquired)
    rw [hstep] at hmain
    cases hmain
    exact ⟨hmain'.recording going hacquired, hsent⟩
  · obtain ⟨next', called', hdispatch', -, hquiet⟩ :=
      dispatch_kept delivers rec.going.systemd message
    rw [hdispatch] at hdispatch'
    cases hdispatch'
    have hnone := hquiet ((rec.going.started hrunning).waiting hacquired).2.1
    subst hnone
    cases hmain
    obtain ⟨lc, current, tracks, hstart, hfile⟩ := rec.filed
    refine ⟨⟨going, rec.waiting, fun _ h => ?_, rec.flag, lc, current, tracks, hstart,
      fun hok => hfile (Bool.and_eq_true_iff.mp hok).2⟩, rfl, rfl, rfl⟩
    exact Bool.noConfusion (hacquired.symm.trans h)

theorem Recording.busAcquired
    (hloads : ok = true → ∃ stored, Stores before stored ∧
      older = stored.take cfg.max_lc_count.toNat ∧
      ∀ lc value, LcData.LoadedLc.value lc = some value → sees lc = value)
    {env : Env} (allowed : Allowed p (.busAcquired env))
    (h : step glib sees p (.busAcquired env) = some (next, sent)) :
    next.systemd = p.systemd ∧
      Recording cfg before older (env.fopen_r && ok) named (marks.after (.busAcquired env)) reports
        next ∧
      Sends [] none sent := by
  have started := rec.going.started allowed.1
  obtain ⟨rfl, rfl⟩ := rec.waiting allowed.2
  obtain ⟨lc, current, -, -, hfile⟩ := rec.filed
  have hnames : p.main.failedNames = [] := (started.waiting allowed.2).2.2
  cases h
  refine ⟨rfl, OnRecord.recording ?_ going rfl, ?_⟩
  · change OnRecord cfg before older _ false _ [] (MainLoop.busAcquired sees env p.main).1
    refine ⟨started.cfg, rec.flag, ⟨readShutdownFlag env p.main.disk, []⟩, _,
      ⟨started.control, rfl, rfl⟩, readShutdownFlag_start env rec.flag, ?_, fun hok => ?_⟩
    · change Tracks [] _ p.main.failedNames
      rw [hnames]
      exact Tracks.nil _
    · obtain ⟨hopen, hok⟩ := Bool.and_eq_true_iff.mp hok
      obtain ⟨stored, hstored, rfl, hsees⟩ := hloads hok
      have hlcdata : p.main.disk.lcdata = before.lcdata := hfile hok
      have hfound : Stores p.main.disk stored := by
        intro r mem
        rw [hlcdata]
        exact hstored r mem
      refine ⟨?_, hlcdata⟩
      have hnodeinfo := congrArg NhmMain.State.nodeinfo
        (busAcquired_stored hsees env hopen hfound)
      rw [started.cfg] at hnodeinfo
      exact (List.cons.inj (Option.some.inj hnodeinfo)).2
  · split <;> exact ⟨rfl, rfl, rfl⟩

theorem Recording.nameAcquired {env : Env} {connect : ConnectEnv}
    (allowed : Allowed p (.nameAcquired env connect))
    (h : step glib sees p (.nameAcquired env connect) = some (next, sent)) :
    observe glib p.systemd (.nameAcquired env connect) = some next.systemd ∧
      Recording cfg before older (env.fopen_w && ok) true (marks.after (.nameAcquired env connect))
        reports next ∧
      Sends [] none sent := by
  obtain ⟨hcfg, hflag, lc, loaded, ready, hstart, tracks, hfile⟩ :=
    rec.onRecord allowed.1 allowed.2
  obtain ⟨disk, sent', hstep, -, hsaved, -⟩ := nameAcquiredCb_eq env p.main _ ready.nodeinfo
  simp only [step, hstep, Option.bind_eq_bind, Option.bind_some, Option.bind_eq_some_iff] at h
  obtain ⟨⟨retval, systemd, listed⟩, hconnect, hnext⟩ := h
  cases hnext
  refine ⟨by simp only [observe, hconnect, Option.map_some],
    OnRecord.recording ?_ going allowed.2, nameAcquiredCb_sends hstep⟩
  refine ⟨hcfg, nameAcquiredCb_flag hflag connect hstep, lc, loaded, ready.withDisk disk, hstart,
    tracks, fun hok => ?_⟩
  obtain ⟨hopen, hok⟩ := Bool.and_eq_true_iff.mp hok
  obtain ⟨nodeinfo, hnodeinfo, hlcdata⟩ := hsaved hopen
  obtain ⟨rfl, -⟩ := hfile hok
  have hsame : nodeinfo = lc :: loaded := Option.some.inj (hnodeinfo.symm.trans ready.nodeinfo)
  refine ⟨rfl, ?_⟩
  rw [Filed, recorded, Bool.true_or, if_pos rfl, ← hsame, ← hcfg]
  exact hlcdata

theorem Recording.unrecorded (hacquired : next.bus_acquired = p.bus_acquired)
    (hdisk : next.main.disk = p.main.disk)
    (honRecord : next.running = true → next.bus_acquired = true →
      OnRecord cfg before older ok named marks reports next.main) :
    Recording cfg before older ok named marks reports next where
  going := going
  waiting h := rec.waiting (hacquired.symm.trans h)
  onRecord := honRecord
  flag := hdisk ▸ rec.flag
  filed := hdisk ▸ rec.filed

end

section
variable {glib : GLib} (sees : LcData.LoadedLc → NhmLcInfo)

theorem Recording.step {p : Program} (rec : Recording cfg before older ok named marks reports p)
    (delivers : glib.Delivers)
    (hloads : ok = true → ∃ stored, Stores before stored ∧
      older = stored.take cfg.max_lc_count.toNat ∧
      ∀ lc value, LcData.LoadedLc.value lc = some value → sees lc = value)
    {event : Event} (allowed : Allowed p event) (called : Called p event) :
    ∃ next sent, MainLoop.step glib sees p event = some (next, sent) ∧
      observe glib p.systemd event = some next.systemd ∧
      Recording cfg before older (opens event && ok) (acquiresName event || named)
        (marks.after event) ((reported glib p.systemd event).reverse ++ reports) next ∧
      Sends (reported glib p.systemd event) (asked? event) sent := by
  have hrunning := allowed_running allowed
  obtain ⟨next, sent, hstep, going⟩ := rec.going.step sees delivers allowed called
  refine ⟨next, sent, hstep, ?_⟩
  cases event with
  | busAcquired env =>
    obtain ⟨hsystemd, hrec, hsent⟩ := rec.busAcquired going hloads allowed hstep
    exact ⟨congrArg some hsystemd.symm, hrec, hsent⟩
  | nameAcquired env connect => exact rec.nameAcquired going allowed hstep
  | request request =>
    obtain ⟨hsystemd, hrec, hsent⟩ := rec.request going allowed hstep
    refine ⟨congrArg some hsystemd.symm, ?_, hsent⟩
    have hreverse : (reported glib p.systemd (.request request)).reverse =
        request.report?.toList := by
      cases request <;> rfl
    rw [hreverse]
    exact hrec
  | signal message env => exact rec.signal going delivers hrunning hstep
  | userlandCheck probes =>
    simp only [MainLoop.step, Option.bind_eq_bind, Option.bind_eq_some_iff] at hstep
    obtain ⟨⟨main, sent'⟩, hcheck, hnext⟩ := hstep
    cases hnext
    obtain ⟨checked_dbusses, rfl⟩ := timerUserlandCheckCb_frame hcheck
    refine ⟨rfl, rec.unrecorded going rfl rfl fun hrun hacquired => ?_,
      timerUserlandCheckCb_sends hcheck⟩
    obtain ⟨hcfg, hflag, lc, loaded, ready, hrest⟩ := rec.onRecord hrun hacquired
    exact ⟨hcfg, hflag, lc, loaded, ⟨ready.control, ready.info, ready.nodeinfo⟩, hrest⟩
  | nameLost connection =>
    cases hstep
    exact ⟨rfl, rec.unrecorded going rfl rfl rec.onRecord, rfl, rfl, rfl⟩
  | sigterm =>
    cases hstep
    exact ⟨rfl, rec.unrecorded going rfl rfl rec.onRecord, rfl, rfl, rfl⟩
  | leaveLoop disconnect =>
    simp only [MainLoop.step, Option.bind_eq_bind, Option.bind_eq_some_iff] at hstep
    obtain ⟨systemd, hdisconnect, hnext⟩ := hstep
    cases hnext
    exact ⟨hdisconnect, rec.unrecorded going rfl rfl fun h => Bool.noConfusion h, rfl, rfl, rfl⟩

theorem Recording.run (delivers : glib.Delivers)
    (hloads : ok = true → ∃ stored, Stores before stored ∧
      older = stored.take cfg.max_lc_count.toNat ∧
      ∀ lc value, LcData.LoadedLc.value lc = some value → sees lc = value)
    (events : List Event) {p : Program} (rec : Recording cfg before older ok named marks reports p)
    (possible : Transition.AllSteps (advance glib sees)
      (fun p event => Allowed p event ∧ Called p event) p events) :
    ∃ q, Transition.run (advance glib sees) p events = some q ∧
      Recording cfg before older (events.all opens && ok) (events.any acquiresName || named)
        (events.foldl Marks.after marks) (history glib p.systemd events ++ reports) q ∧
      emitted (Transition.outputs (MainLoop.step glib sees) p events) =
        (history glib p.systemd events).reverse ∧
      told (Transition.outputs (MainLoop.step glib sees) p events) =
        (history glib p.systemd events).reverse.map running ∧
      completed (Transition.outputs (MainLoop.step glib sees) p events) =
        events.filterMap asked? := by
  induction events generalizing p ok named marks reports with
  | nil => exact ⟨p, rfl, rec, rfl, rfl, rfl⟩
  | cons event events ih =>
    obtain ⟨⟨allowed, called⟩, hrest⟩ := possible
    obtain ⟨next, sent, hstep, hobserve, hnext, hsends⟩ :=
      rec.step sees delivers hloads allowed called
    have hadvance : advance glib sees p event = some next := by
      rw [advance, hstep, Option.map_some]
    obtain ⟨q, hrun, hrec, hemitted, htold, hcompleted⟩ :=
      ih (fun hok => hloads (Bool.and_eq_true_iff.mp hok).2) hnext (hrest next hadvance)
    have hhistory : history glib p.systemd (event :: events) =
        history glib next.systemd events ++ (reported glib p.systemd event).reverse := by
      simp only [history, hobserve]
    have houtputs : Transition.outputs (MainLoop.step glib sees) p (event :: events) =
        sent ++ Transition.outputs (MainLoop.step glib sees) next events := by
      simp only [Transition.outputs, hstep]
    refine ⟨q, ?_, ?_, ?_, ?_, ?_⟩
    · rw [Transition.run, hadvance]
      exact hrun
    · rw [List.any_cons, List.all_cons, Bool.or_assoc, Bool.or_left_comm, Bool.and_assoc,
        Bool.and_left_comm, hhistory, List.append_assoc]
      exact hrec
    · rw [houtputs, hhistory, emitted, List.filterMap_append, List.reverse_append,
        List.reverse_reverse]
      exact congrArg₂ _ hsends.emitted hemitted
    · rw [houtputs, hhistory, told, List.filterMap_append, List.reverse_append,
        List.reverse_reverse, List.map_append]
      exact congrArg₂ _ hsends.told htold
    · have hasked : (event :: events).filterMap asked? =
          (asked? event).toList ++ events.filterMap asked? := by
        cases h : asked? event <;> simp [h]
      rw [houtputs, hasked, completed, List.filterMap_append]
      exact congrArg₂ _ hsends.completed hcompleted

structure Announced (seen : List Report) (s : NhmMain.State) : Prop where
  failed : ∀ a, a ∈ s.failedNames ↔ holds isFailed a seen = true
  failures : ∃ lc loaded, s.nodeinfo = some (lc :: loaded) ∧
    ∀ a, appFailcount a lc = UInt32.ofNat (turns isFailed a seen)

/-- In every run, the signals that were sent tell all that the program has recorded in its
life cycle, and the NSM was told of the same reports. -/
theorem announced_run (delivers : glib.Delivers) (cfg : Config) (disk : Disk) (env : NsmEnv)
    (events : List Event)
    (possible : Transition.AllSteps (advance glib sees)
      (fun p event => Allowed p event ∧ Called p event) (.start cfg disk env) events) :
    ∃ q seen, Transition.run (advance glib sees) (.start cfg disk env) events = some q ∧
      seen = emitted (Transition.outputs (MainLoop.step glib sees) (.start cfg disk env) events) ∧
      seen = (history glib {} events).reverse ∧
      told (Transition.outputs (MainLoop.step glib sees) (.start cfg disk env) events) =
        seen.map running ∧
      (q.running = true → q.bus_acquired = true → Announced seen.reverse q.main) := by
  obtain ⟨q, hrun, hrec, hemitted, htold, -⟩ :=
    (recording_start cfg disk env [] false).run sees delivers (fun h => Bool.noConfusion h) events
      possible
  refine ⟨q, (history glib {} events).reverse, hrun, hemitted.symm, rfl, htold,
    fun hrunning hacquired => ?_⟩
  obtain ⟨lc, loaded, ready, -, tracks, -⟩ := (hrec.onRecord hrunning hacquired).record
  rw [List.append_nil] at tracks
  rw [List.reverse_reverse]
  exact ⟨tracks.mem_current, lc, loaded, ready.nodeinfo, tracks.failcount⟩

theorem announced_run_eventsA :
    let sees : LcData.LoadedLc → NhmLcInfo := fun _ => ⟨NhmNodeState.notset, []⟩
    let sent := Transition.outputs (MainLoop.step handingOver sees) (.start {} ⟨none, none⟩ {})
      eventsA
    ∃ q seen, Transition.run (advance handingOver sees) (.start {} ⟨none, none⟩ {}) eventsA =
        some q ∧
      seen = emitted sent ∧ seen = (history handingOver {} eventsA).reverse ∧
      told sent = seen.map running ∧
      (q.running = true → q.bus_acquired = true → Announced seen.reverse q.main) :=
  announced_run (fun _ => ⟨NhmNodeState.notset, []⟩) handingOver_delivers {} ⟨none, none⟩ {}
    eventsA (possible_eventsA _)

theorem answered_run (delivers : glib.Delivers) (cfg : Config) (disk : Disk) (env : NsmEnv)
    (events : List Event)
    (possible : Transition.AllSteps (advance glib sees)
      (fun p event => Allowed p event ∧ Called p event) (.start cfg disk env) events) :
    completed (Transition.outputs (MainLoop.step glib sees) (.start cfg disk env) events) =
      events.filterMap asked? := by
  obtain ⟨q, -, -, -, -, hcompleted⟩ := (recording_start cfg disk env [] false).run sees delivers
    (fun h => Bool.noConfusion h) events possible
  exact hcompleted

theorem answered_run_eventsA :
    completed (Transition.outputs (MainLoop.step handingOver fun _ => ⟨NhmNodeState.notset, []⟩)
      (.start {} ⟨none, none⟩ {}) eventsA) = [.registerAppStatus] :=
  answered_run _ handingOver_delivers {} ⟨none, none⟩ {} eventsA (possible_eventsA _)

end

end

end NodeHealthMonitor.MainLoop
