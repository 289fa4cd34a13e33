import NodeHealthMonitor.RunTimeData
import NodeHealthMonitor.SignalHandlers

/-! Why a restart is requested. Over all events of the main loop there are two causes: an
application that is not blocked asks for it, or a report lets an application fail while a
limit is set; the asking application is told what became of its request. -/

namespace NodeHealthMonitor.MainLoop
open DBus NhmMain

def isRestart : Effect → Bool
  | .requestNodeRestart _ _ => true
  | _ => false

def restarts (sent : List Effect) : ℕ := sent.countP isRestart

def reply? : Effect → Option NhmErrorStatus
  | .completeRequestNodeRestart status => some status
  | _ => none

def replies (sent : List Effect) : List NhmErrorStatus := sent.filterMap reply?

def Blocked (cfg : Config) (app_name : CString) : Prop :=
  ∃ apps, cfg.no_restart_apps = some apps ∧ app_name ∈ apps

def Reports (glib : GLib) (p : Program) (event : Event) (name : CString)
    (status : NhmAppStatus) : Prop :=
  match event with
  | .request (.registerAppStatus _ app_name app_status) => app_name = name ∧ app_status = status
  | .signal message _ => ∃ systemd sent,
      NhmSystemd.dispatch glib message p.systemd = some (systemd, sent) ∧
        .appStatus name status ∈ sent
  | _ => False

/-- What an event may send of restart requests and of answers to those of applications. -/
structure Caused (glib : GLib) (cfg : Config) (p : Program) (event : Event)
    (sent : List Effect) : Prop where
  once : restarts sent ≤ 1
  cause : 0 < restarts sent →
    (∃ env app_name, event = .request (.requestNodeRestart env app_name) ∧
      ¬Blocked cfg app_name) ∨
    (0 < cfg.max_failed_apps ∧ ∃ name status, Reports glib p event name status ∧
      isFailed status = true ∧ name ∉ p.main.failedNames)
  answered : ∀ env app_name, event = .request (.requestNodeRestart env app_name) →
    ∃ status, replies sent = [status] ∧
      (status = .ok ↔ 0 < restarts sent ∧ env.request_node_restart = some .ok) ∧
      (status = .error ↔ 0 < restarts sent ∧ env.request_node_restart = none) ∧
      (status ≠ .ok → status ≠ .error → status = .restartNotPossible)
  unasked : (∀ env app_name, event ≠ .request (.requestNodeRestart env app_name)) →
    replies sent = []

def Quiet (sent : List Effect) : Prop := restarts sent = 0 ∧ replies sent = []

theorem quiet_of_forall {sent : List Effect}
    (h : ∀ e ∈ sent, isRestart e = false ∧ reply? e = none) : Quiet sent := by
  constructor
  · exact List.countP_eq_zero.mpr fun e he => by simp [(h e he).1]
  · exact List.filterMap_eq_nil_iff.mpr fun e he => (h e he).2

section
variable {glib : GLib} {cfg : Config} {p : Program} {event : Event} {sent : List Effect}

theorem caused_of_quiet (quiet : Quiet sent)
    (hother : ∀ env app_name, event ≠ .request (.requestNodeRestart env app_name)) :
    Caused glib cfg p event sent where
  once := by simp [quiet.1]
  cause h := by simp [quiet.1] at h
  answered env app_name h := absurd h (hother env app_name)
  unasked _ := quiet.2

theorem nameAcquiredCb_quiet {env : Env} {s next : State}
    (h : nameAcquiredCb env s = some (next, sent)) : Quiet sent := by
  simp only [nameAcquiredCb, Option.bind_eq_bind, Option.bind_eq_some_iff] at h
  obtain ⟨s', -, hnext⟩ := h
  cases hnext
  -- with or without the two timers
  split <;> split <;> exact ⟨rfl, rfl⟩

theorem timerUserlandCheckCb_quiet {probes : Probes} {s next : State}
    (h : timerUserlandCheckCb probes s = some (next, sent)) : Quiet sent := by
  obtain ⟨next', sent', hrun, hobserves⟩ := timerUserlandCheckCb_observes probes s
  rw [hrun] at h
  cases h
  refine quiet_of_forall fun e he => ?_
  have hobserve := hobserves e he
  cases e with
  | probe item => exact ⟨rfl, rfl⟩
  | log texts value => exact ⟨rfl, rfl⟩
  | _ => exact absurd hobserve id

theorem registerAppStatus_restarts (env : Env) (name : CString) (status : NhmAppStatus)
    {s next : State} {lc : NhmLcInfo} {older : List NhmLcInfo} (ready : Ready s lc older)
    (h : registerAppStatus env name status s = some (next, sent)) :
    replies sent = [] ∧ restarts sent ≤ 1 ∧ (0 < restarts sent →
      0 < s.cfg.max_failed_apps ∧ isFailed status = true ∧ name ∉ s.failedNames) := by
  obtain ⟨next', restart, hstep, hcase⟩ := registerAppStatus_cases env name status ready
  rw [hstep] at h
  cases h
  have hquiet : ∀ rest, restarts ([.setAppHealthStatus name (status = NhmAppStatus.ok),
      .emitAppHealthStatus name status] ++ rest) = restarts rest ∧
      replies ([.setAppHealthStatus name (status = NhmAppStatus.ok),
        .emitAppHealthStatus name status] ++ rest) = replies rest := fun rest => ⟨rfl, rfl⟩
  rw [(hquiet restart).1, (hquiet restart).2]
  rcases hcase with ⟨hname, hstatus, rfl, rfl⟩ | ⟨-, -, -, rfl⟩ | ⟨-, -, rfl⟩
  · unfold restartRequests
    split
    · rename_i hlimit
      exact ⟨rfl, Nat.le_refl _, fun _ => ⟨UInt32.pos_iff_ne_zero.mpr hlimit.1, hstatus, hname⟩⟩
    · exact ⟨rfl, Nat.zero_le _, fun h => absurd h (Nat.lt_irrefl _)⟩
  · exact ⟨rfl, Nat.zero_le _, fun h => absurd h (Nat.lt_irrefl _)⟩
  · exact ⟨rfl, Nat.zero_le _, fun h => absurd h (Nat.lt_irrefl _)⟩

theorem requestNodeRestartCb_caused (glib : GLib) (p : Program) {s : State}
    (hcontrol : s.dbus_lc_control_obj = true) (env : Env) (app_name : CString) : ∃ sent,
    requestNodeRestartCb env app_name s = some (s, sent) ∧
      Caused glib s.cfg p (.request (.requestNodeRestart env app_name)) sent := by
  have hblocked : NhmHelper.strInStrv app_name s.cfg.no_restart_apps = false ↔
      ¬Blocked s.cfg app_name := by
    rw [← Bool.not_eq_true]
    refine not_congr ?_
    cases happs : s.cfg.no_restart_apps with
    | none => simp [Blocked, happs, NhmHelper.strInStrv]
    | some apps => simp [Blocked, happs, NhmHelper.strInStrv, NhmHelper.search_iff]
  by_cases hlist : NhmHelper.strInStrv app_name s.cfg.no_restart_apps = false
  · refine ⟨_, by simp [requestNodeRestartCb, hlist, requestRestart, hcontrol]; rfl, ?_⟩
    refine ⟨Nat.le_refl _, fun _ => Or.inl ⟨env, app_name, rfl, hblocked.mp hlist⟩, ?_,
      fun h => absurd rfl (h env app_name)⟩
    rintro env' app_name' h
    cases h
    refine ⟨_, rfl, ?_⟩
    cases hreply : env.request_node_restart with
    | none => simp [restarts, isRestart]
    | some code => cases code <;> simp [restarts, isRestart]
  · refine ⟨[.completeRequestNodeRestart .restartNotPossible], ?_, ?_⟩
    · simp [requestNodeRestartCb, hlist]
    · refine ⟨Nat.zero_le _, fun h => absurd h (Nat.lt_irrefl _), ?_,
        fun h => absurd rfl (h env app_name)⟩
      rintro env' app_name' h
      exact ⟨_, rfl, by simp [restarts, isRestart]⟩

theorem restarts_append (sent rest : List Effect) :
    restarts (sent ++ rest) = restarts sent + restarts rest := List.countP_append

theorem replies_append (sent rest : List Effect) :
    replies (sent ++ rest) = replies sent ++ replies rest := List.filterMap_append

end

section
variable {glib : GLib} {cfg : Config} {p : Program} (started : Started cfg p)
include started

theorem request_caused (glib : GLib) {request : Request}
    (allowed : Allowed p (.request request)) :
    ∃ main sent, handle p.main request = some (main, sent) ∧
      Caused glib cfg p (.request request) sent := by
  cases request with
  | lcRequest env type =>
    obtain ⟨disk, status, hstep, -⟩ := lcRequestCb_eq env type p.main
    exact ⟨_, _, congrArg some hstep, caused_of_quiet ⟨rfl, rfl⟩ (by simp)⟩
  | requestNodeRestart env app_name =>
    obtain ⟨sent, hstep, hcaused⟩ :=
      requestNodeRestartCb_caused glib p started.control env app_name
    rw [started.cfg] at hcaused
    exact ⟨p.main, sent, hstep, hcaused⟩
  | readStatistics app_name =>
    have data : DataExists p.main := started.dataExists allowed trivial
    obtain ⟨reply, hreply⟩ := data.readStatistics app_name
    refine ⟨p.main, [.completeReadStatistics reply], ?_, caused_of_quiet ⟨rfl, rfl⟩ (by simp)⟩
    simp only [handle, readStatisticsCb, hreply, Option.bind_eq_bind, Option.bind_some]
  | registerAppStatus env name status =>
    have data : DataExists p.main := started.dataExists allowed trivial
    obtain ⟨lc, older, ready⟩ := data.current
    obtain ⟨next, sent, hstep⟩ := data.registerAppStatus env name status
    obtain ⟨hreplies, honce, hcause⟩ := registerAppStatus_restarts env name status ready hstep
    refine ⟨next, sent ++ [.completeRegisterAppStatus], ?_, ?_⟩
    · simp only [handle, registerAppStatusCb, hstep, Option.bind_eq_bind, Option.bind_some]
    · have hrestarts : restarts (sent ++ [.completeRegisterAppStatus]) = restarts sent :=
        restarts_append sent _
      refine ⟨hrestarts ▸ honce, fun h => Or.inr ?_, fun env app_name h => by simp at h,
        fun _ => ?_⟩
      · obtain ⟨hmax, hfailed, hname⟩ := hcause (hrestarts ▸ h)
        exact ⟨started.cfg ▸ hmax, name, status, ⟨rfl, rfl⟩, hfailed, hname⟩
      · rw [replies_append, hreplies]
        rfl

theorem signal_caused {message : NhmSystemd.Signal} {env : Env} {systemd : NhmSystemd.State}
    {called : List NhmSystemd.Output} {main : State} {sent : List Effect}
    (hdispatch : NhmSystemd.dispatch glib message p.systemd = some (systemd, called))
    (hmain : callBack env (called.filterMap NhmSystemd.Output.report?) p.main = some (main, sent)) :
    Caused glib cfg p (.signal message env) sent := by
  rcases (SystemdSession.dispatch_handled hdispatch).2 with hnone | ⟨name, status, hone, hmem⟩
  · rw [hnone] at hmain
    cases hmain
    exact caused_of_quiet ⟨rfl, rfl⟩ (by simp)
  · rw [hone] at hmain
    simp only [callBack, Option.bind_eq_bind, Option.bind_eq_some_iff] at hmain
    obtain ⟨⟨next, sent'⟩, hstep, ⟨_, rest⟩, hrest, hsent⟩ := hmain
    cases hrest
    cases hsent
    rw [List.append_nil]
    have hacquired : p.bus_acquired = true := by
      by_contra hwaiting
      obtain ⟨-, hsubs, -⟩ := started.waiting (eq_false_of_ne_true hwaiting)
      rw [NhmSystemd.dispatch, hsubs] at hdispatch
      cases hdispatch
      exact List.not_mem_nil hmem
    obtain ⟨reports, older, lc, ready, -⟩ := started.loaded hacquired
    obtain ⟨hreplies, honce, hcause⟩ := registerAppStatus_restarts env name status ready hstep
    refine ⟨honce, fun h => Or.inr ?_, fun env app_name h => by simp at h, fun _ => hreplies⟩
    obtain ⟨hmax, hfailed, hname⟩ := hcause h
    exact ⟨started.cfg ▸ hmax, name, status, ⟨systemd, called, hdispatch, hmem⟩, hfailed, hname⟩

theorem step_caused {sees : LcData.LoadedLc → NhmLcInfo} {event : Event} {next : Program}
    {sent : List Effect} (allowed : Allowed p event)
    (h : step glib sees p event = some (next, sent)) : Caused glib cfg p event sent := by
  cases event with
  | request request =>
    obtain ⟨main, sent', hhandle, hcaused⟩ := request_caused started glib allowed
    simp only [step, hhandle, Option.bind_eq_bind, Option.bind_some] at h
    cases h
    exact hcaused
  | signal message env =>
    simp only [step, Option.bind_eq_bind, Option.bind_eq_some_iff] at h
    obtain ⟨⟨systemd, called⟩, hdispatch, ⟨main, effects⟩, hmain, hnext⟩ := h
    cases hnext
    exact signal_caused started hdispatch hmain
  | busAcquired env =>
    cases h
    refine caused_of_quiet ?_ (by simp)
    cases env.skeleton_export <;> exact ⟨rfl, rfl⟩
  | nameAcquired env connect =>
    simp only [step, Option.bind_eq_bind, Option.bind_eq_some_iff] at h
    obtain ⟨⟨main, sent'⟩, hmain, systemd, -, hnext⟩ := h
    cases hnext
    exact caused_of_quiet (nameAcquiredCb_quiet hmain) (by simp)
  | userlandCheck probes =>
    simp only [step, Option.bind_eq_bind, Option.bind_eq_some_iff] at h
    obtain ⟨⟨main, sent'⟩, hcheck, hnext⟩ := h
    cases hnext
    exact caused_of_quiet (timerUserlandCheckCb_quiet hcheck) (by simp)
  | nameLost connection =>
    cases h
    exact caused_of_quiet ⟨rfl, rfl⟩ (by simp)
  | sigterm =>
    cases h
    exact caused_of_quiet ⟨rfl, rfl⟩ (by simp)
  | leaveLoop disconnect =>
    simp only [step, Option.bind_eq_bind, Option.bind_eq_some_iff] at h
    obtain ⟨systemd, -, hnext⟩ := h
    cases hnext
    exact caused_of_quiet ⟨rfl, rfl⟩ (by simp)

end

def RestartsCaused (glib : GLib) (sees : LcData.LoadedLc → NhmLcInfo) (cfg : Config)
    (p : Program) (event : Event) : Prop :=
  (∀ next sent, step glib sees p event = some (next, sent) → Caused glib cfg p event sent) ∧
    ∀ request, event = .request request → ∃ next sent, step glib sees p event = some (next, sent)

theorem restartsCaused_of_sound {glib : GLib} {sees : LcData.LoadedLc → NhmLcInfo} {cfg : Config}
    (p : Program) (event : Event) (sound : Sound cfg p) (allowed : Allowed p event) :
    RestartsCaused glib sees cfg p event := by
  have started := sound (allowed_running allowed)
  refine ⟨fun next sent h => step_caused started allowed h, ?_⟩
  rintro request rfl
  obtain ⟨main, sent, hhandle, -⟩ := request_caused started glib allowed
  exact ⟨_, _, by simp only [step, hhandle, Option.bind_eq_bind, Option.bind_some]; rfl⟩

theorem not_isRestart_of_caused {glib : GLib} {cfg : Config} {p : Program} {event : Event}
    {sent : List Effect} (caused : Caused glib cfg p event sent) (hmax : cfg.max_failed_apps = 0)
    (hblocked : ∀ env app_name, event = .request (.requestNodeRestart env app_name) →
      Blocked cfg app_name) : ∀ effect ∈ sent, isRestart effect = false := by
  intro effect heffect
  by_contra hrestart
  have hpos : 0 < restarts sent :=
    List.countP_pos_iff.mpr ⟨effect, heffect, eq_true_of_ne_false hrestart⟩
  rcases caused.cause hpos with ⟨env, app_name, hevent, hnot⟩ | ⟨hlimit, -⟩
  · exact hnot (hblocked env app_name hevent)
  · rw [hmax] at hlimit
    exact absurd hlimit (by decide)

/-- In every run each restart request has its cause and each request of an application its
answer; without a limit and with blocked applications only there is no restart request. -/
theorem restartsCaused_run (glib : GLib) (sees : LcData.LoadedLc → NhmLcInfo) (cfg : Config)
    (disk : Disk) (env : NsmEnv) (events : List Event)
    (allowed : Transition.AllSteps (advance glib sees) Allowed (.start cfg disk env) events) :
    Transition.AllSteps (advance glib sees) (RestartsCaused glib sees cfg)
        (.start cfg disk env) events ∧
      (cfg.max_failed_apps = 0 →
        (∀ env app_name, .request (.requestNodeRestart env app_name) ∈ events →
          Blocked cfg app_name) →
        ∀ effect ∈ Transition.outputs (step glib sees) (.start cfg disk env) events,
          isRestart effect = false) := by
  have hcaused := Transition.allSteps_imp (advance glib sees) (Sound cfg) Allowed
    (RestartsCaused glib sees cfg) advance_sound restartsCaused_of_sound _ events
    (sound_start cfg disk env) allowed
  refine ⟨hcaused, fun hmax hblocked => ?_⟩
  have hforall := Transition.allSteps_of_forall (advance glib sees)
    (fun event => ∀ env app_name, event = .request (.requestNodeRestart env app_name) →
      Blocked cfg app_name) (.start cfg disk env) events
    fun event hmem env app_name hevent => hblocked env app_name (hevent ▸ hmem)
  refine Transition.outputs_of_allSteps (step glib sees) (isRestart · = false) _ events ?_
  refine Transition.allSteps_imp (advance glib sees) (fun _ => True) _ _
    (fun _ _ _ _ _ _ => trivial) ?_ _ events trivial
    (Transition.allSteps_and (advance glib sees) _ _ _ events hcaused hforall)
  intro p event _ h next sent hstep
  exact not_isRestart_of_caused (h.1.1 next sent hstep) hmax h.2

/-- An application fails at the limit, a blocked one asks for a restart in vain, and another
one with success. -/
theorem restartsCaused_run_limit :
    let sees : LcData.LoadedLc → NhmLcInfo := fun _ => ⟨NhmNodeState.notset, []⟩
    let app : CString := CString.literal [97]
    let blocked : CString := CString.literal [98]
    let cfg : Config := { max_failed_apps := 1, no_restart_apps := some [blocked] }
    let events : List Event := [.busAcquired {},
      .request (.registerAppStatus {} app NhmAppStatus.failed),
      .request (.requestNodeRestart {} blocked), .request (.requestNodeRestart {} app)]
    Transition.AllSteps (advance handingOver sees) (RestartsCaused handingOver sees cfg)
        (.start cfg ⟨none, none⟩ {}) events ∧
      Transition.outputs (step handingOver sees) (.start cfg ⟨none, none⟩ {}) events =
        [.setAppHealthStatus app false, .emitAppHealthStatus app NhmAppStatus.failed,
          .requestNodeRestart .applicationFailure .normal, .completeRegisterAppStatus,
          .completeRequestNodeRestart .restartNotPossible,
          .requestNodeRestart .applicationFailure .normal, .completeRequestNodeRestart .ok] := by
  refine ⟨(restartsCaused_run handingOver _ _ ⟨none, none⟩ {} _ ?_).1, by decide⟩
  exact ⟨⟨rfl, rfl⟩, fun _ h => Option.some.inj h ▸ ⟨⟨rfl, rfl⟩, fun _ h => Option.some.inj h ▸
    ⟨⟨rfl, rfl⟩, fun _ h => Option.some.inj h ▸ ⟨⟨rfl, rfl⟩, fun _ _ => trivial⟩⟩⟩⟩

end NodeHealthMonitor.MainLoop
