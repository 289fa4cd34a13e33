import NodeHealthMonitor.Lifecycles

/-! Two runs of one life cycle that get the same calls while the NSM and the file system
answer differently. The bookkeeping of both is the same; only the disk may differ, and it
does not behind a write that succeeded in both. -/

namespace NodeHealthMonitor.PeerIndependence
open NhmMain

inductive Call where
  | nameAcquired
  | registerAppStatus (app_name : CString) (app_status : NhmAppStatus)
  | requestNodeRestart (app_name : CString)
  | readStatistics (app_name : CString)

/-- The module, and whether its last attempt to open the data file for writing succeeded. -/
structure Node where
  main : State
  written : Bool := false

def serve (s : State) (env : Env) : Call → Option (State × List Effect)
  | .nameAcquired => nameAcquiredCb env s
  | .registerAppStatus app_name app_status => handle s (.registerAppStatus env app_name app_status)
  | .requestNodeRestart app_name => handle s (.requestNodeRestart env app_name)
  | .readStatistics app_name => handle s (.readStatistics app_name)

def attemptsWrite (s : State) : Call → Bool
  | .nameAcquired => true
  | .registerAppStatus app_name app_status =>
      decide (findCurrentFailedApp s.current_failed_apps app_name = none ∧
        app_status = NhmAppStatus.failed)
  | _ => false

def step (node : Node) (event : Call × Env) : Option (Node × List Effect) := do
  let (main, sent) ← serve node.main event.2 event.1
  some (⟨main, if attemptsWrite node.main event.1 then event.2.fopen_w else node.written⟩, sent)

def advance (node : Node) (event : Call × Env) : Option Node := (step node event).map Prod.fst

/-- Restart requests, `AppHealthStatus` signals and answers to `ReadStatistics`. -/
def own : Effect → Bool
  | .requestNodeRestart _ _ => true
  | .emitAppHealthStatus _ _ => true
  | .completeReadStatistics _ => true
  | _ => false

structure Peers (node other : Node) : Prop where
  main : ∃ disk, other.main = { node.main with disk := disk }
  ready : ∃ lc older, Ready node.main lc older
  written : node.written = true → Saved node.main
  written' : other.written = true → Saved other.main

theorem nameAcquiredCb_own {env : Env} {s next : State} {sent : List Effect}
    (h : nameAcquiredCb env s = some (next, sent)) : sent.filter own = [] := by
  simp only [nameAcquiredCb, Option.bind_eq_bind, Option.bind_eq_some_iff] at h
  obtain ⟨s', -, hnext⟩ := h
  cases hnext
  simp only [List.filter_append]
  split <;> split <;> rfl

theorem step_eq {node : Node} {call : Call} {env : Env} {main : State} {sent : List Effect}
    (h : serve node.main env call = some (main, sent)) : step node (call, env) =
      some (⟨main, if attemptsWrite node.main call then env.fopen_w else node.written⟩, sent) := by
  rw [step, h]
  rfl

def ServedAlike (node other : Node) (call : Call) (env env' : Env) : Prop :=
  ∃ next sent next' sent', step node (call, env) = some (next, sent) ∧
    step other (call, env') = some (next', sent') ∧ Peers next next' ∧
    sent.filter own = sent'.filter own

section
variable {node : Node} {disk : Disk} {written' : Bool}
  (peers : Peers node ⟨{ node.main with disk := disk }, written'⟩) (env env' : Env)
include peers

theorem nameAcquired_alike :
    ServedAlike node ⟨{ node.main with disk := disk }, written'⟩ .nameAcquired env env' := by
  obtain ⟨lc, older, ready⟩ := peers.ready
  obtain ⟨d, sent, hstep, -, hsaved, -⟩ := nameAcquiredCb_eq env node.main _ ready.nodeinfo
  obtain ⟨d', sent', hstep', -, hsaved', -⟩ :=
    nameAcquiredCb_eq env' { node.main with disk := disk } _ ready.nodeinfo
  refine ⟨_, sent, _, sent', step_eq hstep, step_eq hstep', ⟨⟨d', rfl⟩, ?_, hsaved, hsaved'⟩, ?_⟩
  · exact ⟨lc, older, ready.withDisk d⟩
  · rw [nameAcquiredCb_own hstep, nameAcquiredCb_own hstep']

theorem registerAppStatus_alike (app_name : CString) (app_status : NhmAppStatus) :
    ServedAlike node ⟨{ node.main with disk := disk }, written'⟩
      (.registerAppStatus app_name app_status) env env' := by
  obtain ⟨lc, older, ready⟩ := peers.ready
  have hstep := registerAppStatus_eq env app_name app_status ready
  have hstep' := registerAppStatus_eq env' app_name app_status (ready.withDisk disk)
  have hattempts : ∀ d, attemptsWrite { node.main with disk := d }
      (.registerAppStatus app_name app_status) =
        decide (app_name ∉ node.main.failedNames ∧ isFailed app_status = true) := by
    intro d
    have hlist := findCurrentFailedApp_eq_none node.main app_name
    simp [attemptsWrite, hlist, isFailed]
  have hnames : State.failedNames { node.main with disk := disk } = node.main.failedNames := rfl
  rw [hnames] at hstep'
  have hserve : ∀ {s next : State} {sent : List Effect} {e : Env},
      registerAppStatus e app_name app_status s = some (next, sent) →
      serve s e (.registerAppStatus app_name app_status) =
        some (next, sent ++ [.completeRegisterAppStatus]) := by
    intro s next sent e h
    simp only [serve, handle, registerAppStatusCb, h, Option.bind_eq_bind, Option.bind_some]
  by_cases hnew : app_name ∉ node.main.failedNames ∧ isFailed app_status = true
  · rw [if_pos hnew] at hstep hstep'
    refine ⟨_, _, _, _, step_eq (hserve hstep), step_eq (hserve hstep'), ?_, rfl⟩
    rw [hattempts node.main.disk, hattempts disk, decide_eq_true hnew, if_pos rfl, if_pos rfl]
    refine ⟨⟨_, rfl⟩, ⟨_, older, ready.addFailure env app_name⟩, fun hopen => ?_, fun hopen => ?_⟩
    · exact ⟨_, rfl, by simp only [addFailure, if_pos hopen]⟩
    · exact ⟨_, rfl, by simp only [addFailure, if_pos hopen]⟩
  · rw [if_neg hnew] at hstep hstep'
    have hkept : ∀ d (written : Bool) (e : Env), (if attemptsWrite { node.main with disk := d }
        (.registerAppStatus app_name app_status) then e.fopen_w else written) = written := by
      intro d written e
      rw [hattempts, decide_eq_false hnew, if_neg Bool.false_ne_true]
    by_cases hrecovers : app_name ∈ node.main.failedNames ∧ isFailed app_status = false
    · rw [if_pos hrecovers] at hstep hstep'
      refine ⟨_, _, _, _, step_eq (hserve hstep), step_eq (hserve hstep'), ?_, rfl⟩
      rw [hkept node.main.disk, hkept disk]
      exact ⟨⟨disk, rfl⟩, ⟨lc, older, ready.dropFailure app_name⟩, peers.written, peers.written'⟩
    · rw [if_neg hrecovers] at hstep hstep'
      refine ⟨_, _, _, _, step_eq (hserve hstep), step_eq (hserve hstep'), ?_, rfl⟩
      rw [hkept node.main.disk, hkept disk]
      exact peers

theorem requestNodeRestart_alike (app_name : CString) :
    ServedAlike node ⟨{ node.main with disk := disk }, written'⟩ (.requestNodeRestart app_name)
      env env' := by
  obtain ⟨lc, older, ready⟩ := peers.ready
  by_cases hlist : NhmHelper.strInStrv app_name node.main.cfg.no_restart_apps = false
  · have hstep : ∀ d (e : Env), ∃ status, serve { node.main with disk := d } e
        (.requestNodeRestart app_name) = some ({ node.main with disk := d },
          [.requestNodeRestart .applicationFailure .normal,
            .completeRequestNodeRestart status]) := by
      intro d e
      simp [serve, handle, requestNodeRestartCb, hlist, requestRestart, ready.control]
    obtain ⟨status, hserve⟩ := hstep node.main.disk env
    obtain ⟨status', hserve'⟩ := hstep disk env'
    exact ⟨node, _, _, _, step_eq hserve, step_eq hserve', peers, rfl⟩
  · have hstep : ∀ d (e : Env), serve { node.main with disk := d } e
        (.requestNodeRestart app_name) = some ({ node.main with disk := d },
          [.completeRequestNodeRestart .restartNotPossible]) := by
      intro d e
      simp [serve, handle, requestNodeRestartCb, hlist]
    exact ⟨node, _, _, _, step_eq (hstep node.main.disk env), step_eq (hstep disk env'), peers, rfl⟩

theorem readStatistics_alike (app_name : CString) :
    ServedAlike node ⟨{ node.main with disk := disk }, written'⟩ (.readStatistics app_name)
      env env' := by
  obtain ⟨lc, older, ready⟩ := peers.ready
  obtain ⟨reply, hreply⟩ : ∃ reply, readStatistics app_name node.main = some reply := by
    by_cases hname : app_name = CString.empty
    · rw [hname]
      exact ⟨_, readStatistics_node _ _ ready.nodeinfo⟩
    · exact ⟨_, readStatistics_app app_name _ lc older hname ready.nodeinfo⟩
  have hstep : ∀ d (e : Env), serve { node.main with disk := d } e (.readStatistics app_name) =
      some ({ node.main with disk := d }, [.completeReadStatistics reply]) := by
    intro d e
    have hsame : readStatistics app_name { node.main with disk := d } = some reply := hreply
    simp only [serve, handle, readStatisticsCb, hsame, Option.bind_eq_bind, Option.bind_some]
  exact ⟨node, _, _, _, step_eq (hstep node.main.disk env), step_eq (hstep disk env'), peers, rfl⟩

end

theorem step_peers {node other : Node} (peers : Peers node other) (call : Call) (env env' : Env) :
    ServedAlike node other call env env' := by
  obtain ⟨main, written'⟩ := other
  obtain ⟨disk, rfl⟩ : ∃ disk, main = { node.main with disk := disk } := peers.main
  cases call with
  | nameAcquired => exact nameAcquired_alike peers env env'
  | registerAppStatus app_name app_status =>
    exact registerAppStatus_alike peers env env' app_name app_status
  | requestNodeRestart app_name => exact requestNodeRestart_alike peers env env' app_name
  | readStatistics app_name => exact readStatistics_alike peers env env' app_name

def Node.loaded (cfg : Config) (disk : Disk) (lc : NhmLcInfo) (older : List NhmLcInfo) : Node where
  main := { State.start cfg disk with nodeinfo := some (lc :: older), dbus_nhm_info_obj := true }

theorem busAcquiredCb_loaded {env : Env} {cfg : Config} {disk : Disk} {s : State}
    {sent : List Effect} (h : busAcquiredCb env (State.start cfg disk) = some (s, sent)) :
    ∃ older, s = (Node.loaded cfg disk ⟨readShutdownFlag env disk, []⟩ older).main := by
  simp only [busAcquiredCb, Option.bind_eq_bind, Option.bind_eq_some_iff] at h
  obtain ⟨nodeinfo, hread, hnext⟩ := h
  cases hnext
  unfold LcData.readData at hread
  split at hread
  · cases hread
    exact ⟨[], rfl⟩
  · obtain ⟨older, -, rfl⟩ := Option.map_eq_some_iff.mp hread
    exact ⟨older, rfl⟩

theorem Peers.lcdata {node other : Node} (peers : Peers node other)
    (hwritten : node.written = true) (hwritten' : other.written = true) :
    node.main.disk.lcdata = other.main.disk.lcdata := by
  obtain ⟨disk, hother⟩ := peers.main
  obtain ⟨nodeinfo, hnodeinfo, hlcdata⟩ := peers.written hwritten
  obtain ⟨nodeinfo', hnodeinfo', hlcdata'⟩ := peers.written' hwritten'
  rw [hother] at hnodeinfo' hlcdata' ⊢
  obtain rfl := Option.some.inj (hnodeinfo.symm.trans hnodeinfo')
  exact hlcdata.trans hlcdata'.symm

/-- Behind any calls the bookkeeping of both runs is the same, and so is what they sent of
their own; the data files are equal behind a last write that succeeded in both. -/
theorem peerIndependence_run (cfg : Config) (disk disk' : Disk) (lc : NhmLcInfo)
    (older : List NhmLcInfo) (calls : List (Call × Env × Env)) : ∃ last last',
    Transition.run advance (.loaded cfg disk lc older)
        (calls.map fun call => (call.1, call.2.1)) = some last ∧
    Transition.run advance (.loaded cfg disk' lc older)
        (calls.map fun call => (call.1, call.2.2)) = some last' ∧
    last.main.nodeinfo = last'.main.nodeinfo ∧
    last.main.current_failed_apps = last'.main.current_failed_apps ∧
    (Transition.outputs step (.loaded cfg disk lc older)
        (calls.map fun call => (call.1, call.2.1))).filter own =
      (Transition.outputs step (.loaded cfg disk' lc older)
        (calls.map fun call => (call.1, call.2.2))).filter own ∧
    (last.written = true → last'.written = true →
      last.main.disk.lcdata = last'.main.disk.lcdata) := by
  have start : Peers (.loaded cfg disk lc older) (.loaded cfg disk' lc older) :=
    ⟨⟨disk', rfl⟩, ⟨lc, older, rfl, rfl, rfl⟩, fun h => Bool.noConfusion h,
      fun h => Bool.noConfusion h⟩
  obtain ⟨last, last', hrun, hrun', peers, hown⟩ := Transition.run_pairs step
    (fun call : Call × Env × Env => (call.1, call.2.1)) (fun call => (call.1, call.2.2)) own Peers
    (fun _ _ call peers => step_peers peers call.1 call.2.1 call.2.2) calls _ _ start
  obtain ⟨d, hother⟩ := peers.main
  refine ⟨last, last', hrun, hrun', ?_, ?_, hown, peers.lcdata⟩
  · rw [hother]
  · rw [hother]

end NodeHealthMonitor.PeerIndependence
