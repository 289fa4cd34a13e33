import NodeHealthMonitor.NhmMain
import NodeHealthMonitor.ReportHistory

/-! What `registerAppStatus` keeps of the reports of a life cycle: the list of the
currently failed applications is the set of the names last reported failed, and the
record of the current life cycle counts how often each name turned failed. -/

namespace NodeHealthMonitor.NhmMain
open ReportHistory

abbrev Report := CString × NhmAppStatus

def isFailed (status : NhmAppStatus) : Bool := status = NhmAppStatus.failed

def State.failedNames (s : State) : List CString := s.current_failed_apps.map (·.name)

def recordedNames (lc : NhmLcInfo) : List CString := lc.failed_apps.map (·.name)

/-- The start is over: the D-Bus objects are there, and the life cycles are loaded. -/
structure Ready (s : State) (lc : NhmLcInfo) (older : List NhmLcInfo) : Prop where
  control : s.dbus_lc_control_obj = true
  info : s.dbus_nhm_info_obj = true
  nodeinfo : s.nodeinfo = some (lc :: older)

theorem findCurrentFailedApp_eq_none (s : State) (name : CString) :
    findCurrentFailedApp s.current_failed_apps name = none ↔ name ∉ s.failedNames := by
  simp only [findCurrentFailedApp, List.find?_eq_none, decide_eq_true_eq, State.failedNames,
    List.mem_map, not_exists, not_and]

theorem findFailedApp_eq_none (lc : NhmLcInfo) (name : CString) :
    findFailedApp lc name = none ↔ name ∉ recordedNames lc := by
  simp only [findFailedApp, List.find?_eq_none, decide_eq_true_eq, recordedNames,
    List.mem_map, not_exists, not_and]

private def countOf (name : CString) (apps : List NhmFailedApp) : UInt32 :=
  appFailcount name ⟨NhmNodeState.notset, apps⟩

private theorem countOf_cons (name : CString) (app : NhmFailedApp) (apps : List NhmFailedApp) :
    countOf name (app :: apps) = if app.name = name then app.failcount else countOf name apps := by
  by_cases h : app.name = name <;> simp [countOf, appFailcount, findFailedApp, h]

private theorem countOf_append (name : CString) (apps : List NhmFailedApp) (b : CString) :
    countOf name (apps ++ [⟨b, 0⟩]) = countOf name apps := by
  induction apps with
  | nil =>
    rw [List.nil_append, countOf_cons]
    split <;> rfl
  | cons app apps ih => rw [List.cons_append, countOf_cons, countOf_cons, ih]

private theorem increaseFailcount_names (name : CString) (apps : List NhmFailedApp) :
    (increaseFailcount name apps).map (·.name) = apps.map (·.name) := by
  induction apps with
  | nil => rfl
  | cons app apps ih =>
    rw [increaseFailcount]
    split <;> simp [ih]

private theorem countOf_increaseFailcount (a name : CString) (apps : List NhmFailedApp)
    (h : name ∈ apps.map (·.name)) :
    countOf a (increaseFailcount name apps) =
      if name = a then countOf a apps + 1 else countOf a apps := by
  induction apps with
  | nil => simp at h
  | cons app apps ih =>
    rw [increaseFailcount]
    by_cases hname : app.name = name
    · by_cases ha : name = a <;> simp [countOf_cons, hname, ha]
    · have hrest : name ∈ apps.map (·.name) := by
        rw [List.map_cons, List.mem_cons] at h
        exact h.resolve_left fun e => hname e.symm
      rw [if_neg hname, countOf_cons, countOf_cons, ih hrest]
      by_cases ha : app.name = a
      · have hne : name ≠ a := fun e => hname (ha.trans e.symm)
        simp [ha, hne]
      · simp [ha]

theorem recordedNames_countFailure_of_mem (name : CString) (lc : NhmLcInfo)
    (h : name ∈ recordedNames lc) : recordedNames (countFailure name lc) = recordedNames lc := by
  cases happ : findFailedApp lc name with
  | none => exact absurd h ((findFailedApp_eq_none lc name).mp happ)
  | some app => simp only [recordedNames, countFailure, happ, increaseFailcount_names]

theorem recordedNames_countFailure_of_notMem (name : CString) (lc : NhmLcInfo)
    (h : name ∉ recordedNames lc) :
    recordedNames (countFailure name lc) = recordedNames lc ++ [name] := by
  have happ := (findFailedApp_eq_none lc name).mpr h
  simp only [recordedNames, countFailure, happ, increaseFailcount_names, List.map_append,
    List.map_cons, List.map_nil]

theorem mem_recordedNames_countFailure (a name : CString) (lc : NhmLcInfo) :
    a ∈ recordedNames (countFailure name lc) ↔ name = a ∨ a ∈ recordedNames lc := by
  by_cases h : name ∈ recordedNames lc
  · rw [recordedNames_countFailure_of_mem name lc h]
    constructor
    · exact Or.inr
    · rintro (ha | ha)
      · exact ha ▸ h
      · exact ha
  · rw [recordedNames_countFailure_of_notMem name lc h, List.mem_append, List.mem_singleton,
      or_comm, eq_comm]

theorem nodup_append_singleton {names : List CString} {name : CString} (h : names.Nodup)
    (hname : name ∉ names) : (names ++ [name]).Nodup := by
  rw [← List.concat_eq_append]
  exact h.concat hname

theorem recordedNames_countFailure_nodup (name : CString) (lc : NhmLcInfo)
    (h : (recordedNames lc).Nodup) : (recordedNames (countFailure name lc)).Nodup := by
  by_cases hmem : name ∈ recordedNames lc
  · rwa [recordedNames_countFailure_of_mem name lc hmem]
  · rw [recordedNames_countFailure_of_notMem name lc hmem]
    exact nodup_append_singleton h hmem

theorem appFailcount_countFailure (a name : CString) (lc : NhmLcInfo) :
    appFailcount a (countFailure name lc) =
      if name = a then appFailcount a lc + 1 else appFailcount a lc := by
  change countOf a (countFailure name lc).failed_apps =
    if name = a then countOf a lc.failed_apps + 1 else countOf a lc.failed_apps
  cases happ : findFailedApp lc name with
  | none =>
    simp only [countFailure, happ]
    rw [countOf_increaseFailcount a name _ (by simp), countOf_append]
  | some app =>
    have hmem : name ∈ recordedNames lc := by
      by_contra hno
      rw [(findFailedApp_eq_none lc name).mpr hno] at happ
      contradiction
    simp only [countFailure, happ]
    exact countOf_increaseFailcount a name _ hmem

def addFailure (env : Env) (name : CString) (lc : NhmLcInfo) (older : List NhmLcInfo)
    (s : State) : State where
  __ := s
  disk := if env.fopen_w then { s.disk with
      lcdata := some (LcData.writeData (countFailure name lc :: older) s.cfg.max_lc_count) }
    else s.disk
  nodeinfo := some (countFailure name lc :: older)
  current_failed_apps := s.current_failed_apps ++ [⟨name⟩]

def dropFailure (name : CString) (s : State) : State :=
  { s with current_failed_apps := s.current_failed_apps.eraseP fun app => app.name = name }

def restartRequests (s : State) : List Effect :=
  if s.cfg.max_failed_apps ≠ 0 ∧
      s.cfg.max_failed_apps ≤ LcData.listLength s.current_failed_apps then
    [.requestNodeRestart .applicationFailure .normal]
  else []

theorem checkFailedAppRestart_eq (env : Env) (s : State) (h : s.dbus_lc_control_obj = true) :
    checkFailedAppRestart env s = some (restartRequests s) := by
  unfold checkFailedAppRestart restartRequests
  by_cases hmax : s.cfg.max_failed_apps = 0
  · simp [hmax]
  · by_cases hcnt : s.cfg.max_failed_apps ≤ LcData.listLength s.current_failed_apps
    · simp [hmax, hcnt, requestRestart, h]
    · simp [hmax, hcnt]

/-- All a report can do: a first failure, a recovery, or a report that changes nothing. -/
theorem registerAppStatus_cases (env : Env) (name : CString) (status : NhmAppStatus)
    {s : State} {lc : NhmLcInfo} {older : List NhmLcInfo} (ready : Ready s lc older) :
    ∃ next restart, registerAppStatus env name status s = some (next,
        [.setAppHealthStatus name (status = NhmAppStatus.ok),
          .emitAppHealthStatus name status] ++ restart) ∧
      ((name ∉ s.failedNames ∧ isFailed status = true ∧ next = addFailure env name lc older s ∧
          restart = restartRequests next) ∨
        (name ∈ s.failedNames ∧ isFailed status = false ∧ next = dropFailure name s ∧
          restart = []) ∨
        ((name ∈ s.failedNames ↔ isFailed status = true) ∧ next = s ∧ restart = [])) := by
  have hlist := findCurrentFailedApp_eq_none s name
  by_cases hmem : name ∈ s.failedNames <;> by_cases hstatus : status = NhmAppStatus.failed
  · refine ⟨s, [], ?_, Or.inr (Or.inr ⟨by simp [hmem, hstatus, isFailed], rfl, rfl⟩)⟩
    simp [registerAppStatus, ready.control, ready.info, hlist, hmem, hstatus]
  · refine ⟨dropFailure name s, [], ?_,
      Or.inr (Or.inl ⟨hmem, by simp [hstatus, isFailed], rfl, rfl⟩)⟩
    simp [registerAppStatus, ready.control, ready.info, hlist, hmem, hstatus, dropFailure]
  · refine ⟨addFailure env name lc older s, _, ?_,
      Or.inl ⟨hmem, by simp [hstatus, isFailed], rfl, rfl⟩⟩
    have hrestart := checkFailedAppRestart_eq env (addFailure env name lc older s) ready.control
    cases hopen : env.fopen_w <;>
      simp_all [registerAppStatus, ready.control, ready.info, ready.nodeinfo, writeData, addFailure]
  · refine ⟨s, [], ?_, Or.inr (Or.inr ⟨by simp [hmem, hstatus, isFailed], rfl, rfl⟩)⟩
    simp [registerAppStatus, ready.control, ready.info, hlist, hmem, hstatus]

def forwarded (name : CString) (status : NhmAppStatus) : List Effect :=
  [.setAppHealthStatus name (status = NhmAppStatus.ok), .emitAppHealthStatus name status]

theorem registerAppStatus_eq (env : Env) (name : CString) (status : NhmAppStatus)
    {s : State} {lc : NhmLcInfo} {older : List NhmLcInfo} (ready : Ready s lc older) :
    registerAppStatus env name status s = some
      (if name ∉ s.failedNames ∧ isFailed status = true then
        (addFailure env name lc older s,
          forwarded name status ++ restartRequests (addFailure env name lc older s))
      else if name ∈ s.failedNames ∧ isFailed status = false then
        (dropFailure name s, forwarded name status)
      else (s, forwarded name status)) := by
  obtain ⟨next, restart, hstep, hcase⟩ := registerAppStatus_cases env name status ready
  rw [hstep]
  rcases hcase with ⟨hname, hstatus, rfl, rfl⟩ | ⟨hname, hstatus, rfl, rfl⟩ | ⟨hsame, rfl, rfl⟩
  · rw [if_pos ⟨hname, hstatus⟩]
    rfl
  · rw [if_neg fun h => h.1 hname, if_pos ⟨hname, hstatus⟩]
    rfl
  · rw [if_neg fun h => h.1 (hsame.mpr h.2), if_neg fun h => ?_]
    · rfl
    · rw [hsame.mp h.1] at h
      exact Bool.noConfusion h.2

theorem Ready.addFailure {s : State} {lc : NhmLcInfo} {older : List NhmLcInfo}
    (ready : Ready s lc older) (env : Env) (name : CString) :
    Ready (addFailure env name lc older s) (countFailure name lc) older :=
  ⟨ready.control, ready.info, rfl⟩

theorem Ready.dropFailure {s : State} {lc : NhmLcInfo} {older : List NhmLcInfo}
    (ready : Ready s lc older) (name : CString) : Ready (dropFailure name s) lc older :=
  ⟨ready.control, ready.info, ready.nodeinfo⟩

@[simp] theorem addFailure_cfg (env : Env) (name : CString) (lc : NhmLcInfo)
    (older : List NhmLcInfo) (s : State) : (addFailure env name lc older s).cfg = s.cfg := rfl

theorem failedNames_addFailure (env : Env) (name : CString) (lc : NhmLcInfo)
    (older : List NhmLcInfo) (s : State) :
    (addFailure env name lc older s).failedNames = s.failedNames ++ [name] := by
  simp [State.failedNames, addFailure]

theorem failedNames_dropFailure (name : CString) (s : State) :
    (dropFailure name s).failedNames = s.failedNames.erase name := by
  simp only [State.failedNames, dropFailure, List.erase_eq_eraseP, List.eraseP_map]
  congr 2
  funext app
  rw [Bool.eq_iff_iff, Function.comp_apply, beq_iff_eq, decide_eq_true_eq]
  exact eq_comm

/-- What the data of a life cycle says about the reports made in it, latest first. -/
structure Tracks (reports : List Report) (lc : NhmLcInfo) (current : List CString) : Prop where
  current_nodup : current.Nodup
  mem_current : ∀ a, a ∈ current ↔ holds isFailed a reports = true
  recorded_nodup : (recordedNames lc).Nodup
  mem_recorded : ∀ a, a ∈ recordedNames lc ↔ a ∈ ever isFailed reports
  failcount : ∀ a, appFailcount a lc = UInt32.ofNat (turns isFailed a reports)

theorem Tracks.failed_apps_length {reports : List Report} {lc : NhmLcInfo}
    {current : List CString} (tracks : Tracks reports lc current) :
    lc.failed_apps.length = (ever isFailed reports).length := by
  have h := length_eq_of_mem_iff tracks.recorded_nodup (ever_nodup isFailed reports)
    tracks.mem_recorded
  rwa [recordedNames, List.length_map] at h

theorem Tracks.nil (start_state : NhmNodeState) : Tracks [] ⟨start_state, []⟩ [] where
  current_nodup := List.nodup_nil
  mem_current _ := by simp
  recorded_nodup := List.nodup_nil
  mem_recorded _ := by simp [recordedNames, ever]
  failcount _ := rfl

section
variable {reports : List Report} {lc : NhmLcInfo} {current : List CString} {name : CString}
  {status : NhmAppStatus}

theorem Tracks.failure (tracks : Tracks reports lc current) (hname : name ∉ current)
    (hstatus : isFailed status = true) :
    Tracks ((name, status) :: reports) (countFailure name lc) (current ++ [name]) where
  current_nodup := nodup_append_singleton tracks.current_nodup hname
  mem_current a := by
    rw [List.mem_append, List.mem_singleton, tracks.mem_current, holds_cons]
    by_cases ha : name = a
    · simp [ha, hstatus]
    · have ha' : ¬a = name := fun e => ha e.symm
      simp [ha, ha']
  recorded_nodup := recordedNames_countFailure_nodup name lc tracks.recorded_nodup
  mem_recorded a := by
    rw [mem_recordedNames_countFailure, mem_ever_cons, tracks.mem_recorded]
    simp [hstatus]
  failcount a := by
    have hnot : holds isFailed name reports = false := by
      simpa [tracks.mem_current] using hname
    rw [appFailcount_countFailure, tracks.failcount, turns]
    by_cases ha : name = a
    · rw [if_pos ha, if_pos ⟨ha, hstatus, ha ▸ hnot⟩, Nat.add_comm, UInt32.ofNat_add]
      rfl
    · rw [if_neg ha, if_neg fun h => ha h.1, Nat.zero_add]

private theorem Tracks.keep (tracks : Tracks reports lc current) {current' : List CString}
    (nodup : current'.Nodup)
    (hcurrent : ∀ a, a ∈ current' ↔ holds isFailed a ((name, status) :: reports) = true)
    (hold : isFailed status = true → name ∈ current) :
    Tracks ((name, status) :: reports) lc current' where
  current_nodup := nodup
  mem_current := hcurrent
  recorded_nodup := tracks.recorded_nodup
  mem_recorded a := by
    rw [mem_ever_cons, tracks.mem_recorded]
    constructor
    · exact Or.inr
    · rintro (⟨rfl, hs⟩ | ha)
      · exact mem_ever_of_holds isFailed _ _ ((tracks.mem_current _).mp (hold hs))
      · exact ha
  failcount a := by
    have hno : ¬(name = a ∧ isFailed status = true ∧ holds isFailed a reports = false) := by
      rintro ⟨rfl, hs, hnot⟩
      rw [(tracks.mem_current _).mp (hold hs)] at hnot
      contradiction
    rw [tracks.failcount, turns, if_neg hno, Nat.zero_add]

theorem Tracks.recovery (tracks : Tracks reports lc current)
    (hstatus : isFailed status = false) :
    Tracks ((name, status) :: reports) lc (current.erase name) := by
  refine tracks.keep (tracks.current_nodup.erase name) (fun a => ?_) (by simp [hstatus])
  rw [tracks.current_nodup.mem_erase_iff, tracks.mem_current, holds_cons]
  by_cases ha : name = a
  · simp [ha, hstatus]
  · have ha' : ¬a = name := fun e => ha e.symm
    simp [ha, ha']

theorem Tracks.repeated (tracks : Tracks reports lc current)
    (hsame : name ∈ current ↔ isFailed status = true) :
    Tracks ((name, status) :: reports) lc current := by
  refine tracks.keep tracks.current_nodup (fun a => ?_) hsame.mpr
  rw [tracks.mem_current, holds_cons]
  by_cases ha : name = a
  · rw [if_pos ha, ← hsame, ha, tracks.mem_current]
  · rw [if_neg ha]

end

def Following (reports : List Report) (older : List NhmLcInfo) (s : State) : Prop :=
  ∃ lc, Ready s lc older ∧ Tracks reports lc s.failedNames

def Saved (s : State) : Prop :=
  ∃ nodeinfo, s.nodeinfo = some nodeinfo ∧
    s.disk.lcdata = some (LcData.writeData nodeinfo s.cfg.max_lc_count)

structure KeepsFile (opens : Bool) (s next : State) : Prop where
  cfg : next.cfg = s.cfg
  file : Saved next ∨ next.disk.lcdata = s.disk.lcdata ∧
    (opens = true → next.nodeinfo = s.nodeinfo)

theorem KeepsFile.saved {s next : State} (keeps : KeepsFile true s next) (h : Saved s) :
    Saved next := by
  rcases keeps.file with hsaved | ⟨hfile, hnodeinfo⟩
  · exact hsaved
  · obtain ⟨nodeinfo, hdata, hlcdata⟩ := h
    exact ⟨nodeinfo, by rw [hnodeinfo rfl, hdata], by rw [hfile, hlcdata, keeps.cfg]⟩

theorem KeepsFile.refl (opens : Bool) (s : State) : KeepsFile opens s s :=
  ⟨rfl, Or.inr ⟨rfl, fun _ => rfl⟩⟩

theorem registerAppStatus_following (env : Env) (name : CString) (status : NhmAppStatus)
    {reports : List Report} {older : List NhmLcInfo} {s : State}
    (following : Following reports older s) :
    ∃ next sent, registerAppStatus env name status s = some (next, sent) ∧
      Following ((name, status) :: reports) older next ∧ KeepsFile env.fopen_w s next := by
  obtain ⟨lc, ready, tracks⟩ := following
  obtain ⟨next, restart, hstep, hcase⟩ := registerAppStatus_cases env name status ready
  refine ⟨next, _, hstep, ?_⟩
  rcases hcase with ⟨hname, hstatus, rfl, -⟩ | ⟨-, hstatus, rfl, -⟩ | ⟨hsame, rfl, -⟩
  · refine ⟨⟨_, ready.addFailure env name, ?_⟩, rfl, ?_⟩
    · rw [failedNames_addFailure]
      exact tracks.failure hname hstatus
    · cases hopen : env.fopen_w with
      | false => exact Or.inr ⟨by simp [addFailure, hopen], by simp⟩
      | true => exact Or.inl ⟨_, rfl, by simp [addFailure, hopen]⟩
  · refine ⟨⟨_, ready.dropFailure name, ?_⟩, rfl, Or.inr ⟨rfl, fun _ => rfl⟩⟩
    rw [failedNames_dropFailure]
    exact tracks.recovery hstatus
  · exact ⟨⟨lc, ready, tracks.repeated hsame⟩, KeepsFile.refl _ _⟩

end NodeHealthMonitor.NhmMain
