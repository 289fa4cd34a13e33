import NodeHealthMonitor.UnitObservation

/-! The failures of a unit and the count of the life cycle. The table reports every way
into FAILED, but the list takes a report only from a name that is not on it: what is
counted is a switch from running to failed. A unit that was not restarted and did not
become ACTIVE since its last failure is still failed. -/

namespace NodeHealthMonitor.UnitObservation
open DBus NhmSystemd NhmMain

structure Service where
  active_state : NhmActiveState
  /-- It has neither been restarted nor become ACTIVE since it failed. -/
  failed : Bool
  failures : ℕ

def Service.next (service : Service) (new_state : NhmActiveState) : Service :=
  if new_state = .failed ∧ service.active_state ≠ .failed then
    ⟨new_state, true, service.failures + if service.failed then 0 else 1⟩
  else if new_state = .active ∨ service.active_state = .failed ∧ new_state = .activating then
    ⟨new_state, false, service.failures⟩
  else { service with active_state := new_state }

inductive Feed where
  | activeState (new_state : NhmActiveState)
  | report (name : CString) (status : NhmAppStatus)

def feed (addr : Addr) (node : Node) (event : Feed × Env) : Option Node :=
  match event.1 with
  | .activeState new_state => do
      let (systemd, sent) ← unitActiveStateChanged addr new_state node.systemd
      let main ← registerAll event.2 (sent.filterMap Output.report?) node.main
      some ⟨systemd, main⟩
  | .report name status => do
      let main ← registerAll event.2 [(name, status)] node.main
      some { node with main := main }

def Service.after (service : Service) (event : Feed × Env) : Service :=
  match event.1 with
  | .activeState new_state => service.next new_state
  | .report _ _ => service

/-- No report for the name, and no return from a failure by way of DEACTIVATING. -/
def Expected (name : CString) (service : Service) (event : Feed × Env) : Prop :=
  match event.1 with
  | .activeState new_state =>
      service.active_state = .deactivating → new_state = .active → service.failed = false
  | .report name' _ => name' ≠ name

def Tally (name : CString) (older : List NhmLcInfo) (failed : Bool) (failcount : UInt32)
    (s : NhmMain.State) : Prop :=
  ∃ lc, Ready s lc older ∧ s.failedNames.count name = failed.toNat ∧
    appFailcount name lc = failcount

section
variable {name : CString} {older : List NhmLcInfo} {failed : Bool} {failcount : UInt32}
  {s : NhmMain.State}

theorem registerAppStatus_tally (env : Env) (status : NhmAppStatus)
    (tally : Tally name older failed failcount s) :
    ∃ next sent, registerAppStatus env name status s = some (next, sent) ∧
      Tally name older (isFailed status)
        (if isFailed status = true ∧ failed = false then failcount + 1 else failcount) next := by
  obtain ⟨lc, ready, hcount, hfailcount⟩ := tally
  obtain ⟨next, restart, hstep, hcase⟩ := registerAppStatus_cases env name status ready
  have hmem : name ∈ s.failedNames ↔ failed = true := by
    rw [← List.count_pos_iff, hcount]
    cases failed <;> simp
  refine ⟨next, _, hstep, ?_⟩
  rcases hcase with ⟨hname, hstatus, rfl, -⟩ | ⟨hname, hstatus, rfl, -⟩ | ⟨hsame, rfl, -⟩
  · have hfailed : failed = false := by simpa [hmem] using hname
    refine ⟨_, ready.addFailure env name, ?_, ?_⟩
    · rw [failedNames_addFailure, List.count_append, hcount, hfailed, hstatus]
      simp
    · rw [if_pos ⟨hstatus, hfailed⟩, appFailcount_countFailure, if_pos rfl, hfailcount]
  · refine ⟨lc, ready.dropFailure name, ?_, ?_⟩
    · rw [failedNames_dropFailure, List.count_erase_self, hcount, hstatus, hmem.mp hname]
      rfl
    · simp [hstatus, hfailcount]
  · have hsame' : isFailed status = failed := by
      rw [Bool.eq_iff_iff, ← hsame, hmem]
    refine ⟨lc, ready, by rw [hcount, hsame'], ?_⟩
    rw [if_neg (by rw [hsame']; cases failed <;> simp), hfailcount]

theorem registerAppStatus_tally_other (env : Env) {name' : CString} (hne : name' ≠ name)
    (status : NhmAppStatus) (tally : Tally name older failed failcount s) :
    ∃ next sent, registerAppStatus env name' status s = some (next, sent) ∧
      Tally name older failed failcount next := by
  obtain ⟨lc, ready, hcount, hfailcount⟩ := tally
  obtain ⟨next, restart, hstep, hcase⟩ := registerAppStatus_cases env name' status ready
  refine ⟨next, _, hstep, ?_⟩
  rcases hcase with ⟨-, -, rfl, -⟩ | ⟨-, -, rfl, -⟩ | ⟨-, rfl, -⟩
  · refine ⟨_, ready.addFailure env name', ?_, ?_⟩
    · rw [failedNames_addFailure, List.count_append, hcount, List.count_singleton,
        if_neg (by simpa), Nat.add_zero]
    · rw [appFailcount_countFailure, if_neg hne, hfailcount]
  · refine ⟨lc, ready.dropFailure name', ?_, hfailcount⟩
    rw [failedNames_dropFailure, List.count_erase_of_ne hne.symm, hcount]
  · exact ⟨lc, ready, hcount, hfailcount⟩

end

theorem Service.next_eq (service : Service) (new_state : NhmActiveState)
    (hactive : service.active_state = .active → service.failed = false)
    (hreturn : service.active_state = .deactivating → new_state = .active →
      service.failed = false) :
    let change := activeStateMap service.active_state new_state
    service.next new_state =
      if change.do_callback then ⟨new_state, isFailed change.next_status, service.failures +
        if isFailed change.next_status = true ∧ service.failed = false then 1 else 0⟩
      else ⟨new_state, service.failed, service.failures⟩ := by
  obtain ⟨old, failed, failures⟩ := service
  cases failed with
  | false => cases old <;> cases new_state <;> rfl
  | true =>
    cases old with
    | active => cases hactive rfl
    | deactivating =>
      cases new_state with
      | active => cases hreturn rfl rfl
      | _ => rfl
    | _ => cases new_state <;> rfl

@[simp] theorem Service.next_active_state (service : Service) (new_state : NhmActiveState) :
    (service.next new_state).active_state = new_state := by
  unfold Service.next
  split
  · rfl
  · split <;> rfl

theorem Service.next_active (service : Service) : (service.next .active).failed = false := by
  simp [Service.next]

structure Counted (addr : Addr) (name : CString) (older : List NhmLcInfo) (failcount : UInt32)
    (node : Node) (service : Service) : Prop where
  cb : node.systemd.app_status_cb = true
  unit : ∃ unit, node.systemd.heap addr = some unit ∧ unit.name = name ∧
    unit.active_state = service.active_state
  tally : Tally name older service.failed (failcount + UInt32.ofNat service.failures) node.main
  active : service.active_state = .active → service.failed = false

theorem registerAll_tally {name : CString} {older : List NhmLcInfo} {failcount : UInt32}
    {s : NhmMain.State} (env : Env) (service : Service) (new_state : NhmActiveState)
    (active : service.active_state = .active → service.failed = false)
    (hreturn : service.active_state = .deactivating → new_state = .active →
      service.failed = false)
    (tally : Tally name older service.failed (failcount + UInt32.ofNat service.failures) s)
    (change : NhmSystemdAppStatusChange)
    (hchange : activeStateMap service.active_state new_state = change) :
    ∃ main, registerAll env
        (if change.do_callback then some (name, change.next_status) else none).toList s =
          some main ∧
      Tally name older (service.next new_state).failed
        (failcount + UInt32.ofNat (service.next new_state).failures) main := by
  have hnext := service.next_eq new_state active hreturn
  cases hcall : change.do_callback with
  | false =>
    simp only [hchange, hcall, Bool.false_eq_true, if_false] at hnext
    rw [hnext]
    exact ⟨s, rfl, tally⟩
  | true =>
    simp only [hchange, hcall, if_true] at hnext
    rw [hnext]
    obtain ⟨main, sent, hstep, htally⟩ := registerAppStatus_tally env change.next_status tally
    refine ⟨main, by simp [registerAll, hstep], ?_⟩
    convert htally using 1
    split
    · rw [UInt32.ofNat_add, ← UInt32.add_assoc]
      rfl
    · rfl

theorem feed_counted {addr : Addr} {name : CString} {older : List NhmLcInfo} {failcount : UInt32}
    (node : Node) (service : Service) (event : Feed × Env)
    (counted : Counted addr name older failcount node service)
    (expected : Expected name service event) :
    ∃ next, feed addr node event = some next ∧
      Counted addr name older failcount next (service.after event) := by
  obtain ⟨cb, ⟨unit, hunit, rfl, hstate⟩, tally, active⟩ := counted
  obtain ⟨event, env⟩ := event
  cases event with
  | report name' status =>
    obtain ⟨main, sent, hstep, htally⟩ :=
      registerAppStatus_tally_other env expected status tally
    refine ⟨{ node with main := main }, ?_, cb, ⟨unit, hunit, rfl, hstate⟩, htally, active⟩
    simp [feed, registerAll, hstep]
  | activeState new_state =>
    obtain ⟨called, hchanged, hreport⟩ := unitActiveStateChanged_eq cb hunit new_state
    obtain ⟨main, hregister, htally⟩ :=
      registerAll_tally env service new_state active expected tally _ rfl
    rw [report_changed hunit, hstate] at hreport
    refine ⟨⟨(Move.changed addr new_state).apply node.systemd, main⟩, ?_, ?_,
      ⟨_, changed_heap_self hunit new_state, rfl, ?_⟩, htally, fun hactive => ?_⟩
    · simp [feed, hchanged, hreport, hregister]
    · rw [changed_apply hunit]
      exact cb
    · exact (service.next_active_state new_state).symm
    · obtain rfl : new_state = .active := (service.next_active_state new_state).symm.trans hactive
      exact service.next_active

/-- The failcount of a unit grows by the number of times it switched to failed. -/
theorem failcount_feed (addr : Addr) (node : Node) (unit : NhmSystemdUnit)
    (hcb : node.systemd.app_status_cb = true) (hunit : node.systemd.heap addr = some unit)
    (lc : NhmLcInfo) (older : List NhmLcInfo) (ready : Ready node.main lc older)
    (hlist : unit.name ∉ node.main.failedNames) (events : List (Feed × Env))
    (expected : Transition.AllSteps (fun service event => some (Service.after service event))
      (Expected unit.name) ⟨unit.active_state, false, 0⟩ events) :
    ∃ last lc', Transition.run (feed addr) node events = some last ∧ Ready last.main lc' older ∧
      appFailcount unit.name lc' = appFailcount unit.name lc +
        UInt32.ofNat (events.foldl Service.after ⟨unit.active_state, false, 0⟩).failures := by
  have start : Counted addr unit.name older (appFailcount unit.name lc) node
      ⟨unit.active_state, false, 0⟩ := by
    refine ⟨hcb, ⟨unit, hunit, rfl, rfl⟩, ⟨lc, ready, List.count_eq_zero.mpr hlist, ?_⟩,
      fun _ => rfl⟩
    exact (UInt32.add_zero _).symm
  obtain ⟨last, hrun, counted⟩ := Transition.run_simulates (feed addr) Service.after
    (Counted addr unit.name older (appFailcount unit.name lc)) (Expected unit.name) feed_counted
    events node _ start expected
  obtain ⟨lc', ready', -, hfailcount⟩ := counted.tally
  exact ⟨last, lc', hrun, ready', hfailcount⟩

def inactiveNode : Node := ⟨State.listUnit (State.connected {}) (serviceA strInactive), noReports⟩

theorem failcount_feed_restarted : ∃ last lc',
    Transition.run (feed 0) inactiveNode
      [(.activeState .failed, {}), (.activeState .activating, {})] = some last ∧
    Ready last.main lc' [] ∧
    appFailcount (serviceA strInactive).name lc' =
      appFailcount (serviceA strInactive).name ⟨NhmNodeState.notset, []⟩ +
        UInt32.ofNat (List.foldl Service.after ⟨.inactive, false, 0⟩
          [(.activeState .failed, {}), (.activeState .activating, {})]).failures :=
  failcount_feed 0 inactiveNode _ rfl rfl ⟨NhmNodeState.notset, []⟩ [] ⟨rfl, rfl, rfl⟩ (by decide)
    [(.activeState .failed, {}), (.activeState .activating, {})]
    ⟨nofun, fun _ h => Option.some.inj h ▸ ⟨nofun, fun _ _ => trivial⟩⟩

def failedEntries (old_state : NhmActiveState) : List NhmActiveState → ℕ
  | [] => 0
  | new_state :: states =>
      (if new_state = .failed ∧ old_state ≠ .failed then 1 else 0) + failedEntries new_state states

/-- A unit fails, is INACTIVE, and fails again: that is counted once. -/
theorem not_failedEntries_counted : ∃ last lc',
    Transition.run (feed 0) inactiveNode
      [(.activeState .failed, {}), (.activeState .inactive, {}), (.activeState .failed, {})] =
        some last ∧
    last.main.nodeinfo = some [lc'] ∧
    appFailcount (serviceA strInactive).name lc' ≠
      appFailcount (serviceA strInactive).name ⟨NhmNodeState.notset, []⟩ +
        UInt32.ofNat (failedEntries .inactive [.failed, .inactive, .failed]) :=
  ⟨_, _, rfl, rfl, by decide⟩

end NodeHealthMonitor.UnitObservation
