import NodeHealthMonitor.AppStatus
import NodeHealthMonitor.Connection
import NodeHealthMonitor.Transition

/-! The observation of systemd together with the list of failed applications it feeds:
`nhm_systemd_connect(nhm_main_register_app_status)` and then any sequence of signals.
The two views of a unit, its recorded ActiveState and its place on the list, meet only
through the transitions that are reported. -/

namespace NodeHealthMonitor.UnitObservation
open DBus NhmSystemd NhmMain ReportHistory

structure Node where
  systemd : NhmSystemd.State
  main : NhmMain.State

def registerAll (env : Env) : List Report → NhmMain.State → Option NhmMain.State
  | [], s => some s
  | (name, status) :: reports, s => do
      let (s, _) ← registerAppStatus env name status s
      registerAll env reports s

def observe (glib : GLib) (node : Node) (event : Signal × Env) : Option Node := do
  let (systemd, sent) ← dispatch glib event.1 node.systemd
  let main ← registerAll event.2 (sent.filterMap Output.report?) node.main
  some ⟨systemd, main⟩

structure Observing (node : Node) : Prop where
  coherent : Coherent node.systemd
  following : ∃ reports older, Following reports older node.main

def ListedAfter (report : Option Report) (names : List CString) (a : CString) : Prop :=
  match report with
  | some (name, status) => if name = a then isFailed status = true else a ∈ names
  | none => a ∈ names

theorem mem_failedNames_registerAppStatus {reports : List Report} {older : List NhmLcInfo}
    {name : CString} {status : NhmAppStatus} {s next : NhmMain.State}
    (before : Following reports older s)
    (after : Following ((name, status) :: reports) older next) (a : CString) :
    a ∈ next.failedNames ↔ ListedAfter (some (name, status)) s.failedNames a := by
  obtain ⟨lc, -, tracks⟩ := before
  obtain ⟨lc', -, tracks'⟩ := after
  rw [tracks'.mem_current, holds_cons, ListedAfter]
  split
  · rfl
  · rw [tracks.mem_current]

theorem observe_eq {glib : GLib} (delivers : glib.Delivers) {node : Node}
    (observing : Observing node) (event : Signal × Env) :
    ∃ main, observe glib node event =
        some ⟨(event.1.move node.systemd).apply node.systemd, main⟩ ∧
      Observing ⟨(event.1.move node.systemd).apply node.systemd, main⟩ ∧
      ∀ a, a ∈ main.failedNames ↔
        ListedAfter ((event.1.move node.systemd).report node.systemd) node.main.failedNames a := by
  obtain ⟨sent, hdispatch, hreport⟩ := dispatch_performs delivers observing.coherent.usable event.1
  have hcoherent := apply_coherent observing.coherent (move_valid observing.coherent event.1)
  obtain ⟨reports, older, following⟩ := observing.following
  cases hmove : (event.1.move node.systemd).report node.systemd with
  | none =>
    refine ⟨node.main, ?_, ⟨hcoherent, reports, older, following⟩, fun a => Iff.rfl⟩
    simp [observe, hdispatch, hreport, hmove, registerAll]
  | some report =>
    obtain ⟨name, status⟩ := report
    obtain ⟨main, called, hstep, hfollowing, -⟩ :=
      registerAppStatus_following event.2 name status following
    refine ⟨main, ?_, ⟨hcoherent, _, older, hfollowing⟩,
      mem_failedNames_registerAppStatus following hfollowing⟩
    simp [observe, hdispatch, hreport, hmove, registerAll, hstep]

theorem activeStateMap_failed {old : NhmActiveState} (h : old ≠ .failed) :
    activeStateMap old .failed = callFailed := by
  cases old <;> first | rfl | contradiction

section
variable {s : NhmSystemd.State} {addr : Addr} {unit : NhmSystemdUnit}
  (hunit : s.heap addr = some unit)
include hunit

theorem report_changed (state : NhmActiveState) : (Move.changed addr state).report s =
    if (activeStateMap unit.active_state state).do_callback then
      some (unit.name, (activeStateMap unit.active_state state).next_status)
    else none := by
  simp [Move.report, hunit]

theorem listedAfter_failed (hold : unit.active_state ≠ .failed) (names : List CString)
    (a : CString) : ListedAfter ((Move.changed addr .failed).report s) names a ↔
      unit.name = a ∨ a ∈ names := by
  have hreport : (Move.changed addr .failed).report s = some (unit.name, NhmAppStatus.failed) := by
    rw [report_changed hunit, activeStateMap_failed hold]
    rfl
  rw [hreport, ListedAfter]
  by_cases ha : unit.name = a <;> simp [ha, isFailed]

theorem listedAfter_of_name_ne (state : NhmActiveState) (names : List CString) {a : CString}
    (ha : unit.name ≠ a) :
    ListedAfter ((Move.changed addr state).report s) names a ↔ a ∈ names := by
  rw [report_changed hunit]
  cases hcall : (activeStateMap unit.active_state state).do_callback <;> simp [ListedAfter, ha]

end

theorem following_nil {older : List NhmLcInfo} {main : NhmMain.State}
    (h : Following [] older main) : main.failedNames = [] := by
  obtain ⟨lc, -, tracks⟩ := h
  apply List.eq_nil_iff_forall_not_mem.mpr
  intro a ha
  have := (tracks.mem_current a).mp ha
  contradiction

theorem connect_observing {glib : GLib} (delivers : glib.Delivers) (env : ConnectEnv)
    (systemd : NhmSystemd.State) (sent : List Output)
    (hconnect : connect glib env true {} = some (true, systemd, sent))
    {older : List NhmLcInfo} {main : NhmMain.State} (hmain : Following [] older main) :
    Observing ⟨systemd, main⟩ := by
  obtain ⟨units, -, rfl⟩ := connect_true delivers env true {} systemd sent hconnect
  exact ⟨listUnits_coherent connected_coherent units, [], older, hmain⟩

theorem observe_run {glib : GLib} (delivers : glib.Delivers) {node : Node}
    (start : Observing node) (events : List (Signal × Env)) :
    ∃ last, Transition.run (observe glib) node events = some last ∧ Observing last := by
  have preserved : ∀ n (event : Signal × Env), Observing n → True →
      ∃ next, observe glib n event = some next ∧ Observing next := by
    intro n event observing _
    obtain ⟨main, hstep, hnext, -⟩ := observe_eq delivers observing event
    exact ⟨_, hstep, hnext⟩
  exact Transition.run_invariant (observe glib) Observing (fun _ _ => True) preserved events node
    start (Transition.allSteps_of_forall (observe glib) (fun _ => True) node events
      fun _ _ => trivial)

def stateSignal (sub_id : ℕ) (active_state : CString) : Signal × Env :=
  (⟨sub_id, .propertiesChanged CString.empty [] [activeStateProp], some (.string active_state)⟩,
    { fopen_w := false })

def noReports : NhmMain.State :=
  { NhmMain.State.start {} ⟨none, none⟩ with
    dbus_nhm_info_obj := true, nodeinfo := some [⟨NhmNodeState.notset, []⟩] }

theorem noReports_following : Following [] [] noReports :=
  ⟨_, ⟨rfl, rfl, rfl⟩, Tracks.nil NhmNodeState.notset⟩

end NodeHealthMonitor.UnitObservation
