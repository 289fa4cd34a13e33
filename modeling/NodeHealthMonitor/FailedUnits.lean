import NodeHealthMonitor.UnitNames
import NodeHealthMonitor.UnitObservation

/-! A failed unit and the list of failed applications. Every way into FAILED is reported,
so a unit recorded FAILED is on the list, unless it was FAILED when it was first seen.
The list knows names only: two listed units of one name would share their entry. -/

namespace NodeHealthMonitor.UnitObservation
open DBus NhmSystemd NhmMain

def Missed (node : Node) (unit : NhmSystemdUnit) : Prop :=
  unit.active_state = .failed ∧ unit.name ∉ node.main.failedNames

def ListedOnce (units : List ListedUnit) (name : CString) : Prop :=
  (units.map (·.name)).count name ≤ 1

/-- A unit that is not missed: one that was seen before, and is on the list while FAILED. -/
structure Noticed (units : List ListedUnit) (a : Addr) (node : Node) : Prop where
  seen : a < node.systemd.next_addr
  listed : a ∈ node.systemd.observed_units → ∀ unit, node.systemd.heap a = some unit →
    ListedOnce units unit.name → unit.active_state = .failed →
    unit.name ∈ node.main.failedNames

structure Watching (units : List ListedUnit) (node : Node) : Prop where
  observing : Observing node
  one : ∀ name, ListedOnce units name → OneUnit node.systemd name

theorem noticed_step {units : List ListedUnit} {node : Node} (watching : Watching units node)
    {a : Addr} (noticed : Noticed units a node) {move : Move} (valid : move.Valid node.systemd)
    (main : NhmMain.State) (hnames : ∀ name, name ∈ main.failedNames ↔
      ListedAfter (move.report node.systemd) node.main.failedNames name) :
    Noticed units a ⟨move.apply node.systemd, main⟩ := by
  have coherent := watching.observing.coherent
  cases move with
  | stay =>
    exact ⟨noticed.seen, fun ha unit hunit honce hfailed =>
      (hnames _).mpr (noticed.listed ha unit hunit honce hfailed)⟩
  | added name path state =>
    refine ⟨Nat.lt_succ_of_lt noticed.seen, fun ha unit hunit honce hfailed => (hnames _).mpr ?_⟩
    rcases observed_newUnit (fun a => List.mem_cons) ha hunit with ⟨rfl, -⟩ | ⟨-, ha, hunit⟩
    · exact absurd noticed.seen (Nat.lt_irrefl _)
    · exact noticed.listed ha unit hunit honce hfailed
  | removed addr =>
    obtain ⟨old, -, hold, -⟩ := coherent.listed addr valid
    refine ⟨by rw [removed_apply hold]; exact noticed.seen,
      fun ha unit hunit honce hfailed => (hnames _).mpr ?_⟩
    obtain ⟨-, ha, hunit⟩ := observed_removed hold ha hunit
    exact noticed.listed ha unit hunit honce hfailed
  | changed addr state =>
    obtain ⟨haddr, old, hold, hchange⟩ := valid
    refine ⟨by rw [changed_apply hold]; exact noticed.seen,
      fun ha unit hunit honce hfailed => (hnames _).mpr ?_⟩
    rcases observed_changed hold ha hunit with ⟨rfl, rfl⟩ | ⟨hne, ha, hunit⟩
    · obtain rfl : state = .failed := hfailed
      exact (listedAfter_failed hold hchange _ _).mpr (Or.inl rfl)
    · have hlisted := noticed.listed ha unit hunit honce hfailed
      -- Only a report for the same name could take it off the list.
      have hname : old.name ≠ unit.name := fun h =>
        hne (watching.one _ honce a addr ⟨ha, unit, hunit, rfl⟩ ⟨haddr, old, hold, h⟩)
      exact (listedAfter_of_name_ne hold state _ hname).mpr hlisted

theorem observe_watching {glib : GLib} (delivers : glib.Delivers) {units : List ListedUnit}
    {node : Node} (watching : Watching units node) (event : Signal × Env) :
    ∃ next, observe glib node event = some next ∧ Watching units next ∧
      ∀ a, Noticed units a node → Noticed units a next := by
  have coherent := watching.observing.coherent
  have valid := move_valid coherent event.1
  obtain ⟨main, hstep, hnext, hnames⟩ := observe_eq delivers watching.observing event
  refine ⟨_, hstep, ⟨hnext, fun name honce => ?_⟩, fun a noticed => ?_⟩
  · exact oneUnit_apply coherent valid (watching.one name honce)
  · exact noticed_step watching noticed valid main hnames

theorem watching_run {glib : GLib} (delivers : glib.Delivers) {units : List ListedUnit}
    {node : Node} (start : Watching units node) (events : List (Signal × Env)) :
    ∃ last, Transition.run (observe glib) node events = some last ∧ Watching units last ∧
      ∀ a, Noticed units a node → Noticed units a last := by
  refine Transition.run_invariant (observe glib)
    (fun next => Watching units next ∧ ∀ a, Noticed units a node → Noticed units a next)
    (fun _ _ => True) ?_ events node ⟨start, fun _ noticed => noticed⟩
    (Transition.allSteps_of_forall (observe glib) (fun _ => True) node events fun _ _ => trivial)
  intro mid event ⟨watching, hmid⟩ _
  obtain ⟨next, hstep, hnext, hnoticed⟩ := observe_watching delivers watching event
  exact ⟨next, hstep, hnext, fun a noticed => hnoticed a (hmid a noticed)⟩

theorem connect_watching {glib : GLib} (delivers : glib.Delivers) (env : ConnectEnv)
    (systemd : NhmSystemd.State) (sent : List Output)
    (hconnect : connect glib env true {} = some (true, systemd, sent))
    {older : List NhmLcInfo} {main : NhmMain.State} (hmain : Following [] older main) :
    ∃ units, env.list_units = some units ∧ Watching units ⟨systemd, main⟩ := by
  have observing := connect_observing delivers env systemd sent hconnect hmain
  obtain ⟨units, hunits, hsystemd⟩ := connect_true delivers env true {} systemd sent hconnect
  refine ⟨units, hunits, observing, fun name honce => ?_⟩
  have hnot : ∀ a, ¬Named (State.connected {}) name a := fun a h => List.not_mem_nil h.1
  rw [hsystemd]
  exact oneUnit_listUnits units name (fun a b ha => absurd ha (hnot a)) (fun _ => hnot) honce

/-- In every run behind a successful connect, an observed unit recorded FAILED is on the
list, or it was missed in every state since it was first seen. -/
theorem failed_listed_run {glib : GLib} (delivers : glib.Delivers) (env : ConnectEnv)
    (systemd : NhmSystemd.State) (sent : List Output)
    (hconnect : connect glib env true {} = some (true, systemd, sent))
    {older : List NhmLcInfo} {main : NhmMain.State} (hmain : Following [] older main)
    (events : List (Signal × Env)) :
    ∃ units last, env.list_units = some units ∧
      Transition.run (observe glib) ⟨systemd, main⟩ events = some last ∧
      ∀ a ∈ last.systemd.observed_units, ∀ unit, last.systemd.heap a = some unit →
        ListedOnce units unit.name → unit.active_state = .failed →
        unit.name ∈ last.main.failedNames ∨
          ∀ pre, pre <+: events → ∀ node,
            Transition.run (observe glib) ⟨systemd, main⟩ pre = some node →
            a ∈ node.systemd.observed_units → ∀ unit, node.systemd.heap a = some unit →
            Missed node unit := by
  obtain ⟨units, hunits, start⟩ := connect_watching delivers env systemd sent hconnect hmain
  obtain ⟨last, hrun, -⟩ := watching_run delivers start events
  refine ⟨units, last, hunits, hrun, fun a ha unit hunit honce hfailed => ?_⟩
  by_contra hmissed
  rw [not_or] at hmissed
  refine hmissed.2 fun pre hpre node hnode ha' unit' hunit' => ?_
  by_contra hnotMissed
  -- From the state in which the unit was not missed, it is noticed to the end.
  obtain ⟨post, rfl⟩ := hpre
  obtain ⟨_, hmid, watching, -⟩ := watching_run delivers start pre
  obtain rfl := Option.some.inj (hnode.symm.trans hmid)
  rw [Transition.run_append, hnode, Option.bind_some] at hrun
  obtain ⟨_, hlast, -, hkeep⟩ := watching_run delivers watching post
  obtain rfl := Option.some.inj (hrun.symm.trans hlast)
  have noticed : Noticed units a node := by
    refine ⟨watching.observing.coherent.observed_lt a ha', fun _ unit hunit _ hstate => ?_⟩
    obtain rfl := Option.some.inj (hunit'.symm.trans hunit)
    exact not_not.mp fun hname => hnotMissed ⟨hstate, hname⟩
  exact hmissed.1 ((hkeep a noticed).listed ha unit hunit honce hfailed)

theorem failed_listed_run_inactive : ∃ systemd sent units last,
    connect handingOver { list_units := some [serviceA strInactive] } true {} =
      some (true, systemd, sent) ∧
    ConnectEnv.list_units { list_units := some [serviceA strInactive] } = some units ∧
    Transition.run (observe handingOver) ⟨systemd, noReports⟩ [stateSignal 3 strFailed] =
      some last ∧
    ∀ a ∈ last.systemd.observed_units, ∀ unit, last.systemd.heap a = some unit →
      ListedOnce units unit.name → unit.active_state = .failed →
      unit.name ∈ last.main.failedNames ∨
        ∀ pre, pre <+: [stateSignal 3 strFailed] → ∀ node,
          Transition.run (observe handingOver) ⟨systemd, noReports⟩ pre = some node →
          a ∈ node.systemd.observed_units → ∀ unit, node.systemd.heap a = some unit →
          Missed node unit := by
  obtain ⟨units, last, h⟩ := failed_listed_run handingOver_delivers
    { list_units := some [serviceA strInactive] } _ _ rfl noReports_following
    [stateSignal 3 strFailed]
  exact ⟨_, _, units, last, rfl, h⟩

def FailedListed (node : Node) : Prop :=
  ∀ a ∈ node.systemd.observed_units, ∀ unit, node.systemd.heap a = some unit →
    unit.active_state = .failed → unit.name ∈ node.main.failedNames

/-- A unit found FAILED by `ListUnits` is missed, and so is one that fails before another
unit of its name becomes ACTIVE. -/
theorem not_failedListed :
    (∃ systemd sent, connect handingOver { list_units := some [serviceA strFailed] } true {} =
        some (true, systemd, sent) ∧ ¬FailedListed ⟨systemd, noReports⟩) ∧
    ∃ systemd sent last, connect handingOver
        { list_units := some [serviceA strInactive, serviceA strInactive] } true {} =
          some (true, systemd, sent) ∧
      Transition.run (observe handingOver) ⟨systemd, noReports⟩
        [stateSignal 3 strFailed, stateSignal 4 strActive] = some last ∧ ¬FailedListed last :=
  ⟨⟨_, _, rfl, fun h => absurd (h 0 (by decide) _ rfl rfl) (by decide)⟩,
    _, _, _, rfl, rfl, fun h => absurd (h 0 (by decide) _ rfl rfl) (by decide)⟩

end NodeHealthMonitor.UnitObservation
