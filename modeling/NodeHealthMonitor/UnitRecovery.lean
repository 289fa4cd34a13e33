import NodeHealthMonitor.UnitObservation

/-! A recovered unit and the list of failed applications. A unit that becomes ACTIVE is
reported Ok on every way but two: from DEACTIVATING the table has no callback, and the
state a new unit is found in is not reported at all. -/

namespace NodeHealthMonitor.UnitObservation
open DBus NhmSystemd NhmMain

theorem activeStateMap_active {old : NhmActiveState} (h : old ≠ .active)
    (h' : old ≠ .deactivating) : activeStateMap old .active = callOk := by
  cases old <;> first | rfl | contradiction

theorem activeStateMap_other (old : NhmActiveState) {new : NhmActiveState} (h : new ≠ .failed)
    (hcall : (activeStateMap old new).do_callback = true) :
    isFailed (activeStateMap old new).next_status = false := by
  cases old <;> cases new <;> first | rfl | contradiction

def RecoveredIn (s : NhmSystemd.State) (names : List CString) : Prop :=
  ∀ a ∈ s.observed_units, ∀ unit, s.heap a = some unit → unit.active_state = .active →
    unit.name ∉ names

def Recovered (node : Node) : Prop := RecoveredIn node.systemd node.main.failedNames

/-- No unit is taken for ACTIVE silently while its name is on the list, and none puts the
name of another unit that is ACTIVE on it. -/
def NoSilentRecovery (node : Node) (event : Signal × Env) : Prop :=
  match event.1.move node.systemd with
  | .added name _ state => state = .active → name ∉ node.main.failedNames
  | .changed addr state => ∀ unit, node.systemd.heap addr = some unit →
      (unit.active_state = .deactivating → state = .active →
        unit.name ∉ node.main.failedNames) ∧
      (state = .failed → ∀ a ∈ node.systemd.observed_units, a ≠ addr →
        ∀ other, node.systemd.heap a = some other → other.name = unit.name →
          other.active_state ≠ .active)
  | _ => True

section
variable {s : NhmSystemd.State} {names names' : List CString} (before : RecoveredIn s names)
include before

theorem recoveredIn_added (name path : CString) (state : NhmActiveState) :
    RecoveredIn ((Move.added name path state).apply s) names ↔
      (state = .active → name ∉ names) := by
  constructor
  · intro after hactive
    exact after s.next_addr List.mem_cons_self _ (newUnit_heap_self ..) hactive
  · intro hnew a ha unit hunit hactive
    rcases observed_newUnit (fun a => List.mem_cons) ha hunit with ⟨-, rfl⟩ | ⟨-, ha, hunit⟩
    · exact hnew hactive
    · exact before a ha unit hunit hactive

theorem recoveredIn_removed {addr : Addr} {unit : NhmSystemdUnit}
    (hunit : s.heap addr = some unit) : RecoveredIn ((Move.removed addr).apply s) names := by
  intro a ha other hother hactive
  obtain ⟨-, ha, hother⟩ := observed_removed hunit ha hother
  exact before a ha other hother hactive

end

section
variable {s : NhmSystemd.State} {names names' : List CString} {addr : Addr}
  {unit : NhmSystemdUnit} (haddr : addr ∈ s.observed_units) (hunit : s.heap addr = some unit)
include hunit

theorem listed_of_listedAfter {state : NhmActiveState} (hstate : state ≠ .failed) {a : CString}
    (h : ListedAfter ((Move.changed addr state).report s) names a) : a ∈ names := by
  rw [report_changed hunit] at h
  cases hcall : (activeStateMap unit.active_state state).do_callback with
  | false =>
    rw [hcall, if_neg (by decide)] at h
    exact h
  | true =>
    rw [hcall, if_pos rfl, ListedAfter, activeStateMap_other _ hstate hcall] at h
    by_cases ha : unit.name = a
    · simp [ha] at h
    · simpa [ha] using h

include haddr

theorem recoveredIn_changed (state : NhmActiveState) :
    RecoveredIn ((Move.changed addr state).apply s) names' ↔
      (state = .active → unit.name ∉ names') ∧
      ∀ a ∈ s.observed_units, a ≠ addr → ∀ other, s.heap a = some other →
        other.active_state = .active → other.name ∉ names' := by
  constructor
  · intro after
    rw [RecoveredIn, changed_observed] at after
    constructor
    · exact after addr haddr _ (changed_heap_self hunit state)
    · intro a ha hne other hother
      exact after a ha other ((changed_heap_of_ne hunit state hne).trans hother)
  · intro ⟨hself, hothers⟩ a ha other hother hactive
    rcases observed_changed hunit ha hother with ⟨rfl, rfl⟩ | ⟨hne, ha, hother⟩
    · exact hself hactive
    · exact hothers a ha hne other hother hactive

variable (before : RecoveredIn s names)
include before

theorem recoveredIn_failed (hne : unit.active_state ≠ .failed) (hnames : ∀ a, a ∈ names' ↔
      ListedAfter ((Move.changed addr .failed).report s) names a) :
    RecoveredIn ((Move.changed addr .failed).apply s) names' ↔
      ∀ a ∈ s.observed_units, a ≠ addr → ∀ other, s.heap a = some other →
        other.name = unit.name → other.active_state ≠ .active := by
  have hlisted : ∀ a, a ∈ names' ↔ unit.name = a ∨ a ∈ names :=
    fun a => (hnames a).trans (listedAfter_failed hunit hne names a)
  rw [recoveredIn_changed haddr hunit]
  constructor
  · intro ⟨_, hothers⟩ a ha hother other hheap hname hactive
    exact hothers a ha hother other hheap hactive ((hlisted _).mpr (Or.inl hname.symm))
  · intro hothers
    refine ⟨fun h => absurd h (by decide), fun a ha hother other hheap hactive hname => ?_⟩
    rcases (hlisted _).mp hname with hsame | hold
    · exact hothers a ha hother other hheap hsame.symm hactive
    · exact before a ha other hheap hactive hold

theorem recoveredIn_other {state : NhmActiveState} (hne : unit.active_state ≠ state)
    (hstate : state ≠ .failed) (hnames : ∀ a, a ∈ names' ↔
      ListedAfter ((Move.changed addr state).report s) names a) :
    RecoveredIn ((Move.changed addr state).apply s) names' ↔
      (unit.active_state = .deactivating → state = .active → unit.name ∉ names) := by
  have hsub : ∀ a, a ∈ names' → a ∈ names :=
    fun a ha => listed_of_listedAfter hunit hstate ((hnames a).mp ha)
  have hothers : ∀ a ∈ s.observed_units, a ≠ addr → ∀ other, s.heap a = some other →
      other.active_state = .active → other.name ∉ names' :=
    fun a ha _ other hheap hactive hname => before a ha other hheap hactive (hsub _ hname)
  rw [recoveredIn_changed haddr hunit, and_iff_left hothers]
  by_cases hactive : state = .active
  · subst hactive
    rw [hnames, report_changed hunit]
    by_cases hsilent : unit.active_state = .deactivating
    · have hnone : (activeStateMap .deactivating .active).do_callback = false := rfl
      simp [hsilent, hnone, ListedAfter]
    · have hok : isFailed NhmAppStatus.ok = false := rfl
      simp [hsilent, activeStateMap_active hne hsilent, callOk, ListedAfter, hok]
  · simp only [hactive, false_implies, implies_true]

end

theorem recovered_iff {node : Node} (coherent : Coherent node.systemd) (before : Recovered node)
    (event : Signal × Env) (names' : List CString)
    (hnames : ∀ a, a ∈ names' ↔ ListedAfter
      ((event.1.move node.systemd).report node.systemd) node.main.failedNames a) :
    RecoveredIn ((event.1.move node.systemd).apply node.systemd) names' ↔
      NoSilentRecovery node event := by
  have valid := move_valid coherent event.1
  unfold NoSilentRecovery
  cases hmove : event.1.move node.systemd with
  | stay =>
    rw [hmove] at hnames
    refine iff_of_true (fun a ha unit hunit hactive hname => ?_) trivial
    exact before a ha unit hunit hactive ((hnames unit.name).mp hname)
  | added name path state =>
    rw [hmove] at hnames
    have hsame : ∀ a, a ∈ names' ↔ a ∈ node.main.failedNames := hnames
    have hiff := recoveredIn_added before name path state
    simpa only [RecoveredIn, hsame] using hiff
  | removed addr =>
    rw [hmove] at hnames valid
    obtain ⟨unit, -, hunit, -⟩ := coherent.listed addr valid
    have hsame : ∀ a, a ∈ names' ↔ a ∈ node.main.failedNames := hnames
    have hafter := recoveredIn_removed before hunit
    exact iff_of_true (by simpa only [RecoveredIn, hsame] using hafter) trivial
  | changed addr state =>
    rw [hmove] at hnames valid
    obtain ⟨haddr, unit, hunit, hne⟩ := valid
    simp only [hunit, Option.some.injEq, forall_eq']
    by_cases hfailed : state = .failed
    · subst hfailed
      rw [recoveredIn_failed haddr hunit before hne hnames]
      simp
    · rw [recoveredIn_other haddr hunit before hne hfailed hnames]
      simp only [hfailed, false_implies, and_true]

/-- In every run behind a successful connect, recovered units stay off the list in all
states reached exactly as long as no step is a silent recovery. -/
theorem recovered_run {glib : GLib} (delivers : glib.Delivers) (env : ConnectEnv)
    (systemd : NhmSystemd.State) (sent : List Output)
    (hconnect : connect glib env true {} = some (true, systemd, sent))
    {older : List NhmLcInfo} {main : NhmMain.State} (hmain : Following [] older main)
    (events : List (Signal × Env)) :
    (∃ last, Transition.run (observe glib) ⟨systemd, main⟩ events = some last) ∧
      ((∀ pre, pre <+: events → ∀ node,
          Transition.run (observe glib) ⟨systemd, main⟩ pre = some node → Recovered node) ↔
        Transition.AllSteps (observe glib) NoSilentRecovery ⟨systemd, main⟩ events) := by
  have start := connect_observing delivers env systemd sent hconnect hmain
  have hempty : main.failedNames = [] := following_nil hmain
  constructor
  · obtain ⟨last, hrun, -⟩ := observe_run delivers start events
    exact ⟨last, hrun⟩
  · refine Transition.always_iff_allSteps (observe glib) Observing Recovered NoSilentRecovery
      (fun node event observing before => ?_) events _ start ?_
    · obtain ⟨main', hstep, hnext, hnames⟩ := observe_eq delivers observing event
      exact ⟨_, hstep, hnext, recovered_iff observing.coherent before event _ hnames⟩
    · intro a _ unit _ _ hname
      rw [hempty] at hname
      exact absurd hname List.not_mem_nil

theorem recovered_run_restarted : ∃ systemd sent,
    connect handingOver { list_units := some [serviceA strInactive] } true {} =
      some (true, systemd, sent) ∧
    ∀ pre, pre <+: [stateSignal 3 strFailed, stateSignal 3 strActive] → ∀ node,
      Transition.run (observe handingOver) ⟨systemd, noReports⟩ pre = some node →
        Recovered node := by
  refine ⟨_, _, rfl, (recovered_run handingOver_delivers
    { list_units := some [serviceA strInactive] } _ _ rfl noReports_following _).2.mpr
      ⟨fun unit hunit => ?_, fun _ h => Option.some.inj h ▸ ⟨fun unit hunit => ?_,
        fun _ _ => trivial⟩⟩⟩
  · cases hunit
    refine ⟨fun h => absurd h (by decide), fun _ a ha hne => ?_⟩
    exact absurd (List.mem_singleton.mp ha) hne
  · cases hunit
    exact ⟨fun h => absurd h (by decide), fun h => absurd h (by decide)⟩

/-- A unit fails and, on its way down, comes back. -/
theorem not_recovered_deactivating : ∃ systemd sent last,
    connect handingOver { list_units := some [serviceA strInactive] } true {} =
      some (true, systemd, sent) ∧
    Transition.run (observe handingOver) ⟨systemd, noReports⟩
      [stateSignal 3 strFailed, stateSignal 3 strDeactivating, stateSignal 3 strActive] =
        some last ∧
    ¬Recovered last :=
  ⟨_, _, _, rfl, rfl, fun h => h 0 (by decide) _ rfl rfl (by decide)⟩

end NodeHealthMonitor.UnitObservation
