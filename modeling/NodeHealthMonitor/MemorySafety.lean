import NodeHealthMonitor.ProgramRuns
import NodeHealthMonitor.RunTimeRefinement

/-! The program with its run-time data in memory. In every run of the main loop it does what
the program on values does, with any allocator: no event uses memory that is not allocated,
at every moment just the data in use is allocated, and behind the loop nothing is. -/

namespace NodeHealthMonitor.RunTimeHeap
open LinkedList MainLoop NhmMain OwnedMemory

structure Program where
  vars : Vars
  memory : Memory Block
  systemd : NhmSystemd.State := {}
  running : Bool
  quit : Bool := false
  bus_acquired : Bool := false
  exported : Bool := false

def Program.start (cfg : Config) (disk : Disk) (env : NsmEnv) : Program where
  vars := {
    cfg := cfg, disk := disk, dbus_lc_control_obj := (connectToNsm env).2
    dbus_nhm_info_obj := none, nodeinfo := none, current_failed_apps := none
    checked_dbusses := prepareChecks cfg.monitored_dbus }
  memory := Memory.empty
  running := (connectToNsm env).1

def Program.call (q : Program) (callback : Vars → HeapM Block (Vars × List Effect)) :
    Option (Program × List Effect) := do
  let ((vars, sent), memory) ← callback q.vars q.memory
  some ({ q with vars := vars, memory := memory }, sent)

/-- The events of `MainLoop.step`, with the callbacks on the memory. -/
def step (glib : DBus.GLib) (A : Allocator Block) (q : Program) :
    Event → Option (Program × List Effect)
  | .busAcquired env => do
      let (q, sent) ← q.call (busAcquiredCb A env)
      some ({ q with
        bus_acquired := true, exported := env.skeleton_export
        quit := q.quit || !env.skeleton_export }, sent)
  | .nameAcquired env connect => do
      let (q, sent) ← q.call (nameAcquiredCb env)
      let (_, systemd, _) ← NhmSystemd.connect glib connect true q.systemd
      some ({ q with systemd := systemd }, sent)
  | .nameLost _ => some ({ q with quit := true }, [.mainLoopQuit])
  | .request request => q.call fun v => handle A v request
  | .signal message env => do
      let (systemd, called) ← NhmSystemd.dispatch glib message q.systemd
      let (q, sent) ← q.call (callBack A env (called.filterMap NhmSystemd.Output.report?))
      some ({ q with systemd := systemd }, sent)
  | .userlandCheck probes => q.call (apart (timerUserlandCheckCb probes))
  | .sigterm => some ({ q with quit := true }, [.mainLoopQuit])
  | .leaveLoop disconnect => do
      let systemd ← SystemdSession.disconnectAny disconnect q.systemd
      let (vars, memory) ← freeNhmObjects q.vars q.memory
      some ({ q with
        vars := vars.update (freeObjects vars.state), memory := memory
        systemd := systemd, running := false }, [])

def advance (glib : DBus.GLib) (A : Allocator Block) (q : Program) (event : Event) :
    Option Program :=
  (step glib A q event).map Prod.fst

/-- The memory holds the data of the program on values, and nothing else. -/
structure Holds (q : Program) (p : MainLoop.Program) (l : Layout) : Prop where
  vars : q.vars = l.vars
  memory : q.memory.cells = l.cells
  main : p.main = l.state
  systemd : q.systemd = p.systemd
  running : q.running = p.running
  quit : q.quit = p.quit
  bus_acquired : q.bus_acquired = p.bus_acquired
  exported : q.exported = p.exported

/-- Every record of the data file is complete when the file is loaded. -/
def Readable (p : MainLoop.Program) : Event → Prop
  | .busAcquired env => ∃ stored, LcData.readData p.main.cfg.max_lc_count
      (if env.fopen_r then p.main.disk.lcdata else none) [] = some stored
  | _ => True

theorem readData_append {max_lc_count : UInt32} {file : Option (List UInt8)}
    {stored : List NhmLcInfo} (h : LcData.readData max_lc_count file [] = some stored)
    (before : List NhmLcInfo) :
    LcData.readData max_lc_count file before = some (before ++ stored) := by
  cases file with
  | none =>
    cases h
    rw [LcData.readData, List.append_nil]
  | some bytes =>
    obtain ⟨values, hvalues, rfl⟩ := Option.map_eq_some_iff.mp h
    rw [LcData.readData, hvalues, Option.map_some]
    rfl

theorem Layout.noData {l : Layout} (h : NoData l.state) :
    l.info = none ∧ l.nodeinfo = none ∧ l.cells = 0 := by
  have hinfo : l.info = none := by
    have hisNone := h.info
    cases hl : l.info with
    | none => rfl
    | some a => simp [Layout.state, hl] at hisNone
  have hnodeinfo : l.nodeinfo = none := Option.map_eq_none_iff.mp h.nodeinfo
  have hcurrent : l.current = [] := List.map_eq_nil_iff.mp h.current
  refine ⟨hinfo, hnodeinfo, ?_⟩
  rw [Layout.cells, hinfo, hnodeinfo, hcurrent]
  rfl

theorem holds_start (cfg : Config) (disk : Disk) (env : NsmEnv) :
    ∃ l, Holds (.start cfg disk env) (.start cfg disk env) l :=
  ⟨⟨cfg, disk, (connectToNsm env).2, prepareChecks cfg.monitored_dbus, none, [], none⟩,
    rfl, rfl, rfl, rfl, rfl, rfl, rfl, rfl⟩

section
variable {q : Program} {p : MainLoop.Program} {l : Layout} (holds : Holds q p l)
include holds

theorem Holds.call (callback : Vars → HeapM Block (Vars × List Effect))
    {result : Option (State × List Effect)} (hrefines : Refines l (callback l.vars) result)
    {main : State} {sent : List Effect} (hresult : result = some (main, sent)) :
    ∃ vars memory l', q.call callback = some ({ q with vars := vars, memory := memory }, sent) ∧
      Holds { q with vars := vars, memory := memory } { p with main := main } l' := by
  obtain ⟨_, memory, hrun, l', rfl, hcells, hstate⟩ := (hrefines main sent hresult).run holds.memory
  refine ⟨l'.vars, memory, l', ?_, rfl, hcells, hstate.symm, holds.systemd, holds.running,
    holds.quit, holds.bus_acquired, holds.exported⟩
  simp only [Program.call, holds.vars, hrun, Option.bind_eq_bind, Option.bind_some]

theorem Holds.busAcquired {glib : DBus.GLib} {sees : LcData.LoadedLc → NhmLcInfo}
    (hsees : ∀ lc value, LcData.LoadedLc.value lc = some value → sees lc = value)
    (A : Allocator Block) (env : Env) (idle : NoData p.main)
    (readable : Readable p (.busAcquired env)) {p' : MainLoop.Program} {sent : List Effect}
    (h : MainLoop.step glib sees p (.busAcquired env) = some (p', sent)) :
    ∃ q' l', step glib A q (.busAcquired env) = some (q', sent) ∧ Holds q' p' l' := by
  obtain ⟨stored, hstored⟩ := readable
  have hvalue : ∃ next sent, NhmMain.busAcquiredCb env p.main = some (next, sent) := by
    have hread := readData_append hstored [⟨readShutdownFlag env p.main.disk, []⟩]
    simp only [NhmMain.busAcquiredCb, hread, Option.bind_eq_bind, Option.bind_some]
    exact ⟨_, _, rfl⟩
  obtain ⟨main, sent, hmain⟩ := hvalue
  have hnone := Layout.noData (holds.main ▸ idle)
  have hmain' := hmain
  rw [holds.main] at hmain'
  obtain ⟨vars, memory, l', hcall, hholds⟩ := holds.call _
    (busAcquiredCb_refines A env l hnone.1 hnone.2.1) hmain'
  rw [MainLoop.step, busAcquired_eq hsees hmain] at h
  cases h
  refine ⟨⟨vars, memory, _, _, q.quit || !env.skeleton_export, true, env.skeleton_export⟩, l',
    by simp only [step, hcall, Option.bind_eq_bind, Option.bind_some], hholds.vars,
    hholds.memory, hholds.main, holds.systemd, holds.running, ?_, rfl, rfl⟩
  exact congrArg (· || !env.skeleton_export) holds.quit

theorem Holds.leaveLoop {glib : DBus.GLib} {sees : LcData.LoadedLc → NhmLcInfo}
    (A : Allocator Block) (disconnect : NhmSystemd.ConnectEnv) {p' : MainLoop.Program}
    {sent : List Effect} (h : MainLoop.step glib sees p (.leaveLoop disconnect) = some (p', sent)) :
    ∃ q' l', step glib A q (.leaveLoop disconnect) = some (q', sent) ∧ Holds q' p' l' := by
  simp only [MainLoop.step, Option.bind_eq_bind, Option.bind_eq_some_iff] at h
  obtain ⟨systemd, hdisconnect, hnext⟩ := h
  cases hnext
  obtain ⟨_, memory, hfree, -, l', rfl, hcells, hstate⟩ :=
    (freeNhmObjects_refines l).run holds.memory
  refine ⟨⟨l'.vars.update (freeObjects l'.vars.state), memory, systemd, false, _, _, _⟩, { l' with
      cfg := (freeObjects l'.vars.state).cfg, dbus_lc_control_obj := false
      checked_dbusses := none }, ?_, rfl, hcells, ?_, rfl, rfl, holds.quit, holds.bus_acquired,
    holds.exported⟩
  · simp only [step, holds.systemd, hdisconnect, holds.vars, hfree, Option.bind_eq_bind,
      Option.bind_some]
  · rw [holds.main, ← hstate]
    rfl

theorem holds_step {glib : DBus.GLib} {sees : LcData.LoadedLc → NhmLcInfo}
    (hsees : ∀ lc value, LcData.LoadedLc.value lc = some value → sees lc = value)
    (A : Allocator Block) {event : Event} (idle : p.bus_acquired = false → NoData p.main)
    (allowed : Allowed p event) (readable : Readable p event) {p' : MainLoop.Program}
    {sent : List Effect} (h : MainLoop.step glib sees p event = some (p', sent)) :
    ∃ q' l', step glib A q event = some (q', sent) ∧ Holds q' p' l' := by
  cases event with
  | nameLost connection =>
    cases h
    exact ⟨_, l, rfl, holds.vars, holds.memory, holds.main, holds.systemd, holds.running, rfl,
      holds.bus_acquired, holds.exported⟩
  | sigterm =>
    cases h
    exact ⟨_, l, rfl, holds.vars, holds.memory, holds.main, holds.systemd, holds.running, rfl,
      holds.bus_acquired, holds.exported⟩
  | busAcquired env => exact holds.busAcquired hsees A env (idle allowed.2) readable h
  | nameAcquired env connect =>
    simp only [MainLoop.step, Option.bind_eq_bind, Option.bind_eq_some_iff] at h
    obtain ⟨⟨main, sent'⟩, hmain, ⟨_, systemd, _⟩, hconnect, hnext⟩ := h
    cases hnext
    rw [holds.main] at hmain
    obtain ⟨vars, memory, l', hcall, hholds⟩ :=
      holds.call _ (nameAcquiredCb_refines env l) hmain
    refine ⟨⟨vars, memory, systemd, _, _, _, _⟩, l', ?_, hholds.vars, hholds.memory,
      hholds.main, rfl, holds.running, holds.quit, holds.bus_acquired, holds.exported⟩
    simp only [step, hcall, holds.systemd, hconnect, Option.bind_eq_bind, Option.bind_some]
  | request request =>
    simp only [MainLoop.step, Option.bind_eq_bind, Option.bind_eq_some_iff] at h
    obtain ⟨⟨main, sent'⟩, hmain, hnext⟩ := h
    cases hnext
    rw [holds.main] at hmain
    obtain ⟨vars, memory, l', hcall, hholds⟩ :=
      holds.call (fun v => handle A v request) (handle_refines A l request) hmain
    exact ⟨_, l', hcall, hholds⟩
  | signal message env =>
    simp only [MainLoop.step, Option.bind_eq_bind, Option.bind_eq_some_iff] at h
    obtain ⟨⟨systemd, called⟩, hdispatch, ⟨main, sent'⟩, hmain, hnext⟩ := h
    cases hnext
    rw [holds.main] at hmain
    obtain ⟨vars, memory, l', hcall, hholds⟩ :=
      holds.call _ (callBack_refines A env _ l) hmain
    refine ⟨⟨vars, memory, systemd, _, _, _, _⟩, l', ?_, hholds.vars, hholds.memory,
      hholds.main, rfl, holds.running, holds.quit, holds.bus_acquired, holds.exported⟩
    simp only [step, holds.systemd, hdispatch, hcall, Option.bind_eq_bind, Option.bind_some]
  | userlandCheck probes =>
    simp only [MainLoop.step, Option.bind_eq_bind, Option.bind_eq_some_iff] at h
    obtain ⟨⟨main, sent'⟩, hmain, hnext⟩ := h
    cases hnext
    rw [holds.main] at hmain
    obtain ⟨vars, memory, l', hcall, hholds⟩ :=
      holds.call _ (timerUserlandCheckCb_refines probes l) hmain
    exact ⟨_, l', hcall, hholds⟩
  | leaveLoop disconnect => exact holds.leaveLoop A disconnect h

end

def Refined (cfg : Config) (q : Program) (p : MainLoop.Program) : Prop :=
  Going cfg p ∧ ∃ l, Holds q p l

theorem refined_step {glib : DBus.GLib} (delivers : glib.Delivers)
    {sees : LcData.LoadedLc → NhmLcInfo}
    (hsees : ∀ lc value, LcData.LoadedLc.value lc = some value → sees lc = value)
    (A : Allocator Block) {cfg : Config} (q : Program) (p : MainLoop.Program) (event : Event)
    (refined : Refined cfg q p) (ok : Allowed p event ∧ Called p event ∧ Readable p event) :
    ∃ q' p' sent, step glib A q event = some (q', sent) ∧
      MainLoop.step glib sees p event = some (p', sent) ∧ Refined cfg q' p' := by
  obtain ⟨going, l, holds⟩ := refined
  obtain ⟨allowed, called, readable⟩ := ok
  obtain ⟨p', sent, hp, going'⟩ := going.step sees delivers allowed called
  obtain ⟨q', l', hq, holds'⟩ := holds_step holds hsees A (fun h => going.idle (Or.inl h)) allowed
    readable hp
  exact ⟨q', p', sent, hq, hp, going', l', holds'⟩

theorem refined_run {glib : DBus.GLib} (delivers : glib.Delivers)
    {sees : LcData.LoadedLc → NhmLcInfo}
    (hsees : ∀ lc value, LcData.LoadedLc.value lc = some value → sees lc = value)
    (A : Allocator Block) (cfg : Config) (disk : Disk) (env : NsmEnv) (events : List Event)
    (ok : Transition.AllSteps (MainLoop.advance glib sees)
      (fun p event => Allowed p event ∧ Called p event ∧ Readable p event)
      (.start cfg disk env) events) :
    ∃ q p, Transition.run (advance glib A) (.start cfg disk env) events = some q ∧
      Transition.run (MainLoop.advance glib sees) (.start cfg disk env) events = some p ∧
      Refined cfg q p ∧ Transition.outputs (step glib A) (.start cfg disk env) events =
        Transition.outputs (MainLoop.step glib sees) (.start cfg disk env) events :=
  Transition.run_refines (step glib A) (MainLoop.step glib sees) (Refined cfg) _
    (refined_step delivers hsees A) events (.start cfg disk env) (.start cfg disk env)
    ⟨going_start cfg disk env, holds_start cfg disk env⟩ ok

/-- In every run the program in memory does what the program on values does. Its memory
holds the data that the values say and no other block, so that nothing is left of it when
the main loop has been left. -/
theorem memorySafe_run {glib : DBus.GLib} (delivers : glib.Delivers)
    {sees : LcData.LoadedLc → NhmLcInfo}
    (hsees : ∀ lc value, LcData.LoadedLc.value lc = some value → sees lc = value)
    (A : Allocator Block) (cfg : Config) (disk : Disk) (env : NsmEnv) (events : List Event)
    (ok : Transition.AllSteps (MainLoop.advance glib sees)
      (fun p event => Allowed p event ∧ Called p event ∧ Readable p event)
      (.start cfg disk env) events) :
    ∃ q p l, Transition.run (advance glib A) (.start cfg disk env) events = some q ∧
      Transition.run (MainLoop.advance glib sees) (.start cfg disk env) events = some p ∧
      Transition.outputs (step glib A) (.start cfg disk env) events =
        Transition.outputs (MainLoop.step glib sees) (.start cfg disk env) events ∧
      Holds q p l ∧ (p.running = false → q.memory.cells = 0) := by
  obtain ⟨q, p, hq, hp, ⟨going, l, holds⟩, houtputs⟩ :=
    refined_run delivers hsees A cfg disk env events ok
  refine ⟨q, p, l, hq, hp, houtputs, holds, fun hstopped => ?_⟩
  rw [holds.memory]
  exact (Layout.noData (holds.main ▸ going.idle (Or.inr hstopped))).2.2

def seesValue (lc : LcData.LoadedLc) : NhmLcInfo := lc.value.getD ⟨NhmNodeState.notset, []⟩

theorem seesValue_eq (lc : LcData.LoadedLc) (value : NhmLcInfo) (h : lc.value = some value) :
    seesValue lc = value := by
  rw [seesValue, h, Option.getD_some]

theorem ok_eventsA :
    Transition.AllSteps (MainLoop.advance DBus.handingOver seesValue)
      (fun p event => Allowed p event ∧ Called p event ∧ Readable p event)
      (.start {} ⟨none, none⟩ {}) eventsA := by
  refine ⟨⟨⟨rfl, rfl⟩, trivial, [], rfl⟩, fun _ h => Option.some.inj h ▸ ⟨⟨⟨rfl, rfl⟩, ?_, trivial⟩,
    fun _ h => Option.some.inj h ▸ ⟨⟨⟨rfl, rfl⟩, trivial, trivial⟩, fun _ h => Option.some.inj h ▸
      ⟨⟨rfl, trivial, trivial⟩, fun _ h => Option.some.inj h ▸ ⟨⟨⟨rfl, rfl⟩, trivial, trivial⟩,
        fun _ _ => trivial⟩⟩⟩⟩⟩
  exact ⟨rfl, fun _ h => Option.some.inj h ▸ List.nodup_nil⟩

theorem memorySafe_run_eventsA :
    ∃ q p l, Transition.run (advance DBus.handingOver .next) (.start {} ⟨none, none⟩ {})
        eventsA = some q ∧
      Transition.run (MainLoop.advance DBus.handingOver seesValue) (.start {} ⟨none, none⟩ {})
        eventsA = some p ∧
      Transition.outputs (step DBus.handingOver .next) (.start {} ⟨none, none⟩ {}) eventsA =
        Transition.outputs (MainLoop.step DBus.handingOver seesValue)
          (.start {} ⟨none, none⟩ {}) eventsA ∧
      Holds q p l ∧ (p.running = false → q.memory.cells = 0) :=
  memorySafe_run DBus.handingOver_delivers seesValue_eq .next {} ⟨none, none⟩ {} eventsA
    ok_eventsA

end NodeHealthMonitor.RunTimeHeap
