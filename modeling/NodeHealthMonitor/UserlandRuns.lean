import NodeHealthMonitor.BusObservation

/-! The cyclic userland check in an environment that changes between the ticks: files come and
go, programs start and end, busses go up and down. A check that passes tells the truth. One
that fails names an item that is broken, or a bus that went down behind an earlier tick that
had found it up, since its connection is kept. -/

namespace NodeHealthMonitor.UserlandRuns
open NhmMain BusObservation

/-- What a probe finds at the moment; a bus goes by the index of its address. -/
structure World where
  file_exists : CString → Bool
  proc_dir : Option (List (Option CString))
  spawn : CString → Option Int32
  bus : ℕ → Bus

inductive Event where
  | change (file_exists : CString → Bool) (proc_dir : Option (List (Option CString)))
      (spawn : CString → Option Int32)
  | up (i : ℕ)
  | down (i : ℕ)
  | tick

structure Node where
  world : World
  main : State
  /-- A tick has probed the bus and found it up. -/
  foundUp : ℕ → Bool := fun _ => false
  /-- The bus went down behind such a tick. -/
  lost : ℕ → Bool := fun _ => false

def World.probes (world : World) (cfg : Config) : Probes where
  file_test i := ((cfg.monitored_files.getD [])[i]?).any world.file_exists
  proc_dir _ := world.proc_dir
  spawn i := ((cfg.monitored_procs.getD [])[i]?).bind world.spawn
  dbus_connect i := (world.bus i).connect
  dbus_call i := (world.bus i).call

def World.busEvent (world : World) (i : ℕ) (e : BusEvent) : World :=
  { world with bus := Function.update world.bus i ((world.bus i).next e) }

def isProbe : Effect → Bool
  | .probe _ => true
  | _ => false

def probeCount (sent : List Effect) : ℕ := sent.countP isProbe

/-- The items that are probed before the first bus. -/
def itemCount (cfg : Config) : ℕ :=
  (cfg.monitored_files.getD []).length + (cfg.monitored_progs.getD []).length +
    (cfg.monitored_procs.getD []).length

/-- What `nhm_main_is_dbus_alive` returns for the bus. -/
def busVerdict (node : Node) (i : ℕ) (dbus : NhmCheckedDbus) : Bool :=
  (isDbusAlive (node.world.bus i).connect (node.world.bus i).call dbus).1

theorem busVerdict_eq (node : Node) (i : ℕ) (dbus : NhmCheckedDbus) : busVerdict node i dbus =
    (dbus.bus_conn <|> (node.world.bus i).connect).any (node.world.bus i).call := by
  rw [busVerdict, isDbusAlive_eq]

/-- The tick has not ended before the bus, and the call over its connection succeeds. -/
def finds (node : Node) (sent : List Effect) (i : ℕ) : Bool :=
  itemCount node.main.cfg + i < probeCount sent &&
    ((node.main.checked_dbusses.getD [])[i]?).any (busVerdict node i)

theorem probeCount_cons (e : Effect) (sent : List Effect) :
    probeCount (e :: sent) = probeCount sent + if isProbe e then 1 else 0 := List.countP_cons ..

theorem probeCount_append (sent sent' : List Effect) :
    probeCount (sent ++ sent') = probeCount sent + probeCount sent' := List.countP_append ..

def step (node : Node) : Event → Option (Node × List Effect)
  | .change file_exists proc_dir spawn =>
      let world : World :=
        { node.world with file_exists := file_exists, proc_dir := proc_dir, spawn := spawn }
      some ({ node with world := world }, [])
  | .up i => some ({ node with world := node.world.busEvent i .up }, [])
  | .down i => some ({ node with
      world := node.world.busEvent i .down
      lost := Function.update node.lost i (node.lost i || node.foundUp i) }, [])
  | .tick => do
      let (main, sent) ← timerUserlandCheckCb (node.world.probes node.main.cfg) node.main
      some ({ node with main := main, foundUp := fun i => node.foundUp i || finds node sent i },
        sent)

def advance (node : Node) (event : Event) : Option Node := (step node event).map Prod.fst

def dbusTruths (world : World) (checked_dbusses : List NhmCheckedDbus) :
    List (UserlandItem × Bool) :=
  checked_dbusses.mapIdx fun i dbus => (.dbus dbus.bus_addr, (world.bus i).up)

def itemTruths (world : World) (cfg : Config) : List (UserlandItem × Bool) :=
  (cfg.monitored_files.getD []).map (fun name => (.file name, world.file_exists name)) ++
    ((cfg.monitored_progs.getD []).map (fun name =>
        (UserlandItem.prog name, world.proc_dir.any fun entries => entries.contains (some name))) ++
      (cfg.monitored_procs.getD []).map fun name =>
        (UserlandItem.proc name, decide (world.spawn name = some 0)))

def truths (world : World) (s : State) : List (UserlandItem × Bool) :=
  itemTruths world s.cfg ++ dbusTruths world (s.checked_dbusses.getD [])

def passed : Effect := .log ["NHM: Userland check successfully finished."] none

def failed : Effect := .log ["NHM: Userland check failed. Restarting system."] none

/-- What a tick says of the environment it takes place in. -/
structure Truthful (node : Node) (sent : List Effect) : Prop where
  decided : passed ∈ sent ∨ failed ∈ sent
  sound : passed ∈ sent → ∀ verdict ∈ truths node.world node.main, verdict.2 = true
  alarm : failed ∈ sent → ∃ item, failureLog item ∈ sent ∧
    ((item, false) ∈ truths node.world node.main ∨
      ∃ i dbus, (node.main.checked_dbusses.getD [])[i]? = some dbus ∧
        item = .dbus dbus.bus_addr ∧ node.lost i = true)

section
variable (connect : ℕ → Option ℕ) (call : ℕ → ℕ → Bool)

def Connects (probed : ℕ → Prop) (before after : List NhmCheckedDbus) : Prop :=
  ∀ (i : ℕ) dbus conn, after[i]? = some dbus → dbus.bus_conn = some conn →
    ∃ dbus', before[i]? = some dbus' ∧ (dbus'.bus_conn = some conn ∨
      dbus'.bus_conn = none ∧ connect i = some conn ∧ probed i)

theorem Connects.refl (probed : ℕ → Prop) (dbusses : List NhmCheckedDbus) :
    Connects connect probed dbusses dbusses :=
  fun _ dbus _ hget hconn => ⟨dbus, hget, Or.inl hconn⟩

theorem Connects.imp {probed probed' : ℕ → Prop} {before after : List NhmCheckedDbus}
    (h : Connects connect probed before after) (himp : ∀ i, probed i → probed' i) :
    Connects connect probed' before after := by
  intro i dbus conn hget hconn
  obtain ⟨dbus', hbefore, hcase⟩ := h i dbus conn hget hconn
  exact ⟨dbus', hbefore, hcase.imp_right fun ⟨hnone, hopened, hprobed⟩ =>
    ⟨hnone, hopened, himp i hprobed⟩⟩

theorem checkDbusses_connects (dbusses : List NhmCheckedDbus) (check_idx : ℕ) (ul_ok : Bool)
    {ok : Bool} {next : List NhmCheckedDbus} {sent : List Effect}
    (h : checkDbusses connect call dbusses check_idx ul_ok = some (ok, next, sent)) :
    Connects connect (fun i => i < check_idx + probeCount sent) dbusses next := by
  induction dbusses, check_idx, ul_ok using checkDbusses.induct generalizing ok next sent with
  | case1 dbusses check_idx ul_ok hidx ih =>
    have hget : dbusses[check_idx]? = some dbusses[check_idx] := List.getElem?_eq_getElem hidx.1
    rw [checkDbusses, if_pos hidx, hget] at h
    simp only [Option.bind_eq_bind, Option.bind_some, isDbusAlive_eq, Option.bind_eq_some_iff] at h
    obtain ⟨⟨ok', next', sent'⟩, hrest, hnext⟩ := h
    cases hnext
    intro i dbus conn hdbus hconn
    obtain ⟨dbus', hset, hcase⟩ := ih _ _ hrest i dbus conn hdbus hconn
    simp only [List.cons_append, probeCount_cons, probeCount_append, isProbe, if_pos]
    by_cases hi : check_idx = i
    · subst hi
      rw [List.getElem?_set_self hidx.1] at hset
      cases hset
      refine ⟨_, hget, ?_⟩
      have hopened : (dbusses[check_idx].bus_conn <|> connect check_idx) = some conn := by
        rcases hcase with hkept | ⟨hnone, hopened, -⟩
        · exact hkept
        · rw [hopened] at hnone
          cases hold : dbusses[check_idx].bus_conn <;> simp [hold] at hnone
      cases hold : dbusses[check_idx].bus_conn with
      | some conn' =>
        rw [hold] at hopened
        exact Or.inl hopened
      | none =>
        rw [hold] at hopened
        exact Or.inr ⟨rfl, hopened, by omega⟩
    · rw [List.getElem?_set_ne hi] at hset
      refine ⟨dbus', hset, hcase.imp_right ?_⟩
      rintro ⟨hnone, hopened, hlt⟩
      exact ⟨hnone, hopened, by omega⟩
  | case2 dbusses check_idx ul_ok hidx =>
    rw [checkDbusses, if_neg hidx] at h
    cases h
    exact Connects.refl connect _ dbusses

theorem checkMonitoredDbusses_connects (checked_dbusses : Option (List NhmCheckedDbus)) {ok : Bool}
    {next : Option (List NhmCheckedDbus)} {sent : List Effect}
    (h : checkMonitoredDbusses connect call checked_dbusses = some (ok, next, sent)) :
    Connects connect (fun i => i < probeCount sent) (checked_dbusses.getD []) (next.getD []) := by
  cases checked_dbusses with
  | none =>
    cases h
    exact Connects.refl connect _ []
  | some dbusses =>
    simp only [checkMonitoredDbusses, Option.bind_eq_bind, Option.bind_eq_some_iff] at h
    obtain ⟨⟨ok', next', sent'⟩, hcheck, hresult⟩ := h
    cases hresult
    refine (checkDbusses_connects connect call dbusses 0 true hcheck).imp connect fun i hi => ?_
    rwa [Nat.zero_add] at hi

end

theorem probeItems_passed {items : List (UserlandItem × Bool)} {sent : List Effect}
    (h : probeItems items = (true, sent)) : probeCount sent = items.length := by
  induction items generalizing sent with
  | nil =>
    cases h
    rfl
  | cons verdict items ih =>
    obtain ⟨item, ok⟩ := verdict
    cases ok with
    | false => cases h
    | true =>
      obtain ⟨hok, rfl⟩ := Prod.mk.inj h
      rw [probeCount_cons, ih (Prod.ext hok rfl), List.length_cons]
      rfl

theorem checkMonitored_passed {monitored : Option (List CString)} {item : CString → UserlandItem}
    {test : ℕ → CString → Bool} {reason label : String}
    (hlog : ∀ name, failureLog (item name) =
      .log ["NHM: Userland check failed.", reason, label] (some name))
    {ul_ok : Bool} {sent : List Effect}
    (h : (if ul_ok then checkMonitored monitored item test reason label
      else some (ul_ok, [])) = some (true, sent)) :
    ul_ok = true ∧ probeCount sent = (monitored.getD []).length := by
  cases ul_ok with
  | false => cases h
  | true =>
    rw [if_pos rfl, checkMonitored_eq monitored item test reason label hlog] at h
    refine ⟨rfl, ?_⟩
    rw [probeItems_passed (Option.some.inj h), verdicts, List.length_mapIdx]

theorem timerUserlandCheckCb_connects {probes : Probes} {s next : State} {sent : List Effect}
    (h : timerUserlandCheckCb probes s = some (next, sent)) :
    Connects probes.dbus_connect (fun i => itemCount s.cfg + i < probeCount sent)
      (s.checked_dbusses.getD []) (next.checked_dbusses.getD []) := by
  simp only [timerUserlandCheckCb, Option.bind_eq_bind, Option.bind_eq_some_iff] at h
  obtain ⟨⟨files_ok, files⟩, hfiles, ⟨progs_ok, progs⟩, hprogs, ⟨procs_ok, procs⟩, hprocs,
    ⟨ul_ok, checked_dbusses, dbusses⟩, hdbusses, hnext⟩ := h
  cases hnext
  cases procs_ok with
  | false =>
    cases hdbusses
    exact Connects.refl _ _ _
  | true =>
    obtain ⟨rfl, hprocs⟩ := checkMonitored_passed (fun _ => rfl) hprocs
    obtain ⟨rfl, hprogs⟩ := checkMonitored_passed (fun _ => rfl) hprogs
    have hfiles : (if true then checkFiles probes s.cfg else some (true, [])) = _ := hfiles
    obtain ⟨-, hfiles⟩ := checkMonitored_passed (fun _ => rfl) hfiles
    rw [if_pos rfl] at hdbusses
    refine (checkMonitoredDbusses_connects _ _ s.checked_dbusses hdbusses).imp _ fun i hi => ?_
    simp only [probeCount_cons, probeCount_append, itemCount]
    omega

/-- A kept connection was opened at a tick, and is good as long as the bus stays up. -/
def Watched (node : Node) : Prop :=
  ∀ (i : ℕ) dbus conn, (node.main.checked_dbusses.getD [])[i]? = some dbus →
    dbus.bus_conn = some conn → node.foundUp i = true ∧
      (node.lost i = false → (node.world.bus i).up = true ∧ conn = (node.world.bus i).period)

section
variable {node next : Node} {sent : List Effect} (watched : Watched node)
include watched

theorem Watched.up (i : ℕ) : Watched { node with world := node.world.busEvent i .up } := by
  intro j dbus conn hget hconn
  obtain ⟨hfound, hgood⟩ := watched j dbus conn hget hconn
  refine ⟨hfound, fun hlost => ?_⟩
  obtain ⟨hup, hperiod⟩ := hgood hlost
  by_cases hj : j = i
  · subst hj
    have hsame : (node.world.bus j).next .up = node.world.bus j := by
      rw [Bus.next, if_pos hup]
    simp only [World.busEvent, Function.update_self, hsame]
    exact ⟨hup, hperiod⟩
  · simp only [World.busEvent, Function.update_of_ne hj]
    exact ⟨hup, hperiod⟩

theorem Watched.down (i : ℕ) : Watched { node with
    world := node.world.busEvent i .down
    lost := Function.update node.lost i (node.lost i || node.foundUp i) } := by
  intro j dbus conn hget hconn
  obtain ⟨hfound, hgood⟩ := watched j dbus conn hget hconn
  refine ⟨hfound, fun hlost => ?_⟩
  by_cases hj : j = i
  · subst hj
    -- The connection is from a tick that found the bus up, so that it is lost now.
    have hfoundUp : node.foundUp j = true := hfound
    simp [hfoundUp] at hlost
  · simp only [Function.update_of_ne hj] at hlost
    simp only [World.busEvent, Function.update_of_ne hj]
    exact hgood hlost

theorem Watched.tick {main : State}
    (h : timerUserlandCheckCb (node.world.probes node.main.cfg) node.main = some (main, sent)) :
    Watched { node with
      main := main, foundUp := fun i => node.foundUp i || finds node sent i } := by
  intro i dbus conn hget hconn
  obtain ⟨dbus', hbefore, hcase⟩ := timerUserlandCheckCb_connects h i dbus conn hget hconn
  rcases hcase with hkept | ⟨hnone, hopened, hprobed⟩
  · obtain ⟨hfound, hgood⟩ := watched i dbus' conn hbefore hkept
    exact ⟨by simp [hfound], hgood⟩
  · simp only [World.probes, Bus.connect, Option.ite_none_right_eq_some, Option.some.injEq]
      at hopened
    obtain ⟨hup, rfl⟩ := hopened
    have hverdict : busVerdict node i dbus' = true := by
      simp [busVerdict_eq, hnone, Bus.connect, Bus.call, hup]
    exact ⟨by simp [finds, hbefore, hprobed, hverdict], fun _ => ⟨hup, rfl⟩⟩

theorem Watched.step {event : Event} (h : UserlandRuns.step node event = some (next, sent)) :
    Watched next := by
  cases event with
  | change file_exists proc_dir spawn =>
    cases h
    exact watched
  | up i =>
    cases h
    exact watched.up i
  | down i =>
    cases h
    exact watched.down i
  | tick =>
    simp only [UserlandRuns.step, Option.bind_eq_bind, Option.bind_eq_some_iff] at h
    obtain ⟨⟨main, sent'⟩, hcheck, hnext⟩ := h
    cases hnext
    exact watched.tick hcheck

end

theorem verdicts_map {items : List CString} {test : ℕ → CString → Bool}
    (item : CString → UserlandItem) (p : CString → Bool)
    (h : ∀ (i : ℕ) name, items[i]? = some name → test i name = p name) :
    verdicts items item test = items.map fun name => (item name, p name) := by
  refine List.ext_getElem (by simp [verdicts]) fun i hi _ => ?_
  have hlt : i < items.length := by simpa [verdicts] using hi
  simp [verdicts, h i items[i] (List.getElem?_eq_getElem hlt)]

theorem allVerdicts_eq (world : World) (s : State) :
    allVerdicts (world.probes s.cfg) s = itemTruths world s.cfg ++
      dbusVerdicts (fun i => (world.bus i).connect) (fun i => (world.bus i).call)
        (s.checked_dbusses.getD []) := by
  have hfiles : verdicts (s.cfg.monitored_files.getD []) .file
      (fun i _ => (world.probes s.cfg).file_test i) = _ :=
    verdicts_map .file world.file_exists fun i name h => by simp [World.probes, h]
  have hprogs : verdicts (s.cfg.monitored_progs.getD []) .prog
      (fun i prog => ((world.probes s.cfg).proc_dir i).any fun e => some prog ∈ e) = _ :=
    verdicts_map .prog (fun name => world.proc_dir.any fun entries => entries.contains (some name))
      fun i name h => by simp [World.probes, List.contains_eq_mem]
  have hprocs : verdicts (s.cfg.monitored_procs.getD []) .proc
      (fun i _ => (world.probes s.cfg).spawn i = some 0) = _ :=
    verdicts_map .proc (fun name => world.spawn name = some 0) fun i name h => by
      simp [World.probes, h]
  rw [allVerdicts, hfiles, hprogs, hprocs, itemTruths, List.append_assoc, List.append_assoc]
  rfl

theorem probeItems_fst (items : List (UserlandItem × Bool)) :
    (probeItems items).1 = items.all (·.2) := by
  induction items with
  | nil => rfl
  | cons verdict items ih =>
    obtain ⟨item, ok⟩ := verdict
    cases ok with
    | false => rfl
    | true => simpa [probeItems] using ih

theorem log_notMem_probeItems (texts : List String) (items : List (UserlandItem × Bool)) :
    Effect.log texts none ∉ (probeItems items).2 := by
  induction items with
  | nil => exact List.not_mem_nil
  | cons verdict items ih =>
    obtain ⟨item, ok⟩ := verdict
    cases ok with
    | false => cases item <;> simp [probeItems, failureLog]
    | true => simpa [probeItems] using ih

theorem probeItems_blames {items : List (UserlandItem × Bool)}
    (h : (probeItems items).1 = false) :
    ∃ item, (item, false) ∈ items ∧ failureLog item ∈ (probeItems items).2 := by
  induction items with
  | nil => exact Bool.noConfusion h
  | cons verdict items ih =>
    obtain ⟨item, ok⟩ := verdict
    cases ok with
    | false => exact ⟨item, List.mem_cons_self, by simp [probeItems]⟩
    | true =>
      obtain ⟨other, hmem, hlog⟩ := ih h
      exact ⟨other, List.mem_cons_of_mem _ hmem, List.mem_cons_of_mem _ hlog⟩

section
variable {node : Node} {i : ℕ} {dbus : NhmCheckedDbus}

theorem busVerdict_sound (h : busVerdict node i dbus = true) : (node.world.bus i).up = true := by
  rw [busVerdict_eq] at h
  obtain ⟨conn, -, hcall⟩ := (Option.any_eq_true _ _).mp h
  rw [Bus.call, Bool.and_eq_true] at hcall
  exact hcall.1

theorem Watched.busVerdict_alarm (watched : Watched node)
    (hget : (node.main.checked_dbusses.getD [])[i]? = some dbus)
    (h : busVerdict node i dbus = false) :
    (node.world.bus i).up = false ∨ node.lost i = true := by
  cases hup : (node.world.bus i).up with
  | false => exact Or.inl rfl
  | true =>
    refine Or.inr (eq_true_of_ne_false fun hlost => ?_)
    cases hconn : dbus.bus_conn with
    | none => simp [busVerdict_eq, hconn, Bus.connect, Bus.call, hup] at h
    | some conn =>
      obtain ⟨-, hperiod⟩ := (watched i dbus conn hget hconn).2 hlost
      simp [busVerdict_eq, hconn, Bus.call, hup, hperiod] at h

end

theorem mem_dbusVerdicts {node : Node} {verdict : UserlandItem × Bool} :
    verdict ∈ dbusVerdicts (fun i => (node.world.bus i).connect) (fun i => (node.world.bus i).call)
        (node.main.checked_dbusses.getD []) ↔
      ∃ (i : ℕ) (dbus : NhmCheckedDbus), (node.main.checked_dbusses.getD [])[i]? = some dbus ∧
        verdict = (.dbus dbus.bus_addr, busVerdict node i dbus) := by
  simp only [dbusVerdicts, List.mem_mapIdx, busVerdict_eq]
  constructor
  · rintro ⟨i, hi, rfl⟩
    exact ⟨i, _, List.getElem?_eq_getElem hi, rfl⟩
  · rintro ⟨i, dbus, hget, rfl⟩
    obtain ⟨hi, rfl⟩ := List.getElem?_eq_some_iff.mp hget
    exact ⟨i, hi, rfl⟩

theorem mem_dbusTruths {node : Node} {verdict : UserlandItem × Bool} :
    verdict ∈ dbusTruths node.world (node.main.checked_dbusses.getD []) ↔
      ∃ (i : ℕ) (dbus : NhmCheckedDbus), (node.main.checked_dbusses.getD [])[i]? = some dbus ∧
        verdict = (.dbus dbus.bus_addr, (node.world.bus i).up) := by
  rw [dbusTruths, List.mem_mapIdx]
  constructor
  · rintro ⟨i, hi, rfl⟩
    exact ⟨i, _, List.getElem?_eq_getElem hi, rfl⟩
  · rintro ⟨i, dbus, hget, rfl⟩
    obtain ⟨hi, rfl⟩ := List.getElem?_eq_some_iff.mp hget
    exact ⟨i, hi, rfl⟩

theorem tick_truthful {node : Node} (watched : Watched node) :
    ∃ next sent, step node .tick = some (next, sent) ∧ Truthful node sent := by
  obtain ⟨checked_dbusses, hrun⟩ :=
    timerUserlandCheckCb_eq (node.world.probes node.main.cfg) node.main
  refine ⟨_, _, by rw [step, hrun]; rfl, ?_⟩
  have hverdicts := allVerdicts_eq node.world node.main
  generalize allVerdicts (node.world.probes node.main.cfg) node.main = items at hverdicts ⊢
  have hpassed : ∀ texts, Effect.log texts none ∉ (probeItems items).2 := fun texts =>
    log_notMem_probeItems texts items
  cases hok : (probeItems items).1 with
  | true =>
    refine ⟨Or.inl (by simp [passed]), fun _ verdict hverdict => ?_, fun h => ?_⟩
    · rw [probeItems_fst, List.all_eq_true] at hok
      rcases List.mem_append.mp hverdict with hitem | hdbus
      · exact hok verdict (hverdicts ▸ List.mem_append_left _ hitem)
      · obtain ⟨i, dbus, hget, rfl⟩ := mem_dbusTruths.mp hdbus
        exact busVerdict_sound (hok (.dbus dbus.bus_addr, busVerdict node i dbus)
          (hverdicts ▸ List.mem_append_right _ (mem_dbusVerdicts.mpr ⟨i, dbus, hget, rfl⟩)))
    · simp [failed, hpassed] at h
  | false =>
    refine ⟨Or.inr (by simp [failed]), fun h => ?_, fun _ => ?_⟩
    · simp [passed, hpassed] at h
    · obtain ⟨item, hmem, hlog⟩ := probeItems_blames hok
      refine ⟨item, by simp [hlog], ?_⟩
      rw [hverdicts] at hmem
      rcases List.mem_append.mp hmem with hitem | hdbus
      · exact Or.inl (List.mem_append_left _ hitem)
      · obtain ⟨i, dbus, hget, hverdict⟩ := mem_dbusVerdicts.mp hdbus
        obtain ⟨rfl, hfalse⟩ := Prod.mk.inj hverdict
        rcases watched.busVerdict_alarm hget hfalse.symm with hdown | hlost
        · refine Or.inl (List.mem_append_right _ (mem_dbusTruths.mpr ⟨i, dbus, hget, ?_⟩))
          rw [hdown]
        · exact Or.inr ⟨i, dbus, hget, rfl, hlost⟩

theorem watched_start (cfg : Config) (disk : Disk) (world : World) :
    Watched ⟨world, .start cfg disk, fun _ => false, fun _ => false⟩ := by
  intro i dbus conn hget hconn
  cases hmonitored : cfg.monitored_dbus with
  | none => simp [State.start, prepareChecks, hmonitored] at hget
  | some addrs =>
    simp only [State.start, prepareChecks, hmonitored, Option.map_some, Option.getD_some,
      List.getElem?_map, Option.map_eq_some_iff] at hget
    obtain ⟨addr, -, rfl⟩ := hget
    contradiction

/-- In every run, at every tick: a check that passes has seen no broken item, and one that
fails names a broken one, or a bus that went down behind a tick that had probed it and found
it up. -/
theorem userlandChecks_run (cfg : Config) (disk : Disk) (world : World) (events : List Event) :
    Transition.AllSteps advance
      (fun node event => event = .tick → ∃ next sent,
        step node .tick = some (next, sent) ∧ Truthful node sent)
      ⟨world, .start cfg disk, fun _ => false, fun _ => false⟩ events := by
  refine Transition.allSteps_of_invariant advance Watched _ ?_ ?_ _ events
    (watched_start cfg disk world)
  · intro node event next watched h
    obtain ⟨⟨next', sent⟩, hstep, rfl⟩ := Option.map_eq_some_iff.mp h
    exact watched.step hstep
  · rintro node event watched -
    exact tick_truthful watched

end NodeHealthMonitor.UserlandRuns
