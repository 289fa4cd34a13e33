import NodeHealthMonitor.NhmMain
import NodeHealthMonitor.Transition

/-! The cyclic userland check. It probes the configured items in order and stops at the
first one that fails; what it does about it is to write a log. -/

namespace NodeHealthMonitor.NhmMain

/-- What the probes of one timer tick find, by the index of the item in its list. -/
structure Probes where
  file_test : ℕ → Bool := fun _ => true
  /-- The exe links of the entries of `/proc`; `none` if it cannot be opened. -/
  proc_dir : ℕ → Option (List (Option CString)) := fun _ => none
  /-- The status of the process; `none` if it cannot be started. -/
  spawn : ℕ → Option Int32 := fun _ => none
  /-- The handle of a new connection; `none` if it cannot be opened. -/
  dbus_connect : ℕ → Option ℕ := fun _ => none
  /-- The call over the connection with the given handle succeeds. -/
  dbus_call : ℕ → ℕ → Bool := fun _ _ => false

/-- The loop over `/proc` in `nhm_main_is_process_running`. -/
def findProg (prog : CString) : List (Option CString) → (found_prog : Bool) → Bool
  | [], found_prog => found_prog
  | _ :: _, true => true
  | none :: entries, false => findProg prog entries false
  | some prog_name :: entries, false => findProg prog entries (prog_name = prog)

def isProcessRunning (proc_dir : Option (List (Option CString))) (prog : CString) : Bool :=
  match proc_dir with
  | some entries => findProg prog entries false
  | none => false

def isProcessOk (spawn : Option Int32) : Bool :=
  match spawn with
  | some proc_retval => proc_retval = 0
  | none => false

def isDbusAlive (connect : Option ℕ) (call : ℕ → Bool) (checked_dbus : NhmCheckedDbus) :
    Bool × NhmCheckedDbus :=
  let checked_dbus := match checked_dbus.bus_conn with
    | none => { checked_dbus with bus_conn := connect }
    | some _ => checked_dbus
  match checked_dbus.bus_conn with
  | some conn => (call conn, checked_dbus)
  | none => (false, checked_dbus)

/-- The loop over one of the three string arrays: `ul_ok`, `check_idx` and the probes made. -/
def checkItems (items : List CString) (item : CString → UserlandItem)
    (test : ℕ → CString → Bool) (check_idx : ℕ) (ul_ok : Bool) :
    Option (Bool × ℕ × List Effect) :=
  if check_idx < items.length ∧ ul_ok = true then do
    let name ← items[check_idx]?
    let (ul_ok, last, probes) ← checkItems items item test (check_idx + 1) (test check_idx name)
    some (ul_ok, last, .probe (item name) :: probes)
  else some (ul_ok, check_idx, [])
termination_by items.length - check_idx

def lastChecked (items : List CString) : (check_idx : ℕ) → Option CString
  | 0 => none
  | i + 1 => items[i]?

def checkMonitored (monitored : Option (List CString)) (item : CString → UserlandItem)
    (test : ℕ → CString → Bool) (reason label : String) : Option (Bool × List Effect) :=
  match monitored with
  | none => some (true, [])
  | some items => do
      let (ul_ok, check_idx, probes) ← checkItems items item test 0 true
      if ul_ok = false then
        let name ← lastChecked items check_idx
        some (false, probes ++ [.log ["NHM: Userland check failed.", reason, label] (some name)])
      else some (true, probes)

def checkDbusses (connect : ℕ → Option ℕ) (call : ℕ → ℕ → Bool)
    (checked_dbusses : List NhmCheckedDbus) (check_idx : ℕ) (ul_ok : Bool) :
    Option (Bool × List NhmCheckedDbus × List Effect) :=
  if check_idx < checked_dbusses.length ∧ ul_ok = true then do
    let checked_dbus ← checked_dbusses[check_idx]?
    let (alive, checked_dbus) := isDbusAlive (connect check_idx) (call check_idx) checked_dbus
    let failed := if alive then [] else [.log ["NHM: Userland check failed.",
      "Reason: Monitored dbus returned invalid.", "Bus name:"] (some checked_dbus.bus_addr)]
    let (ul_ok, dbusses, sent) ← checkDbusses connect call
      (checked_dbusses.set check_idx checked_dbus) (check_idx + 1) alive
    some (ul_ok, dbusses, .probe (.dbus checked_dbus.bus_addr) :: failed ++ sent)
  else some (ul_ok, checked_dbusses, [])
termination_by checked_dbusses.length - check_idx
decreasing_by
  rw [List.length_set]
  omega

def checkMonitoredDbusses (connect : ℕ → Option ℕ) (call : ℕ → ℕ → Bool)
    (checked_dbusses : Option (List NhmCheckedDbus)) :
    Option (Bool × Option (List NhmCheckedDbus) × List Effect) :=
  match checked_dbusses with
  | none => some (true, none, [])
  | some dbusses => do
      let (ul_ok, dbusses, sent) ← checkDbusses connect call dbusses 0 true
      some (ul_ok, some dbusses, sent)

def checkFiles (probes : Probes) (cfg : Config) : Option (Bool × List Effect) :=
  checkMonitored cfg.monitored_files .file (fun i _ => probes.file_test i)
    "Reason: Monitored file does not exist." "File name:"

def checkProgs (probes : Probes) (cfg : Config) : Option (Bool × List Effect) :=
  checkMonitored cfg.monitored_progs .prog (fun i prog => isProcessRunning (probes.proc_dir i) prog)
    "Reason: Monitored program not running." "Prog name:"

def checkProcs (probes : Probes) (cfg : Config) : Option (Bool × List Effect) :=
  checkMonitored cfg.monitored_procs .proc (fun i _ => isProcessOk (probes.spawn i))
    "Reason: Monitored proc. returned invalid." "Proc name:"

def timerUserlandCheckCb (probes : Probes) (s : State) : Option (State × List Effect) := do
  let (ul_ok, files) ← checkFiles probes s.cfg
  let (ul_ok, progs) ← (if ul_ok then checkProgs probes s.cfg else some (ul_ok, []))
  let (ul_ok, procs) ← (if ul_ok then checkProcs probes s.cfg else some (ul_ok, []))
  let (ul_ok, checked_dbusses, dbusses) ← (if ul_ok then
      checkMonitoredDbusses probes.dbus_connect probes.dbus_call s.checked_dbusses
    else some (ul_ok, s.checked_dbusses, []))
  let outcome := if ul_ok then "NHM: Userland check successfully finished."
    else "NHM: Userland check failed. Restarting system."
  some ({ s with checked_dbusses := checked_dbusses },
    .log ["NHM: Userland check started."] none ::
      (files ++ progs ++ procs ++ dbusses ++ [.log [outcome] none]))

def Observes : Effect → Prop
  | .probe _ => True
  | .log _ _ => True
  | _ => False

def failureLog : UserlandItem → Effect
  | .file name => .log ["NHM: Userland check failed.", "Reason: Monitored file does not exist.",
      "File name:"] (some name)
  | .prog name => .log ["NHM: Userland check failed.", "Reason: Monitored program not running.",
      "Prog name:"] (some name)
  | .proc name => .log ["NHM: Userland check failed.", "Reason: Monitored proc. returned invalid.",
      "Proc name:"] (some name)
  | .dbus name => .log ["NHM: Userland check failed.", "Reason: Monitored dbus returned invalid.",
      "Bus name:"] (some name)

def probeItems : List (UserlandItem × Bool) → Bool × List Effect
  | [] => (true, [])
  | (item, true) :: items => ((probeItems items).1, .probe item :: (probeItems items).2)
  | (item, false) :: _ => (false, [.probe item, failureLog item])

theorem probeItems_append (xs ys : List (UserlandItem × Bool)) :
    probeItems (xs ++ ys) = if (probeItems xs).1 then
      ((probeItems ys).1, (probeItems xs).2 ++ (probeItems ys).2) else probeItems xs := by
  induction xs with
  | nil => rfl
  | cons x xs ih =>
    obtain ⟨item, ok⟩ := x
    cases ok with
    | false => rfl
    | true =>
      rw [List.cons_append, probeItems, ih, probeItems]
      split <;> simp_all

theorem probeItems_observes (items : List (UserlandItem × Bool)) :
    ∀ e ∈ (probeItems items).2, Observes e := by
  induction items with
  | nil => simp [probeItems]
  | cons x items ih =>
    obtain ⟨item, ok⟩ := x
    cases ok with
    | false => cases item <;> simp [probeItems, failureLog, Observes]
    | true => simpa [probeItems, Observes] using ih

theorem checkItems_false (items : List CString) (item : CString → UserlandItem)
    (test : ℕ → CString → Bool) (check_idx : ℕ) :
    checkItems items item test check_idx false = some (false, check_idx, []) := by
  rw [checkItems, if_neg (by simp)]

def verdicts (items : List CString) (item : CString → UserlandItem) (test : ℕ → CString → Bool) :
    List (UserlandItem × Bool) :=
  items.mapIdx fun i name => (item name, test i name)

theorem drop_verdicts (items : List CString) (item : CString → UserlandItem)
    (test : ℕ → CString → Bool) (check_idx : ℕ) (h : check_idx < items.length) :
    (verdicts items item test).drop check_idx =
      (item items[check_idx], test check_idx items[check_idx]) ::
        (verdicts items item test).drop (check_idx + 1) := by
  rw [verdicts, List.drop_eq_getElem_cons (by rwa [List.length_mapIdx]), List.getElem_mapIdx]

theorem checkItems_eq (items : List CString) (item : CString → UserlandItem)
    (test : ℕ → CString → Bool) (check_idx : ℕ) (ul_ok : Bool) (hok : ul_ok = true) :
    ∃ ok last probes, checkItems items item test check_idx ul_ok = some (ok, last, probes) ∧
      if ok then probeItems ((verdicts items item test).drop check_idx) = (true, probes)
      else ∃ name, lastChecked items last = some name ∧
        probeItems ((verdicts items item test).drop check_idx) =
          (false, probes ++ [failureLog (item name)]) := by
  induction check_idx, ul_ok using checkItems.induct items test with
  | case1 check_idx ul_ok h ih =>
    have hget : items[check_idx]? = some items[check_idx] := List.getElem?_eq_getElem h.1
    rw [checkItems, if_pos h, hget, drop_verdicts items item test check_idx h.1]
    cases htest : test check_idx items[check_idx] with
    | false =>
      refine ⟨false, check_idx + 1, [.probe (item items[check_idx])], ?_, items[check_idx],
        hget, rfl⟩
      rw [Option.bind_eq_bind, Option.bind_some, htest, checkItems_false]
      rfl
    | true =>
      obtain ⟨ok, last, probes, hrun, hwalk⟩ := ih items[check_idx] htest
      rw [htest] at hrun
      refine ⟨ok, last, .probe (item items[check_idx]) :: probes, ?_, ?_⟩
      · rw [Option.bind_eq_bind, Option.bind_some, htest, hrun]
        rfl
      · cases ok with
        | true =>
          have hrest : probeItems _ = (true, probes) := hwalk
          simp [probeItems, hrest]
        | false =>
          obtain ⟨name, hname, hrest⟩ := hwalk
          exact ⟨name, hname, by simp [probeItems, hrest]⟩
  | case2 check_idx ul_ok h =>
    have hend : items.length ≤ check_idx := not_lt.mp fun hlt => h ⟨hlt, hok⟩
    refine ⟨ul_ok, check_idx, [], by rw [checkItems, if_neg h], ?_⟩
    rw [hok, if_pos rfl, verdicts, List.drop_eq_nil_of_le (by rwa [List.length_mapIdx])]
    rfl

theorem checkMonitored_eq (monitored : Option (List CString)) (item : CString → UserlandItem)
    (test : ℕ → CString → Bool) (reason label : String)
    (hlog : ∀ name, failureLog (item name) =
      .log ["NHM: Userland check failed.", reason, label] (some name)) :
    checkMonitored monitored item test reason label =
      some (probeItems (verdicts (monitored.getD []) item test)) := by
  cases monitored with
  | none => rfl
  | some items =>
    obtain ⟨ok, last, probes, hrun, hwalk⟩ := checkItems_eq items item test 0 true rfl
    rw [List.drop_zero] at hwalk
    cases ok with
    | true =>
      have hall : probeItems (verdicts items item test) = (true, probes) := hwalk
      simp [checkMonitored, hrun, hall]
    | false =>
      obtain ⟨name, hname, hfirst⟩ := hwalk
      rw [hlog] at hfirst
      simp [checkMonitored, hrun, hname, hfirst]

theorem isDbusAlive_eq (connect : Option ℕ) (call : ℕ → Bool) (dbus : NhmCheckedDbus) :
    isDbusAlive connect call dbus =
      ((dbus.bus_conn <|> connect).any call,
        { dbus with bus_conn := dbus.bus_conn <|> connect }) := by
  obtain ⟨bus_addr, bus_conn⟩ := dbus
  cases bus_conn <;> cases connect <;> rfl

def dbusVerdicts (connect : ℕ → Option ℕ) (call : ℕ → ℕ → Bool)
    (checked_dbusses : List NhmCheckedDbus) : List (UserlandItem × Bool) :=
  checked_dbusses.mapIdx fun i dbus =>
    (.dbus dbus.bus_addr, (dbus.bus_conn <|> connect i).any (call i))

theorem drop_dbusVerdicts (connect : ℕ → Option ℕ) (call : ℕ → ℕ → Bool)
    (dbusses : List NhmCheckedDbus) (check_idx : ℕ) (h : check_idx < dbusses.length)
    (checked_dbus : NhmCheckedDbus) :
    (dbusVerdicts connect call dbusses).drop check_idx =
      (.dbus dbusses[check_idx].bus_addr,
          (dbusses[check_idx].bus_conn <|> connect check_idx).any (call check_idx)) ::
        (dbusVerdicts connect call (dbusses.set check_idx checked_dbus)).drop (check_idx + 1) := by
  rw [dbusVerdicts, List.drop_eq_getElem_cons (by rwa [List.length_mapIdx]), List.getElem_mapIdx]
  congr 1
  apply List.ext_getElem?
  intro i
  have hset : (dbusses.set check_idx checked_dbus)[check_idx + 1 + i]? =
      dbusses[check_idx + 1 + i]? := List.getElem?_set_ne (by omega)
  rw [List.getElem?_drop, List.getElem?_drop, dbusVerdicts, List.getElem?_mapIdx,
    List.getElem?_mapIdx, hset]

theorem checkDbusses_false (connect : ℕ → Option ℕ) (call : ℕ → ℕ → Bool)
    (dbusses : List NhmCheckedDbus) (check_idx : ℕ) :
    checkDbusses connect call dbusses check_idx false = some (false, dbusses, []) := by
  rw [checkDbusses, if_neg (by simp)]

theorem checkDbusses_eq (connect : ℕ → Option ℕ) (call : ℕ → ℕ → Bool)
    (dbusses : List NhmCheckedDbus) (check_idx : ℕ) (ul_ok : Bool) (hok : ul_ok = true) :
    ∃ next, checkDbusses connect call dbusses check_idx ul_ok =
      some ((probeItems ((dbusVerdicts connect call dbusses).drop check_idx)).1, next,
        (probeItems ((dbusVerdicts connect call dbusses).drop check_idx)).2) := by
  induction dbusses, check_idx, ul_ok using checkDbusses.induct with
  | case1 dbusses check_idx ul_ok h ih =>
    have hget : dbusses[check_idx]? = some dbusses[check_idx] := List.getElem?_eq_getElem h.1
    let checked_dbus := { dbusses[check_idx] with
      bus_conn := dbusses[check_idx].bus_conn <|> connect check_idx }
    rw [checkDbusses, if_pos h, hget,
      drop_dbusVerdicts connect call dbusses check_idx h.1 checked_dbus]
    simp only [Option.bind_eq_bind, Option.bind_some, isDbusAlive_eq]
    cases (dbusses[check_idx].bus_conn <|> connect check_idx).any (call check_idx) with
    | false =>
      rw [checkDbusses_false]
      exact ⟨_, rfl⟩
    | true =>
      obtain ⟨next, hrun⟩ := ih true checked_dbus rfl
      rw [hrun]
      exact ⟨next, rfl⟩
  | case2 dbusses check_idx ul_ok h =>
    have hend : dbusses.length ≤ check_idx := not_lt.mp fun hlt => h ⟨hlt, hok⟩
    rw [checkDbusses, if_neg h, dbusVerdicts,
      List.drop_eq_nil_of_le (by rwa [List.length_mapIdx]), hok]
    exact ⟨dbusses, rfl⟩

theorem checkMonitoredDbusses_eq (connect : ℕ → Option ℕ) (call : ℕ → ℕ → Bool)
    (checked_dbusses : Option (List NhmCheckedDbus)) :
    ∃ next, checkMonitoredDbusses connect call checked_dbusses =
      some ((probeItems (dbusVerdicts connect call (checked_dbusses.getD []))).1, next,
        (probeItems (dbusVerdicts connect call (checked_dbusses.getD []))).2) := by
  cases checked_dbusses with
  | none => exact ⟨none, rfl⟩
  | some dbusses =>
    obtain ⟨next, hrun⟩ := checkDbusses_eq connect call dbusses 0 true rfl
    rw [List.drop_zero] at hrun
    exact ⟨some next, by simp [checkMonitoredDbusses, hrun]⟩

theorem findProg_eq (prog : CString) (entries : List (Option CString)) :
    findProg prog entries false = decide (some prog ∈ entries) := by
  induction entries with
  | nil => rfl
  | cons entry entries ih =>
    cases entry with
    | none => simp [findProg, ih]
    | some prog_name =>
      by_cases h : prog_name = prog
      · cases entries <;> simp [findProg, h]
      · simp [findProg, h, ih, Ne.symm h]

theorem isProcessRunning_eq (proc_dir : Option (List (Option CString))) (prog : CString) :
    isProcessRunning proc_dir prog = proc_dir.any fun entries => some prog ∈ entries := by
  cases proc_dir with
  | none => rfl
  | some entries => exact findProg_eq prog entries

theorem isProcessOk_eq (spawn : Option Int32) : isProcessOk spawn = decide (spawn = some 0) := by
  cases spawn <;> simp [isProcessOk]

def allVerdicts (probes : Probes) (s : State) : List (UserlandItem × Bool) :=
  verdicts (s.cfg.monitored_files.getD []) .file (fun i _ => probes.file_test i) ++
    (verdicts (s.cfg.monitored_progs.getD []) .prog
        (fun i prog => (probes.proc_dir i).any fun entries => some prog ∈ entries) ++
      (verdicts (s.cfg.monitored_procs.getD []) .proc (fun i _ => probes.spawn i = some 0) ++
        dbusVerdicts probes.dbus_connect probes.dbus_call (s.checked_dbusses.getD [])))

theorem timerUserlandCheckCb_eq (probes : Probes) (s : State) :
    ∃ next, timerUserlandCheckCb probes s =
      some ({ s with checked_dbusses := next },
        .log ["NHM: Userland check started."] none :: ((probeItems (allVerdicts probes s)).2 ++
          [.log [if (probeItems (allVerdicts probes s)).1 then
              "NHM: Userland check successfully finished."
            else "NHM: Userland check failed. Restarting system."] none])) := by
  obtain ⟨next, hdbusses⟩ :=
    checkMonitoredDbusses_eq probes.dbus_connect probes.dbus_call s.checked_dbusses
  have hfiles : checkFiles probes s.cfg = _ := checkMonitored_eq s.cfg.monitored_files .file
    (fun i _ => probes.file_test i) _ _ fun _ => rfl
  have hprogs : checkProgs probes s.cfg = _ := checkMonitored_eq s.cfg.monitored_progs .prog
    (fun i prog => isProcessRunning (probes.proc_dir i) prog) _ _ fun _ => rfl
  have hprocs : checkProcs probes s.cfg = _ := checkMonitored_eq s.cfg.monitored_procs .proc
    (fun i _ => isProcessOk (probes.spawn i)) _ _ fun _ => rfl
  simp only [isProcessRunning_eq] at hprogs
  simp only [isProcessOk_eq] at hprocs
  rw [timerUserlandCheckCb, allVerdicts, probeItems_append, probeItems_append, probeItems_append,
    hfiles, hprogs, hprocs, hdbusses]
  -- what is left depends on the three flags only
  rcases probeItems (verdicts (s.cfg.monitored_files.getD []) _ _) with ⟨files_ok, files⟩
  rcases probeItems (verdicts (s.cfg.monitored_progs.getD []) _ _) with ⟨progs_ok, progs⟩
  rcases probeItems (verdicts (s.cfg.monitored_procs.getD []) _ _) with ⟨procs_ok, procs⟩
  cases files_ok with
  | false => simp
  | true =>
    cases progs_ok with
    | false => simp
    | true => cases procs_ok <;> simp

theorem timerUserlandCheckCb_observes (probes : Probes) (s : State) :
    ∃ next sent, timerUserlandCheckCb probes s = some (next, sent) ∧ ∀ e ∈ sent, Observes e := by
  obtain ⟨next, hrun⟩ := timerUserlandCheckCb_eq probes s
  refine ⟨_, _, hrun, fun e he => ?_⟩
  simp only [List.mem_cons, List.mem_append, List.not_mem_nil, or_false] at he
  rcases he with rfl | he | rfl
  · trivial
  · exact probeItems_observes _ e he
  · trivial

theorem probeItems_eq (items : List (UserlandItem × Bool)) :
    probeItems items =
      match items.find? (fun verdict => !verdict.2) with
      | some (item, _) => (false, (items.takeWhile (·.2)).map (fun verdict => .probe verdict.1) ++
          [.probe item, failureLog item])
      | none => (true, (items.takeWhile (·.2)).map fun verdict => .probe verdict.1) := by
  induction items with
  | nil => rfl
  | cons verdict items ih =>
    obtain ⟨item, ok⟩ := verdict
    cases ok with
    | false => rfl
    | true =>
      rw [probeItems, ih, List.find?_cons_of_neg (by simp), List.takeWhile_cons_of_pos rfl]
      cases items.find? fun verdict => !verdict.2 <;> rfl

/-- The probes up to the first item that fails, the log that names it, and the outcome. -/
theorem timerUserlandCheckCb_firstFailure (probes : Probes) (s : State) :
    ∃ next, timerUserlandCheckCb probes s =
      some ({ s with checked_dbusses := next },
        .log ["NHM: Userland check started."] none ::
          ((allVerdicts probes s).takeWhile (·.2)).map (fun verdict => .probe verdict.1) ++
            match (allVerdicts probes s).find? (fun verdict => !verdict.2) with
            | some (item, _) => [.probe item, failureLog item,
                .log ["NHM: Userland check failed. Restarting system."] none]
            | none => [.log ["NHM: Userland check successfully finished."] none]) := by
  obtain ⟨next, hrun⟩ := timerUserlandCheckCb_eq probes s
  refine ⟨next, hrun.trans ?_⟩
  rw [probeItems_eq]
  cases (allVerdicts probes s).find? fun verdict => !verdict.2 with
  | none => simp
  | some verdict => simp

def SomeItemFails (probes : Probes) (s : State) : Prop :=
  (∃ items, s.cfg.monitored_files = some items ∧
      ∃ i name, items[i]? = some name ∧ probes.file_test i = false) ∨
    (∃ items, s.cfg.monitored_progs = some items ∧
      ∃ i name, items[i]? = some name ∧ isProcessRunning (probes.proc_dir i) name = false) ∨
    (∃ items, s.cfg.monitored_procs = some items ∧
      ∃ i name, items[i]? = some name ∧ isProcessOk (probes.spawn i) = false) ∨
    ∃ dbusses, s.checked_dbusses = some dbusses ∧ ∃ i dbus, dbusses[i]? = some dbus ∧
      (isDbusAlive (probes.dbus_connect i) (probes.dbus_call i) dbus).1 = false

def tick (s : State) (probes : Probes) : Option State :=
  (timerUserlandCheckCb probes s).map Prod.fst

/-- The tick resets the node exactly when an item fails its probe. -/
def ResetsNode (s : State) (probes : Probes) : Prop :=
  ∃ next sent, timerUserlandCheckCb probes s = some (next, sent) ∧
    ((∃ reason type, Effect.requestNodeRestart reason type ∈ sent) ↔ SomeItemFails probes s)

theorem resetsNode_iff (s : State) (probes : Probes) :
    ResetsNode s probes ↔ ¬SomeItemFails probes s := by
  obtain ⟨next, sent, hrun, hobserves⟩ := timerUserlandCheckCb_observes probes s
  have hno : ¬∃ reason type, Effect.requestNodeRestart reason type ∈ sent :=
    fun ⟨_, _, he⟩ => hobserves _ he
  simp only [ResetsNode, hrun, Option.some.injEq, Prod.mk.injEq]
  constructor
  · rintro ⟨_, _, ⟨rfl, rfl⟩, hiff⟩
    exact fun hfails => hno (hiff.mpr hfails)
  · intro hpass
    exact ⟨next, sent, ⟨rfl, rfl⟩, iff_of_false hno hpass⟩

theorem resetsNode_ticks (s : State) (ticks : List Probes) :
    Transition.AllSteps tick (fun t probes => ResetsNode t probes ↔ ¬SomeItemFails probes t)
      s ticks :=
  Transition.allSteps_of_invariant tick (fun _ => True) _ (fun _ _ _ _ _ => trivial)
    (fun t probes _ => resetsNode_iff t probes) s ticks trivial

theorem not_resetsNode_missingFile :
    ¬Transition.AllSteps tick ResetsNode
      (State.start { monitored_files := some [CString.literal [47, 97]] } ⟨none, none⟩)
      [{ file_test := fun _ => false }] := by
  rintro ⟨hreset, -⟩
  exact (resetsNode_iff _ _).mp hreset (Or.inl ⟨_, rfl, 0, _, rfl, rfl⟩)

end NodeHealthMonitor.NhmMain
