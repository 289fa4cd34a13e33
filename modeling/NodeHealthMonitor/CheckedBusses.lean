import NodeHealthMonitor.RunTimeLayout
import NodeHealthMonitor.Userland

/-! The monitored busses in memory. `nhm_main_prepare_checks` creates an object for each, a
check opens a connection where there is none and keeps it, and `main` gives all of them back.
However often is checked, a bus has one connection at most. -/

namespace NodeHealthMonitor.CheckedBusses
open NhmMain OwnedMemory RunTimeHeap

def newCheckedDbus (A : Allocator Block) (addr : CString) : HeapM Block ℕ := do
  let checked_dbus ← alloc A .uninitialised
  let bus_addr ← alloc A (.string addr)
  store checked_dbus (.checkedDbus bus_addr none)
  pure checked_dbus

def prepareChecks (A : Allocator Block) (monitored_dbus : Option (List CString)) :
    HeapM Block (Option ℕ) :=
  match monitored_dbus with
  | some addrs => do
      let checked_dbusses ← alloc A (.ptrArray [])
      addrs.foldlM (fun _ addr => do
        let checked_dbus ← newCheckedDbus A addr
        arrayAdd checked_dbusses checked_dbus) ()
      pure (some checked_dbusses)
  | none => pure none

def freeCheckedDbus (checked_dbus : ℕ) : HeapM Block Unit := do
  let (bus_addr, bus_conn) ← loadAs Block.checkedDbus? checked_dbus
  free bus_addr
  unref bus_conn
  free checked_dbus

def freeCheckObjects (checked_dbusses : Option ℕ) : HeapM Block Unit :=
  match checked_dbusses with
  | some array => arrayUnref freeCheckedDbus array
  | none => pure ()

def busAddr (checked_dbus : ℕ) : HeapM Block CString := do
  let (bus_addr, _) ← loadAs Block.checkedDbus? checked_dbus
  loadAs Block.string? bus_addr

/-- The first step of `nhm_main_is_dbus_alive`: the connection, if it is there or can be
opened. -/
def openBus (A : Allocator Block) (connect : Option ℕ) (checked_dbus : ℕ) :
    HeapM Block (Option ℕ) := do
  let (bus_addr, bus_conn) ← loadAs Block.checkedDbus? checked_dbus
  match bus_conn, connect with
  | some a, _ => pure (some a)
  | none, some conn => do
      let a ← alloc A (.connection conn)
      store checked_dbus (.checkedDbus bus_addr (some a))
      pure (some a)
  | none, none => pure none

def isDbusAlive (A : Allocator Block) (connect : Option ℕ) (call : ℕ → Bool) (checked_dbus : ℕ) :
    HeapM Block Bool := do
  match ← openBus A connect checked_dbus with
  | some a => do
      let conn ← loadAs Block.connection? a
      pure (call conn)
  | none => pure false

def checkDbusses (A : Allocator Block) (connect : ℕ → Option ℕ) (call : ℕ → ℕ → Bool)
    (pdata : List ℕ) (check_idx : ℕ) (ul_ok : Bool) : HeapM Block (Bool × List Effect) :=
  if check_idx < pdata.length ∧ ul_ok = true then do
    let checked_dbus ← ofOption pdata[check_idx]?
    let alive ← isDbusAlive A (connect check_idx) (call check_idx) checked_dbus
    let bus_addr ← busAddr checked_dbus
    let failed := if alive then [] else [failureLog (.dbus bus_addr)]
    let (ul_ok, sent) ← checkDbusses A connect call pdata (check_idx + 1) alive
    pure (ul_ok, .probe (.dbus bus_addr) :: failed ++ sent)
  else pure (ul_ok, [])
termination_by pdata.length - check_idx

def checkMonitoredDbusses (A : Allocator Block) (connect : ℕ → Option ℕ) (call : ℕ → ℕ → Bool)
    (checked_dbusses : Option ℕ) : HeapM Block (Bool × List Effect) :=
  match checked_dbusses with
  | some array => do
      let pdata ← loadAs Block.ptrArray? array
      checkDbusses A connect call pdata 0 true
  | none => pure (true, [])

def timerUserlandCheckCb (A : Allocator Block) (probes : Probes) (cfg : Config)
    (checked_dbusses : Option ℕ) : HeapM Block (List Effect) := do
  let (ul_ok, files) ← ofOption (checkFiles probes cfg)
  let (ul_ok, progs) ← ofOption (if ul_ok then checkProgs probes cfg else some (ul_ok, []))
  let (ul_ok, procs) ← ofOption (if ul_ok then checkProcs probes cfg else some (ul_ok, []))
  let (ul_ok, dbusses) ← if ul_ok then
      checkMonitoredDbusses A probes.dbus_connect probes.dbus_call checked_dbusses
    else pure (ul_ok, [])
  let outcome := if ul_ok then "NHM: Userland check successfully finished."
    else "NHM: Userland check failed. Restarting system."
  pure (.log ["NHM: Userland check started."] none ::
    (files ++ progs ++ procs ++ dbusses ++ [.log [outcome] none]))

structure BusAt where
  addr : ℕ
  name : ℕ
  bus_addr : CString
  bus_conn : Option (ℕ × ℕ)

namespace BusAt

def value (bus : BusAt) : NhmCheckedDbus := ⟨bus.bus_addr, bus.bus_conn.map Prod.snd⟩

def connection (bus_conn : Option (ℕ × ℕ)) : Cells Block :=
  match bus_conn with
  | some (a, conn) => {⟨a, .connection conn⟩}
  | none => 0

def cells (bus : BusAt) : Cells Block :=
  ⟨bus.addr, .checkedDbus bus.name (bus.bus_conn.map Prod.fst)⟩ ::ₘ
    ⟨bus.name, .string bus.bus_addr⟩ ::ₘ connection bus.bus_conn

end BusAt

section
variable (bus : BusAt)

theorem triple_newCheckedDbus (A : Allocator Block) (addr : CString) :
    Triple 0 (newCheckedDbus A addr) fun checked_dbus cells =>
      ∃ name, cells = BusAt.cells ⟨checked_dbus, name, addr, none⟩ :=
  .alloc fun _ => .alloc fun name =>
    .store (Multiset.cons_swap _ _ _) (.pure _ ⟨name, rfl⟩)

theorem triple_freeCheckedDbus :
    Triple bus.cells (freeCheckedDbus bus.addr) fun _ cells => cells = 0 := by
  refine loadAs_bind rfl rfl (.free (Multiset.cons_swap _ _ _) ?_)
  cases hconn : bus.bus_conn with
  | none => exact triple_free _ _ _
  | some opened =>
    obtain ⟨a, conn⟩ := opened
    exact .free (Multiset.cons_swap _ (⟨a, .connection conn⟩ : (_ : ℕ) × Block) 0)
      (triple_free _ _ _)

theorem triple_busAddr :
    Triple bus.cells (busAddr bus.addr) fun bus_addr cells =>
      bus_addr = bus.bus_addr ∧ cells = bus.cells :=
  loadAs_bind rfl rfl (.load (Multiset.cons_swap _ _ _)
    (.ofOption rfl ⟨rfl, Multiset.cons_swap _ _ _⟩))

theorem triple_openBus (A : Allocator Block) (connect : Option ℕ) :
    Triple bus.cells (openBus A connect bus.addr) fun a cells =>
      ∃ bus_conn, bus_conn.map Prod.snd = (bus.value.bus_conn <|> connect) ∧
        a = bus_conn.map Prod.fst ∧ cells = { bus with bus_conn := bus_conn }.cells := by
  obtain ⟨addr, name, bus_addr, bus_conn⟩ := bus
  refine loadAs_bind rfl rfl ?_
  cases bus_conn with
  | some opened => exact .pure _ ⟨some opened, rfl, rfl, rfl⟩
  | none =>
    cases connect with
    | none => exact .pure _ ⟨none, rfl, rfl, rfl⟩
    | some conn =>
      refine .alloc fun a => .store (Multiset.cons_swap _ _ _)
        (.pure _ ⟨some (a, conn), rfl, rfl, ?_⟩)
      exact congrArg (Multiset.cons _) (Multiset.cons_swap _ _ _)

theorem triple_isDbusAlive (A : Allocator Block) (connect : Option ℕ) (call : ℕ → Bool) :
    Triple bus.cells (isDbusAlive A connect call bus.addr) fun alive cells =>
      ∃ bus_conn, NhmMain.isDbusAlive connect call bus.value =
          (alive, { bus with bus_conn := bus_conn }.value) ∧
        cells = { bus with bus_conn := bus_conn }.cells := by
  refine (triple_openBus bus A connect).bind ?_
  rintro _ _ ⟨bus_conn, hconn, rfl, rfl⟩
  have hvalue : NhmMain.isDbusAlive connect call bus.value =
      ((bus_conn.map Prod.snd).any call, { bus with bus_conn := bus_conn }.value) := by
    rw [isDbusAlive_eq, ← hconn]
    rfl
  cases bus_conn with
  | none => exact .pure _ ⟨none, hvalue, rfl⟩
  | some opened =>
    obtain ⟨a, conn⟩ := opened
    have hcells : BusAt.cells { bus with bus_conn := some (a, conn) } =
        ⟨a, .connection conn⟩ ::ₘ ⟨bus.addr, .checkedDbus bus.name (some a)⟩ ::ₘ
          {⟨bus.name, .string bus.bus_addr⟩} := by
      rw [Multiset.cons_swap]
      exact congrArg (Multiset.cons _)
        (Multiset.cons_swap (⟨bus.name, .string bus.bus_addr⟩ : (_ : ℕ) × Block) _ 0)
    exact loadAs_bind rfl hcells (.pure _ ⟨some (a, conn), hvalue, hcells.symm⟩)

end

structure Kept (before after : List BusAt) : Prop where
  addrs : after.map BusAt.addr = before.map BusAt.addr
  bus_addrs : after.map BusAt.bus_addr = before.map BusAt.bus_addr

theorem Kept.refl (busses : List BusAt) : Kept busses busses := ⟨rfl, rfl⟩

theorem Kept.trans {before between after : List BusAt} (h : Kept before between)
    (h' : Kept between after) : Kept before after :=
  ⟨h'.addrs.trans h.addrs, h'.bus_addrs.trans h.bus_addrs⟩

theorem map_set_same {α β : Type} (f : α → β) {items : List α} {i : ℕ} (hi : i < items.length)
    {item : α} (h : f item = f items[i]) : (items.set i item).map f = items.map f := by
  rw [List.map_set, h, ← List.getElem_map f (h := by rwa [List.length_map]), List.set_getElem_self]

theorem kept_set (busses : List BusAt) {i : ℕ} (hi : i < busses.length)
    (bus_conn : Option (ℕ × ℕ)) :
    Kept busses (busses.set i { busses[i] with bus_conn := bus_conn }) :=
  ⟨map_set_same BusAt.addr hi rfl, map_set_same BusAt.bus_addr hi rfl⟩

theorem sum_set {ι : Type} (object : ι → Cells Block) {items : List ι} {i : ℕ}
    (hi : i < items.length) (item : ι) :
    ((items.set i item).map object).sum =
      object item + ((items.eraseIdx i).map object).sum := by
  rw [((List.set_perm_cons_eraseIdx hi item).map object).sum_eq, List.map_cons, List.sum_cons]

theorem triple_checkDbusses (A : Allocator Block) (connect : ℕ → Option ℕ)
    (call : ℕ → ℕ → Bool) (busses : List BusAt) (check_idx : ℕ) (ul_ok : Bool) :
    Triple (busses.map BusAt.cells).sum
      (checkDbusses A connect call (busses.map BusAt.addr) check_idx ul_ok) fun result cells =>
      ∃ next, Kept busses next ∧ cells = (next.map BusAt.cells).sum ∧
        NhmMain.checkDbusses connect call (busses.map BusAt.value) check_idx ul_ok =
          some (result.1, next.map BusAt.value, result.2) := by
  generalize hpdata : busses.map BusAt.addr = pdata
  induction check_idx, ul_ok using checkDbusses.induct pdata generalizing busses with
  | case1 check_idx ul_ok h ih =>
    subst hpdata
    have hi : check_idx < busses.length := by simpa using h.1
    have hget : (busses.map BusAt.addr)[check_idx]? = some busses[check_idx].addr := by
      rw [List.getElem?_map, List.getElem?_eq_getElem hi, Option.map_some]
    have hvalue : (busses.map BusAt.value)[check_idx]? = some busses[check_idx].value := by
      rw [List.getElem?_map, List.getElem?_eq_getElem hi, Option.map_some]
    have hstep : check_idx < (busses.map BusAt.value).length ∧ ul_ok = true := by
      rw [List.length_map]
      exact ⟨hi, h.2⟩
    have hsplit := sum_set BusAt.cells hi busses[check_idx]
    rw [List.set_getElem_self] at hsplit
    rw [checkDbusses, if_pos h]
    refine .ofOption_bind hget ?_
    refine (triple_isDbusAlive busses[check_idx] A (connect check_idx) (call check_idx)).call
      hsplit ?_
    rintro alive _ ⟨bus_conn, halive, rfl⟩
    -- The bus goes back among the others.
    refine (triple_busAddr { busses[check_idx] with bus_conn := bus_conn }).call rfl ?_
    rintro _ _ ⟨rfl, rfl⟩
    have hkept := kept_set busses hi bus_conn
    rw [← sum_set BusAt.cells hi]
    refine (ih alive _ hkept.addrs).bind ?_
    rintro ⟨ok, sent⟩ _ ⟨next, hnext, rfl, hrun⟩
    refine .pure _ ⟨next, hkept.trans hnext, rfl, ?_⟩
    rw [NhmMain.checkDbusses, if_pos hstep, hvalue]
    simp only [Option.bind_eq_bind, Option.bind_some, halive]
    rw [List.map_set] at hrun
    rw [hrun]
    rfl
  | case2 check_idx ul_ok h =>
    subst hpdata
    have hend : ¬ (check_idx < (busses.map BusAt.value).length ∧ ul_ok = true) := by simpa using h
    rw [checkDbusses, if_neg h, NhmMain.checkDbusses, if_neg hend]
    exact .pure _ ⟨busses, .refl busses, rfl, rfl⟩

structure ChecksAt where
  array : ℕ
  busses : List BusAt

def checksPointer (checks : Option ChecksAt) : Option ℕ := checks.map ChecksAt.array

def checksCells (checks : Option ChecksAt) : Cells Block :=
  match checks with
  | some c => pointerArray BusAt.addr BusAt.cells c.array c.busses
  | none => 0

def checksValue (checks : Option ChecksAt) : Option (List NhmCheckedDbus) :=
  checks.map fun c => c.busses.map BusAt.value

theorem bus_addrs_value (checks : Option ChecksAt) :
    ((checksValue checks).map fun dbusses => dbusses.map NhmCheckedDbus.bus_addr) =
      checks.map fun c => c.busses.map BusAt.bus_addr := by
  cases checks with
  | none => rfl
  | some c => exact congrArg some (List.map_map ..)

structure ChecksKept (before after : Option ChecksAt) : Prop where
  pointer : checksPointer after = checksPointer before
  bus_addrs : after.map (fun c => c.busses.map BusAt.bus_addr) =
    before.map fun c => c.busses.map BusAt.bus_addr

theorem ChecksKept.refl (checks : Option ChecksAt) : ChecksKept checks checks := ⟨rfl, rfl⟩

section
variable (A : Allocator Block)

theorem triple_checkMonitoredDbusses (connect : ℕ → Option ℕ) (call : ℕ → ℕ → Bool)
    (checks : Option ChecksAt) :
    Triple (checksCells checks) (checkMonitoredDbusses A connect call (checksPointer checks))
      fun result cells => ∃ next, ChecksKept checks next ∧ cells = checksCells next ∧
        NhmMain.checkMonitoredDbusses connect call (checksValue checks) =
          some (result.1, checksValue next, result.2) := by
  cases checks with
  | none => exact .pure _ ⟨none, .refl none, rfl, rfl⟩
  | some c =>
    obtain ⟨array, busses⟩ := c
    refine loadAs_bind (x := busses.map BusAt.addr) rfl rfl ?_
    refine (triple_checkDbusses A connect call busses 0 true).last
      (r := {⟨array, .ptrArray (busses.map BusAt.addr)⟩}) ?_ ?_
    · rw [add_comm, Multiset.singleton_add]
    · rintro ⟨ok, sent⟩ _ ⟨next, hkept, rfl, hrun⟩
      refine ⟨some ⟨array, next⟩, ⟨rfl, congrArg some hkept.bus_addrs⟩, ?_, ?_⟩
      · rw [add_comm, Multiset.singleton_add, ← hkept.addrs]
        rfl
      · simp only [NhmMain.checkMonitoredDbusses, checksValue, Option.map_some, hrun]
        rfl

theorem checkMonitored_some (monitored : Option (List CString)) (item : CString → UserlandItem)
    (test : ℕ → CString → Bool) (reason label : String)
    (hlog : ∀ name, failureLog (item name) =
      .log ["NHM: Userland check failed.", reason, label] (some name)) (ul_ok : Bool) :
    ∃ result, (if ul_ok then checkMonitored monitored item test reason label
      else some (ul_ok, [])) = some result := by
  cases ul_ok with
  | false => exact ⟨_, rfl⟩
  | true => exact ⟨_, checkMonitored_eq monitored item test reason label hlog⟩

theorem triple_timerUserlandCheckCb (probes : Probes) (s : State) (checks : Option ChecksAt)
    (hchecks : s.checked_dbusses = checksValue checks) :
    Triple (checksCells checks) (timerUserlandCheckCb A probes s.cfg (checksPointer checks))
      fun sent cells => ∃ next, ChecksKept checks next ∧ cells = checksCells next ∧
        NhmMain.timerUserlandCheckCb probes s =
          some ({ s with checked_dbusses := checksValue next }, sent) := by
  obtain ⟨⟨files_ok, files⟩, hfiles⟩ : ∃ result, checkFiles probes s.cfg = some result :=
    ⟨_, checkMonitored_eq _ _ _ _ _ fun _ => rfl⟩
  obtain ⟨⟨progs_ok, progs⟩, hprogs⟩ : ∃ result, (if files_ok then checkProgs probes s.cfg
      else some (files_ok, [])) = some result := checkMonitored_some _ _ _ _ _ (fun _ => rfl) _
  obtain ⟨⟨procs_ok, procs⟩, hprocs⟩ : ∃ result, (if progs_ok then checkProcs probes s.cfg
      else some (progs_ok, [])) = some result := checkMonitored_some _ _ _ _ _ (fun _ => rfl) _
  refine .ofOption_bind hfiles (.ofOption_bind hprogs (.ofOption_bind hprocs ?_))
  cases procs_ok with
  | false =>
    refine .pure _ ⟨checks, .refl checks, rfl, ?_⟩
    simp only [NhmMain.timerUserlandCheckCb, Option.bind_eq_bind, hfiles, hprogs, hprocs,
      Option.bind_some, hchecks]
    rfl
  | true =>
    refine (triple_checkMonitoredDbusses A _ _ checks).bind ?_
    rintro ⟨ok, dbusses⟩ _ ⟨next, hkept, rfl, hrun⟩
    refine .pure _ ⟨next, hkept, rfl, ?_⟩
    simp only [NhmMain.timerUserlandCheckCb, Option.bind_eq_bind, hfiles, hprogs, hprocs,
      Option.bind_some, hchecks, if_pos, hrun]

theorem triple_newChecks (addrs : List CString) (array : ℕ) :
    Triple (pointerArray BusAt.addr BusAt.cells array [])
      (addrs.foldlM (fun _ addr => do
        let checked_dbus ← newCheckedDbus A addr
        arrayAdd array checked_dbus) ())
      fun _ cells => ∃ busses, cells = pointerArray BusAt.addr BusAt.cells array busses ∧
        busses.map BusAt.value = addrs.map fun addr => ⟨addr, none⟩ := by
  refine (triple_foldlM (fun left _ cells => ∃ busses,
    cells = pointerArray BusAt.addr BusAt.cells array busses ∧
    busses.map BusAt.value ++ left.map (fun addr => ⟨addr, none⟩) =
      addrs.map fun addr => ⟨addr, none⟩) ?_ addrs () _ ⟨[], rfl, rfl⟩).weaken ?_
  · rintro addr rest _ _ ⟨busses, rfl, hvalues⟩
    refine (triple_newCheckedDbus A addr).call (zero_add _).symm ?_
    rintro checked_dbus _ ⟨name, rfl⟩
    refine (triple_arrayAdd BusAt.addr BusAt.cells array busses
      ⟨checked_dbus, name, addr, none⟩).weaken ?_
    rintro _ _ rfl
    refine ⟨_, rfl, ?_⟩
    rw [← hvalues, List.map_append, List.append_assoc]
    rfl
  · rintro _ _ ⟨busses, rfl, hvalues⟩
    exact ⟨busses, rfl, by rw [← hvalues, List.map_nil, List.append_nil]⟩

theorem triple_prepareChecks (monitored_dbus : Option (List CString)) :
    Triple 0 (prepareChecks A monitored_dbus) fun checked_dbusses cells =>
      ∃ checks, checked_dbusses = checksPointer checks ∧ cells = checksCells checks ∧
        checksValue checks = NhmMain.prepareChecks monitored_dbus := by
  cases monitored_dbus with
  | none => exact .pure _ ⟨none, rfl, rfl, rfl⟩
  | some addrs =>
    refine .alloc fun array => (triple_newChecks A addrs array).bind ?_
    rintro _ _ ⟨busses, rfl, hvalues⟩
    exact .pure _ ⟨some ⟨array, busses⟩, rfl, rfl, congrArg some hvalues⟩

theorem triple_freeCheckObjects (checks : Option ChecksAt) :
    Triple (checksCells checks) (freeCheckObjects (checksPointer checks))
      fun _ cells => cells = 0 := by
  cases checks with
  | none => exact .pure _ rfl
  | some c => exact triple_arrayUnref BusAt.addr BusAt.cells c.array c.busses triple_freeCheckedDbus

end

/-- A tick of the userland timer, with the memory. -/
def checkTick (A : Allocator Block) (cfg : Config) (checked_dbusses : Option ℕ)
    (m : Memory Block) (probes : Probes) : Option (Memory Block × List Effect) :=
  (timerUserlandCheckCb A probes cfg checked_dbusses m).map fun (sent, next) => (next, sent)

def valueTick (s : State) (probes : Probes) : Option (State × List Effect) :=
  NhmMain.timerUserlandCheckCb probes s

/-- Before and after every tick there are the monitored busses in memory, and nothing else. -/
structure Monitored (cfg : Config) (checked_dbusses : Option ℕ) (m : Memory Block) (s : State)
    (checks : Option ChecksAt) : Prop where
  pointer : checksPointer checks = checked_dbusses
  bus_addrs : checks.map (fun c => c.busses.map BusAt.bus_addr) = cfg.monitored_dbus
  memory : m.cells = checksCells checks
  config : s.cfg = cfg
  value : s.checked_dbusses = checksValue checks

section
variable (A : Allocator Block) {cfg : Config} {checked_dbusses : Option ℕ} {m : Memory Block}
  {s : State} {checks : Option ChecksAt}

theorem Monitored.tick (monitored : Monitored cfg checked_dbusses m s checks) (probes : Probes) :
    ∃ m' s' sent, checkTick A cfg checked_dbusses m probes = some (m', sent) ∧
      valueTick s probes = some (s', sent) ∧
      ∃ next, Monitored cfg checked_dbusses m' s' next := by
  obtain ⟨sent, m', hrun, next, hkept, hcells, hvalue⟩ :=
    (triple_timerUserlandCheckCb A probes s checks monitored.value).run monitored.memory
  rw [monitored.pointer, monitored.config] at hrun
  refine ⟨m', _, sent, by rw [checkTick, hrun]; rfl, hvalue, next, ?_⟩
  exact ⟨hkept.pointer.trans monitored.pointer, hkept.bus_addrs.trans monitored.bus_addrs,
    hcells, monitored.config, rfl⟩

theorem card_connection (bus_conn : Option (ℕ × ℕ)) :
    (BusAt.connection bus_conn).card = if bus_conn.isSome then 1 else 0 := by
  cases bus_conn <;> rfl

theorem card_busses (busses : List BusAt) :
    (busses.map BusAt.cells).sum.card = 2 * busses.length +
      (busses.map BusAt.value).countP fun dbus => dbus.bus_conn.isSome := by
  induction busses with
  | nil => rfl
  | cons bus busses ih =>
    rw [List.map_cons, List.sum_cons, Multiset.card_add, ih, BusAt.cells, Multiset.card_cons,
      Multiset.card_cons, card_connection, List.map_cons, List.countP_cons, List.length_cons,
      BusAt.value, Option.isSome_map]
    omega

theorem Monitored.card (monitored : Monitored cfg checked_dbusses m s checks) :
    m.cells.card = cfg.monitored_dbus.elim 0 fun addrs => 1 + 2 * addrs.length +
      (s.checked_dbusses.getD []).countP fun dbus => dbus.bus_conn.isSome := by
  rw [monitored.memory, ← monitored.bus_addrs, monitored.value]
  cases checks with
  | none => rfl
  | some c =>
    rw [checksCells, pointerArray, Multiset.card_cons, card_busses, Option.map_some,
      Option.elim_some, List.length_map, checksValue, Option.map_some, Option.getD_some]
    omega

theorem Monitored.addrs (monitored : Monitored cfg checked_dbusses m s checks) :
    (s.checked_dbusses.map fun dbusses => dbusses.map NhmCheckedDbus.bus_addr) =
      cfg.monitored_dbus := by
  rw [monitored.value, bus_addrs_value, monitored.bus_addrs]

end

theorem monitored_start (A : Allocator Block) (cfg : Config) (disk : Disk) :
    ∃ checked_dbusses m, prepareChecks A cfg.monitored_dbus .empty = some (checked_dbusses, m) ∧
      ∃ checks, Monitored cfg checked_dbusses m (.start cfg disk) checks := by
  obtain ⟨_, m, hrun, checks, rfl, hcells, hvalue⟩ :=
    (triple_prepareChecks A cfg.monitored_dbus).run (m := .empty) rfl
  refine ⟨checksPointer checks, m, hrun, checks, rfl, ?_, hcells, rfl, hvalue.symm⟩
  rw [← bus_addrs_value, hvalue, NhmMain.prepareChecks, Option.map_map]
  cases cfg.monitored_dbus with
  | none => rfl
  | some addrs =>
    refine congrArg some ((List.map_map ..).trans ?_)
    exact List.map_id _

/-- However often is checked, the memory is that of the monitored busses and of one connection
for each that has one. The checks find what they find without memory, and at the end all of
it is given back. -/
theorem checkedBusses_run (A : Allocator Block) (cfg : Config) (disk : Disk)
    (ticks : List Probes) :
    ∃ checked_dbusses m, prepareChecks A cfg.monitored_dbus .empty = some (checked_dbusses, m) ∧
      ∃ q s checks, Transition.run (fun m probes => (checkTick A cfg checked_dbusses m probes).map
          Prod.fst) m ticks = some q ∧
        Transition.run (fun s probes => (valueTick s probes).map Prod.fst) (.start cfg disk)
          ticks = some s ∧
        Transition.outputs (checkTick A cfg checked_dbusses) m ticks =
          Transition.outputs valueTick (.start cfg disk) ticks ∧
        q.cells = checksCells checks ∧ s.checked_dbusses = checksValue checks ∧
        (s.checked_dbusses.map fun dbusses => dbusses.map NhmCheckedDbus.bus_addr) =
          cfg.monitored_dbus ∧
        (q.cells.card = cfg.monitored_dbus.elim 0 fun addrs => 1 + 2 * addrs.length +
          (s.checked_dbusses.getD []).countP fun dbus => dbus.bus_conn.isSome) ∧
        ∃ final, freeCheckObjects checked_dbusses q = some ((), final) ∧ final.cells = 0 := by
  obtain ⟨checked_dbusses, m, hprepare, checks, start⟩ := monitored_start A cfg disk
  refine ⟨checked_dbusses, m, hprepare, ?_⟩
  obtain ⟨q, s, hq, hs, ⟨last, monitored⟩, houtputs⟩ := Transition.run_refines
    (checkTick A cfg checked_dbusses) valueTick
    (fun m s => ∃ checks, Monitored cfg checked_dbusses m s checks) (fun _ _ => True)
    (fun _ _ probes ⟨_, monitored⟩ _ => monitored.tick A probes) ticks m (.start cfg disk)
    ⟨checks, start⟩ (Transition.allSteps_of_forall _ (fun _ => True) _ ticks fun _ _ => trivial)
  obtain ⟨_, final, hfree, hcells⟩ := (triple_freeCheckObjects last).run monitored.memory
  rw [monitored.pointer] at hfree
  exact ⟨q, s, last, hq, hs, houtputs, monitored.memory, monitored.value, monitored.addrs,
    monitored.card, final, hfree, hcells⟩

end NodeHealthMonitor.CheckedBusses
