import NodeHealthMonitor.RunTimeLayout

/-! The handlers on the memory do what the handlers of `NhmMain` do on the values: from any
memory that holds the run-time data, and nothing else of it, they get to their result with
the new data in memory, and nothing else of it again. -/

namespace NodeHealthMonitor.RunTimeHeap
open LcData LinkedList NhmMain OwnedMemory

/-- The variables with all they point to. -/
structure Layout where
  cfg : Config
  disk : Disk
  dbus_lc_control_obj : Bool
  checked_dbusses : Option (List NhmCheckedDbus)
  info : Option ℕ
  current : List (Placed NhmCurrentFailedApp)
  nodeinfo : Option (ℕ × List LcAt)

def infoCells (info : Option ℕ) : Cells Block :=
  match info with
  | some a => {⟨a, .skeleton⟩}
  | none => 0

def nodeinfoCells (nodeinfo : Option (ℕ × List LcAt)) : Cells Block :=
  match nodeinfo with
  | some (array, lcs) => arrayCells array lcs
  | none => 0

namespace Layout

def vars (l : Layout) : Vars where
  cfg := l.cfg
  disk := l.disk
  dbus_lc_control_obj := l.dbus_lc_control_obj
  dbus_nhm_info_obj := l.info
  nodeinfo := l.nodeinfo.map Prod.fst
  current_failed_apps := first l.current
  checked_dbusses := l.checked_dbusses

def state (l : Layout) : State where
  cfg := l.cfg
  disk := l.disk
  dbus_lc_control_obj := l.dbus_lc_control_obj
  dbus_nhm_info_obj := l.info.isSome
  nodeinfo := l.nodeinfo.map fun nodeinfo => nodeinfo.2.map LcAt.value
  current_failed_apps := values l.current
  checked_dbusses := l.checked_dbusses

def cells (l : Layout) : Cells Block :=
  listCells currentCells l.current + (nodeinfoCells l.nodeinfo + infoCells l.info)

end Layout

/-- The program gives the variables, the output and the data of a result on the values. -/
def Refines (l : Layout) (program : HeapM Block (Vars × List Effect))
    (result : Option (State × List Effect)) : Prop :=
  ∀ s sent, result = some (s, sent) → Triple l.cells program fun out cells =>
    ∃ l' : Layout, out = (l'.vars, sent) ∧ cells = l'.cells ∧ l'.state = s

section
variable (array : ℕ) (lcs : List LcAt)

theorem triple_loadArray :
    Triple (arrayCells array lcs) (loadArray (some array)) fun pdata cells =>
      pdata = lcs.map LcAt.addr ∧ cells = arrayCells array lcs :=
  .ofOption_bind rfl (.load rfl (.ofOption rfl ⟨rfl, rfl⟩))

theorem triple_lc {β : Type} {program : HeapM Block β} {b : β} {lc : LcAt} (hlc : lc ∈ lcs)
    (h : Triple lc.cells program fun c cells => c = b ∧ cells = lc.cells) :
    Triple (arrayCells array lcs) program fun c cells =>
      c = b ∧ cells = arrayCells array lcs := by
  refine (triple_item hlc h).last (r := {⟨array, .ptrArray (lcs.map LcAt.addr)⟩}) ?_ ?_
  · rw [add_comm, Multiset.singleton_add]
    rfl
  · rintro _ _ ⟨rfl, rfl⟩
    rw [add_comm, Multiset.singleton_add]
    exact ⟨rfl, rfl⟩

theorem triple_writeLcs (size : ℕ) (file : List UInt8) :
    Triple (arrayCells array lcs) (((lcs.map LcAt.addr).take size).foldlM writeLc file)
      fun out cells => out = file ++ ((lcs.map LcAt.value).take size).flatMap LcData.writeLc ∧
        cells = arrayCells array lcs := by
  rw [← List.map_take, ← List.map_take, List.foldlM_map, List.flatMap_map,
    ← foldl_appending fun lc : LcAt => LcData.writeLc lc.value]
  exact triple_foldlM_read _ (fun lc hlc file =>
    triple_lc array lcs (List.mem_of_mem_take hlc) (triple_writeLc lc file)) file

end

section
variable (array : ℕ) (lcs : List LcAt) (max_lc_count : UInt32)

theorem triple_uncleanStart (lc : LcAt) :
    Triple lc.cells (uncleanStart lc.addr) fun count cells =>
      count = NhmMain.uncleanStart lc.value ∧ cells = lc.cells :=
  loadAs_bind rfl rfl (.pure _ ⟨rfl, rfl⟩)

theorem triple_appFailcount (app_name : CString) (lc : LcAt) :
    Triple lc.cells (appFailcount app_name lc.addr) fun count cells =>
      count = NhmMain.appFailcount app_name lc.value ∧ cells = lc.cells := by
  refine (triple_findFailedApp lc app_name).bind ?_
  rintro _ _ ⟨rfl, rfl⟩
  have hvalue := findFailedApp_value lc app_name
  cases hfind : lc.apps.find? fun p => p.value.name = app_name with
  | none =>
    rw [hfind] at hvalue
    exact .pure _ ⟨by rw [NhmMain.appFailcount, hvalue]; rfl, rfl⟩
  | some p =>
    rw [hfind] at hvalue
    obtain ⟨-, before, after, happs, -⟩ := List.find?_eq_some_iff_append.mp hfind
    have hcells : lc.cells = ⟨p.node.data, .failedApp p.name p.value.failcount⟩ ::ₘ
        (⟨p.name, .string p.value.name⟩ ::ₘ ⟨lc.addr, .lcInfo lc.start_state (first lc.apps)⟩ ::ₘ
          (chain ((before ++ p :: after).map Placed.node) +
            ((before.map failedCells).sum + (after.map failedCells).sum))) := by
      rw [LcAt.cells, happs, listCells_middle, failedCells]
      simp only [← Multiset.singleton_add]
      abel
    refine loadAs_bind rfl hcells (.pure _ ⟨?_, hcells.symm⟩)
    rw [NhmMain.appFailcount, hvalue]
    rfl

theorem triple_sumLcs {count : ℕ → HeapM Block UInt32} {valueCount : NhmLcInfo → UInt32}
    (hcount : ∀ lc : LcAt, Triple lc.cells (count lc.addr) fun n cells =>
      n = valueCount lc.value ∧ cells = lc.cells) (lc_idx : ℕ) (total : UInt32) :
    Triple (arrayCells array lcs) (sumLcs (lcs.map LcAt.addr) max_lc_count count lc_idx total)
      fun sum cells => NhmMain.sumLcs (lcs.map LcAt.value) max_lc_count valueCount lc_idx total =
        some sum ∧ cells = arrayCells array lcs := by
  rw [sumLcs, NhmMain.sumLcs]
  simp only [List.length_map]
  by_cases hidx : lc_idx < lcs.length ∧ lc_idx ≤ max_lc_count.toNat
  · have hmem : lcs[lc_idx]? = some lcs[lc_idx] := List.getElem?_eq_getElem hidx.1
    rw [if_pos hidx, if_pos hidx]
    refine .ofOption_bind (by rw [List.getElem?_map, hmem, Option.map_some]) ?_
    refine (triple_lc array lcs (List.getElem_mem hidx.1) (hcount _)).bind ?_
    rintro _ _ ⟨rfl, rfl⟩
    rw [List.getElem?_map, hmem, Option.map_some]
    exact triple_sumLcs hcount (lc_idx + 1) _
  · rw [if_neg hidx, if_neg hidx]
    exact .pure _ ⟨rfl, rfl⟩
termination_by lcs.length - lc_idx

end

theorem Layout.cells_nodeinfo {l : Layout} {array : ℕ} {lcs : List LcAt}
    (h : l.nodeinfo = some (array, lcs)) : l.cells = arrayCells array lcs +
      (listCells currentCells l.current + infoCells l.info) := by
  rw [Layout.cells, h, nodeinfoCells]
  abel

theorem writeData_refines (env : Env) (l : Layout) {s : State}
    (h : NhmMain.writeData env l.state = some s) :
    Triple l.cells (writeData env l.vars) fun v cells => ∃ disk, cells = l.cells ∧
      v = { l with disk := disk }.vars ∧ { l with disk := disk }.state = s := by
  unfold NhmMain.writeData at h
  unfold writeData
  cases hopen : env.fopen_w with
  | false =>
    rw [hopen] at h
    cases h
    exact .pure _ ⟨l.disk, rfl, rfl, rfl⟩
  | true =>
    rw [hopen, if_pos rfl, Option.bind_eq_bind, Option.bind_eq_some_iff] at h
    obtain ⟨nodeinfo, hnodeinfo, hs⟩ := h
    obtain ⟨⟨array, lcs⟩, hlcs, rfl⟩ := Option.map_eq_some_iff.mp hnodeinfo
    cases hs
    rw [if_pos rfl, l.cells_nodeinfo hlcs]
    have harray : l.vars.nodeinfo = some array := by rw [Layout.vars, hlcs, Option.map_some]
    rw [harray]
    refine (triple_loadArray array lcs).call rfl ?_
    rintro _ _ ⟨rfl, rfl⟩
    refine (triple_writeLcs array lcs _ _).call rfl ?_
    rintro _ _ ⟨rfl, rfl⟩
    refine .pure _ ⟨{ l.disk with lcdata := some (LcData.writeData (lcs.map LcAt.value)
      l.cfg.max_lc_count) }, rfl, ?_, rfl⟩
    simp only [Layout.vars, LcData.writeData, lcListSize, listLength, List.length_map, hlcs,
      Option.map_some]

theorem checkFailedAppRestart_refines (env : Env) (l : Layout) {sent : List Effect}
    (h : NhmMain.checkFailedAppRestart env l.state = some sent) :
    Triple l.cells (checkFailedAppRestart env l.vars) fun out cells =>
      out = sent ∧ cells = l.cells := by
  unfold NhmMain.checkFailedAppRestart at h
  unfold checkFailedAppRestart
  have hcfg : l.vars.cfg = l.state.cfg := rfl
  rw [hcfg]
  by_cases hmax : l.state.cfg.max_failed_apps ≠ 0
  · rw [if_pos hmax] at h
    rw [if_pos hmax]
    refine (triple_length (l.current.map Placed.node)).call
      (r := (l.current.map currentCells).sum + (nodeinfoCells l.nodeinfo + infoCells l.info))
      (by rw [Layout.cells, listCells, add_assoc]) ?_
    rintro _ _ ⟨rfl, rfl⟩
    rw [← add_assoc]
    have hcount : listLength l.state.current_failed_apps =
        UInt32.ofNat (l.current.map Placed.node).length := by
      rw [listLength, Layout.state, values, List.length_map, List.length_map]
    rw [hcount] at h
    dsimp only at h
    split at h
    · rename_i hreached
      rw [if_pos hreached]
      exact .ofOption h ⟨rfl, rfl⟩
    · rename_i hbelow
      rw [if_neg hbelow]
      cases h
      exact .pure _ ⟨rfl, rfl⟩
  · rw [if_neg hmax] at h
    rw [if_neg hmax]
    cases h
    exact .pure _ ⟨rfl, rfl⟩

theorem findCurrentFailedApp_values (ps : List (Placed NhmCurrentFailedApp)) (name : CString) :
    NhmMain.findCurrentFailedApp (values ps) name =
      (ps.find? fun p => p.value.name = name).map Placed.value := by
  rw [NhmMain.findCurrentFailedApp, values, List.find?_map]
  rfl

theorem addFailure_refines (A : Allocator Block) (env : Env) (name : CString) (l : Layout)
    {lc : LcAt} {lcs : List LcAt} {array : ℕ} (hlcs : l.nodeinfo = some (array, lc :: lcs))
    {s : State} {restart sent : List Effect}
    (hwrite : NhmMain.writeData env { l.state with
      current_failed_apps := l.state.current_failed_apps ++ [⟨name⟩]
      nodeinfo := some (NhmMain.countFailure name lc.value :: lcs.map LcAt.value) } = some s)
    (hrestart : NhmMain.checkFailedAppRestart env s = some restart) :
    Triple l.cells (do
        let current_failed_apps ← addCurrentFailedApp A l.vars.current_failed_apps name
        let pdata ← loadArray l.vars.nodeinfo
        let lc_info ← ofOption pdata[0]?
        countFailure A lc_info name
        let v ← writeData env { l.vars with current_failed_apps := current_failed_apps }
        let restart ← checkFailedAppRestart env v
        pure (v, sent ++ restart)) fun out cells =>
      ∃ l' : Layout, out = (l'.vars, sent ++ restart) ∧ cells = l'.cells ∧ l'.state = s := by
  have harray : l.vars.nodeinfo = some array := by rw [Layout.vars, hlcs, Option.map_some]
  refine (triple_addCurrentFailedApp A name l.current).call rfl ?_
  rintro _ _ ⟨current, rfl, rfl, hcurrent⟩
  rw [hlcs, harray]
  refine (triple_loadArray array (lc :: lcs)).call
    (r := listCells currentCells current + infoCells l.info) (by rw [nodeinfoCells]; abel) ?_
  rintro _ _ ⟨rfl, rfl⟩
  refine .ofOption_bind (y := lc.addr) rfl ?_
  refine (triple_countFailure A lc name).call
    (r := ⟨array, .ptrArray ((lc :: lcs).map LcAt.addr)⟩ ::ₘ ((lcs.map LcAt.cells).sum +
      (listCells currentCells current + infoCells l.info))) ?_ ?_
  · rw [arrayCells, pointerArray, List.map_cons (f := LcAt.cells), List.sum_cons]
    simp only [← Multiset.singleton_add]
    abel
  rintro _ _ ⟨lc', haddr, hvalue, rfl⟩
  -- The layout behind the new record, before anything is written.
  let l₁ : Layout := { l with current := current, nodeinfo := some (array, lc' :: lcs) }
  have hvars : { l.vars with current_failed_apps := first current } = l₁.vars := by
    simp only [l₁, Layout.vars, hlcs, Option.map_some]
  have hstate : l₁.state = { l.state with
      current_failed_apps := l.state.current_failed_apps ++ [⟨name⟩]
      nodeinfo := some (NhmMain.countFailure name lc.value :: lcs.map LcAt.value) } := by
    simp only [l₁, Layout.state, hcurrent, Option.map_some, List.map_cons, hvalue]
  have hcells : lc'.cells + (⟨array, .ptrArray ((lc :: lcs).map LcAt.addr)⟩ ::ₘ
      ((lcs.map LcAt.cells).sum + (listCells currentCells current + infoCells l.info))) =
        l₁.cells := by
    simp only [l₁, Layout.cells, nodeinfoCells, arrayCells, pointerArray, List.map_cons,
      List.sum_cons, haddr,
      ← Multiset.singleton_add]
    abel
  rw [hcells, hvars]
  rw [← hstate] at hwrite
  refine (writeData_refines env l₁ hwrite).bind ?_
  rintro _ _ ⟨disk, rfl, rfl, rfl⟩
  refine (checkFailedAppRestart_refines env { l₁ with disk := disk } hrestart).bind ?_
  rintro _ _ ⟨rfl, rfl⟩
  exact .pure _ ⟨{ l₁ with disk := disk }, rfl, rfl, rfl⟩

theorem registerAppStatus_refines (A : Allocator Block) (env : Env) (name : CString)
    (status : NhmAppStatus) (l : Layout) :
    Refines l (registerAppStatus A env name status l.vars)
      (NhmMain.registerAppStatus env name status l.state) := by
  intro s sent h
  unfold NhmMain.registerAppStatus at h
  unfold registerAppStatus
  by_cases hobj : l.state.dbus_lc_control_obj = true ∧ l.state.dbus_nhm_info_obj = true
  swap
  · rw [if_neg hobj] at h
    cases h
  have hobj' : l.vars.dbus_lc_control_obj = true ∧ l.vars.dbus_nhm_info_obj.isSome = true := hobj
  rw [if_pos hobj] at h
  rw [if_pos hobj']
  refine (triple_findCurrentFailedApp l.current name).call rfl ?_
  rintro _ _ ⟨rfl, rfl⟩
  have hvalue : NhmMain.findCurrentFailedApp l.state.current_failed_apps name = _ :=
    findCurrentFailedApp_values l.current name
  cases hfind : l.current.find? fun p => p.value.name = name with
  | none =>
    rw [hfind, Option.map_none] at hvalue
    by_cases hstatus : status = NhmAppStatus.failed
    · rw [if_pos ⟨hvalue, hstatus⟩] at h
      simp only [Option.bind_eq_bind, Option.bind_eq_some_iff] at h
      obtain ⟨nodeinfo, hnodeinfo, lc_info, hlc, mid, hwrite, restart, hrestart, hs⟩ := h
      obtain ⟨⟨array, lcs⟩, hlcs, rfl⟩ := Option.map_eq_some_iff.mp hnodeinfo
      cases lcs with
      | nil => cases hlc
      | cons lc lcs =>
        cases hlc
        cases hs
        simp only [Option.map_none, if_pos hstatus]
        exact addFailure_refines A env name l hlcs hwrite hrestart
    · rw [if_neg fun both => hstatus both.2, if_neg fun both => both.1 hvalue] at h
      cases h
      simp only [Option.map_none, if_neg hstatus]
      exact .pure _ ⟨l, rfl, rfl, rfl⟩
  | some p =>
    rw [hfind, Option.map_some] at hvalue
    have hlisted : NhmMain.findCurrentFailedApp l.state.current_failed_apps name ≠ none := by
      rw [hvalue]
      exact Option.some_ne_none _
    rw [if_neg fun both => hlisted both.1] at h
    by_cases hstatus : status ≠ NhmAppStatus.failed
    · rw [if_pos ⟨hlisted, hstatus⟩] at h
      cases h
      simp only [Option.map_some, if_pos hstatus]
      refine (triple_dropCurrentFailedApp hfind).call rfl ?_
      rintro _ _ ⟨current, rfl, rfl, hcurrent⟩
      refine .pure _ ⟨{ l with current := current }, rfl, rfl, ?_⟩
      simp only [Layout.state, hcurrent]
    · rw [if_neg fun both => hstatus both.2] at h
      cases h
      simp only [Option.map_some, if_neg hstatus]
      exact .pure _ ⟨l, rfl, rfl, rfl⟩

theorem readStatistics_refines (app_name : CString) (l : Layout) {reply : ReadStatistics}
    (h : NhmMain.readStatistics app_name l.state = some reply) :
    Triple l.cells (readStatistics app_name l.vars) fun out cells =>
      out = reply ∧ cells = l.cells := by
  unfold NhmMain.readStatistics at h
  rw [Option.bind_eq_bind, Option.bind_eq_some_iff] at h
  obtain ⟨nodeinfo, hnodeinfo, h⟩ := h
  obtain ⟨⟨array, lcs⟩, hlcs, rfl⟩ := Option.map_eq_some_iff.mp hnodeinfo
  have harray : l.vars.nodeinfo = some array := by rw [Layout.vars, hlcs, Option.map_some]
  unfold readStatistics
  rw [harray]
  by_cases hname : app_name = CString.empty
  · simp only [hname, if_true, Option.bind_eq_bind, Option.bind_eq_some_iff] at h
    obtain ⟨⟨total, lc_idx⟩, hsum, hreply⟩ := h
    rw [if_pos hname]
    refine (triple_length (l.current.map Placed.node)).call
      (r := (l.current.map currentCells).sum + (nodeinfoCells l.nodeinfo + infoCells l.info))
      (by rw [Layout.cells, listCells, add_assoc]) ?_
    rintro _ _ ⟨rfl, rfl⟩
    have hcells : chain (l.current.map Placed.node) + ((l.current.map currentCells).sum +
        (nodeinfoCells l.nodeinfo + infoCells l.info)) = l.cells := by
      rw [Layout.cells, listCells, add_assoc]
    rw [hcells]
    refine (triple_loadArray array lcs).call (l.cells_nodeinfo hlcs) ?_
    rintro _ _ ⟨rfl, rfl⟩
    refine (triple_sumLcs array lcs l.cfg.max_lc_count triple_uncleanStart 0 0).call rfl ?_
    rintro ⟨sum, idx⟩ _ ⟨hvalue, rfl⟩
    cases hvalue.symm.trans hsum
    cases hreply
    refine .pure _ ⟨?_, (l.cells_nodeinfo hlcs).symm⟩
    rw [listLength, Layout.state, values, List.length_map, List.length_map]
  · simp only [hname, if_false, Option.bind_eq_bind, Option.bind_eq_some_iff] at h
    obtain ⟨lc_info, hlc, ⟨total, lc_idx⟩, hsum, hreply⟩ := h
    rw [if_neg hname]
    cases lcs with
    | nil => cases hlc
    | cons lc lcs =>
      cases hlc
      refine (triple_loadArray array (lc :: lcs)).call (l.cells_nodeinfo hlcs) ?_
      rintro _ _ ⟨rfl, rfl⟩
      refine .ofOption_bind (y := lc.addr) rfl ?_
      refine (triple_lc array (lc :: lcs) List.mem_cons_self
        (triple_appFailcount app_name lc)).call rfl ?_
      rintro _ _ ⟨rfl, rfl⟩
      refine (triple_sumLcs array (lc :: lcs) l.cfg.max_lc_count
        (triple_appFailcount app_name) 1 _).call rfl ?_
      rintro ⟨sum, idx⟩ _ ⟨hvalue, rfl⟩
      cases hvalue.symm.trans hsum
      cases hreply
      exact .pure _ ⟨rfl, (l.cells_nodeinfo hlcs).symm⟩

theorem triple_readLc (A : Allocator Block) (array : ℕ) (lcs : List LcAt) (value : NhmLcInfo) :
    Triple (arrayCells array lcs) (readLc A array value) fun _ cells =>
      ∃ lc : LcAt, lc.value = value ∧ cells = arrayCells array (lcs ++ [lc]) := by
  refine .alloc fun a => ?_
  refine (triple_foldlM (fun left list own => ∃ ps, list = first ps ∧
    values ps ++ left = value.failed_apps ∧ own = listCells failedCells ps) ?_ value.failed_apps
      none 0 ⟨[], rfl, rfl, rfl⟩).call (zero_add _).symm ?_
  · rintro app left _ _ ⟨ps, rfl, hps, rfl⟩
    refine (triple_addFailedApp A app ps).weaken ?_
    rintro _ _ ⟨p, rfl, rfl, rfl⟩
    refine ⟨ps ++ [p], rfl, ?_, rfl⟩
    rw [← hps, values, values, List.map_append, List.map_singleton, List.append_assoc,
      List.singleton_append]
  · rintro _ _ ⟨ps, rfl, hps, rfl⟩
    refine .store (Multiset.add_cons _ _ _) ?_
    refine (triple_arrayAdd LcAt.addr LcAt.cells array lcs ⟨a, value.start_state, ps⟩).last
      (r := 0) ?_ ?_
    · rw [LcAt.cells, Multiset.cons_add, add_zero]
      rfl
    · rintro _ _ rfl
      rw [List.append_nil] at hps
      exact ⟨⟨a, value.start_state, ps⟩, by simp only [LcAt.value, hps], add_zero _⟩

theorem triple_readData (A : Allocator Block) (max_lc_count : UInt32)
    (file : Option (List UInt8)) (array : ℕ) (lcs : List LcAt) {stored : List NhmLcInfo}
    (h : LcData.readData max_lc_count file [] = some stored) :
    Triple (arrayCells array lcs) (readData A max_lc_count file array) fun _ cells =>
      ∃ lcs' : List LcAt, lcs'.map LcAt.value = lcs.map LcAt.value ++ stored ∧
        cells = arrayCells array lcs' := by
  refine .ofOption_bind h ((triple_foldlM (fun left _ own => ∃ lcs' : List LcAt,
    lcs'.map LcAt.value ++ left = lcs.map LcAt.value ++ stored ∧ own = arrayCells array lcs') ?_
      stored () _ ⟨lcs, rfl, rfl⟩).weaken ?_)
  · rintro value left _ _ ⟨lcs', hlcs, rfl⟩
    refine (triple_readLc A array lcs' value).weaken ?_
    rintro _ _ ⟨lc, rfl, rfl⟩
    refine ⟨lcs' ++ [lc], ?_, rfl⟩
    rw [← hlcs, List.map_append, List.map_singleton, List.append_assoc, List.singleton_append]
  · rintro _ _ ⟨lcs', hlcs, rfl⟩
    exact ⟨lcs', by rw [← hlcs, List.append_nil], rfl⟩

/-- The data is created where there was none; of what was there nothing could be freed. -/
theorem busAcquiredCb_refines (A : Allocator Block) (env : Env) (l : Layout)
    (hinfo : l.info = none) (hnodeinfo : l.nodeinfo = none) :
    Refines l (busAcquiredCb A env l.vars) (NhmMain.busAcquiredCb env l.state) := by
  intro s sent h
  simp only [NhmMain.busAcquiredCb, Option.bind_eq_bind, Option.bind_eq_some_iff] at h
  obtain ⟨nodeinfo, hread, hs⟩ := h
  cases hs
  have hstored : ∃ stored, LcData.readData l.cfg.max_lc_count
      (if env.fopen_r then l.disk.lcdata else none) [] = some stored ∧
        nodeinfo = ⟨readShutdownFlag env l.disk, []⟩ :: stored := by
    change LcData.readData l.cfg.max_lc_count (if env.fopen_r then l.disk.lcdata else none)
      [⟨readShutdownFlag env l.disk, []⟩] = some nodeinfo at hread
    cases hfile : if env.fopen_r then l.disk.lcdata else none with
    | none =>
      rw [hfile] at hread
      cases hread
      exact ⟨[], rfl, rfl⟩
    | some bytes =>
      rw [hfile] at hread
      obtain ⟨stored, hcollect, rfl⟩ := Option.map_eq_some_iff.mp hread
      exact ⟨stored, by rw [LcData.readData, hcollect]; rfl, rfl⟩
  obtain ⟨stored, hstored, rfl⟩ := hstored
  refine .alloc fun array => .alloc fun a => .store rfl ?_
  refine (triple_arrayAdd LcAt.addr LcAt.cells array [] ⟨a, readShutdownFlag env l.disk, []⟩).call
    (r := listCells currentCells l.current) ?_ ?_
  · rw [Layout.cells, hinfo, hnodeinfo]
    change (⟨a, .lcInfo (readShutdownFlag env l.disk) none⟩ : (_ : ℕ) × Block) ::ₘ
        ⟨array, .ptrArray []⟩ ::ₘ (listCells currentCells l.current + (0 + 0)) =
      {⟨a, .lcInfo (readShutdownFlag env l.disk) none⟩} + {⟨array, .ptrArray []⟩} +
        listCells currentCells l.current
    simp only [← Multiset.singleton_add]
    abel
  rintro _ _ rfl
  refine (triple_readData A l.cfg.max_lc_count _ array _ hstored).call rfl ?_
  rintro _ _ ⟨lcs, hlcs, rfl⟩
  refine .alloc fun info => .pure _ ⟨{ l with info := some info, nodeinfo := some (array, lcs) },
    rfl, ?_, ?_⟩
  · rw [Layout.cells, nodeinfoCells, infoCells]
    simp only [← Multiset.singleton_add]
    abel
  · simp only [Layout.state, Option.map_some, hlcs]
    rfl

theorem writeShutdownFlag_apart (env : Env) (node_state : NhmNodeState) (l : Layout) :
    ∃ written disk, writeShutdownFlag env node_state l.state =
        (written, ({ l with disk := disk } : Layout).state) ∧
      writeShutdownFlag env node_state l.vars.state =
        (written, { l.vars.state with disk := disk }) := by
  unfold writeShutdownFlag
  split
  · exact ⟨true, { l.disk with shutdown_flag := some node_state }, rfl, rfl⟩
  · exact ⟨false, l.disk, rfl, rfl⟩

theorem nameAcquiredCb_refines (env : Env) (l : Layout) :
    Refines l (nameAcquiredCb env l.vars) (NhmMain.nameAcquiredCb env l.state) := by
  intro s sent h
  obtain ⟨written, disk, hflag, hflag'⟩ :=
    writeShutdownFlag_apart env NhmNodeState.started l
  simp only [NhmMain.nameAcquiredCb, hflag, Option.bind_eq_bind, Option.bind_eq_some_iff] at h
  obtain ⟨mid, hwrite, hs⟩ := h
  cases hs
  unfold nameAcquiredCb
  rw [hflag']
  refine (writeData_refines env { l with disk := disk } hwrite).bind ?_
  rintro _ _ ⟨file, rfl, rfl, rfl⟩
  exact .pure _ ⟨{ l with disk := file }, rfl, rfl, rfl⟩

theorem triple_unref (info : Option ℕ) :
    Triple (infoCells info) (unref info) fun _ cells => cells = 0 := by
  cases info with
  | none => exact .pure _ rfl
  | some a => exact triple_free 0 a Block.skeleton

theorem freeNhmObjects_refines (l : Layout) :
    Triple l.cells (freeNhmObjects l.vars) fun v cells => cells = 0 ∧ ∃ l' : Layout,
      v = l'.vars ∧ cells = l'.cells ∧ l'.state = MainLoop.freeNhmObjects l.state := by
  refine (triple_unref l.info).call
    (r := listCells currentCells l.current + nodeinfoCells l.nodeinfo)
    (by rw [Layout.cells]; abel) ?_
  rintro _ _ rfl
  rw [zero_add]
  refine (triple_freeFull Placed.node currentCells l.current
    fun p _ => triple_freeCurrentFailedApp p).call rfl ?_
  rintro _ _ rfl
  rw [zero_add]
  have hend : Triple (0 : Cells Block) (pure { l.vars with
      dbus_nhm_info_obj := none, current_failed_apps := none, nodeinfo := none }) fun v cells =>
      cells = 0 ∧ ∃ l' : Layout, v = l'.vars ∧ cells = l'.cells ∧
        l'.state = MainLoop.freeNhmObjects l.state :=
    .pure _ ⟨rfl, { l with info := none, current := [], nodeinfo := none }, rfl, rfl, rfl⟩
  cases hnodeinfo : l.nodeinfo with
  | none =>
    simp only [Layout.vars, hnodeinfo, Option.map_none]
    exact hend
  | some nodeinfo =>
    obtain ⟨array, lcs⟩ := nodeinfo
    simp only [Layout.vars, hnodeinfo, Option.map_some]
    refine (triple_arrayUnref LcAt.addr LcAt.cells array lcs triple_freeLcInfo).bind ?_
    rintro _ _ rfl
    exact hend

theorem apart_refines {callback : State → Option (State × List Effect)} (l : Layout)
    (happart : ∀ s sent, callback l.state = some (s, sent) → ∃ disk checked_dbusses,
      s = { l.state with disk := disk, checked_dbusses := checked_dbusses } ∧
        callback l.vars.state = some
          ({ l.vars.state with disk := disk, checked_dbusses := checked_dbusses }, sent)) :
    Refines l (apart callback l.vars) (callback l.state) := by
  intro s sent h
  obtain ⟨disk, checked_dbusses, rfl, hvars⟩ := happart s sent h
  exact .ofOption_bind hvars (.pure _
    ⟨{ l with disk := disk, checked_dbusses := checked_dbusses }, rfl, rfl, rfl⟩)

theorem requestNodeRestartCb_refines (env : Env) (app_name : CString) (l : Layout) :
    Refines l (apart (requestNodeRestartCb env app_name) l.vars)
      (requestNodeRestartCb env app_name l.state) := by
  refine apart_refines l fun s sent h => ⟨l.disk, l.checked_dbusses, ?_⟩
  have hlist : l.vars.state.cfg = l.state.cfg := rfl
  have hrestart : requestRestart env .applicationFailure .normal l.vars.state =
      requestRestart env .applicationFailure .normal l.state := rfl
  unfold requestNodeRestartCb at h ⊢
  rw [hlist, hrestart]
  split at h
  · rename_i hallowed
    rw [if_pos hallowed]
    obtain ⟨result, hresult, hs⟩ := Option.bind_eq_some_iff.mp h
    cases hs
    exact ⟨rfl, by rw [hresult]; rfl⟩
  · rename_i hrejected
    rw [if_neg hrejected]
    cases h
    exact ⟨rfl, rfl⟩

theorem lcRequestCb_writes (env : Env) (shutdown_type : NsmShutdownType) :
    ∃ node_state, ∀ s, lcRequestCb env shutdown_type s =
      ((writeShutdownFlag env node_state s).2, [.completeLifecycleRequest
        (if (writeShutdownFlag env node_state s).1 then .ok else .error)]) := by
  by_cases htype : shutdown_type ≠ .runup
  · exact ⟨NhmNodeState.shutdown, fun s => by simp only [lcRequestCb, if_pos htype]⟩
  · exact ⟨NhmNodeState.started, fun s => by simp only [lcRequestCb, if_neg htype]⟩

theorem lcRequestCb_refines (env : Env) (shutdown_type : NsmShutdownType) (l : Layout) :
    Refines l (apart (fun s => some (lcRequestCb env shutdown_type s)) l.vars)
      (some (lcRequestCb env shutdown_type l.state)) := by
  refine apart_refines l fun s sent h => ?_
  obtain ⟨node_state, hwrites⟩ := lcRequestCb_writes env shutdown_type
  obtain ⟨written, disk, hflag, hflag'⟩ := writeShutdownFlag_apart env node_state l
  simp only [hwrites, hflag, hflag'] at h ⊢
  cases h
  exact ⟨disk, l.checked_dbusses, rfl, rfl⟩

theorem timerUserlandCheckCb_refines (probes : Probes) (l : Layout) :
    Refines l (apart (timerUserlandCheckCb probes) l.vars)
      (timerUserlandCheckCb probes l.state) := by
  refine apart_refines l fun s sent h => ?_
  unfold timerUserlandCheckCb at h
  simp only [Option.bind_eq_bind, Option.bind_eq_some_iff] at h
  obtain ⟨files, hfiles, progs, hprogs, procs, hprocs, dbusses, hdbusses, hs⟩ := h
  cases hs
  refine ⟨l.disk, dbusses.2.1, rfl, ?_⟩
  have hcfg : l.vars.state.cfg = l.state.cfg := rfl
  have hchecked : l.vars.state.checked_dbusses = l.state.checked_dbusses := rfl
  unfold timerUserlandCheckCb
  simp only [hcfg, hchecked, hfiles, hprogs, hprocs, hdbusses, Option.bind_eq_bind,
    Option.bind_some]
  rfl

theorem handle_refines (A : Allocator Block) (l : Layout) (request : Request) :
    Refines l (handle A l.vars request) (NhmMain.handle l.state request) := by
  intro s sent h
  cases request with
  | registerAppStatus env app_name app_status =>
    obtain ⟨⟨s', sent'⟩, hstep, hs⟩ := Option.bind_eq_some_iff.mp h
    cases hs
    refine (registerAppStatus_refines A env app_name app_status l _ sent' hstep).bind ?_
    rintro _ _ ⟨l', rfl, rfl, rfl⟩
    exact .pure _ ⟨l', rfl, rfl, rfl⟩
  | readStatistics app_name =>
    obtain ⟨reply, hstep, hs⟩ := Option.bind_eq_some_iff.mp h
    cases hs
    refine (readStatistics_refines app_name l hstep).bind ?_
    rintro _ _ ⟨rfl, rfl⟩
    exact .pure _ ⟨l, rfl, rfl, rfl⟩
  | requestNodeRestart env app_name => exact requestNodeRestartCb_refines env app_name l s sent h
  | lcRequest env shutdown_type => exact lcRequestCb_refines env shutdown_type l s sent h

theorem callBack_refines (A : Allocator Block) (env : Env) (reports : List Report) (l : Layout) :
    Refines l (callBack A env reports l.vars) (MainLoop.callBack env reports l.state) := by
  induction reports generalizing l with
  | nil =>
    intro s sent h
    cases h
    exact .pure _ ⟨l, rfl, rfl, rfl⟩
  | cons report reports ih =>
    obtain ⟨name, status⟩ := report
    intro s sent h
    simp only [MainLoop.callBack, Option.bind_eq_bind, Option.bind_eq_some_iff] at h
    obtain ⟨⟨mid, sent₁⟩, hstep, ⟨last, sent₂⟩, hrest, hs⟩ := h
    cases hs
    refine (registerAppStatus_refines A env name status l mid sent₁ hstep).bind ?_
    rintro _ _ ⟨l₁, rfl, rfl, rfl⟩
    refine (ih l₁ last sent₂ hrest).bind ?_
    rintro _ _ ⟨l₂, rfl, rfl, rfl⟩
    exact .pure _ ⟨l₂, rfl, rfl, rfl⟩

end NodeHealthMonitor.RunTimeHeap
