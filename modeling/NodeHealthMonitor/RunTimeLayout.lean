import NodeHealthMonitor.RunTimeHeap

/-! Which blocks make up the run-time data, and what the functions that read, write and free
it do to them: each works on the blocks of its own data and does with them what the
functions of `NhmMain` do with the values. -/

namespace NodeHealthMonitor.RunTimeHeap
open LcData LinkedList NhmMain OwnedMemory

/-- A record of a list: where its cell, the record and its name are, and what it says. -/
structure Placed (α : Type) where
  node : Node
  name : ℕ
  value : α

def currentCells (p : Placed NhmCurrentFailedApp) : Cells Block :=
  ⟨p.node.data, .currentFailedApp p.name⟩ ::ₘ {⟨p.name, .string p.value.name⟩}

def failedCells (p : Placed NhmFailedApp) : Cells Block :=
  ⟨p.node.data, .failedApp p.name p.value.failcount⟩ ::ₘ {⟨p.name, .string p.value.name⟩}

section
variable {α : Type}

def first (ps : List (Placed α)) : Option ℕ := head (ps.map Placed.node)

def values (ps : List (Placed α)) : List α := ps.map Placed.value

def listCells (object : Placed α → Cells Block) (ps : List (Placed α)) : Cells Block :=
  chain (ps.map Placed.node) + (ps.map object).sum

end

structure LcAt where
  addr : ℕ
  start_state : NhmNodeState
  apps : List (Placed NhmFailedApp)

namespace LcAt

def value (lc : LcAt) : NhmLcInfo := ⟨lc.start_state, values lc.apps⟩

def cells (lc : LcAt) : Cells Block :=
  ⟨lc.addr, .lcInfo lc.start_state (first lc.apps)⟩ ::ₘ listCells failedCells lc.apps

end LcAt

section
variable {ι : Type} (address : ι → ℕ) (object : ι → Cells Block) (array : ℕ) (items : List ι)

/-- An array of pointers and the objects behind them. -/
def pointerArray : Cells Block :=
  ⟨array, .ptrArray (items.map address)⟩ ::ₘ (items.map object).sum

end

def arrayCells (array : ℕ) (lcs : List LcAt) : Cells Block :=
  pointerArray LcAt.addr LcAt.cells array lcs

theorem sum_of_mem {ι : Type} (object : ι → Cells Block) {items : List ι} {item : ι}
    (h : item ∈ items) : ∃ rest, (items.map object).sum = object item + rest := by
  obtain ⟨before, after, rfl⟩ := List.append_of_mem h
  refine ⟨(before.map object).sum + (after.map object).sum, ?_⟩
  rw [List.map_append, List.map_cons, List.sum_append, List.sum_cons]
  abel

theorem loadAs_bind {α β : Type} {view : Block → Option α} {block : Block} {x : α} {a : ℕ}
    {pre rest : Cells Block} {program : α → HeapM Block β} {post : β → Cells Block → Prop}
    (hview : view block = some x) (hpre : pre = ⟨a, block⟩ ::ₘ rest)
    (h : Triple (⟨a, block⟩ ::ₘ rest) (program x) post) :
    Triple pre (loadAs view a >>= program) post := by
  have hload : Triple (⟨a, block⟩ ::ₘ rest) (loadAs view a) fun y cells =>
      y = x ∧ cells = ⟨a, block⟩ ::ₘ rest :=
    .load rfl (.ofOption hview ⟨rfl, rfl⟩)
  refine hpre ▸ hload.bind ?_
  rintro _ _ ⟨rfl, rfl⟩
  exact h

section
variable {ι : Type} (address : ι → ℕ) (object : ι → Cells Block) (array : ℕ) (items : List ι)

theorem triple_arrayAdd (item : ι) :
    Triple (object item + pointerArray address object array items) (arrayAdd array (address item))
      fun _ cells => cells = pointerArray address object array (items ++ [item]) := by
  refine loadAs_bind rfl (Multiset.add_cons _ _ _) ((triple_store _ _ _ _).weaken ?_)
  rintro _ _ rfl
  rw [pointerArray, List.map_append, List.map_append, List.sum_append, List.map_singleton,
    List.map_singleton, List.sum_singleton, add_comm (object item)]

theorem triple_arrayUnref {freeData : ℕ → HeapM Block Unit}
    (hfree : ∀ item, Triple (object item) (freeData (address item)) fun _ cells => cells = 0) :
    Triple (pointerArray address object array items) (arrayUnref freeData array)
      fun _ cells => cells = 0 := by
  refine loadAs_bind (x := items.map address) rfl rfl ?_
  rw [List.foldlM_map]
  refine (triple_foldlM (fun left _ own => own =
    ⟨array, .ptrArray (items.map address)⟩ ::ₘ (left.map object).sum) ?_ items () _ rfl).bind ?_
  · rintro item rest _ _ rfl
    refine (hfree item).last
      (r := ⟨array, .ptrArray (items.map address)⟩ ::ₘ (rest.map object).sum) ?_ ?_
    · rw [List.map_cons, List.sum_cons, Multiset.add_cons]
    · rintro _ _ rfl
      exact zero_add _
  · rintro _ _ rfl
    exact triple_free _ _ _

end

theorem triple_item {ι β : Type} {object : ι → Cells Block} {items : List ι} {item : ι}
    {program : HeapM Block β} {b : β} (hitem : item ∈ items)
    (h : Triple (object item) program fun c cells => c = b ∧ cells = object item) :
    Triple (items.map object).sum program fun c cells =>
      c = b ∧ cells = (items.map object).sum := by
  obtain ⟨rest, hrest⟩ := sum_of_mem object hitem
  refine h.last hrest ?_
  rintro _ _ ⟨rfl, rfl⟩
  exact ⟨rfl, hrest.symm⟩

section
variable (p : Placed NhmCurrentFailedApp) (ps : List (Placed NhmCurrentFailedApp))

theorem triple_currentFailedAppNamed (appname : CString) :
    Triple (currentCells p) (currentFailedAppNamed appname p.node.data) fun found cells =>
      found = decide (p.value.name = appname) ∧ cells = currentCells p :=
  loadAs_bind rfl rfl (loadAs_bind rfl (Multiset.cons_swap _ _ _)
    (.pure _ ⟨rfl, Multiset.cons_swap _ _ _⟩))

theorem triple_findCurrentFailedApp (appname : CString) :
    Triple (listCells currentCells ps) (findCurrentFailedApp (first ps) appname) fun found cells =>
      found = (ps.find? fun p => p.value.name = appname).map (fun p => p.node.data) ∧
      cells = listCells currentCells ps := by
  refine (triple_blockCount _).bind ?_
  rintro n _ ⟨hn, rfl⟩
  rw [listCells, Multiset.card_add, card_chain, List.length_map] at hn
  exact triple_find Placed.node ps
    (fun p hp => triple_item hp (triple_currentFailedAppNamed p appname)) n (by omega)

theorem triple_freeCurrentFailedApp :
    Triple (currentCells p) (freeCurrentFailedApp p.node.data) fun _ cells => cells = 0 :=
  loadAs_bind rfl rfl (.free (Multiset.cons_swap _ _ _) (triple_free _ _ _))

theorem triple_newCurrentFailedApp (A : Allocator Block) (name : CString) :
    Triple 0 (newCurrentFailedApp A name) fun app cells =>
      ∃ s, cells = currentCells ⟨⟨0, app⟩, s, ⟨name⟩⟩ :=
  .alloc fun _ => .alloc fun s =>
    .store (Multiset.cons_swap _ _ _) (.pure _ ⟨s, rfl⟩)

end

section
variable (p : Placed NhmFailedApp) (ps : List (Placed NhmFailedApp))

theorem triple_failedAppNamed (appname : CString) :
    Triple (failedCells p) (failedAppNamed appname p.node.data) fun found cells =>
      found = decide (p.value.name = appname) ∧ cells = failedCells p :=
  loadAs_bind rfl rfl (loadAs_bind rfl (Multiset.cons_swap _ _ _)
    (.pure _ ⟨rfl, Multiset.cons_swap _ _ _⟩))

theorem triple_freeFailedApp :
    Triple (failedCells p) (freeFailedApp p.node.data) fun _ cells => cells = 0 :=
  loadAs_bind rfl rfl (.free (Multiset.cons_swap _ _ _) (triple_free _ _ _))

theorem triple_newFailedApp (A : Allocator Block) (app : NhmFailedApp) :
    Triple 0 (newFailedApp A app) fun app_info cells =>
      ∃ s, cells = failedCells ⟨⟨0, app_info⟩, s, app⟩ :=
  .alloc fun _ => .alloc fun s =>
    .store (Multiset.cons_swap _ _ _) (.pure _ ⟨s, rfl⟩)

theorem triple_writeApp (file : List UInt8) :
    Triple (failedCells p) (writeApp file p.node.data) fun out cells =>
      out = file ++ LcData.writeApp p.value ∧ cells = failedCells p :=
  loadAs_bind rfl rfl (loadAs_bind rfl (Multiset.cons_swap _ _ _)
    (.pure _ ⟨rfl, Multiset.cons_swap _ _ _⟩))

theorem triple_increaseFailcount :
    Triple (failedCells p) (increaseFailcount p.node.data) fun _ cells =>
      cells = failedCells { p with value := { p.value with failcount := p.value.failcount + 1 } } :=
  loadAs_bind rfl rfl (triple_store _ _ _ _)

end

section
variable (lc : LcAt)

theorem triple_findFailedApp (appname : CString) :
    Triple lc.cells (findFailedApp lc.addr appname) fun found cells =>
      found = (lc.apps.find? fun p => p.value.name = appname).map (fun p => p.node.data) ∧
      cells = lc.cells := by
  refine loadAs_bind rfl rfl ((triple_blockCount _).bind ?_)
  rintro n _ ⟨hn, rfl⟩
  rw [listCells, Multiset.card_cons, Multiset.card_add, card_chain, List.length_map] at hn
  refine (triple_find Placed.node lc.apps
    (fun p hp => triple_item hp (triple_failedAppNamed p appname)) n (by omega)).last
      (r := {⟨lc.addr, .lcInfo lc.start_state (first lc.apps)⟩}) ?_ ?_
  · rw [add_comm, Multiset.singleton_add]
    rfl
  · rintro _ _ ⟨rfl, rfl⟩
    rw [add_comm, Multiset.singleton_add]
    exact ⟨rfl, rfl⟩

theorem triple_freeLcInfo : Triple lc.cells (freeLcInfo lc.addr) fun _ cells => cells = 0 := by
  refine loadAs_bind rfl rfl ((triple_freeFull Placed.node failedCells lc.apps
    fun p _ => triple_freeFailedApp p).call
      (r := {⟨lc.addr, .lcInfo lc.start_state (first lc.apps)⟩}) ?_ ?_)
  · rw [add_comm, Multiset.singleton_add]
    rfl
  · rintro _ _ rfl
    rw [zero_add]
    exact triple_free _ _ _

theorem triple_length_apps :
    Triple lc.cells (length (first lc.apps)) fun count cells =>
      count = lc.apps.length ∧ cells = lc.cells := by
  refine (triple_length (lc.apps.map Placed.node)).last
    (r := ⟨lc.addr, .lcInfo lc.start_state (first lc.apps)⟩ ::ₘ (lc.apps.map failedCells).sum)
    ?_ ?_
  · rw [Multiset.add_cons]
    rfl
  · rintro _ _ ⟨rfl, rfl⟩
    refine ⟨List.length_map .., ?_⟩
    rw [Multiset.add_cons]
    rfl

theorem foldl_appending {ι : Type} (f : ι → List UInt8) (items : List ι) (file : List UInt8) :
    items.foldl (fun file item => file ++ f item) file = file ++ items.flatMap f := by
  induction items generalizing file with
  | nil => simp
  | cons item rest ih => rw [List.foldl_cons, ih, List.flatMap_cons, List.append_assoc]

theorem triple_writeLc (file : List UInt8) :
    Triple lc.cells (writeLc file lc.addr) fun out cells =>
      out = file ++ LcData.writeLc lc.value ∧ cells = lc.cells := by
  refine loadAs_bind (x := (lc.start_state, first lc.apps)) rfl rfl ?_
  refine (triple_length_apps lc).bind ?_
  rintro _ _ ⟨rfl, rfl⟩
  refine (triple_blockCount _).bind ?_
  rintro n _ ⟨hn, rfl⟩
  rw [LcAt.cells, listCells, Multiset.card_cons, Multiset.card_add, card_chain,
    List.length_map] at hn
  refine (triple_fold_read Placed.node (fun file p => file ++ LcData.writeApp p.value) lc.apps
    (fun p hp file => triple_item hp (triple_writeApp p file)) n (by omega) _).last
      (r := {⟨lc.addr, .lcInfo lc.start_state (first lc.apps)⟩}) ?_ ?_
  · rw [add_comm, Multiset.singleton_add]
    rfl
  · rintro _ _ ⟨rfl, rfl⟩
    rw [add_comm, Multiset.singleton_add, foldl_appending, List.append_assoc]
    refine ⟨?_, rfl⟩
    rw [LcData.writeLc, LcAt.value, values, listLength, List.length_map, List.flatMap_map]

end

section
variable {α : Type} (object : Placed α → Cells Block) (ps : List (Placed α))

theorem listCells_middle (before after : List (Placed α)) (p : Placed α) :
    listCells object (before ++ p :: after) = object p +
      (chain ((before ++ p :: after).map Placed.node) +
        ((before.map object).sum + (after.map object).sum)) := by
  rw [listCells, List.map_append (f := object), List.map_cons (f := object), List.sum_append,
    List.sum_cons]
  abel

theorem triple_append_placed (A : Allocator Block) (p : Placed α)
    (hobject : ∀ node, object { p with node := ⟨node, p.node.data⟩ } = object p) :
    Triple (object p + listCells object ps) (append A (first ps) p.node.data) fun list cells =>
      ∃ node, list = first (ps ++ [{ p with node := ⟨node, p.node.data⟩ }]) ∧
        cells = listCells object (ps ++ [{ p with node := ⟨node, p.node.data⟩ }]) := by
  refine (triple_append A (ps.map Placed.node) p.node.data).last
    (r := object p + (ps.map object).sum) ?_ ?_
  · rw [listCells]
    abel
  · rintro list cells ⟨node, rfl, rfl⟩
    refine ⟨node, by rw [first, List.map_append]; rfl, ?_⟩
    rw [listCells, List.map_append, List.map_append, List.sum_append, List.map_singleton,
      List.map_singleton, List.sum_singleton, add_comm (object p)]
    exact congrArg₂ (· + ·) rfl (congrArg₂ (· + ·) rfl (hobject node).symm)

end

theorem triple_addCurrentFailedApp (A : Allocator Block) (name : CString)
    (ps : List (Placed NhmCurrentFailedApp)) :
    Triple (listCells currentCells ps) (addCurrentFailedApp A (first ps) name) fun list cells =>
      ∃ ps', list = first ps' ∧ cells = listCells currentCells ps' ∧
        values ps' = values ps ++ [⟨name⟩] := by
  refine (triple_newCurrentFailedApp A name).call (zero_add _).symm ?_
  rintro app _ ⟨s, rfl⟩
  refine (triple_append_placed currentCells ps A ⟨⟨0, app⟩, s, ⟨name⟩⟩ fun _ => rfl).weaken ?_
  rintro list cells ⟨node, rfl, rfl⟩
  exact ⟨_, rfl, rfl, by rw [values, List.map_append]; rfl⟩

theorem triple_addFailedApp (A : Allocator Block) (app : NhmFailedApp)
    (ps : List (Placed NhmFailedApp)) :
    Triple (listCells failedCells ps) (addFailedApp A (first ps) app) fun list cells =>
      ∃ p, list = first (ps ++ [p]) ∧ cells = listCells failedCells (ps ++ [p]) ∧
        p.value = app := by
  refine (triple_newFailedApp A app).call (zero_add _).symm ?_
  rintro app_info _ ⟨s, rfl⟩
  refine (triple_append_placed failedCells ps A ⟨⟨0, app_info⟩, s, app⟩ fun _ => rfl).weaken ?_
  rintro list cells ⟨node, rfl, rfl⟩
  exact ⟨_, rfl, rfl, rfl⟩

/-- What is looked for by its address is the first record with the name. -/
theorem eraseP_node {α : Type} {f : α → Bool} {ps : List (Placed α)} {p : Placed α}
    (hnodup : (ps.map fun q => q.node.data).Nodup)
    (hfind : ps.find? (fun q => f q.value) = some p) :
    ((ps.map Placed.node).eraseP fun node => node.data = p.node.data) =
        (ps.eraseP fun q => f q.value).map Placed.node := by
  rw [List.eraseP_map]
  congr 1
  obtain ⟨hp, before, after, rfl, hbefore⟩ := List.find?_eq_some_iff_append.mp hfind
  have hdata : ∀ q ∈ before, q.node.data ≠ p.node.data := by
    rw [List.map_append, List.map_cons, List.nodup_append] at hnodup
    exact fun q hq => hnodup.2.2 _ (List.mem_map_of_mem hq) _ List.mem_cons_self
  rw [List.eraseP_append_right _ (by simpa using hdata), List.eraseP_cons_of_pos (by simp),
    List.eraseP_append_right _ (by simpa using hbefore),
    List.eraseP_cons_of_pos (by simpa using hp)]


theorem addrs_currentCells (ps : List (Placed NhmCurrentFailedApp)) :
    (ps.map currentCells).sum.map Sigma.fst =
      (ps.map fun p => p.node.data : Multiset ℕ) + (ps.map Placed.name : Multiset ℕ) := by
  induction ps with
  | nil => rfl
  | cons p ps ih =>
    rw [List.map_cons, List.sum_cons, Multiset.map_add, ih, List.map_cons, List.map_cons,
      ← Multiset.cons_coe, ← Multiset.cons_coe, currentCells, Multiset.map_cons,
      Multiset.map_singleton]
    simp only [← Multiset.singleton_add]
    abel

theorem data_nodup {ps : List (Placed NhmCurrentFailedApp)}
    (h : ((listCells currentCells ps).map Sigma.fst).Nodup) :
    (ps.map fun p => p.node.data).Nodup := by
  rw [listCells, Multiset.map_add, addrs_currentCells] at h
  exact Multiset.coe_nodup.mp (Multiset.nodup_of_le ((Multiset.le_add_right _ _).trans
    (Multiset.le_add_left _ _)) h)

theorem triple_dropCurrentFailedApp {ps : List (Placed NhmCurrentFailedApp)} {name : CString}
    {p : Placed NhmCurrentFailedApp} (hfind : ps.find? (fun q => q.value.name = name) = some p) :
    Triple (listCells currentCells ps) (dropCurrentFailedApp (first ps) p.node.data)
      fun list cells => ∃ ps', list = first ps' ∧ cells = listCells currentCells ps' ∧
        values ps' = (values ps).eraseP fun app => app.name = name := by
  refine .of_nodup fun hnodup => ?_
  have hnode := eraseP_node (f := fun app => decide (app.name = name)) (data_nodup hnodup) hfind
  obtain ⟨hp, before, after, rfl, hbefore⟩ := List.find?_eq_some_iff_append.mp hfind
  have herase : ((before ++ p :: after).eraseP fun q => q.value.name = name) = before ++ after := by
    rw [List.eraseP_append_right _ (by simpa using hbefore),
      List.eraseP_cons_of_pos (by simpa using hp)]
  refine (triple_freeCurrentFailedApp p).call (listCells_middle currentCells before after p) ?_
  rintro _ _ rfl
  refine (triple_remove ((before ++ p :: after).map Placed.node) p.node.data).last
    (r := (before.map currentCells).sum + (after.map currentCells).sum) (zero_add _) ?_
  rintro _ _ ⟨rfl, rfl⟩
  rw [hnode, herase]
  refine ⟨before ++ after, rfl, ?_, ?_⟩
  · rw [listCells, List.map_append (f := currentCells), List.sum_append]
  · rw [values, values, List.eraseP_map, ← herase]
    rfl

theorem findFailedApp_value (lc : LcAt) (appname : CString) :
    NhmMain.findFailedApp lc.value appname =
      (lc.apps.find? fun p => p.value.name = appname).map Placed.value := by
  rw [NhmMain.findFailedApp, LcAt.value, values, List.find?_map]
  rfl

theorem increaseFailcount_append {name : CString} {before after : List NhmFailedApp}
    {app : NhmFailedApp} (hbefore : ∀ other ∈ before, other.name ≠ name) (happ : app.name = name) :
    NhmMain.increaseFailcount name (before ++ app :: after) =
      before ++ { app with failcount := app.failcount + 1 } :: after := by
  induction before with
  | nil => rw [List.nil_append, NhmMain.increaseFailcount, if_pos happ, List.nil_append]
  | cons other before ih =>
    rw [List.cons_append, NhmMain.increaseFailcount, if_neg (hbefore other List.mem_cons_self),
      ih fun o ho => hbefore o (List.mem_cons_of_mem other ho), List.cons_append]

theorem triple_failedAppOf (A : Allocator Block) (lc : LcAt) (name : CString) :
    Triple lc.cells (failedAppOf A lc.addr name) fun app_info cells =>
      ∃ before p after, app_info = p.node.data ∧
        cells = ({ lc with apps := before ++ p :: after } : LcAt).cells ∧
        (∀ q ∈ before, q.value.name ≠ name) ∧ p.value.name = name ∧
        NhmMain.countFailure name lc.value =
          ⟨lc.start_state, NhmMain.increaseFailcount name (values (before ++ p :: after))⟩ := by
  refine (triple_findFailedApp lc name).bind ?_
  rintro _ _ ⟨rfl, rfl⟩
  have hvalue := findFailedApp_value lc name
  cases hfind : lc.apps.find? fun p => p.value.name = name with
  | some p =>
    obtain ⟨hp, before, after, happs, hbefore⟩ := List.find?_eq_some_iff_append.mp hfind
    refine .pure _ ⟨before, p, after, rfl, ?_, by simpa using hbefore, by simpa using hp, ?_⟩
    · rw [← happs]
    · rw [NhmMain.countFailure, hvalue, hfind, ← happs]
      rfl
  | none =>
    refine (triple_newFailedApp A ⟨name, 0⟩).call (zero_add _).symm ?_
    rintro app_info _ ⟨s, rfl⟩
    refine loadAs_bind (x := (lc.start_state, first lc.apps)) rfl (Multiset.add_cons _ _ _) ?_
    refine (triple_append_placed failedCells lc.apps A ⟨⟨0, app_info⟩, s, ⟨name, 0⟩⟩
      fun _ => rfl).call (r := {⟨lc.addr, .lcInfo lc.start_state (first lc.apps)⟩}) ?_ ?_
    · rw [add_comm _ ({_} : Cells Block), Multiset.singleton_add]
    · rintro _ _ ⟨node, rfl, rfl⟩
      refine .store (by rw [add_comm, Multiset.singleton_add]) (.pure _ ⟨lc.apps, _, [], rfl, rfl,
        ?_, rfl, ?_⟩)
      · simpa using hfind
      · rw [NhmMain.countFailure, hvalue, hfind, values, List.map_append]
        rfl

theorem triple_countFailure (A : Allocator Block) (lc : LcAt) (name : CString) :
    Triple lc.cells (countFailure A lc.addr name) fun _ cells =>
      ∃ lc' : LcAt, lc'.addr = lc.addr ∧ lc'.value = NhmMain.countFailure name lc.value ∧
        cells = lc'.cells := by
  refine (triple_failedAppOf A lc name).bind ?_
  rintro _ _ ⟨before, p, after, rfl, rfl, hbefore, hp, hvalue⟩
  refine (triple_increaseFailcount p).last
    (r := ⟨lc.addr, .lcInfo lc.start_state (first (before ++ p :: after))⟩ ::ₘ
      (chain ((before ++ p :: after).map Placed.node) +
        ((before.map failedCells).sum + (after.map failedCells).sum))) ?_ ?_
  · rw [LcAt.cells, listCells_middle, Multiset.add_cons]
  · rintro _ _ rfl
    refine ⟨{ lc with apps := before ++
      { p with value := { p.value with failcount := p.value.failcount + 1 } } :: after }, rfl,
      ?_, ?_⟩
    · rw [hvalue, LcAt.value, values, values, List.map_append, List.map_append, List.map_cons,
        List.map_cons, increaseFailcount_append (by simpa using hbefore) hp]
    · rw [LcAt.cells, listCells_middle, Multiset.add_cons, first, first, List.map_append,
        List.map_append, List.map_cons, List.map_cons]

end NodeHealthMonitor.RunTimeHeap
