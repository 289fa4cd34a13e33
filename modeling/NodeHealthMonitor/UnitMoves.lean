import NodeHealthMonitor.NhmSystemd

/-! What the observation of systemd is for, as moves of a set of named units: a unit
appears, goes, or changes its ActiveState. While the NHM is connected, each signal
handler makes exactly the move its message announces, and only a change is reported. -/

namespace NodeHealthMonitor.NhmSystemd
open DBus

inductive Move where
  | stay
  | added (name path : CString) (state : NhmActiveState)
  | removed (unit : Addr)
  | changed (unit : Addr) (state : NhmActiveState)

def readState : Option Value → NhmActiveState
  | some (.string s) => activeStateStringToEnum s
  | _ => .unknown

def State.nameIs (s : State) (name : CString) (addr : Addr) : Bool :=
  (s.heap addr).any fun unit => unit.name = name

def State.unitNamed (s : State) (name : CString) : Option Addr :=
  s.observed_units.find? (s.nameIs name)

/-- The move a message announces to a handler. -/
def announced (handler : Handler) (parameters : Body) (reply : Option Value) (s : State) : Move :=
  match handler, parameters with
  | .unitAdded, .unit name path =>
      if isService name ∧ s.unitNamed name = none then .added name path (readState reply)
      else .stay
  | .unitRemoved, .unit name _ =>
      match isService name, s.unitNamed name with
      | true, some addr => .removed addr
      | _, _ => .stay
  | .unitPropertiesChanged addr, .propertiesChanged _ _ invalidated =>
      if activeStateProp ∈ invalidated ∧
          ∃ unit, s.heap addr = some unit ∧ unit.active_state ≠ readState reply
      then .changed addr (readState reply)
      else .stay
  | _, _ => .stay

def Move.Valid (move : Move) (s : State) : Prop :=
  match move with
  | .stay => True
  | .added name _ _ => isService name = true ∧ s.unitNamed name = none
  | .removed addr => addr ∈ s.observed_units
  | .changed addr state => addr ∈ s.observed_units ∧
      ∃ unit, s.heap addr = some unit ∧ unit.active_state ≠ state

theorem announced_valid {s : State} (handler : Handler) (parameters : Body)
    (reply : Option Value)
    (hobserved : ∀ addr, handler = .unitPropertiesChanged addr → addr ∈ s.observed_units) :
    (announced handler parameters reply s).Valid s := by
  unfold announced
  split
  · split
    · assumption
    · trivial
  · split
    · rename_i hnamed
      exact List.mem_of_find?_eq_some hnamed
    · trivial
  · split
    · rename_i hcond
      exact ⟨hobserved _ rfl, hcond.2⟩
    · trivial
  · trivial

def State.handlerOf (s : State) (sub_id : ℕ) : Option Handler :=
  (s.subscriptions.find? fun sub => sub.id = sub_id).map (·.handler)

def Signal.move (signal : Signal) (s : State) : Move :=
  match s.handlerOf signal.sub_id with
  | some handler => announced handler signal.parameters signal.reply s
  | none => .stay

def State.newUnit (s : State) (name path : CString) (state : NhmActiveState)
    (observed_units : List Addr) : State :=
  { s with
    subscriptions := ⟨s.next_id, some path, .unitPropertiesChanged s.next_addr⟩ :: s.subscriptions
    next_id := s.next_id + 1
    heap := Function.update s.heap s.next_addr (some ⟨name, .string path, state, s.next_id⟩)
    next_addr := s.next_addr + 1
    observed_units := observed_units }

@[simp] theorem newUnit_heap_self (s : State) (name path : CString) (state : NhmActiveState)
    (units : List Addr) : (s.newUnit name path state units).heap s.next_addr =
      some ⟨name, .string path, state, s.next_id⟩ :=
  Function.update_self ..

theorem newUnit_heap_of_ne (s : State) (name path : CString) (state : NhmActiveState)
    (units : List Addr) {a : Addr} (h : a ≠ s.next_addr) :
    (s.newUnit name path state units).heap a = s.heap a :=
  Function.update_of_ne h ..

def Move.apply (move : Move) (s : State) : State :=
  match move with
  | .stay => s
  | .added name path state => s.newUnit name path state (s.next_addr :: s.observed_units)
  | .removed addr =>
      match s.heap addr with
      | some unit => { s with
          subscriptions := s.subscriptions.filter fun sub => sub.id ≠ unit.sig_sub_id
          heap := Function.update s.heap addr none
          observed_units := s.observed_units.erase addr }
      | none => s
  | .changed addr state =>
      match s.heap addr with
      | some unit => { s with
          heap := Function.update s.heap addr (some { unit with active_state := state }) }
      | none => s

theorem removed_apply {s : State} {addr : Addr} {unit : NhmSystemdUnit}
    (hunit : s.heap addr = some unit) : (Move.removed addr).apply s = { s with
      subscriptions := s.subscriptions.filter fun sub => sub.id ≠ unit.sig_sub_id
      heap := Function.update s.heap addr none
      observed_units := s.observed_units.erase addr } := by
  rw [Move.apply, hunit]

theorem changed_apply {s : State} {addr : Addr} {unit : NhmSystemdUnit}
    (hunit : s.heap addr = some unit) (state : NhmActiveState) :
    (Move.changed addr state).apply s = { s with
      heap := Function.update s.heap addr (some { unit with active_state := state }) } := by
  rw [Move.apply, hunit]

@[simp] theorem changed_observed (s : State) (addr : Addr) (state : NhmActiveState) :
    ((Move.changed addr state).apply s).observed_units = s.observed_units := by
  cases hunit : s.heap addr with
  | none => rw [Move.apply, hunit]
  | some unit => rw [changed_apply hunit]

theorem changed_heap_self {s : State} {addr : Addr} {unit : NhmSystemdUnit}
    (hunit : s.heap addr = some unit) (state : NhmActiveState) :
    ((Move.changed addr state).apply s).heap addr = some { unit with active_state := state } := by
  rw [changed_apply hunit]
  exact Function.update_self ..

theorem changed_heap_of_ne {s : State} {addr : Addr} {unit : NhmSystemdUnit}
    (hunit : s.heap addr = some unit) (state : NhmActiveState) {a : Addr} (h : a ≠ addr) :
    ((Move.changed addr state).apply s).heap a = s.heap a := by
  rw [changed_apply hunit]
  exact Function.update_of_ne h ..

theorem removed_heap_of_ne {s : State} {addr : Addr} {unit : NhmSystemdUnit}
    (hunit : s.heap addr = some unit) {a : Addr} (h : a ≠ addr) :
    ((Move.removed addr).apply s).heap a = s.heap a := by
  rw [removed_apply hunit]
  exact Function.update_of_ne h ..

theorem observed_newUnit {s : State} {name path : CString} {state : NhmActiveState}
    {units : List Addr} (hunits : ∀ a, a ∈ units ↔ a = s.next_addr ∨ a ∈ s.observed_units)
    {a : Addr} {unit : NhmSystemdUnit} (ha : a ∈ units)
    (hunit : (s.newUnit name path state units).heap a = some unit) :
    a = s.next_addr ∧ unit = ⟨name, .string path, state, s.next_id⟩ ∨
      a ≠ s.next_addr ∧ a ∈ s.observed_units ∧ s.heap a = some unit := by
  by_cases hne : a = s.next_addr
  · subst hne
    rw [newUnit_heap_self] at hunit
    exact Or.inl ⟨rfl, (Option.some.inj hunit).symm⟩
  · rw [newUnit_heap_of_ne s name path state units hne] at hunit
    exact Or.inr ⟨hne, ((hunits a).mp ha).resolve_left hne, hunit⟩

theorem observed_removed {s : State} {addr : Addr} {old : NhmSystemdUnit}
    (hold : s.heap addr = some old) {a : Addr} {unit : NhmSystemdUnit}
    (ha : a ∈ ((Move.removed addr).apply s).observed_units)
    (hunit : ((Move.removed addr).apply s).heap a = some unit) :
    a ≠ addr ∧ a ∈ s.observed_units ∧ s.heap a = some unit := by
  have hne : a ≠ addr := by
    rintro rfl
    rw [removed_apply hold] at hunit
    exact absurd hunit (by simp)
  rw [removed_heap_of_ne hold hne] at hunit
  rw [removed_apply hold] at ha
  exact ⟨hne, List.mem_of_mem_erase ha, hunit⟩

theorem observed_changed {s : State} {addr : Addr} {state : NhmActiveState}
    {old : NhmSystemdUnit} (hold : s.heap addr = some old) {a : Addr} {unit : NhmSystemdUnit}
    (ha : a ∈ ((Move.changed addr state).apply s).observed_units)
    (hunit : ((Move.changed addr state).apply s).heap a = some unit) :
    a = addr ∧ unit = { old with active_state := state } ∨
      a ≠ addr ∧ a ∈ s.observed_units ∧ s.heap a = some unit := by
  rw [changed_observed] at ha
  by_cases hne : a = addr
  · subst hne
    rw [changed_heap_self hold] at hunit
    exact Or.inl ⟨rfl, (Option.some.inj hunit).symm⟩
  · rw [changed_heap_of_ne hold state hne] at hunit
    exact Or.inr ⟨hne, ha, hunit⟩

def Move.report (move : Move) (s : State) : Option (CString × NhmAppStatus) :=
  match move with
  | .changed addr state => do
      let unit ← s.heap addr
      let status_change := activeStateMap unit.active_state state
      if status_change.do_callback then some (unit.name, status_change.next_status) else none
  | _ => none

def Output.report? : Output → Option (CString × NhmAppStatus)
  | .appStatus name status => some (name, status)
  | _ => none

/-- The state of the module between handlers while it is connected: every observed unit
is live and has its own subscription, which carries it as user data. -/
structure Coherent (s : State) : Prop where
  cb : s.app_status_cb = true
  conn : s.conn = true
  listed : ∀ a ∈ s.observed_units, ∃ unit path, s.heap a = some unit ∧ unit.path = .string path ∧
    ⟨unit.sig_sub_id, some path, .unitPropertiesChanged a⟩ ∈ s.subscriptions
  watched : ∀ sub ∈ s.subscriptions, ∀ a, sub.handler = .unitPropertiesChanged a →
    a ∈ s.observed_units ∧ ∃ unit, s.heap a = some unit ∧ unit.sig_sub_id = sub.id
  nodup : s.observed_units.Nodup
  ids : ∀ sub ∈ s.subscriptions, ∀ sub' ∈ s.subscriptions, sub.id = sub'.id → sub = sub'
  fresh_addr : ∀ a, s.next_addr ≤ a → s.heap a = none
  fresh_id : ∀ sub ∈ s.subscriptions, sub.id < s.next_id

section
variable {s : State} (coherent : Coherent s)
include coherent

theorem Coherent.observed_lt (a : Addr) (ha : a ∈ s.observed_units) : a < s.next_addr := by
  obtain ⟨unit, path, hunit, -⟩ := coherent.listed a ha
  by_contra hle
  rw [coherent.fresh_addr a (Nat.le_of_not_lt hle)] at hunit
  contradiction

theorem Coherent.nodup_cons : (s.next_addr :: s.observed_units).Nodup :=
  List.nodup_cons.mpr
    ⟨fun h => absurd (coherent.observed_lt _ h) (Nat.lt_irrefl _), coherent.nodup⟩

theorem Coherent.newUnit (name path : CString) (state : NhmActiveState) (units : List Addr)
    (hunits : ∀ a, a ∈ units ↔ a = s.next_addr ∨ a ∈ s.observed_units) (hnodup : units.Nodup) :
    Coherent (s.newUnit name path state units) := by
  have hold : ∀ a ∈ s.observed_units, a ≠ s.next_addr :=
    fun a ha => Nat.ne_of_lt (coherent.observed_lt a ha)
  refine ⟨coherent.cb, coherent.conn, ?_, ?_, hnodup, ?_, ?_, ?_⟩
  · intro a ha
    rcases (hunits a).mp ha with rfl | ha
    · exact ⟨_, path, newUnit_heap_self .., rfl, List.mem_cons_self⟩
    · obtain ⟨unit, p, hunit, hpath, hsub⟩ := coherent.listed a ha
      refine ⟨unit, p, ?_, hpath, List.mem_cons_of_mem _ hsub⟩
      rw [newUnit_heap_of_ne s name path state units (hold a ha), hunit]
  · intro sub hsub a hhandler
    rcases List.mem_cons.mp hsub with rfl | hsub
    · cases hhandler
      exact ⟨(hunits _).mpr (Or.inl rfl), _, newUnit_heap_self .., rfl⟩
    · obtain ⟨ha, unit, hunit, hid⟩ := coherent.watched sub hsub a hhandler
      refine ⟨(hunits a).mpr (Or.inr ha), unit, ?_, hid⟩
      rw [newUnit_heap_of_ne s name path state units (hold a ha), hunit]
  · intro sub hsub sub' hsub' hid
    rcases List.mem_cons.mp hsub with rfl | hsub <;>
      rcases List.mem_cons.mp hsub' with rfl | hsub'
    · rfl
    · exact absurd hid.symm (Nat.ne_of_lt (coherent.fresh_id sub' hsub'))
    · exact absurd hid (Nat.ne_of_lt (coherent.fresh_id sub hsub))
    · exact coherent.ids sub hsub sub' hsub' hid
  · intro a ha
    have hlt : s.next_addr < a := ha
    rw [newUnit_heap_of_ne s name path state units (Nat.ne_of_gt hlt),
      coherent.fresh_addr a (Nat.le_of_lt hlt)]
  · intro sub hsub
    rcases List.mem_cons.mp hsub with rfl | hsub
    · exact Nat.lt_succ_self _
    · exact Nat.lt_succ_of_lt (coherent.fresh_id sub hsub)

theorem Coherent.removed (addr : Addr) (haddr : addr ∈ s.observed_units) :
    Coherent ((Move.removed addr).apply s) := by
  obtain ⟨unit, path, hunit, hpath, hsub⟩ := coherent.listed addr haddr
  rw [removed_apply hunit]
  refine ⟨coherent.cb, coherent.conn, ?_, ?_, coherent.nodup.erase addr, ?_, ?_, ?_⟩
  · intro a ha
    obtain ⟨hne, ha⟩ := coherent.nodup.mem_erase_iff.mp ha
    obtain ⟨unit', p, hunit', hpath', hsub'⟩ := coherent.listed a ha
    have hids : unit'.sig_sub_id ≠ unit.sig_sub_id := by
      intro hid
      have hsame := congrArg Subscription.handler (coherent.ids _ hsub' _ hsub hid)
      exact hne (Handler.unitPropertiesChanged.inj hsame)
    exact ⟨unit', p, (Function.update_of_ne hne _ _).trans hunit', hpath',
      List.mem_filter.mpr ⟨hsub', by simpa using hids⟩⟩
  · intro sub hsub₁ a hhandler
    obtain ⟨hsub₁, hid₁⟩ := List.mem_filter.mp hsub₁
    obtain ⟨ha, unit', hunit', hid'⟩ := coherent.watched sub hsub₁ a hhandler
    have hne : a ≠ addr := by
      rintro rfl
      rw [hunit] at hunit'
      cases hunit'
      simp [hid'] at hid₁
    exact ⟨coherent.nodup.mem_erase_iff.mpr ⟨hne, ha⟩, unit',
      (Function.update_of_ne hne _ _).trans hunit', hid'⟩
  · intro sub hsub₁ sub' hsub₂
    exact coherent.ids sub (List.mem_filter.mp hsub₁).1 sub' (List.mem_filter.mp hsub₂).1
  · intro a ha
    by_cases hne : a = addr
    · subst hne
      exact Function.update_self ..
    · exact (Function.update_of_ne hne _ _).trans (coherent.fresh_addr a ha)
  · intro sub hsub₁
    exact coherent.fresh_id sub (List.mem_filter.mp hsub₁).1

theorem Coherent.changed (addr : Addr) (haddr : addr ∈ s.observed_units)
    (state : NhmActiveState) : Coherent ((Move.changed addr state).apply s) := by
  obtain ⟨unit, path, hunit, hpath, hsub⟩ := coherent.listed addr haddr
  rw [changed_apply hunit]
  refine ⟨coherent.cb, coherent.conn, ?_, ?_, coherent.nodup, coherent.ids, ?_, coherent.fresh_id⟩
  · intro a ha
    by_cases hne : a = addr
    · subst hne
      exact ⟨_, path, Function.update_self .., hpath, hsub⟩
    · obtain ⟨unit', p, hunit', hpath', hsub'⟩ := coherent.listed a ha
      exact ⟨unit', p, (Function.update_of_ne hne _ _).trans hunit', hpath', hsub'⟩
  · intro sub hsub₁ a hhandler
    obtain ⟨ha, unit', hunit', hid'⟩ := coherent.watched sub hsub₁ a hhandler
    by_cases hne : a = addr
    · subst hne
      rw [hunit] at hunit'
      cases hunit'
      exact ⟨ha, _, Function.update_self .., hid'⟩
    · exact ⟨ha, unit', (Function.update_of_ne hne _ _).trans hunit', hid'⟩
  · intro a ha
    have hne : a ≠ addr := Nat.ne_of_gt (Nat.lt_of_lt_of_le (coherent.observed_lt addr haddr) ha)
    exact (Function.update_of_ne hne _ _).trans (coherent.fresh_addr a ha)

end

theorem findUnit_eq (s : State) (name : CString) (units : List Addr)
    (hlive : ∀ a ∈ units, ∃ unit, s.heap a = some unit) :
    findUnit s.heap name units = some (units.find? (s.nameIs name)) := by
  induction units with
  | nil => rfl
  | cons a units ih =>
    obtain ⟨unit, hunit⟩ := hlive a List.mem_cons_self
    have hrest := ih fun b hb => hlive b (List.mem_cons_of_mem a hb)
    by_cases hname : unit.name = name
    · simp [findUnit, hunit, State.nameIs, hname]
    · simp [findUnit, hunit, State.nameIs, hname, hrest]

/-- What the handlers rely on: a callback, a connection, and live units behind the list
and behind the subscriptions. -/
structure Usable (s : State) : Prop where
  cb : s.app_status_cb = true
  conn : s.conn = true
  listed : ∀ a ∈ s.observed_units, ∃ unit, s.heap a = some unit
  watched : ∀ sub ∈ s.subscriptions, ∀ a, sub.handler = .unitPropertiesChanged a →
    ∃ unit path, s.heap a = some unit ∧ unit.path = .string path

theorem Coherent.usable {s : State} (coherent : Coherent s) : Usable s where
  cb := coherent.cb
  conn := coherent.conn
  listed a ha := by
    obtain ⟨unit, -, hunit, -⟩ := coherent.listed a ha
    exact ⟨unit, hunit⟩
  watched sub hsub a hhandler := by
    obtain ⟨ha, -⟩ := coherent.watched sub hsub a hhandler
    obtain ⟨unit, path, hunit, hpath, -⟩ := coherent.listed a ha
    exact ⟨unit, path, hunit, hpath⟩

theorem Usable.changed {s : State} (usable : Usable s) {addr : Addr} {unit : NhmSystemdUnit}
    (hunit : s.heap addr = some unit) (state : NhmActiveState) :
    Usable ((Move.changed addr state).apply s) := by
  refine ⟨?_, ?_, fun a ha => ?_, fun sub hsub a hhandler => ?_⟩
  · rw [changed_apply hunit]
    exact usable.cb
  · rw [changed_apply hunit]
    exact usable.conn
  · rw [changed_observed] at ha
    by_cases hne : a = addr
    · subst hne
      exact ⟨_, changed_heap_self hunit state⟩
    · obtain ⟨other, hother⟩ := usable.listed a ha
      exact ⟨other, (changed_heap_of_ne hunit state hne).trans hother⟩
  · rw [changed_apply hunit] at hsub
    obtain ⟨other, path, hother, hpath⟩ := usable.watched sub hsub a hhandler
    by_cases hne : a = addr
    · subst hne
      rw [hunit, Option.some.injEq] at hother
      exact ⟨_, path, changed_heap_self hunit state, hother ▸ hpath⟩
    · exact ⟨other, path, (changed_heap_of_ne hunit state hne).trans hother, hpath⟩

theorem Usable.findUnit_eq {s : State} (usable : Usable s) (name : CString) :
    findUnit s.heap name s.observed_units = some (s.unitNamed name) :=
  NhmSystemd.findUnit_eq s name s.observed_units usable.listed

theorem unitGetActiveState_eq {glib : GLib} (delivers : glib.Delivers) {s : State}
    (hconn : s.conn = true) (path : CString) (reply : Option Value) :
    unitGetActiveState glib (.string path) reply s = some (readState reply, [.get path]) := by
  cases reply with
  | none => simp [unitGetActiveState, hconn, readState]
  | some value =>
    cases value with
    | string string =>
      simp [unitGetActiveState, hconn, readState, delivers.property, stringToEnum]
    | other type_string =>
      simp [unitGetActiveState, hconn, readState, delivers.no_property, stringToEnum]

theorem unitAddedCheck_unit {glib : GLib} (delivers : glib.Delivers) (name path : CString)
    (s : State) : unitAddedCheck glib (.unit name path) s =
      if isService name then (findUnit s.heap name s.observed_units).map fun found =>
        if found = none then some (name, .string path) else none
      else some none := by
  cases hfind : findUnit s.heap name s.observed_units with
  | none => simp [unitAddedCheck, delivers.unit_name, hfind]
  | some found => cases found <;>
      simp [unitAddedCheck, delivers.unit_name, delivers.unit_path, hfind]

theorem unitAddedSubscribe_eq {s : State} (hconn : s.conn = true) (name path : CString)
    (active_state : NhmActiveState) : unitAddedSubscribe name (.string path) active_state s =
      some (s.newUnit name path active_state (s.next_addr :: s.observed_units)) := by
  simp [unitAddedSubscribe, subscribePropertiesChanged, signalSubscribe, hconn, State.newUnit]

theorem unitActiveStateChanged_eq {s : State} (cb : s.app_status_cb = true) {addr : Addr}
    {unit : NhmSystemdUnit} (hunit : s.heap addr = some unit) (state : NhmActiveState) :
    ∃ called, unitActiveStateChanged addr state s =
        some ((Move.changed addr state).apply s, called) ∧
      called.filterMap Output.report? = ((Move.changed addr state).report s).toList := by
  cases hcall : (activeStateMap unit.active_state state).do_callback with
  | false =>
    refine ⟨[], ?_, ?_⟩
    · simp [unitActiveStateChanged, hunit, hcall, Move.apply]
    · simp [Move.report, hunit, hcall]
  | true =>
    refine ⟨[.appStatus unit.name (activeStateMap unit.active_state state).next_status], ?_, ?_⟩
    · simp [unitActiveStateChanged, hunit, hcall, cb, Move.apply]
    · simp [Move.report, hunit, hcall, Output.report?]

theorem freeUnit_eq {s : State} (conn : s.conn = true) {addr : Addr} {unit : NhmSystemdUnit}
    (hunit : s.heap addr = some unit) : freeUnit addr s = some { s with
      subscriptions := s.subscriptions.filter fun sub => sub.id ≠ unit.sig_sub_id
      heap := Function.update s.heap addr none } := by
  simp [freeUnit, hunit, signalUnsubscribe, conn]

def Performs (move : Move) (s : State) (result : Option (State × List Output)) : Prop :=
  ∃ sent, result = some (move.apply s, sent) ∧
    sent.filterMap Output.report? = (move.report s).toList

section
variable {glib : GLib} (delivers : glib.Delivers) {s : State} (usable : Usable s)
include delivers usable

theorem unitAdded_performs (parameters : Body) (reply : Option Value) :
    Performs (announced .unitAdded parameters reply s) s (unitAdded glib parameters reply s) := by
  cases parameters with
  | unit name path =>
    have hcheck := unitAddedCheck_unit delivers name path s
    rw [usable.findUnit_eq, Option.map_some] at hcheck
    by_cases hservice : isService name = true
    · cases hnamed : s.unitNamed name with
      | none =>
        have hget := unitGetActiveState_eq delivers usable.conn path reply
        have hsubscribe := unitAddedSubscribe_eq usable.conn name path (readState reply)
        refine ⟨[.get path], ?_, ?_⟩
        · simp [unitAdded, hcheck, hservice, hnamed, hget, hsubscribe, announced, Move.apply]
        · simp [announced, hservice, hnamed, Move.report, Output.report?]
      | some addr =>
        refine ⟨[], ?_, ?_⟩
        · simp [unitAdded, hcheck, hservice, hnamed, announced, Move.apply]
        · simp [announced, hnamed, Move.report]
    · refine ⟨[], ?_, ?_⟩
      · simp [unitAdded, hcheck, hservice, announced, Move.apply]
      · simp [announced, hservice, Move.report]
  | _ => exact ⟨[], rfl, rfl⟩

theorem unitRemoved_performs (parameters : Body) (reply : Option Value) :
    Performs (announced .unitRemoved parameters reply s) s (unitRemoved glib parameters s) := by
  cases parameters with
  | unit name path =>
    by_cases hservice : isService name = true
    · cases hnamed : s.unitNamed name with
      | none =>
        refine ⟨[], ?_, ?_⟩
        · simp [unitRemoved, delivers.unit_name, hservice, usable.findUnit_eq, hnamed,
            announced, Move.apply]
        · simp [announced, hservice, hnamed, Move.report]
      | some addr =>
        obtain ⟨unit, hunit⟩ := usable.listed addr (List.mem_of_find?_eq_some hnamed)
        refine ⟨[], ?_, ?_⟩
        · simp [unitRemoved, delivers.unit_name, hservice, usable.findUnit_eq, hnamed,
            freeUnit_eq usable.conn hunit, hunit, announced, Move.apply]
        · simp [announced, hservice, hnamed, Move.report]
    · refine ⟨[], ?_, ?_⟩
      · simp [unitRemoved, delivers.unit_name, hservice, announced, Move.apply]
      · simp [announced, hservice, Move.report]
  | _ => exact ⟨[], rfl, rfl⟩

omit delivers in
theorem unitUpdate_eq (addr : Addr) (unit : NhmSystemdUnit) (hunit : s.heap addr = some unit)
    (state : NhmActiveState) (hne : unit.active_state ≠ state) :
    ∃ called, unitUpdate addr state s = some ((Move.changed addr state).apply s, called) ∧
      called.filterMap Output.report? = ((Move.changed addr state).report s).toList := by
  obtain ⟨called, hchanged, hreport⟩ := unitActiveStateChanged_eq usable.cb hunit state
  refine ⟨called, ?_, hreport⟩
  rw [unitUpdate, hunit, Option.bind_eq_bind, Option.bind_some, if_pos hne.symm, hchanged]

theorem unitPropertiesChanged_performs (addr : Addr)
    (hlive : ∃ unit path, s.heap addr = some unit ∧ unit.path = .string path)
    (parameters : Body) (reply : Option Value) :
    Performs (announced (.unitPropertiesChanged addr) parameters reply s) s
      (unitPropertiesChanged glib parameters reply addr s) := by
  obtain ⟨unit, path, hunit, hpath⟩ := hlive
  cases parameters with
  | propertiesChanged iface changed invalidated =>
    have hsearch : NhmHelper.strInStrv activeStateProp (some invalidated) = true ↔
        activeStateProp ∈ invalidated := NhmHelper.search_iff _ _
    by_cases hprop : activeStateProp ∈ invalidated
    · by_cases hne : unit.active_state ≠ readState reply
      · obtain ⟨called, hupdate, hreport⟩ := unitUpdate_eq usable addr unit hunit _ hne
        have hmove : announced (.unitPropertiesChanged addr)
            (.propertiesChanged iface changed invalidated) reply s =
              .changed addr (readState reply) := by
          simp [announced, hprop, hunit, hne]
        rw [hmove]
        refine ⟨.get path :: called, ?_, ?_⟩
        · simp [unitPropertiesChanged, unitPropertiesChangedRead, delivers.invalidated,
            hsearch.mpr hprop, hunit, hpath, unitGetActiveState_eq delivers usable.conn,
            hupdate]
        · rw [List.filterMap_cons_none rfl]
          exact hreport
      · refine ⟨[.get path], ?_, ?_⟩
        · simp [unitPropertiesChanged, unitPropertiesChangedRead, delivers.invalidated,
            hsearch.mpr hprop, hunit, hpath, unitGetActiveState_eq delivers usable.conn,
            unitUpdate, not_not.mp hne, announced, Move.apply]
        · simp [announced, hunit, not_not.mp hne, Move.report, Output.report?]
    · refine ⟨[], ?_, ?_⟩
      · simp [unitPropertiesChanged, unitPropertiesChangedRead, delivers.invalidated,
          mt hsearch.mp hprop, announced, hprop, Move.apply]
      · simp [announced, hprop, Move.report]
  | _ => exact ⟨[], rfl, rfl⟩

theorem dispatch_performs (signal : Signal) :
    Performs (signal.move s) s (dispatch glib signal s) := by
  unfold Signal.move State.handlerOf dispatch
  cases hsub : s.subscriptions.find? fun sub => sub.id = signal.sub_id with
  | none => exact ⟨[], rfl, rfl⟩
  | some sub =>
    simp only [Option.map_some]
    cases hhandler : sub.handler with
    | unitAdded => exact unitAdded_performs delivers usable _ _
    | unitRemoved => exact unitRemoved_performs delivers usable _ _
    | unitPropertiesChanged addr =>
      have hlive := usable.watched sub (List.mem_of_find?_eq_some hsub) addr hhandler
      exact unitPropertiesChanged_performs delivers usable addr hlive _ _

end

section
variable {s : State} (coherent : Coherent s)
include coherent

theorem move_valid (signal : Signal) : (signal.move s).Valid s := by
  unfold Signal.move State.handlerOf
  cases hsub : s.subscriptions.find? fun sub => sub.id = signal.sub_id with
  | none => trivial
  | some sub =>
    refine announced_valid sub.handler _ _ fun addr hhandler => ?_
    exact (coherent.watched sub (List.mem_of_find?_eq_some hsub) addr hhandler).1

theorem apply_coherent {move : Move} (valid : move.Valid s) : Coherent (move.apply s) := by
  cases move with
  | stay => exact coherent
  | added name path state =>
    exact coherent.newUnit _ _ _ _ (fun a => List.mem_cons) coherent.nodup_cons
  | removed addr => exact coherent.removed addr valid
  | changed addr state => exact coherent.changed addr valid.1 state

end

end NodeHealthMonitor.NhmSystemd
