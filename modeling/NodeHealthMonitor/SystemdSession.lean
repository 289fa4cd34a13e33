import NodeHealthMonitor.Disconnection
import NodeHealthMonitor.Transition
import NodeHealthMonitor.UnitNames

/-! Runs of the systemd module: `nhm_systemd_connect`, signals and `nhm_systemd_disconnect`
in any order, with any outcome of their D-Bus calls. While the module is connected, its
units and the live subscriptions to their properties belong together one to one; while it
is not, there are neither. -/

namespace NodeHealthMonitor.SystemdSession
open DBus NhmSystemd

inductive Event where
  | connect (env : ConnectEnv) (app_status_cb : Bool)
  | signal (message : Signal)
  | disconnect (env : ConnectEnv)

/-- `nhm_systemd_disconnect` also where it calls `Unsubscribe` without a connection: GLib's
check of the arguments returns from that call, with or without an error. -/
def disconnectAny (env : ConnectEnv) (s : State) : Option State :=
  if s.events_subscribed ∧ s.conn = false then do
    let (s, _) ← disconnect env { s with events_subscribed := false }
    some { s with events_subscribed := !env.unsubscribe }
  else do
    let (s, _) ← disconnect env s
    some s

def stepModule (glib : GLib) (s : State) : Event → Option State
  | .connect env app_status_cb => do
      let (_, s, _) ← connect glib env app_status_cb s
      some s
  | .signal message => do
      let (s, _) ← dispatch glib message s
      some s
  | .disconnect env => disconnectAny env s

/-- Whether a message, if it is about the name, says that the unit is there. -/
def said (name : CString) : Handler → Body → Option Bool
  | .unitAdded, .unit name' _ => if name' = name then some true else none
  | .unitRemoved, .unit name' _ => if name' = name then some false else none
  | _, _ => none

def Event.tells (s : State) (name : CString) : Event → Option Bool
  | .connect env app_status_cb =>
      (env.listing app_status_cb).map fun units => decide (name ∈ units.map (·.name))
  | .signal message => (s.handlerOf message.sub_id).bind (said name · message.parameters)
  | .disconnect _ => none

structure Session where
  systemd : State := {}
  told : CString → Bool := fun _ => false

def step (glib : GLib) (session : Session) (event : Event) : Option Session := do
  let systemd ← stepModule glib session.systemd event
  some ⟨systemd, fun name => (event.tells session.systemd name).getD (session.told name)⟩

/-- The module is connected while it is disconnected only, and `ListUnits` lists each
name once. -/
def Called (session : Session) : Event → Prop
  | .connect env _ => session.systemd.conn = false ∧
      ∀ units, env.list_units = some units → (units.map (·.name)).Nodup
  | _ => True

structure Connected (s : State) : Prop where
  coherent : Coherent s
  added : ⟨s.unit_add_sig_id, some objPath, .unitAdded⟩ ∈ s.subscriptions
  removed : ⟨s.unit_rem_sig_id, some objPath, .unitRemoved⟩ ∈ s.subscriptions
  managers : ∀ sub ∈ s.subscriptions, sub.id = s.unit_add_sig_id ∨
    sub.id = s.unit_rem_sig_id ∨ ∃ a, sub.handler = .unitPropertiesChanged a
  nonzero : s.unit_add_sig_id ≠ 0 ∧ s.unit_rem_sig_id ≠ 0
  service : ∀ name, Present s name → isService name = true
  one : ∀ name, OneUnit s name

structure Disconnected (s : State) : Prop where
  cb : s.app_status_cb = false
  conn : s.conn = false
  observed_units : s.observed_units = []
  unit_add_sig_id : s.unit_add_sig_id = 0
  unit_rem_sig_id : s.unit_rem_sig_id = 0
  subscriptions : s.subscriptions = []
  fresh_addr : ∀ a, s.next_addr ≤ a → s.heap a = none
  fresh_id : s.next_id ≠ 0

theorem disconnected_start : Disconnected {} :=
  ⟨rfl, rfl, rfl, rfl, rfl, rfl, fun _ _ => rfl, Nat.one_ne_zero⟩

theorem connected_connected {s : State} (idle : Disconnected s) (events_subscribed : Bool) :
    Connected { s.connected with events_subscribed := events_subscribed } := by
  have hsubs : s.connected.subscriptions = [⟨s.next_id + 1, some objPath, .unitRemoved⟩,
      ⟨s.next_id, some objPath, .unitAdded⟩] := by
    rw [State.connected, idle.subscriptions]
  have hnone : ∀ name, ¬Present { s.connected with events_subscribed := events_subscribed } name :=
    not_present_of_no_units rfl
  refine ⟨⟨rfl, rfl, fun a ha => absurd ha List.not_mem_nil, ?_, List.nodup_nil, ?_,
    idle.fresh_addr, ?_⟩, ?_, ?_, ?_, ⟨idle.fresh_id, Nat.succ_ne_zero _⟩,
    fun name h => absurd h (hnone name), fun name a _ h => absurd ⟨a, h⟩ (hnone name)⟩
  all_goals simp only [hsubs]
  · intro sub hsub a hhandler
    simp only [List.mem_cons, List.not_mem_nil, or_false] at hsub
    rcases hsub with rfl | rfl <;> contradiction
  · simp
  · intro sub hsub
    simp only [List.mem_cons, List.not_mem_nil, or_false] at hsub
    rcases hsub with rfl | rfl
    · exact Nat.lt_succ_self _
    · exact Nat.lt_succ_of_lt (Nat.lt_succ_self _)
  · exact List.mem_cons_of_mem _ List.mem_cons_self
  · exact List.mem_cons_self
  · intro sub hsub
    simp only [List.mem_cons, List.not_mem_nil, or_false] at hsub
    rcases hsub with rfl | rfl
    · exact Or.inr (Or.inl rfl)
    · exact Or.inl rfl

theorem disconnected_of_cleared {s next : State} (cleared : Cleared s next)
    (hsubs : next.subscriptions = []) (hfresh : ∀ a, s.next_addr ≤ a → s.heap a = none)
    (hid : s.next_id ≠ 0) : Disconnected next where
  cb := cleared.cb
  conn := cleared.conn
  observed_units := cleared.observed_units
  unit_add_sig_id := cleared.unit_add_sig_id
  unit_rem_sig_id := cleared.unit_rem_sig_id
  subscriptions := hsubs
  fresh_addr a ha := by
    rw [cleared.next_addr] at ha
    rcases cleared.heap a with h | h
    · exact h
    · rw [h, hfresh a ha]
  fresh_id := by rwa [cleared.next_id]

section
variable {s : State} (connected : Connected s)
include connected

theorem Connected.newUnit {name path : CString} {state : NhmActiveState} {units : List Addr}
    (hunits : ∀ a, a ∈ units ↔ a = s.next_addr ∨ a ∈ s.observed_units) (hnodup : units.Nodup)
    (hservice : isService name = true) (hnew : ¬Present s name) :
    Connected (s.newUnit name path state units) where
  coherent := connected.coherent.newUnit name path state units hunits hnodup
  added := List.mem_cons_of_mem _ connected.added
  removed := List.mem_cons_of_mem _ connected.removed
  managers sub hsub := by
    rcases List.mem_cons.mp hsub with rfl | hsub
    · exact Or.inr (Or.inr ⟨_, rfl⟩)
    · exact connected.managers sub hsub
  nonzero := connected.nonzero
  service name' h := by
    rcases (present_newUnit connected.coherent hunits name').mp h with rfl | h
    · exact hservice
    · exact connected.service name' h
  one name' := oneUnit_newUnit hunits (connected.one name') fun hname a h => hnew ⟨a, hname ▸ h⟩

theorem Connected.listUnits {units : List ListedUnit} (hnodup : (units.map (·.name)).Nodup)
    (hnew : ∀ name ∈ units.map (·.name), ¬Present s name) :
    Connected (units.foldl State.listUnit s) := by
  induction units generalizing s with
  | nil => exact connected
  | cons unit units ih =>
    obtain ⟨hnot, hnodup⟩ := List.nodup_cons.mp hnodup
    have hfirst := hnew unit.name List.mem_cons_self
    rw [List.foldl_cons, State.listUnit]
    split
    · rename_i hservice
      have coherent := connected.coherent
      refine ih (connected.newUnit (mem_listed s) coherent.nodup_listed hservice hfirst) hnodup ?_
      intro name hname h
      rcases (present_newUnit coherent (mem_listed s) name).mp h with rfl | h
      · exact hnot hname
      · exact hnew name (List.mem_cons_of_mem _ hname) h
    · exact ih connected hnodup fun name hname => hnew name (List.mem_cons_of_mem _ hname)

theorem Connected.of_removed {addr : Addr} (haddr : addr ∈ s.observed_units) :
    Connected ((Move.removed addr).apply s) := by
  obtain ⟨unit, path, hunit, -, hwatch⟩ := connected.coherent.listed addr haddr
  have hkept : ∀ sub ∈ s.subscriptions, sub.handler ≠ .unitPropertiesChanged addr →
      sub ∈ ((Move.removed addr).apply s).subscriptions := by
    intro sub hsub hhandler
    rw [removed_apply hunit]
    refine List.mem_filter.mpr ⟨hsub, decide_eq_true fun hid => hhandler ?_⟩
    rw [connected.coherent.ids sub hsub _ hwatch hid]
  have hids : ((Move.removed addr).apply s).unit_add_sig_id = s.unit_add_sig_id ∧
      ((Move.removed addr).apply s).unit_rem_sig_id = s.unit_rem_sig_id := by
    rw [removed_apply hunit]
    exact ⟨rfl, rfl⟩
  refine ⟨connected.coherent.removed addr haddr, ?_, ?_, ?_, ?_, ?_, ?_⟩
  · rw [hids.1]
    exact hkept _ connected.added (by simp)
  · rw [hids.2]
    exact hkept _ connected.removed (by simp)
  · intro sub hsub
    rw [hids.1, hids.2]
    rw [removed_apply hunit] at hsub
    exact connected.managers sub (List.mem_filter.mp hsub).1
  · rw [hids.1, hids.2]
    exact connected.nonzero
  · intro name h
    exact connected.service name ((present_removed connected.coherent connected.one
      ⟨haddr, unit, hunit, rfl⟩ name).mp h).2
  · intro name a b ha hb
    exact connected.one name a b (named_removed hunit ha) (named_removed hunit hb)

theorem Connected.of_changed {addr : Addr} (haddr : addr ∈ s.observed_units)
    (state : NhmActiveState) : Connected ((Move.changed addr state).apply s) := by
  obtain ⟨unit, -, hunit, -⟩ := connected.coherent.listed addr haddr
  refine ⟨connected.coherent.changed addr haddr state, ?_, ?_, ?_, ?_, fun name h => ?_,
    fun name a b ha hb => ?_⟩
  · rw [changed_apply hunit]
    exact connected.added
  · rw [changed_apply hunit]
    exact connected.removed
  · rw [changed_apply hunit]
    exact connected.managers
  · rw [changed_apply hunit]
    exact connected.nonzero
  · exact connected.service name ((present_changed haddr hunit state name).mp h)
  · exact connected.one name a b (named_changed haddr hunit ha) (named_changed haddr hunit hb)

theorem Connected.apply {move : Move} (valid : move.Valid s) : Connected (move.apply s) := by
  cases move with
  | stay => exact connected
  | added name path state =>
    exact connected.newUnit (fun a => List.mem_cons) connected.coherent.nodup_cons valid.1
      (not_present_of_unitNamed valid.2)
  | removed addr => exact connected.of_removed valid
  | changed addr state => exact connected.of_changed valid.1 state

theorem Connected.disconnectable : Disconnectable s where
  conn hconn := by
    rw [connected.coherent.conn] at hconn
    contradiction
  listed a ha := by
    obtain ⟨unit, -, hunit, -⟩ := connected.coherent.listed a ha
    exact ⟨unit, hunit⟩
  nodup := connected.coherent.nodup

theorem Connected.disconnect (env : ConnectEnv) :
    ∃ next sent, NhmSystemd.disconnect env s = some (next, sent) ∧ Disconnected next := by
  obtain ⟨next, hstep, cleared, -⟩ := disconnect_cleared env connected.disconnectable
  refine ⟨next, _, hstep, disconnected_of_cleared cleared ?_ connected.coherent.fresh_addr ?_⟩
  · refine List.eq_nil_iff_forall_not_mem.mpr fun sub hsub => ?_
    obtain ⟨hmem, hadd, hrem, hunits⟩ := cleared.subscriptions sub hsub
    rcases connected.managers sub hmem with hid | hid | ⟨a, hhandler⟩
    · exact hadd connected.nonzero.1 hid
    · exact hrem connected.nonzero.2 hid
    · obtain ⟨ha, unit, hunit, hid⟩ := connected.coherent.watched sub hmem a hhandler
      exact hunits a ha unit hunit hid.symm
  · exact Nat.ne_of_gt (Nat.lt_of_le_of_lt (Nat.zero_le _)
      (connected.coherent.fresh_id _ connected.added))

theorem Connected.present_unitNew (name' path : CString) (reply : Option Value) {name : CString}
    (hservice : isService name = true) :
    Present ((announced .unitAdded (.unit name' path) reply s).apply s) name ↔
      name' = name ∨ Present s name := by
  dsimp only [announced]
  split
  · exact present_newUnit connected.coherent (fun a => List.mem_cons) name
  · rename_i hkept
    refine ⟨Or.inr, fun h => h.elim ?_ id⟩
    rintro rfl
    cases hnamed : s.unitNamed name' with
    | none => exact absurd ⟨hservice, hnamed⟩ hkept
    | some addr => exact ⟨addr, unitNamed_some hnamed⟩

theorem Connected.present_unitRemoved (name' path : CString) (reply : Option Value)
    {name : CString} (hservice : isService name = true) :
    Present ((announced .unitRemoved (.unit name' path) reply s).apply s) name ↔
      name' ≠ name ∧ Present s name := by
  dsimp only [announced]
  split
  · rename_i addr hservice' hnamed
    exact present_removed connected.coherent connected.one (unitNamed_some hnamed) name
  · rename_i hkept
    refine ⟨fun h => ⟨?_, h⟩, And.right⟩
    rintro rfl
    cases hnamed : s.unitNamed name' with
    | none => exact not_present_of_unitNamed hnamed h
    | some addr => exact hkept addr hservice hnamed

omit connected in
theorem present_propertiesChanged {addr : Addr} (haddr : addr ∈ s.observed_units)
    (iface : CString) (changed : List (CString × Value)) (invalidated : List CString)
    (reply : Option Value) (name : CString) :
    Present ((announced (.unitPropertiesChanged addr)
      (.propertiesChanged iface changed invalidated) reply s).apply s) name ↔ Present s name := by
  dsimp only [announced]
  split
  · rename_i hcond
    obtain ⟨unit, hunit, -⟩ := hcond.2
    exact present_changed haddr hunit _ name
  · exact Iff.rfl

theorem Connected.present_announced {handler : Handler}
    (hobserved : ∀ addr, handler = .unitPropertiesChanged addr → addr ∈ s.observed_units)
    (parameters : Body) (reply : Option Value) {name : CString} (hservice : isService name = true) :
    Present ((announced handler parameters reply s).apply s) name ↔
      said name handler parameters = some true ∨
        said name handler parameters = none ∧ Present s name := by
  cases handler with
  | unitAdded =>
    cases parameters with
    | unit name' path =>
      rw [connected.present_unitNew name' path reply hservice]
      by_cases hname : name' = name <;> simp [said, hname]
    | _ => simp [announced, said, Move.apply]
  | unitRemoved =>
    cases parameters with
    | unit name' path =>
      rw [connected.present_unitRemoved name' path reply hservice]
      by_cases hname : name' = name <;> simp [said, hname]
    | _ => simp [announced, said, Move.apply]
  | unitPropertiesChanged addr =>
    cases parameters with
    | propertiesChanged iface changed invalidated =>
      rw [present_propertiesChanged (hobserved addr rfl)]
      simp [said]
    | _ => simp [announced, said, Move.apply]

end

theorem disconnect_idle (env : ConnectEnv) {s : State} (hsubs : s.subscriptions = [])
    (hobserved : s.observed_units = []) (hids : s.unit_add_sig_id = 0 ∧ s.unit_rem_sig_id = 0)
    (hsubscribed : s.events_subscribed = false) (hfresh : ∀ a, s.next_addr ≤ a → s.heap a = none)
    (hid : s.next_id ≠ 0) :
    ∃ next sent, disconnect env s = some (next, sent) ∧ Disconnected next := by
  have ready : Disconnectable s := by
    refine ⟨fun _ => ⟨hsubscribed, hids.1, hids.2, hobserved⟩, ?_, ?_⟩
    · rw [hobserved]
      exact fun a ha => absurd ha List.not_mem_nil
    · rw [hobserved]
      exact List.nodup_nil
  obtain ⟨next, hstep, cleared, -⟩ := disconnect_cleared env ready
  refine ⟨next, _, hstep, disconnected_of_cleared cleared ?_ hfresh hid⟩
  refine List.eq_nil_iff_forall_not_mem.mpr fun sub hsub => ?_
  have hmem := (cleared.subscriptions sub hsub).1
  rw [hsubs] at hmem
  exact List.not_mem_nil hmem

theorem connect_session {glib : GLib} (delivers : glib.Delivers) {s : State}
    (idle : Disconnected s) (env : ConnectEnv) (app_status_cb : Bool)
    (hnodup : ∀ units, env.list_units = some units → (units.map (·.name)).Nodup) :
    ∃ retval next sent, connect glib env app_status_cb s = some (retval, next, sent) ∧
      match env.listing app_status_cb with
      | some units => Connected next ∧ ∀ name, isService name = true →
          (Present next name ↔ name ∈ units.map (·.name))
      | none => Disconnected next := by
  have connected := connected_connected idle
  cases hlisting : env.listing app_status_cb with
  | some units =>
    refine ⟨true, _, _, connect_listed delivers.fitting hlisting s, ?_, fun name hservice => ?_⟩
    · rw [ConnectEnv.listing, Option.ite_none_right_eq_some] at hlisting
      exact (connected true).listUnits (hnodup units hlisting.2)
        fun name _ => not_present_of_no_units rfl name
    · have hnone : ¬Present s.connected name := not_present_of_no_units rfl name
      have coherent : Coherent s.connected := (connected true).coherent
      rw [present_listUnits units name coherent]
      simp only [hnone, hservice, false_or, true_and]
  | none =>
    obtain ⟨next, sent, hdisconnect, hnext⟩ : ∃ next sent,
        disconnect env (s.unlisted env app_status_cb) = some (next, sent) ∧ Disconnected next := by
      unfold State.unlisted
      split
      · exact (connected env.subscribe).disconnect env
      · exact disconnect_idle env idle.subscriptions rfl ⟨rfl, rfl⟩ rfl idle.fresh_addr
          idle.fresh_id
    obtain ⟨sent', hconnect⟩ := connect_unlisted glib hlisting s
    exact ⟨false, next, _, by rw [hconnect, hdisconnect, Option.map_some], hnext⟩

theorem disconnectAny_session (env : ConnectEnv) {s : State}
    (h : Connected s ∨ Disconnected s) :
    ∃ next, disconnectAny env s = some next ∧ Disconnected next := by
  unfold disconnectAny
  split
  · rename_i hnull
    rcases h with connected | idle
    · rw [connected.coherent.conn] at hnull
      exact Bool.noConfusion hnull.2
    · obtain ⟨next, sent, hstep, hnext⟩ := disconnect_idle env
        (s := { s with events_subscribed := false }) idle.subscriptions idle.observed_units
        ⟨idle.unit_add_sig_id, idle.unit_rem_sig_id⟩ rfl idle.fresh_addr idle.fresh_id
      refine ⟨{ next with events_subscribed := !env.unsubscribe }, ?_, ?_⟩
      · rw [hstep, Option.bind_eq_bind, Option.bind_some]
      · exact ⟨hnext.cb, hnext.conn, hnext.observed_units, hnext.unit_add_sig_id,
          hnext.unit_rem_sig_id, hnext.subscriptions, hnext.fresh_addr, hnext.fresh_id⟩
  · rename_i hnull
    obtain ⟨next, sent, hstep, hnext⟩ : ∃ next sent,
        disconnect env s = some (next, sent) ∧ Disconnected next := by
      rcases h with connected | idle
      · exact connected.disconnect env
      · refine disconnect_idle env idle.subscriptions idle.observed_units
          ⟨idle.unit_add_sig_id, idle.unit_rem_sig_id⟩ ?_ idle.fresh_addr idle.fresh_id
        exact eq_false_of_ne_true fun h => hnull ⟨h, idle.conn⟩
    exact ⟨next, by rw [hstep, Option.bind_eq_bind, Option.bind_some], hnext⟩

structure Kept (session : Session) : Prop where
  systemd : Connected session.systemd ∨ Disconnected session.systemd
  told : session.systemd.conn = true → ∀ name, isService name = true →
    (Present session.systemd name ↔ session.told name = true)

theorem getD_eq_true (said : Option Bool) (told : Bool) :
    said.getD told = true ↔ said = some true ∨ said = none ∧ told = true := by
  cases said <;> simp

theorem step_eq {glib : GLib} {session : Session} {event : Event} {next : State}
    (h : stepModule glib session.systemd event = some next) :
    step glib session event = some ⟨next, fun name =>
      (event.tells session.systemd name).getD (session.told name)⟩ := by
  rw [step, h]
  rfl

theorem step_signal {glib : GLib} (delivers : glib.Delivers) {session : Session}
    (kept : Kept session) (message : Signal) :
    ∃ next, step glib session (.signal message) = some next ∧ Kept next := by
  rcases kept.systemd with connected | idle
  · obtain ⟨sent, hdispatch, -⟩ := dispatch_performs delivers connected.coherent.usable message
    have hstep : stepModule glib session.systemd (.signal message) =
        some ((message.move session.systemd).apply session.systemd) := by
      rw [stepModule, hdispatch]
      rfl
    refine ⟨_, step_eq hstep, Or.inl (connected.apply (move_valid connected.coherent message)),
      fun _ name hservice => ?_⟩
    have htold := kept.told connected.coherent.conn name hservice
    simp only [Event.tells, Signal.move, State.handlerOf]
    cases hsub : session.systemd.subscriptions.find? fun sub => sub.id = message.sub_id with
    | none => exact htold
    | some sub =>
      have hobserved := fun addr hhandler =>
        (connected.coherent.watched sub (List.mem_of_find?_eq_some hsub) addr hhandler).1
      simp only [Option.map_some, Option.bind_some]
      rw [connected.present_announced hobserved _ _ hservice, getD_eq_true, htold]
  · have hnone : session.systemd.handlerOf message.sub_id = none := by
      rw [State.handlerOf, idle.subscriptions]
      rfl
    have hstep : dispatch glib message session.systemd = some (session.systemd, []) := by
      rw [dispatch, idle.subscriptions]
      rfl
    refine ⟨session, ?_, kept⟩
    simp [step, stepModule, hstep, Event.tells, hnone]

theorem step_kept {glib : GLib} (delivers : glib.Delivers) {session : Session}
    (kept : Kept session) (event : Event) (called : Called session event) :
    ∃ next, step glib session event = some next ∧ Kept next := by
  cases event with
  | signal message => exact step_signal delivers kept message
  | disconnect env =>
    obtain ⟨next, hstep, hnext⟩ := disconnectAny_session env kept.systemd
    refine ⟨_, step_eq hstep, Or.inr hnext, fun hconn => ?_⟩
    rw [hnext.conn] at hconn
    contradiction
  | connect env app_status_cb =>
    have idle : Disconnected session.systemd := by
      refine kept.systemd.resolve_left fun connected => ?_
      exact Bool.noConfusion (called.1.symm.trans connected.coherent.conn)
    obtain ⟨retval, next, sent, hconnect, hnext⟩ :=
      connect_session delivers idle env app_status_cb called.2
    have hstep : stepModule glib session.systemd (.connect env app_status_cb) = some next := by
      rw [stepModule, hconnect]
      rfl
    refine ⟨_, step_eq hstep, ?_⟩
    cases hlisting : env.listing app_status_cb with
    | some units =>
      rw [hlisting] at hnext
      refine ⟨Or.inl hnext.1, fun _ name hservice => ?_⟩
      simp [Event.tells, hlisting, hnext.2 name hservice]
    | none =>
      rw [hlisting] at hnext
      refine ⟨Or.inr hnext, fun hconn => ?_⟩
      rw [hnext.conn] at hconn
      contradiction

/-- Observed units and live subscriptions match one to one. -/
structure OneToOne (s : State) : Prop where
  services : ∀ a ∈ s.observed_units, ∃ unit, s.heap a = some unit ∧ isService unit.name = true
  distinct : s.observed_units.Pairwise fun a b => ∀ unit other,
    s.heap a = some unit → s.heap b = some other → unit.name ≠ other.name
  subscribed : ∀ a ∈ s.observed_units, ∀ unit, s.heap a = some unit →
    ∃ path, ⟨unit.sig_sub_id, path, .unitPropertiesChanged a⟩ ∈ s.subscriptions
  watched : ∀ sub ∈ s.subscriptions, ∀ a, sub.handler = .unitPropertiesChanged a →
    s.app_status_cb = true ∧ a ∈ s.observed_units ∧
      ∃ unit, s.heap a = some unit ∧ unit.sig_sub_id = sub.id
  ids : ∀ sub ∈ s.subscriptions, ∀ sub' ∈ s.subscriptions, sub.id = sub'.id → sub = sub'
  disconnected : s.conn = false →
    s.observed_units = [] ∧ s.subscriptions = [] ∧ s.app_status_cb = false

theorem Connected.oneToOne {s : State} (connected : Connected s) : OneToOne s where
  services a ha := by
    obtain ⟨unit, -, hunit, -⟩ := connected.coherent.listed a ha
    exact ⟨unit, hunit, connected.service unit.name ⟨a, ha, unit, hunit, rfl⟩⟩
  distinct := by
    refine connected.coherent.nodup.pairwise_of_forall_ne fun a ha b hb hne => ?_
    intro unit other hunit hother hname
    exact hne (connected.one other.name a b ⟨ha, unit, hunit, hname⟩ ⟨hb, other, hother, rfl⟩)
  subscribed a ha unit hunit := by
    obtain ⟨unit', path, hunit', -, hsub⟩ := connected.coherent.listed a ha
    obtain rfl := Option.some.inj (hunit.symm.trans hunit')
    exact ⟨some path, hsub⟩
  watched sub hsub a hhandler :=
    ⟨connected.coherent.cb, connected.coherent.watched sub hsub a hhandler⟩
  ids := connected.coherent.ids
  disconnected hconn := by
    rw [connected.coherent.conn] at hconn
    contradiction

theorem Disconnected.oneToOne {s : State} (idle : Disconnected s) : OneToOne s where
  services a ha := by simp [idle.observed_units] at ha
  distinct := by simp [idle.observed_units]
  subscribed a ha := by simp [idle.observed_units] at ha
  watched sub hsub := by simp [idle.subscriptions] at hsub
  ids sub hsub := by simp [idle.subscriptions] at hsub
  disconnected _ := ⟨idle.observed_units, idle.subscriptions, idle.cb⟩

/-- In every state reached, units and subscriptions match, and a connected module observes
the services that the last message about them did not remove. -/
theorem oneToOne_run {glib : GLib} (delivers : glib.Delivers) (events : List Event)
    (called : Transition.AllSteps (step glib) Called {} events) :
    ∃ last, Transition.run (step glib) {} events = some last ∧ OneToOne last.systemd ∧
      (last.systemd.conn = true → ∀ name, isService name = true →
        (Present last.systemd name ↔ last.told name = true)) := by
  obtain ⟨last, hrun, kept⟩ := Transition.run_invariant (step glib) Kept Called
    (fun session event kept called => step_kept delivers kept event called) events {}
    ⟨Or.inr disconnected_start, fun h => Bool.noConfusion h⟩ called
  exact ⟨last, hrun, kept.systemd.elim Connected.oneToOne Disconnected.oneToOne, kept.told⟩

def sessionA : List Event :=
  [.connect { list_units := some [serviceA strActive] } true,
    .signal ⟨3, .propertiesChanged CString.empty [] [activeStateProp], some (.string strFailed)⟩,
    .signal ⟨2, .unit (serviceA strActive).name (serviceA strActive).path, none⟩,
    .disconnect { unsubscribe := false }, .disconnect {}]

theorem oneToOne_run_sessionA : ∃ last,
    Transition.run (step handingOver) {} sessionA = some last ∧ OneToOne last.systemd ∧
      (last.systemd.conn = true → ∀ name, isService name = true →
        (Present last.systemd name ↔ last.told name = true)) :=
  oneToOne_run handingOver_delivers sessionA
    ⟨⟨rfl, fun _ h => Option.some.inj h ▸ List.nodup_singleton _⟩, fun _ _ => ⟨trivial, fun _ _ =>
      ⟨trivial, fun _ _ => ⟨trivial, fun _ _ => ⟨trivial, fun _ _ => trivial⟩⟩⟩⟩⟩

end NodeHealthMonitor.SystemdSession
