import NodeHealthMonitor.SignalHandlers
import NodeHealthMonitor.SystemdSession

/-! The variables of the systemd module behind a failed `nhm_systemd_connect` and behind
`nhm_systemd_disconnect`. All of them are reset unless the call of `Unsubscribe` fails; then
the module still counts as subscribed, and the next disconnect calls without a connection. -/

namespace NodeHealthMonitor.SystemdSession
open DBus NhmSystemd

structure Initial (s : State) : Prop where
  cb : s.app_status_cb = false
  conn : s.conn = false
  observed_units : s.observed_units = []
  unit_add_sig_id : s.unit_add_sig_id = 0
  unit_rem_sig_id : s.unit_rem_sig_id = 0
  events_subscribed : s.events_subscribed = false

/-- A failed connect and a disconnect leave the initial values, from which a further
disconnect calls nothing; a signal is handled to its end also without a connection. -/
def Restores (glib : GLib) (s : State) : Event → Prop
  | .connect env app_status_cb =>
      ∃ retval next sent, connect glib env app_status_cb s = some (retval, next, sent) ∧
        (retval = false → Initial next ∧ ∀ env, disconnect env next = some (next, []))
  | .disconnect env => ∃ next sent, disconnect env s = some (next, sent) ∧
      Initial next ∧ ∀ env, disconnect env next = some (next, [])
  | .signal message => s.conn = false → ∃ next sent, dispatch glib message s = some (next, sent)

/-- A message that makes a handler read the ActiveState of a unit it did not know before,
or of its own. -/
def asksState : Handler → Body → Bool
  | .unitAdded, .unit name _ => isService name
  | .unitPropertiesChanged _, .propertiesChanged _ _ invalidated => activeStateProp ∈ invalidated
  | _, _ => false

/-- `Unsubscribe` succeeds where it is called, and without a connection no message comes in
that needs one. -/
def Unhindered (s : State) : Event → Prop
  | .connect env app_status_cb => env.listing app_status_cb = none →
      (app_status_cb ∧ env.bus_get ∧ env.subscribe) → env.unsubscribe = true
  | .disconnect env => s.events_subscribed = true → env.unsubscribe = true
  | .signal message => s.conn = false →
      ∀ handler, s.handlerOf message.sub_id = some handler →
        asksState handler message.parameters = false

structure Steady (s : State) : Prop where
  ready : Disconnectable s
  fresh_addr : ∀ a, s.next_addr ≤ a → s.heap a = none

theorem Initial.disconnect {s : State} (initial : Initial s) (env : ConnectEnv) :
    NhmSystemd.disconnect env s = some (s, []) := by
  obtain ⟨cb, conn, observed_units, unit_add_sig_id, unit_rem_sig_id, events_subscribed⟩ := initial
  cases s
  simp only at cb conn observed_units unit_add_sig_id unit_rem_sig_id events_subscribed
  subst cb conn observed_units unit_add_sig_id unit_rem_sig_id events_subscribed
  rfl

theorem initial_of_cleared {s next : State} (cleared : Cleared s next) :
    Initial next ↔ next.events_subscribed = false :=
  ⟨Initial.events_subscribed, fun h => ⟨cleared.cb, cleared.conn, cleared.observed_units,
    cleared.unit_add_sig_id, cleared.unit_rem_sig_id, h⟩⟩

theorem steady_of_cleared {s next : State} (cleared : Cleared s next)
    (hsubscribed : next.events_subscribed = false)
    (hfresh : ∀ a, s.next_addr ≤ a → s.heap a = none) : Steady next where
  ready := by
    refine ⟨fun _ => ⟨hsubscribed, cleared.unit_add_sig_id, cleared.unit_rem_sig_id,
      cleared.observed_units⟩, ?_, ?_⟩
    · rw [cleared.observed_units]
      exact fun a ha => absurd ha List.not_mem_nil
    · rw [cleared.observed_units]
      exact List.nodup_nil
  fresh_addr a ha := by
    rw [cleared.next_addr] at ha
    rcases cleared.heap a with h | h
    · exact h
    · rw [h, hfresh a ha]

theorem disconnectable_unlisted (s : State) (env : ConnectEnv) (app_status_cb : Bool) :
    Disconnectable (s.unlisted env app_status_cb) := by
  unfold State.unlisted
  split
  · exact ⟨fun h => Bool.noConfusion h, fun a ha => absurd ha List.not_mem_nil, List.nodup_nil⟩
  · exact ⟨fun _ => ⟨rfl, rfl, rfl, rfl⟩, fun a ha => absurd ha List.not_mem_nil, List.nodup_nil⟩

theorem unlisted_subscribed_iff (s : State) (env : ConnectEnv) (app_status_cb : Bool) :
    (s.unlisted env app_status_cb).events_subscribed = true ↔
      app_status_cb = true ∧ env.bus_get = true ∧ env.subscribe = true := by
  unfold State.unlisted
  split
  · rename_i h
    simp [h]
  · rename_i h
    simp only [State.init, Bool.false_eq_true, false_iff]
    exact fun h' => h ⟨h'.1, h'.2.1⟩

theorem connect_givesUp (glib : GLib) {env : ConnectEnv} {app_status_cb : Bool}
    (h : env.listing app_status_cb = none) (s : State) :
    ∃ next sent, connect glib env app_status_cb s = some (false, next, sent) ∧
      Cleared (s.unlisted env app_status_cb) next ∧ (next.events_subscribed = false ↔
        ((app_status_cb ∧ env.bus_get ∧ env.subscribe) → env.unsubscribe = true)) := by
  obtain ⟨sent, hconnect⟩ := connect_unlisted glib h s
  obtain ⟨next, hdisconnect, cleared, hsubscribed⟩ :=
    disconnect_cleared env (disconnectable_unlisted s env app_status_cb)
  refine ⟨next, _, by rw [hconnect, hdisconnect, Option.map_some], cleared, ?_⟩
  rw [hsubscribed, ← unlisted_subscribed_iff s]
  cases (s.unlisted env app_status_cb).events_subscribed <;> simp

theorem restores_connect {glib : GLib} (fitting : glib.DeliversFitting) (s : State)
    (env : ConnectEnv) (app_status_cb : Bool) :
    Restores glib s (.connect env app_status_cb) ↔ Unhindered s (.connect env app_status_cb) := by
  cases hlisting : env.listing app_status_cb with
  | some units =>
    have hconnect := connect_listed fitting hlisting s
    refine iff_of_true ⟨true, _, _, hconnect, fun h => Bool.noConfusion h⟩ fun h => ?_
    rw [hlisting] at h
    contradiction
  | none =>
    obtain ⟨next, sent, hconnect, cleared, hiff⟩ := connect_givesUp glib hlisting s
    rw [Unhindered, ← hiff]
    constructor
    · rintro ⟨retval, next', sent', hconnect', hinitial⟩ -
      rw [hconnect] at hconnect'
      cases hconnect'
      exact (hinitial rfl).1.events_subscribed
    · intro h
      have initial := (initial_of_cleared cleared).mpr (h hlisting)
      exact ⟨false, next, sent, hconnect, fun _ => ⟨initial, initial.disconnect⟩⟩

theorem restores_disconnect (glib : GLib) {s : State} (ready : Disconnectable s)
    (env : ConnectEnv) :
    Restores glib s (.disconnect env) ↔ Unhindered s (.disconnect env) := by
  obtain ⟨next, hstep, cleared, hsubscribed⟩ := disconnect_cleared env ready
  have hiff : next.events_subscribed = false ↔
      (s.events_subscribed = true → env.unsubscribe = true) := by
    rw [hsubscribed]
    cases s.events_subscribed <;> simp
  rw [Unhindered, ← hiff, ← initial_of_cleared cleared]
  constructor
  · rintro ⟨next', sent', hstep', initial, -⟩
    rw [hstep] at hstep'
    cases hstep'
    exact initial
  · exact fun initial => ⟨next, _, hstep, initial, initial.disconnect⟩

section
variable {glib : GLib} (fitting : glib.DeliversFitting) {s : State} (hconn : s.conn = false)
  (hobserved : s.observed_units = [])
include fitting hconn hobserved

theorem unitAdded_unconnected (parameters : Body) (reply : Option Value) :
    (∃ result, unitAdded glib parameters reply s = some result) ↔
      asksState .unitAdded parameters = false := by
  cases parameters with
  | unit name path =>
    cases hservice : isService name <;>
      simp [unitAdded, unitAddedCheck, fitting.unit_name, hservice, hobserved, findUnit,
        unitGetActiveState, hconn, asksState]
  | _ => simp [unitAdded, unitAddedCheck, asksState]

omit hconn in
theorem unitRemoved_unconnected (parameters : Body) :
    ∃ result, unitRemoved glib parameters s = some result := by
  cases parameters with
  | unit name path =>
    cases hservice : isService name <;>
      simp [unitRemoved, fitting.unit_name, hservice, hobserved, findUnit]
  | _ => exact ⟨_, rfl⟩

omit hobserved in
theorem unitPropertiesChanged_unconnected (addr : Addr) (parameters : Body)
    (reply : Option Value) :
    (∃ result, unitPropertiesChanged glib parameters reply addr s = some result) ↔
      asksState (.unitPropertiesChanged addr) parameters = false := by
  cases parameters with
  | propertiesChanged iface changed invalidated =>
    have hsearch : NhmHelper.strInStrv activeStateProp (some invalidated) = true ↔
        activeStateProp ∈ invalidated := NhmHelper.search_iff _ _
    by_cases hprop : activeStateProp ∈ invalidated
    · cases hunit : s.heap addr <;>
        simp [unitPropertiesChanged, unitPropertiesChangedRead, fitting.invalidated,
          hsearch.mpr hprop, hunit, unitGetActiveState, hconn, asksState, hprop]
    · simp [unitPropertiesChanged, unitPropertiesChangedRead, fitting.invalidated,
        mt hsearch.mp hprop, asksState, hprop]
  | _ => simp [unitPropertiesChanged, unitPropertiesChangedRead, asksState]

theorem dispatch_unconnected (message : Signal) :
    (∃ result, dispatch glib message s = some result) ↔ ∀ handler,
      s.handlerOf message.sub_id = some handler → asksState handler message.parameters = false := by
  unfold State.handlerOf dispatch
  cases hsub : s.subscriptions.find? fun sub => sub.id = message.sub_id with
  | none => simp
  | some sub =>
    simp only [Option.map_some, Option.some.injEq, forall_eq']
    cases hhandler : sub.handler with
    | unitAdded => exact unitAdded_unconnected fitting hconn hobserved _ _
    | unitRemoved =>
      exact iff_of_true (unitRemoved_unconnected fitting hobserved _) rfl
    | unitPropertiesChanged addr => exact unitPropertiesChanged_unconnected fitting hconn addr _ _

end

section
variable {s : State} (steady : Steady s)
include steady

theorem Steady.observed_lt {a : Addr} (ha : a ∈ s.observed_units) : a < s.next_addr := by
  obtain ⟨unit, hunit⟩ := steady.ready.listed a ha
  by_contra hle
  rw [steady.fresh_addr a (Nat.le_of_not_lt hle)] at hunit
  contradiction

theorem Steady.handled {next : State} (h : Handled s next) : Steady next := by
  have hnull : s.conn = true → ∀ {p : Prop}, s.conn = false → p := fun h {_} h' =>
    Bool.noConfusion (h.symm.trans h')
  cases h with
  | stays => exact steady
  | adds unit subs hconn =>
    refine ⟨⟨hnull hconn, fun a ha => ?_, ?_⟩, fun a ha => ?_⟩
    · rcases List.mem_cons.mp ha with rfl | ha
      · exact ⟨unit, Function.update_self ..⟩
      · have hne : a ≠ s.next_addr := Nat.ne_of_lt (steady.observed_lt ha)
        exact (steady.ready.listed a ha).imp fun _ h => (Function.update_of_ne hne ..).trans h
    · refine List.nodup_cons.mpr ⟨fun h => ?_, steady.ready.nodup⟩
      exact absurd (steady.observed_lt h) (Nat.lt_irrefl _)
    · have hlt : s.next_addr < a := ha
      exact (Function.update_of_ne (Nat.ne_of_gt hlt) ..).trans
        (steady.fresh_addr a (Nat.le_of_lt hlt))
  | removes addr subs hconn =>
    refine ⟨⟨hnull hconn, fun a ha => ?_, steady.ready.nodup.erase addr⟩, fun a ha => ?_⟩
    · obtain ⟨hne, ha⟩ := steady.ready.nodup.mem_erase_iff.mp ha
      exact (steady.ready.listed a ha).imp fun _ h => (Function.update_of_ne hne ..).trans h
    · by_cases hne : a = addr
      · subst hne
        exact Function.update_self ..
      · exact (Function.update_of_ne hne ..).trans (steady.fresh_addr a ha)
  | changes addr old new hold =>
    refine ⟨⟨steady.ready.conn, fun a ha => ?_, steady.ready.nodup⟩, fun a ha => ?_⟩
    · by_cases hne : a = addr
      · subst hne
        exact ⟨new, Function.update_self ..⟩
      · exact (steady.ready.listed a ha).imp fun _ h => (Function.update_of_ne hne ..).trans h
    · have hne : a ≠ addr := by
        rintro rfl
        rw [steady.fresh_addr a ha] at hold
        contradiction
      exact (Function.update_of_ne hne ..).trans (steady.fresh_addr a ha)

theorem Steady.listUnits (hconn : s.conn = true) (units : List ListedUnit) :
    Steady (units.foldl State.listUnit s) := by
  induction units generalizing s with
  | nil => exact steady
  | cons unit units ih =>
    refine ih ?_ ((listUnit_conn s unit).trans hconn)
    unfold State.listUnit
    split
    · have added := steady.handled (.adds ⟨unit.name, .string unit.path,
        activeStateStringToEnum unit.active_state, s.next_id⟩
        (⟨s.next_id, some unit.path, .unitPropertiesChanged s.next_addr⟩ :: s.subscriptions) hconn)
      -- The list of the listing has the new unit at its end, not in front.
      refine ⟨⟨fun h => Bool.noConfusion (hconn.symm.trans h),
        fun a ha => added.ready.listed a ?_, ?_⟩, added.fresh_addr⟩
      · exact List.mem_cons.mpr ((mem_listed s a).mp ha)
      · exact (List.perm_append_singleton ..).nodup_iff.mpr added.ready.nodup
    · exact steady

theorem steady_connected : Steady s.connected where
  ready := ⟨fun h => Bool.noConfusion h, fun _ ha => absurd ha List.not_mem_nil, List.nodup_nil⟩
  fresh_addr := steady.fresh_addr

theorem restores_iff {glib : GLib} (fitting : glib.DeliversFitting) (event : Event) :
    Restores glib s event ↔ Unhindered s event := by
  cases event with
  | connect env app_status_cb => exact restores_connect fitting s env app_status_cb
  | disconnect env => exact restores_disconnect glib steady.ready env
  | signal message =>
    refine forall_congr' fun hconn => ?_
    rw [← dispatch_unconnected fitting hconn (steady.ready.conn hconn).2.2.2, Prod.exists]

theorem step_steady {glib : GLib} (fitting : glib.DeliversFitting) {event : Event} {next : State}
    (unhindered : Unhindered s event) (h : stepModule glib s event = some next) : Steady next := by
  cases event with
  | signal message =>
    rw [stepModule, Option.bind_eq_bind, Option.bind_eq_some_iff] at h
    obtain ⟨⟨s', sent⟩, hdispatch, hs'⟩ := h
    cases hs'
    exact steady.handled (dispatch_handled hdispatch).1
  | disconnect env =>
    have hcalled : ¬(s.events_subscribed = true ∧ s.conn = false) := fun hnull =>
      Bool.noConfusion (hnull.1.symm.trans (steady.ready.conn hnull.2).1)
    obtain ⟨s', hstep, cleared, hsubscribed⟩ := disconnect_cleared env steady.ready
    rw [stepModule, disconnectAny, if_neg hcalled, hstep] at h
    cases h
    refine steady_of_cleared cleared ?_ steady.fresh_addr
    rw [hsubscribed]
    cases hevents : s.events_subscribed with
    | false => rfl
    | true => rw [unhindered hevents]; rfl
  | connect env app_status_cb =>
    cases hlisting : env.listing app_status_cb with
    | some units =>
      rw [stepModule, connect_listed fitting hlisting] at h
      cases h
      exact (steady_connected steady).listUnits rfl units
    | none =>
      obtain ⟨s', sent, hconnect, cleared, hiff⟩ := connect_givesUp glib hlisting s
      rw [stepModule, hconnect] at h
      cases h
      refine steady_of_cleared cleared (hiff.mpr (unhindered hlisting)) ?_
      unfold State.unlisted
      split <;> exact steady.fresh_addr

end

theorem steady_start : Steady {} where
  ready := ⟨fun _ => ⟨rfl, rfl, rfl, rfl⟩, fun _ ha => absurd ha List.not_mem_nil, List.nodup_nil⟩
  fresh_addr _ _ := rfl

/-- The module is in its initial state behind every failed connect and every disconnect, and
uses no connection it does not have, in exactly the runs whose steps are unhindered. -/
theorem restores_run_iff {glib : GLib} (fitting : glib.DeliversFitting) (events : List Event) :
    Transition.AllSteps (stepModule glib) (Restores glib) {} events ↔
      Transition.AllSteps (stepModule glib) Unhindered {} events :=
  Transition.allSteps_congr (stepModule glib) Steady (Restores glib) Unhindered
    (fun _ _ _ steady unhindered h => step_steady steady fitting unhindered h)
    (fun _ event steady => restores_iff steady fitting event) {} events steady_start

theorem restores_run_iff_sessionA :
    Transition.AllSteps (stepModule handingOver) (Restores handingOver) {} sessionA ↔
      Transition.AllSteps (stepModule handingOver) Unhindered {} sessionA :=
  restores_run_iff handingOver_delivers.fitting sessionA

/-- `ListUnits` and then `Unsubscribe` fail: the module stays subscribed, and the disconnect
at the end of the program has no connection for `Unsubscribe`. -/
theorem not_restores_failedListing :
    ¬Transition.AllSteps (stepModule handingOver) (Restores handingOver) {}
        [.connect { list_units := none, unsubscribe := false } true, .disconnect {}] ∧
    ∃ next sent, connect handingOver { list_units := none, unsubscribe := false } true {} =
      some (false, next, sent) ∧ next.events_subscribed = true ∧ disconnect {} next = none := by
  have hfails : ∃ next sent, connect handingOver { list_units := none, unsubscribe := false }
      true {} = some (false, next, sent) ∧ next.events_subscribed = true ∧
      disconnect {} next = none := ⟨_, _, rfl, rfl, rfl⟩
  refine ⟨?_, hfails⟩
  rintro ⟨⟨retval, next, sent, hconnect, hinitial⟩, -⟩
  obtain ⟨next', sent', hconnect', hsubscribed, -⟩ := hfails
  rw [hconnect'] at hconnect
  cases hconnect
  exact Bool.noConfusion (hsubscribed.symm.trans (hinitial rfl).1.events_subscribed)

end NodeHealthMonitor.SystemdSession
