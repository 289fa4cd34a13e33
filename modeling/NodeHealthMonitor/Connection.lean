import Mathlib.Data.List.Nodup
import NodeHealthMonitor.UnitMoves

/-! A successful `nhm_systemd_connect`: the observed units are the services of the
answer to `ListUnits`, in its order, each with the ActiveState it had there. -/

namespace NodeHealthMonitor.NhmSystemd
open DBus

def State.connected (s : State) : State :=
  { s.init with
    app_status_cb := true, conn := true, events_subscribed := true,
    unit_add_sig_id := s.next_id, unit_rem_sig_id := s.next_id + 1,
    subscriptions := ⟨s.next_id + 1, some objPath, .unitRemoved⟩ ::
      ⟨s.next_id, some objPath, .unitAdded⟩ :: s.subscriptions
    next_id := s.next_id + 2 }

def State.listUnit (s : State) (unit : ListedUnit) : State :=
  if isService unit.name then
    s.newUnit unit.name unit.path (activeStateStringToEnum unit.active_state)
      (s.observed_units ++ [s.next_addr])
  else s

theorem connectUnit_eq {glib : GLib} (fitting : glib.DeliversFitting) (unit : ListedUnit)
    (vars : ListVars) (s : State) (hconn : s.conn = true) :
    ∃ vars', connectUnit glib unit vars s = some (vars', s.listUnit unit) := by
  by_cases hservice : isService unit.name = true
  · simp [connectUnit, fitting.listed_name, fitting.listed_state, fitting.listed_path, hservice,
      stringToEnum, subscribePropertiesChanged, signalSubscribe, hconn, State.listUnit,
      State.newUnit]
  · simp [connectUnit, fitting.listed_name, hservice, State.listUnit]

theorem listUnit_conn (s : State) (unit : ListedUnit) : (s.listUnit unit).conn = s.conn := by
  unfold State.listUnit
  split <;> rfl

theorem connectUnits_eq {glib : GLib} (fitting : glib.DeliversFitting) (units : List ListedUnit)
    (vars : ListVars) (s : State) (hconn : s.conn = true) :
    connectUnits glib units vars s = some (units.foldl State.listUnit s) := by
  induction units generalizing vars s with
  | nil => rfl
  | cons unit units ih =>
    obtain ⟨vars', hunit⟩ := connectUnit_eq fitting unit vars s hconn
    rw [connectUnits, hunit, Option.bind_eq_bind, Option.bind_some, List.foldl_cons]
    exact ih vars' _ ((listUnit_conn s unit).trans hconn)

/-- The answer to `ListUnits`, if `nhm_systemd_connect` gets as far and gets it. -/
def ConnectEnv.listing (env : ConnectEnv) (app_status_cb : Bool) : Option (List ListedUnit) :=
  if app_status_cb ∧ env.bus_get ∧ env.subscribe then env.list_units else none

def State.unlisted (s : State) (env : ConnectEnv) (app_status_cb : Bool) : State :=
  if app_status_cb ∧ env.bus_get then { s.connected with events_subscribed := env.subscribe }
  else { s.init with app_status_cb := app_status_cb }

theorem connectSubscribe_eq (env : ConnectEnv) (app_status_cb : Bool) (s : State) :
    connectSubscribe env app_status_cb s =
      some (app_status_cb && env.bus_get && env.subscribe, s.unlisted env app_status_cb,
        if app_status_cb ∧ env.bus_get then [.subscribe] else []) := by
  by_cases hstart : app_status_cb = true ∧ env.bus_get = true
  · simp [connectSubscribe, hstart, signalSubscribe, State.unlisted, State.connected, State.init]
  · have hretval : (app_status_cb && env.bus_get && env.subscribe) = false := by
      rw [Bool.and_eq_false_iff, ← Bool.not_eq_true, Bool.and_eq_true]
      exact Or.inl hstart
    simp [connectSubscribe, if_neg hstart, State.unlisted, hretval]

theorem unlisted_subscribed (s : State) {env : ConnectEnv} {app_status_cb : Bool}
    (h : app_status_cb = true ∧ env.bus_get = true) (hsubscribe : env.subscribe = true) :
    s.unlisted env app_status_cb = s.connected := by
  rw [State.unlisted, if_pos h, hsubscribe]
  rfl

theorem connectSubscribe_true (env : ConnectEnv) (app_status_cb : Bool) (s next : State)
    (sent : List Output) (h : connectSubscribe env app_status_cb s = some (true, next, sent)) :
    next = s.connected := by
  rw [connectSubscribe_eq] at h
  simp only [Option.some.injEq, Prod.mk.injEq, Bool.and_eq_true] at h
  obtain ⟨⟨hstart, hsubscribe⟩, rfl, -⟩ := h
  exact unlisted_subscribed s hstart hsubscribe

theorem connect_listed {glib : GLib} (fitting : glib.DeliversFitting) {env : ConnectEnv}
    {app_status_cb : Bool} {units : List ListedUnit} (h : env.listing app_status_cb = some units)
    (s : State) : connect glib env app_status_cb s =
      some (true, units.foldl State.listUnit s.connected, [.subscribe, .listUnits]) := by
  rw [ConnectEnv.listing] at h
  split at h
  · rename_i hlisted
    obtain ⟨rfl, hbus, hsubscribe⟩ := hlisted
    have hconnected := unlisted_subscribed s ⟨rfl, hbus⟩ hsubscribe
    have hlist := connectUnits_eq fitting units {} s.connected rfl
    simp [connect, connectSubscribe_eq, hbus, hsubscribe, hconnected, connectList, h, hlist]
  · contradiction

theorem connect_unlisted (glib : GLib) {env : ConnectEnv} {app_status_cb : Bool}
    (h : env.listing app_status_cb = none) (s : State) :
    ∃ sent, connect glib env app_status_cb s =
      (disconnect env (s.unlisted env app_status_cb)).map fun result =>
        (false, result.1, sent ++ result.2) := by
  cases hretval : app_status_cb && env.bus_get && env.subscribe with
  | false =>
    refine ⟨(if app_status_cb ∧ env.bus_get then [.subscribe] else []) ++ [], ?_⟩
    simp only [connect, connectSubscribe_eq, hretval, Option.bind_eq_bind, Option.bind_some,
      Bool.false_eq_true, if_false, if_true, Option.map_eq_bind]
    rfl
  | true =>
    simp only [Bool.and_eq_true] at hretval
    rw [ConnectEnv.listing, if_pos ⟨hretval.1.1, hretval.1.2, hretval.2⟩] at h
    refine ⟨[.subscribe] ++ [.listUnits], ?_⟩
    simp only [connect, connectSubscribe_eq, hretval, Bool.and_self, connectList, h,
      Option.bind_eq_bind, Option.bind_some, if_true, Option.map_eq_bind]
    rfl

theorem connect_true {glib : GLib} (delivers : glib.Delivers) (env : ConnectEnv)
    (app_status_cb : Bool) (s next : State) (sent : List Output)
    (h : connect glib env app_status_cb s = some (true, next, sent)) :
    ∃ units, env.list_units = some units ∧ next = units.foldl State.listUnit s.connected := by
  cases hlisting : env.listing app_status_cb with
  | none =>
    obtain ⟨sent', hconnect⟩ := connect_unlisted glib hlisting s
    rw [hconnect, Option.map_eq_some_iff] at h
    obtain ⟨result, -, hresult⟩ := h
    exact absurd (congrArg Prod.fst hresult) Bool.false_ne_true
  | some units =>
    rw [connect_listed delivers.fitting hlisting] at h
    cases h
    rw [ConnectEnv.listing] at hlisting
    split at hlisting
    · exact ⟨units, hlisting, rfl⟩
    · contradiction

theorem connected_coherent : Coherent (State.connected {}) where
  cb := rfl
  conn := rfl
  listed _ ha := absurd ha List.not_mem_nil
  watched sub hsub a hhandler := by
    simp only [State.connected, List.mem_cons, List.not_mem_nil, or_false] at hsub
    rcases hsub with rfl | rfl <;> contradiction
  nodup := List.nodup_nil
  ids := by decide
  fresh_addr _ _ := rfl
  fresh_id := by decide

theorem mem_listed (s : State) (a : Addr) :
    a ∈ s.observed_units ++ [s.next_addr] ↔ a = s.next_addr ∨ a ∈ s.observed_units := by
  rw [List.mem_append, List.mem_singleton, or_comm]

theorem Coherent.nodup_listed {s : State} (coherent : Coherent s) :
    (s.observed_units ++ [s.next_addr]).Nodup :=
  (List.perm_append_singleton ..).nodup_iff.mpr coherent.nodup_cons

theorem listUnit_coherent {s : State} (coherent : Coherent s) (unit : ListedUnit) :
    Coherent (s.listUnit unit) := by
  unfold State.listUnit
  split
  · exact coherent.newUnit _ _ _ _ (mem_listed s) coherent.nodup_listed
  · exact coherent

theorem listUnits_coherent {s : State} (coherent : Coherent s) (units : List ListedUnit) :
    Coherent (units.foldl State.listUnit s) := by
  induction units generalizing s with
  | nil => exact coherent
  | cons unit units ih => exact ih (listUnit_coherent coherent unit)

def serviceA (active_state : CString) : ListedUnit :=
  ⟨CString.literal [97, 46, 115, 101, 114, 118, 105, 99, 101], active_state,
    CString.literal [47, 97]⟩

end NodeHealthMonitor.NhmSystemd
