import NodeHealthMonitor.Connection

/-! What `nhm_systemd_disconnect` ends: the subscriptions of the manager's signals and of
each listed unit. It needs the connection for all of them, and for `Unsubscribe`. -/

namespace NodeHealthMonitor.NhmSystemd
open DBus

structure Cleared (s next : State) : Prop where
  cb : next.app_status_cb = false
  conn : next.conn = false
  observed_units : next.observed_units = []
  unit_add_sig_id : next.unit_add_sig_id = 0
  unit_rem_sig_id : next.unit_rem_sig_id = 0
  subscriptions : ∀ sub ∈ next.subscriptions, sub ∈ s.subscriptions ∧
    (s.unit_add_sig_id ≠ 0 → sub.id ≠ s.unit_add_sig_id) ∧
    (s.unit_rem_sig_id ≠ 0 → sub.id ≠ s.unit_rem_sig_id) ∧
    ∀ a ∈ s.observed_units, ∀ unit, s.heap a = some unit → sub.id ≠ unit.sig_sub_id
  heap : ∀ a, next.heap a = none ∨ next.heap a = s.heap a
  next_addr : next.next_addr = s.next_addr
  next_id : next.next_id = s.next_id

/-- The calls of `nhm_systemd_disconnect` have a connection where they need one, and
its list holds each unit once. -/
structure Disconnectable (s : State) : Prop where
  conn : s.conn = false → s.events_subscribed = false ∧ s.unit_add_sig_id = 0 ∧
    s.unit_rem_sig_id = 0 ∧ s.observed_units = []
  listed : ∀ a ∈ s.observed_units, ∃ unit, s.heap a = some unit
  nodup : s.observed_units.Nodup

theorem unsubscribeManager_some (id : ℕ) {s : State} (h : id ≠ 0 → s.conn = true) :
    ∃ subs, unsubscribeManager id s = some { s with subscriptions := subs } ∧
      ∀ sub ∈ subs, sub ∈ s.subscriptions ∧ (id ≠ 0 → sub.id ≠ id) := by
  by_cases hid : id = 0
  · exact ⟨s.subscriptions, by simp [unsubscribeManager, hid],
      fun sub hsub => ⟨hsub, by simp [hid]⟩⟩
  · refine ⟨s.subscriptions.filter fun sub => sub.id ≠ id, ?_, fun sub hsub => ?_⟩
    · simp [unsubscribeManager, hid, signalUnsubscribe, h hid]
    · obtain ⟨hmem, hne⟩ := List.mem_filter.mp hsub
      exact ⟨hmem, fun _ => of_decide_eq_true hne⟩

theorem freeUnits_some (units : List Addr) {s : State} (hconn : units ≠ [] → s.conn = true)
    (hlive : ∀ a ∈ units, ∃ unit, s.heap a = some unit) (hnodup : units.Nodup) :
    ∃ subs heap, freeUnits units s = some { s with subscriptions := subs, heap := heap } ∧
      (∀ sub ∈ subs, sub ∈ s.subscriptions ∧
        ∀ a ∈ units, ∀ unit, s.heap a = some unit → sub.id ≠ unit.sig_sub_id) ∧
      ∀ a, heap a = none ∨ heap a = s.heap a := by
  induction units generalizing s with
  | nil =>
    exact ⟨s.subscriptions, s.heap, rfl, fun sub hsub => ⟨hsub, by simp⟩, fun a => Or.inr rfl⟩
  | cons addr units ih =>
    obtain ⟨hnot, hnodup⟩ := List.nodup_cons.mp hnodup
    obtain ⟨unit, hunit⟩ := hlive addr List.mem_cons_self
    have hconn := hconn (by simp)
    have hother : ∀ a ∈ units, Function.update s.heap addr none a = s.heap a := by
      intro a ha
      refine Function.update_of_ne ?_ _ _
      rintro rfl
      exact hnot ha
    obtain ⟨subs, heap, hrest, hsubs, hheap⟩ := @ih { s with
        subscriptions := s.subscriptions.filter fun sub => sub.id ≠ unit.sig_sub_id
        heap := Function.update s.heap addr none } (fun _ => hconn)
      (fun a ha => (hlive a (List.mem_cons_of_mem _ ha)).imp fun _ h => (hother a ha).trans h)
      hnodup
    refine ⟨subs, heap, ?_, fun sub hsub => ?_, fun a => ?_⟩
    · rw [freeUnits, freeUnit_eq hconn hunit, Option.bind_eq_bind, Option.bind_some, hrest]
    · obtain ⟨hmem, hrest⟩ := hsubs sub hsub
      obtain ⟨hmem, hne⟩ := List.mem_filter.mp hmem
      refine ⟨hmem, fun a ha other hother' => ?_⟩
      rcases List.mem_cons.mp ha with rfl | ha
      · rw [hunit] at hother'
        cases hother'
        exact of_decide_eq_true hne
      · exact hrest a ha other ((hother a ha).trans hother')
    · rcases hheap a with h | h
      · exact Or.inl h
      · by_cases ha : a = addr
        · subst ha
          exact Or.inl (h.trans (Function.update_self ..))
        · exact Or.inr (h.trans (Function.update_of_ne ha ..))

theorem disconnect_cleared (env : ConnectEnv) {s : State} (ready : Disconnectable s) :
    ∃ next, disconnect env s = some (next, if s.events_subscribed then [.unsubscribe] else []) ∧
      Cleared s next ∧ next.events_subscribed = (s.events_subscribed && !env.unsubscribe) := by
  have hconn : ∀ {p : Prop}, (s.conn = false → ¬p) → p → s.conn = true :=
    fun h hp => eq_true_of_ne_false fun hfalse => h hfalse hp
  have hcall : (if s.events_subscribed then
      if s.conn then some ({ s with
        app_status_cb := false, events_subscribed := !env.unsubscribe }, [Output.unsubscribe])
      else none
    else some ({ s with app_status_cb := false }, [])) = some ({ s with
      app_status_cb := false
      events_subscribed := s.events_subscribed && !env.unsubscribe },
      if s.events_subscribed then [.unsubscribe] else []) := by
    cases hsubscribed : s.events_subscribed with
    | false => simp
    | true => simp [hconn (fun h => by simp [(ready.conn h).1]) hsubscribed]
  obtain ⟨subs₁, hadd, hsubs₁⟩ := unsubscribeManager_some s.unit_add_sig_id (s := { s with
      app_status_cb := false
      events_subscribed := s.events_subscribed && !env.unsubscribe })
    (hconn fun h => not_not.mpr (ready.conn h).2.1)
  obtain ⟨subs₂, hrem, hsubs₂⟩ := unsubscribeManager_some s.unit_rem_sig_id (s := { s with
      app_status_cb := false
      events_subscribed := s.events_subscribed && !env.unsubscribe
      subscriptions := subs₁, unit_add_sig_id := 0 })
    (hconn fun h => not_not.mpr (ready.conn h).2.2.1)
  obtain ⟨subs, heap, hfree, hsubs, hheap⟩ := freeUnits_some s.observed_units (s := { s with
      app_status_cb := false
      events_subscribed := s.events_subscribed && !env.unsubscribe
      subscriptions := subs₂, unit_add_sig_id := 0, unit_rem_sig_id := 0 })
    (hconn fun h => not_not.mpr (ready.conn h).2.2.2) ready.listed ready.nodup
  refine ⟨{ s with
    app_status_cb := false, conn := false, observed_units := [], unit_add_sig_id := 0
    unit_rem_sig_id := 0, events_subscribed := s.events_subscribed && !env.unsubscribe
    subscriptions := subs, heap := heap }, ?_,
    ⟨rfl, rfl, rfl, rfl, rfl, fun sub hsub => ?_, hheap, rfl, rfl⟩, rfl⟩
  · simp only [disconnect, hcall, Option.bind_eq_bind, Option.bind_some, hadd, hrem, hfree]
  · obtain ⟨hmem, hunits⟩ := hsubs sub hsub
    obtain ⟨hmem, hne⟩ := hsubs₂ sub hmem
    obtain ⟨hmem, hne'⟩ := hsubs₁ sub hmem
    exact ⟨hmem, hne', hne, hunits⟩

end NodeHealthMonitor.NhmSystemd
