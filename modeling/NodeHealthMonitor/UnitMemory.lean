import NodeHealthMonitor.SystemdSession

/-! The memory of the systemd module. A unit is created where it is put on the list of
observed units and freed where it is taken from it, so that whatever happens in between, the
module has no other memory than that of the listed units. -/

namespace NodeHealthMonitor.SystemdSession
open DBus NhmSystemd

def Listed (s : State) : Prop := ∀ a unit, s.heap a = some unit → a ∈ s.observed_units

theorem Listed.empty {s : State} (listed : Listed s) (hunits : s.observed_units = []) (a : Addr) :
    s.heap a = none := by
  cases hunit : s.heap a with
  | none => rfl
  | some unit =>
    have hmem := listed a unit hunit
    rw [hunits] at hmem
    exact absurd hmem List.not_mem_nil

theorem listed_newUnit {s : State} (listed : Listed s) (name path : CString)
    (state : NhmActiveState) {units : List Addr}
    (hunits : ∀ a, a ∈ units ↔ a = s.next_addr ∨ a ∈ s.observed_units) :
    Listed (s.newUnit name path state units) := by
  intro a unit h
  refine (hunits a).mpr ?_
  by_cases ha : a = s.next_addr
  · exact Or.inl ha
  · rw [newUnit_heap_of_ne _ _ _ _ _ ha] at h
    exact Or.inr (listed a unit h)

theorem listed_listUnits {s : State} (listed : Listed s) (units : List ListedUnit) :
    Listed (units.foldl State.listUnit s) := by
  induction units generalizing s with
  | nil => exact listed
  | cons unit units ih =>
    rw [List.foldl_cons, State.listUnit]
    split
    · exact ih (listed_newUnit listed _ _ _ (mem_listed s))
    · exact ih listed

theorem listed_removed {s : State} (listed : Listed s) (hnodup : s.observed_units.Nodup)
    {addr : Addr} {unit : NhmSystemdUnit} (hunit : s.heap addr = some unit) :
    Listed ((Move.removed addr).apply s) := by
  rw [removed_apply hunit]
  intro a other h
  dsimp only at h
  have ha : a ≠ addr := by
    rintro rfl
    rw [Function.update_self] at h
    contradiction
  rw [Function.update_of_ne ha] at h
  exact (hnodup.mem_erase_iff).mpr ⟨ha, listed a other h⟩

theorem listed_changed {s : State} (listed : Listed s) {addr : Addr} {unit : NhmSystemdUnit}
    (hunit : s.heap addr = some unit) (state : NhmActiveState) :
    Listed ((Move.changed addr state).apply s) := by
  rw [changed_apply hunit]
  intro a other h
  dsimp only at h
  by_cases ha : a = addr
  · exact ha ▸ listed addr unit hunit
  · rw [Function.update_of_ne ha] at h
    exact listed a other h

theorem listed_apply {s : State} (listed : Listed s) (hnodup : s.observed_units.Nodup)
    (move : Move) : Listed (move.apply s) := by
  cases move with
  | stay => exact listed
  | added name path state => exact listed_newUnit listed name path state fun a => List.mem_cons
  | removed addr =>
    cases hunit : s.heap addr with
    | none =>
      rw [Move.apply, hunit]
      exact listed
    | some unit => exact listed_removed listed hnodup hunit
  | changed addr state =>
    cases hunit : s.heap addr with
    | none =>
      rw [Move.apply, hunit]
      exact listed
    | some unit => exact listed_changed listed hunit state

theorem freeUnit_frees {addr : Addr} {s next : State} (h : freeUnit addr s = some next) :
    next.heap = Function.update s.heap addr none := by
  simp only [freeUnit, signalUnsubscribe, Option.bind_eq_bind, Option.bind_eq_some_iff] at h
  obtain ⟨unit, -, mid, hmid, hnext⟩ := h
  split at hmid
  · cases hmid
    cases hnext
    rfl
  · contradiction

theorem freeUnits_frees (units : List Addr) {s next : State} (h : freeUnits units s = some next)
    (a : Addr) : next.heap a = if a ∈ units then none else s.heap a := by
  induction units generalizing s with
  | nil =>
    cases h
    rfl
  | cons addr units ih =>
    simp only [freeUnits, Option.bind_eq_bind, Option.bind_eq_some_iff] at h
    obtain ⟨mid, hmid, hnext⟩ := h
    rw [ih hnext, freeUnit_frees hmid]
    by_cases ha : a = addr
    · simp [ha]
    · simp [ha]

theorem unsubscribeManager_frame {id : ℕ} {s next : State}
    (h : unsubscribeManager id s = some next) :
    next.heap = s.heap ∧ next.observed_units = s.observed_units := by
  unfold unsubscribeManager signalUnsubscribe at h
  split at h
  · split at h
    · cases h
      exact ⟨rfl, rfl⟩
    · contradiction
  · cases h
    exact ⟨rfl, rfl⟩

theorem disconnect_frees {env : ConnectEnv} {s next : State} {sent : List Output}
    (h : NhmSystemd.disconnect env s = some (next, sent)) (listed : Listed s) :
    ∀ a, next.heap a = none := by
  simp only [NhmSystemd.disconnect, Option.bind_eq_bind, Option.bind_eq_some_iff] at h
  obtain ⟨⟨called, sent'⟩, hcalled, added, hadded, removed, hremoved, freed, hfreed, hnext⟩ := h
  cases hnext
  have hsame : called.heap = s.heap ∧ called.observed_units = s.observed_units := by
    split at hcalled
    · split at hcalled
      · cases hcalled
        exact ⟨rfl, rfl⟩
      · contradiction
    · cases hcalled
      exact ⟨rfl, rfl⟩
  obtain ⟨haddedHeap, haddedUnits⟩ := unsubscribeManager_frame hadded
  obtain ⟨hremovedHeap, hremovedUnits⟩ := unsubscribeManager_frame hremoved
  have hheap : removed.heap = s.heap := hremovedHeap.trans (haddedHeap.trans hsame.1)
  have hunits : removed.observed_units = s.observed_units :=
    hremovedUnits.trans (haddedUnits.trans hsame.2)
  intro a
  have hfree := freeUnits_frees removed.observed_units hfreed a
  rw [hunits] at hfree
  change freed.heap a = none
  rw [hfree]
  split
  · rfl
  · rename_i hnot
    change removed.heap a = none
    rw [hheap]
    cases hunit : s.heap a with
    | none => rfl
    | some unit => exact absurd (listed a unit hunit) hnot

theorem disconnectAny_frees {env : ConnectEnv} {s next : State}
    (h : disconnectAny env s = some next) (listed : Listed s) : ∀ a, next.heap a = none := by
  unfold disconnectAny at h
  split at h
  · simp only [Option.bind_eq_bind, Option.bind_eq_some_iff] at h
    obtain ⟨⟨freed, sent⟩, hfreed, hnext⟩ := h
    cases hnext
    have hnone : ∀ a, freed.heap a = none := disconnect_frees hfreed listed
    exact hnone
  · simp only [Option.bind_eq_bind, Option.bind_eq_some_iff] at h
    obtain ⟨⟨freed, sent⟩, hfreed, hnext⟩ := h
    cases hnext
    exact disconnect_frees hfreed listed

theorem listed_of_empty {s : State} (h : ∀ a, s.heap a = none) : Listed s := by
  intro a unit hunit
  rw [h a] at hunit
  contradiction

theorem listed_connect {glib : GLib} (delivers : glib.Delivers) {env : ConnectEnv}
    {app_status_cb retval : Bool} {s next : State} {sent : List Output}
    (hempty : ∀ a, s.heap a = none)
    (h : connect glib env app_status_cb s = some (retval, next, sent)) : Listed next := by
  cases hlisting : env.listing app_status_cb with
  | some units =>
    rw [connect_listed delivers.fitting hlisting s] at h
    cases h
    exact listed_listUnits (listed_of_empty (s := s.connected) hempty) units
  | none =>
    obtain ⟨sent', hconnect⟩ := connect_unlisted glib hlisting s
    rw [hconnect, Option.map_eq_some_iff] at h
    obtain ⟨⟨freed, sent''⟩, hdisconnect, hnext⟩ := h
    cases hnext
    have hheap : (s.unlisted env app_status_cb).heap = s.heap := by
      unfold State.unlisted
      split <;> rfl
    refine listed_of_empty (disconnect_frees hdisconnect (listed_of_empty fun a => ?_))
    rw [hheap]
    exact hempty a

structure Owning (session : Session) : Prop where
  kept : Kept session
  listed : Listed session.systemd

theorem Owning.step {glib : GLib} (delivers : glib.Delivers) {session : Session}
    (owning : Owning session) (event : Event) (called : Called session event) :
    ∃ next, step glib session event = some next ∧ Owning next := by
  obtain ⟨next, hstep, kept⟩ := step_kept delivers owning.kept event called
  refine ⟨next, hstep, kept, ?_⟩
  simp only [SystemdSession.step, Option.bind_eq_bind, Option.bind_eq_some_iff] at hstep
  obtain ⟨systemd, hmodule, hnext⟩ := hstep
  cases hnext
  cases event with
  | connect env app_status_cb =>
    simp only [stepModule, Option.bind_eq_bind, Option.bind_eq_some_iff] at hmodule
    obtain ⟨⟨retval, s, sent⟩, hconnect, hnext⟩ := hmodule
    cases hnext
    have idle : Disconnected session.systemd := by
      refine owning.kept.systemd.resolve_left fun connected => ?_
      exact Bool.noConfusion (called.1.symm.trans connected.coherent.conn)
    exact listed_connect delivers (owning.listed.empty idle.observed_units) hconnect
  | signal message =>
    simp only [stepModule, Option.bind_eq_bind, Option.bind_eq_some_iff] at hmodule
    obtain ⟨⟨s, sent⟩, hdispatch, hnext⟩ := hmodule
    cases hnext
    rcases owning.kept.systemd with connected | idle
    · obtain ⟨sent', happly, -⟩ := dispatch_performs delivers connected.coherent.usable message
      rw [happly] at hdispatch
      cases hdispatch
      exact listed_apply owning.listed connected.coherent.nodup _
    · rw [dispatch, idle.subscriptions] at hdispatch
      cases hdispatch
      exact owning.listed
  | disconnect env => exact listed_of_empty (disconnectAny_frees hmodule owning.listed)

/-- In every state reached, the units in memory are exactly the observed ones; none is left
once the module is disconnected. -/
theorem unitMemory_run {glib : GLib} (delivers : glib.Delivers) (events : List Event)
    (called : Transition.AllSteps (SystemdSession.step glib) Called {} events) :
    ∃ last, Transition.run (SystemdSession.step glib) {} events = some last ∧
      (∀ a, (∃ unit, last.systemd.heap a = some unit) ↔ a ∈ last.systemd.observed_units) ∧
      (last.systemd.conn = false → ∀ a, last.systemd.heap a = none) := by
  have start : Owning {} :=
    ⟨⟨Or.inr disconnected_start, fun h => Bool.noConfusion h⟩, listed_of_empty fun _ => rfl⟩
  obtain ⟨last, hrun, owning⟩ := Transition.run_invariant (SystemdSession.step glib) Owning Called
    (fun session event owning called => owning.step delivers event called) events {} start called
  refine ⟨last, hrun, fun a => ⟨fun ⟨unit, h⟩ => owning.listed a unit h, fun ha => ?_⟩,
    fun hconn => ?_⟩
  · rcases owning.kept.systemd with connected | idle
    · obtain ⟨unit, -, hunit, -⟩ := connected.coherent.listed a ha
      exact ⟨unit, hunit⟩
    · rw [idle.observed_units] at ha
      exact absurd ha List.not_mem_nil
  · rcases owning.kept.systemd with connected | idle
    · exact Bool.noConfusion (hconn.symm.trans connected.coherent.conn)
    · exact owning.listed.empty idle.observed_units

theorem unitMemory_run_sessionA : ∃ last,
    Transition.run (SystemdSession.step handingOver) {} sessionA = some last ∧
      (∀ a, (∃ unit, last.systemd.heap a = some unit) ↔ a ∈ last.systemd.observed_units) ∧
      (last.systemd.conn = false → ∀ a, last.systemd.heap a = none) :=
  unitMemory_run handingOver_delivers sessionA
    ⟨⟨rfl, fun _ h => Option.some.inj h ▸ List.nodup_singleton _⟩, fun _ _ => ⟨trivial, fun _ _ =>
      ⟨trivial, fun _ _ => ⟨trivial, fun _ _ => ⟨trivial, fun _ _ => trivial⟩⟩⟩⟩⟩

end NodeHealthMonitor.SystemdSession
