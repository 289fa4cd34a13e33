import NodeHealthMonitor.UnitMoves

/-! What a handled signal can do at most, in any state and whatever GLib makes of its
parameters: one change of the variables and the heap, and one call of the callback. -/

namespace NodeHealthMonitor.SystemdSession
open DBus NhmSystemd

/-- All that a handled signal can do to the variables and the heap. -/
inductive Handled (s : State) : State → Prop where
  | stays : Handled s s
  | adds (unit : NhmSystemdUnit) (subs : List Subscription) (hconn : s.conn = true) :
      Handled s { s with
        subscriptions := subs, next_id := s.next_id + 1
        heap := Function.update s.heap s.next_addr (some unit)
        next_addr := s.next_addr + 1, observed_units := s.next_addr :: s.observed_units }
  | removes (addr : Addr) (subs : List Subscription) (hconn : s.conn = true) :
      Handled s { s with
        subscriptions := subs, heap := Function.update s.heap addr none
        observed_units := s.observed_units.erase addr }
  | changes (addr : Addr) (old new : NhmSystemdUnit) (hold : s.heap addr = some old) :
      Handled s { s with heap := Function.update s.heap addr (some new) }

def AtMostOneReport (sent : List Output) : Prop :=
  sent.filterMap Output.report? = [] ∨ ∃ name status,
    sent.filterMap Output.report? = [(name, status)] ∧ .appStatus name status ∈ sent

section
variable {glib : GLib} {s next : State} {sent : List Output}

theorem unitGetActiveState_silent {path : StrPtr} {reply : Option Value} {state : NhmActiveState}
    (h : unitGetActiveState glib path reply s = some (state, sent)) :
    sent.filterMap Output.report? = [] := by
  unfold unitGetActiveState at h
  split at h
  · cases reply with
    | none =>
      cases h
      rfl
    | some value =>
      simp only [Option.bind_eq_bind, Option.bind_eq_some_iff] at h
      obtain ⟨state', -, hsent⟩ := h
      cases hsent
      rfl
  · contradiction

theorem unitAddedSubscribe_handled {name : CString} {path : StrPtr} {state : NhmActiveState}
    (h : unitAddedSubscribe name path state s = some next) : Handled s next := by
  simp only [unitAddedSubscribe, Option.bind_eq_bind, Option.bind_eq_some_iff] at h
  obtain ⟨⟨sig_sub_id, s₁⟩, hsubscribe, hnext⟩ := h
  cases hnext
  have hsignal : ∃ path, signalSubscribe path (.unitPropertiesChanged s.next_addr) s =
      some (sig_sub_id, s₁) := by
    cases path with
    | indeterminate => contradiction
    | null => exact ⟨none, hsubscribe⟩
    | string path => exact ⟨some path, hsubscribe⟩
  obtain ⟨path', hsignal⟩ := hsignal
  rw [signalSubscribe, Option.ite_none_right_eq_some] at hsignal
  obtain ⟨hconn, hs₁⟩ := hsignal
  cases hs₁
  exact .adds _ _ hconn

theorem unitAdded_handled {parameters : Body} {reply : Option Value}
    (h : unitAdded glib parameters reply s = some (next, sent)) :
    Handled s next ∧ sent.filterMap Output.report? = [] := by
  rw [unitAdded, Option.bind_eq_bind, Option.bind_eq_some_iff] at h
  obtain ⟨check, -, h⟩ := h
  cases check with
  | none =>
    cases h
    exact ⟨.stays, rfl⟩
  | some unit =>
    simp only [Option.bind_eq_bind, Option.bind_eq_some_iff] at h
    obtain ⟨⟨active_state, sent'⟩, hget, s', hsubscribe, hnext⟩ := h
    cases hnext
    exact ⟨unitAddedSubscribe_handled hsubscribe, unitGetActiveState_silent hget⟩

theorem unitRemoved_handled {parameters : Body}
    (h : unitRemoved glib parameters s = some (next, sent)) : Handled s next ∧ sent = [] := by
  unfold unitRemoved at h
  split at h
  · split at h
    · contradiction
    · cases h
      exact ⟨.stays, rfl⟩
    · split at h
      · simp only [Option.bind_eq_bind, Option.bind_eq_some_iff] at h
        obtain ⟨list_item, -, h⟩ := h
        cases list_item with
        | none =>
          cases h
          exact ⟨.stays, rfl⟩
        | some addr =>
          simp only [freeUnit, signalUnsubscribe, Option.bind_eq_bind, Option.bind_eq_some_iff,
            Option.ite_none_right_eq_some] at h
          obtain ⟨s₁, ⟨unit, -, s₂, ⟨hconn, hs₂⟩, hs₁⟩, hnext⟩ := h
          cases hs₂
          cases hs₁
          cases hnext
          exact ⟨.removes addr _ hconn, rfl⟩
      · cases h
        exact ⟨.stays, rfl⟩
  · cases h
    exact ⟨.stays, rfl⟩

theorem unitUpdate_handled {addr : Addr} {active_state : NhmActiveState}
    (h : unitUpdate addr active_state s = some (next, sent)) :
    Handled s next ∧ (sent = [] ∨ ∃ name status, sent = [.appStatus name status]) := by
  simp only [unitUpdate, Option.bind_eq_bind, Option.bind_eq_some_iff] at h
  obtain ⟨unit, hunit, h⟩ := h
  split at h
  · simp only [unitActiveStateChanged, Option.bind_eq_bind, Option.bind_eq_some_iff] at h
    obtain ⟨unit', -, h⟩ := h
    split at h
    · rw [Option.ite_none_right_eq_some] at h
      cases h.2
      exact ⟨.changes addr unit _ hunit, Or.inr ⟨_, _, rfl⟩⟩
    · cases h
      exact ⟨.changes addr unit _ hunit, Or.inl rfl⟩
  · cases h
    exact ⟨.stays, Or.inl rfl⟩

theorem unitPropertiesChangedRead_silent {parameters : Body} {reply : Option Value} {addr : Addr}
    {read : Option NhmActiveState}
    (h : unitPropertiesChangedRead glib parameters reply addr s = some (read, sent)) :
    sent.filterMap Output.report? = [] := by
  unfold unitPropertiesChangedRead at h
  split at h
  · split at h
    · simp only [Option.bind_eq_bind, Option.bind_eq_some_iff] at h
      obtain ⟨unit, -, ⟨active_state, sent'⟩, hget, hsent⟩ := h
      cases hsent
      exact unitGetActiveState_silent hget
    · cases h
      rfl
  · cases h
    rfl

theorem unitPropertiesChanged_handled {parameters : Body} {reply : Option Value} {addr : Addr}
    (h : unitPropertiesChanged glib parameters reply addr s = some (next, sent)) :
    Handled s next ∧ AtMostOneReport sent := by
  rw [unitPropertiesChanged, Option.bind_eq_bind, Option.bind_eq_some_iff] at h
  obtain ⟨⟨read, sent₁⟩, hread, h⟩ := h
  have hsilent := unitPropertiesChangedRead_silent hread
  cases read with
  | none =>
    cases h
    exact ⟨.stays, Or.inl hsilent⟩
  | some active_state =>
    simp only [Option.bind_eq_bind, Option.bind_eq_some_iff] at h
    obtain ⟨⟨s', called⟩, hupdate, hnext⟩ := h
    cases hnext
    obtain ⟨hhandled, hcalled⟩ := unitUpdate_handled hupdate
    refine ⟨hhandled, ?_⟩
    rw [AtMostOneReport, List.filterMap_append, hsilent, List.nil_append]
    rcases hcalled with rfl | ⟨name, status, rfl⟩
    · exact Or.inl rfl
    · exact Or.inr ⟨name, status, rfl, List.mem_append_right _ List.mem_cons_self⟩

theorem dispatch_handled {message : Signal} (h : dispatch glib message s = some (next, sent)) :
    Handled s next ∧ AtMostOneReport sent := by
  unfold dispatch at h
  split at h
  · cases h
    exact ⟨.stays, Or.inl rfl⟩
  · split at h
    · obtain ⟨hhandled, hsilent⟩ := unitAdded_handled h
      exact ⟨hhandled, Or.inl hsilent⟩
    · obtain ⟨hhandled, rfl⟩ := unitRemoved_handled h
      exact ⟨hhandled, Or.inl rfl⟩
    · exact unitPropertiesChanged_handled h

end

end NodeHealthMonitor.SystemdSession
