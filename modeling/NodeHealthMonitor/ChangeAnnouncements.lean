import NodeHealthMonitor.Connection

/-! `PropertiesChanged` announces a new ActiveState with its value, in the dictionary of
changed properties, or by its name in the list of invalidated ones. The handler looks
into the list only. -/

namespace NodeHealthMonitor.NhmSystemd
open DBus

def Announces (changed : List (CString × Value)) (invalidated : List CString)
    (active_state : CString) : Prop :=
  (activeStateProp, .string active_state) ∈ changed ∨ activeStateProp ∈ invalidated

def Silent (changed : List (CString × Value)) (invalidated : List CString) : Prop :=
  (∀ value, (activeStateProp, value) ∉ changed) ∧ activeStateProp ∉ invalidated

/-- The handler leaves the unit with the new state, and has called the callback exactly
if the state is another one and the table says so. -/
def TakesOver (glib : GLib) (parameters : Body) (active_state : CString) (addr : Addr)
    (unit : NhmSystemdUnit) (s : State) : Prop :=
  let new_state := activeStateStringToEnum active_state
  let status_change := activeStateMap unit.active_state new_state
  ∃ next sent, unitPropertiesChanged glib parameters (some (.string active_state)) addr s =
      some (next, sent) ∧
    next.heap addr = some { unit with active_state := new_state } ∧
    sent.filterMap Output.report? =
      if unit.active_state ≠ new_state ∧ status_change.do_callback = true then
        [(unit.name, status_change.next_status)]
      else []

section
variable {glib : GLib} (delivers : glib.Delivers) {s : State} (usable : Usable s) {addr : Addr}
  {unit : NhmSystemdUnit} (hunit : s.heap addr = some unit)
include delivers

theorem unitPropertiesChanged_notInvalidated (iface : CString)
    (changed : List (CString × Value)) {invalidated : List CString}
    (h : activeStateProp ∉ invalidated) (reply : Option Value) (addr : Addr) (s : State) :
    unitPropertiesChanged glib (.propertiesChanged iface changed invalidated) reply addr s =
      some (s, []) := by
  have hsearch : NhmHelper.strInStrv activeStateProp (some invalidated) = true ↔
      activeStateProp ∈ invalidated := NhmHelper.search_iff _ _
  simp [unitPropertiesChanged, unitPropertiesChangedRead, delivers.invalidated, mt hsearch.mp h]

include usable hunit

theorem unitPropertiesChanged_invalidated {path : CString} (hpath : unit.path = .string path)
    (iface : CString) (changed : List (CString × Value)) {invalidated : List CString}
    (h : activeStateProp ∈ invalidated) (reply : Option Value) :
    ∃ next sent, unitPropertiesChanged glib (.propertiesChanged iface changed invalidated) reply
        addr s = some (next, sent) ∧ Usable next ∧
      next.heap addr = some { unit with active_state := readState reply } ∧
      sent.filterMap Output.report? =
        if unit.active_state ≠ readState reply ∧
            (activeStateMap unit.active_state (readState reply)).do_callback = true then
          [(unit.name, (activeStateMap unit.active_state (readState reply)).next_status)]
        else [] := by
  obtain ⟨sent, hstep, hreport⟩ := unitPropertiesChanged_performs delivers usable addr
    ⟨unit, path, hunit, hpath⟩ (.propertiesChanged iface changed invalidated) reply
  by_cases hsame : unit.active_state = readState reply
  · have hstay : announced (.unitPropertiesChanged addr)
        (.propertiesChanged iface changed invalidated) reply s = .stay := by
      simp [announced, hunit, hsame]
    rw [hstay] at hstep hreport
    refine ⟨s, sent, hstep, usable, ?_, ?_⟩
    · rw [hunit, ← hsame]
    · rw [hreport, if_neg fun hchange => hchange.1 hsame]
      rfl
  · have hmove : announced (.unitPropertiesChanged addr)
        (.propertiesChanged iface changed invalidated) reply s =
          .changed addr (readState reply) := by
      simp [announced, h, hunit, hsame]
    rw [hmove] at hstep hreport
    refine ⟨_, sent, hstep, usable.changed hunit _, changed_heap_self hunit _, ?_⟩
    rw [hreport]
    simp only [Move.report, hunit, Option.bind_eq_bind, Option.bind_some, ne_eq, hsame,
      not_false_eq_true, true_and]
    split <;> rfl

theorem takesOver_invalidated {path : CString} (hpath : unit.path = .string path)
    (iface : CString) (changed : List (CString × Value)) {invalidated : List CString}
    (h : activeStateProp ∈ invalidated) (active_state : CString) :
    TakesOver glib (.propertiesChanged iface changed invalidated) active_state addr unit s := by
  obtain ⟨next, sent, hstep, -, hstate, hreport⟩ := unitPropertiesChanged_invalidated delivers
    usable hunit hpath iface changed h (some (.string active_state))
  exact ⟨next, sent, hstep, hstate, hreport⟩

/-- An announced state is taken over exactly if its announcement invalidates it, or if the
unit is recorded in it already. Signals about other properties are ignored. -/
theorem takesOver_iff {path : CString} (hpath : unit.path = .string path) (iface : CString)
    (changed : List (CString × Value)) (invalidated : List CString) :
    (∀ active_state, Announces changed invalidated active_state →
      (TakesOver glib (.propertiesChanged iface changed invalidated) active_state addr unit s ↔
        activeStateProp ∈ invalidated ∨
          unit.active_state = activeStateStringToEnum active_state)) ∧
    (Silent changed invalidated → ∀ reply,
      unitPropertiesChanged glib (.propertiesChanged iface changed invalidated) reply addr s =
        some (s, [])) := by
  refine ⟨fun active_state _ => ⟨fun htaken => ?_, fun h => ?_⟩, fun hsilent reply => ?_⟩
  · by_contra hno
    rw [not_or] at hno
    obtain ⟨next, sent, hstep, hstate, -⟩ := htaken
    rw [unitPropertiesChanged_notInvalidated delivers iface changed hno.1] at hstep
    obtain ⟨rfl, -⟩ : s = next ∧ _ := by simpa using hstep
    rw [hunit] at hstate
    exact hno.2 (congrArg NhmSystemdUnit.active_state (Option.some.inj hstate))
  · by_cases hprop : activeStateProp ∈ invalidated
    · exact takesOver_invalidated delivers usable hunit hpath iface changed hprop active_state
    · have hsame := h.resolve_left hprop
      refine ⟨s, [], ?_, ?_, ?_⟩
      · exact unitPropertiesChanged_notInvalidated delivers iface changed hprop _ _ _
      · rw [← hsame, hunit]
      · rw [if_neg fun hchange => hchange.1 hsame]
        rfl
  · exact unitPropertiesChanged_notInvalidated delivers iface changed hsilent.2 reply addr s

end

def activeA : State := State.listUnit (State.connected {}) (serviceA strActive)

theorem takesOver_iff_activeA :
    TakesOver handingOver (.propertiesChanged CString.empty [] [activeStateProp]) strFailed 0
      ⟨(serviceA strActive).name, .string (serviceA strActive).path, .active, 3⟩ activeA :=
  ((takesOver_iff handingOver_delivers (listUnit_coherent connected_coherent _).usable rfl rfl
    CString.empty [] [activeStateProp]).1 strFailed (Or.inr List.mem_cons_self)).mpr
      (Or.inl List.mem_cons_self)

theorem not_takesOver_changed :
    Announces [(activeStateProp, .string strFailed)] [] strFailed ∧
    ∀ unit, activeA.heap 0 = some unit → ¬TakesOver handingOver
      (.propertiesChanged CString.empty [(activeStateProp, .string strFailed)] []) strFailed 0
      unit activeA := by
  refine ⟨Or.inl List.mem_cons_self, ?_⟩
  rintro unit hunit ⟨next, sent, hstep, hstate, -⟩
  rw [unitPropertiesChanged_notInvalidated handingOver_delivers _ _ List.not_mem_nil] at hstep
  obtain ⟨rfl, -⟩ : activeA = next ∧ _ := by simpa using hstep
  have hactive : activeA.heap 0 = some
    ⟨(serviceA strActive).name, .string (serviceA strActive).path, .active, 3⟩ := rfl
  rw [hactive] at hunit hstate
  have hkept : NhmActiveState.active = activeStateStringToEnum strFailed :=
    congrArg NhmSystemdUnit.active_state (Option.some.inj hstate)
  exact absurd hkept (by decide)

end NodeHealthMonitor.NhmSystemd
