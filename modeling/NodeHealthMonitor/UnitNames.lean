import NodeHealthMonitor.Connection

/-! The names of the observed units. A move adds a name that was not there, takes one
away with its unit, or keeps the names; only the answer to `ListUnits` can bring a name
twice. -/

namespace NodeHealthMonitor.NhmSystemd
open DBus

def Named (s : State) (name : CString) (a : Addr) : Prop :=
  a ∈ s.observed_units ∧ ∃ unit, s.heap a = some unit ∧ unit.name = name

def OneUnit (s : State) (name : CString) : Prop :=
  ∀ a b, Named s name a → Named s name b → a = b

theorem named_newUnit {s : State} {name path : CString} {state : NhmActiveState}
    {units : List Addr} (hunits : ∀ a, a ∈ units ↔ a = s.next_addr ∨ a ∈ s.observed_units)
    {name' : CString} {a : Addr} (h : Named (s.newUnit name path state units) name' a) :
    Named s name' a ∨ a = s.next_addr ∧ name = name' := by
  obtain ⟨ha, unit, hunit, hname⟩ := h
  rcases observed_newUnit hunits ha hunit with ⟨rfl, rfl⟩ | ⟨-, ha, hunit⟩
  · exact Or.inr ⟨rfl, hname⟩
  · exact Or.inl ⟨ha, unit, hunit, hname⟩

theorem not_named_of_unitNamed {s : State} {name : CString}
    (h : s.unitNamed name = none) (a : Addr) : ¬Named s name a := by
  rintro ⟨ha, unit, hunit, rfl⟩
  have hnot := List.find?_eq_none.mp h a ha
  simp [State.nameIs, hunit] at hnot

theorem oneUnit_newUnit {s : State} {name path : CString} {state : NhmActiveState}
    {units : List Addr} (hunits : ∀ a, a ∈ units ↔ a = s.next_addr ∨ a ∈ s.observed_units)
    {name' : CString} (one : OneUnit s name') (hnew : name = name' → ∀ a, ¬Named s name' a) :
    OneUnit (s.newUnit name path state units) name' := by
  intro a b ha hb
  rcases named_newUnit hunits ha with ha | ⟨rfl, hname⟩ <;>
    rcases named_newUnit hunits hb with hb | ⟨rfl, hname'⟩
  · exact one a b ha hb
  · exact absurd ha (hnew hname' a)
  · exact absurd hb (hnew hname b)
  · rfl

theorem named_removed {s : State} {addr : Addr} {name : CString} {a : Addr}
    {old : NhmSystemdUnit} (hold : s.heap addr = some old)
    (h : Named ((Move.removed addr).apply s) name a) : Named s name a := by
  obtain ⟨ha, unit, hunit, hname⟩ := h
  obtain ⟨-, ha, hunit⟩ := observed_removed hold ha hunit
  exact ⟨ha, unit, hunit, hname⟩

theorem named_changed {s : State} {addr : Addr} (haddr : addr ∈ s.observed_units)
    {state : NhmActiveState} {name : CString} {a : Addr} {old : NhmSystemdUnit}
    (hold : s.heap addr = some old) (h : Named ((Move.changed addr state).apply s) name a) :
    Named s name a := by
  obtain ⟨ha, unit, hunit, hname⟩ := h
  rcases observed_changed hold ha hunit with ⟨rfl, rfl⟩ | ⟨-, ha, hunit⟩
  · exact ⟨haddr, old, hold, hname⟩
  · exact ⟨ha, unit, hunit, hname⟩

theorem oneUnit_apply {s : State} (coherent : Coherent s) {move : Move}
    (valid : move.Valid s) {name : CString} (one : OneUnit s name) :
    OneUnit (move.apply s) name := by
  cases move with
  | stay => exact one
  | added name' path state =>
    refine oneUnit_newUnit (fun a => List.mem_cons) one ?_
    rintro rfl a
    exact not_named_of_unitNamed valid.2 a
  | removed addr =>
    obtain ⟨unit, -, hunit, -⟩ := coherent.listed addr valid
    intro a b ha hb
    exact one a b (named_removed hunit ha) (named_removed hunit hb)
  | changed addr state =>
    obtain ⟨haddr, unit, hunit, -⟩ := valid
    intro a b ha hb
    exact one a b (named_changed haddr hunit ha) (named_changed haddr hunit hb)

theorem oneUnit_listUnits (units : List ListedUnit) (name : CString) {s : State}
    (one : OneUnit s name) (hnew : name ∈ units.map (·.name) → ∀ a, ¬Named s name a)
    (hcount : (units.map (·.name)).count name ≤ 1) :
    OneUnit (units.foldl State.listUnit s) name := by
  induction units generalizing s with
  | nil => exact one
  | cons unit units ih =>
    rw [List.map_cons] at hnew hcount
    have hcount' := List.count_le_count_cons.trans hcount
    refine ih ?_ ?_ hcount'
    · unfold State.listUnit
      split
      · refine oneUnit_newUnit (mem_listed s) one fun hname => hnew ?_
        exact hname ▸ List.mem_cons_self
      · exact one
    · intro hmem a ha
      have hold := hnew (List.mem_cons_of_mem _ hmem)
      unfold State.listUnit at ha
      split at ha
      · rcases named_newUnit (mem_listed s) ha with ha | ⟨-, rfl⟩
        · exact hold a ha
        · have := List.count_pos_iff.mpr hmem
          rw [List.count_cons_self] at hcount
          omega
      · exact hold a ha

def Present (s : State) (name : CString) : Prop := ∃ a, Named s name a

theorem not_present_of_no_units {s : State} (h : s.observed_units = []) (name : CString) :
    ¬Present s name := by
  rintro ⟨a, hmem, -⟩
  rw [h] at hmem
  exact List.not_mem_nil hmem

theorem not_present_of_unitNamed {s : State} {name : CString} (h : s.unitNamed name = none) :
    ¬Present s name := by
  rintro ⟨a, hnamed⟩
  exact not_named_of_unitNamed h a hnamed

theorem present_newUnit {s : State} (coherent : Coherent s) {name path : CString}
    {state : NhmActiveState} {units : List Addr}
    (hunits : ∀ a, a ∈ units ↔ a = s.next_addr ∨ a ∈ s.observed_units) (name' : CString) :
    Present (s.newUnit name path state units) name' ↔ name = name' ∨ Present s name' := by
  constructor
  · rintro ⟨a, ha⟩
    rcases named_newUnit hunits ha with ha | ⟨-, hname⟩
    · exact Or.inr ⟨a, ha⟩
    · exact Or.inl hname
  · rintro (rfl | ⟨a, ha, unit, hunit, hname⟩)
    · exact ⟨s.next_addr, (hunits _).mpr (Or.inl rfl), _, newUnit_heap_self .., rfl⟩
    · refine ⟨a, (hunits a).mpr (Or.inr ha), unit, ?_, hname⟩
      rw [newUnit_heap_of_ne s name path state units (Nat.ne_of_lt (coherent.observed_lt a ha)),
        hunit]

theorem present_removed {s : State} (coherent : Coherent s) (one : ∀ name, OneUnit s name)
    {addr : Addr} {name : CString} (haddr : Named s name addr) (name' : CString) :
    Present ((Move.removed addr).apply s) name' ↔ name ≠ name' ∧ Present s name' := by
  obtain ⟨hmem, old, hold, hname⟩ := haddr
  constructor
  · rintro ⟨a, ha, unit, hunit, hname'⟩
    obtain ⟨hne, ha, hunit⟩ := observed_removed hold ha hunit
    refine ⟨?_, a, ha, unit, hunit, hname'⟩
    rintro rfl
    exact hne (one name a addr ⟨ha, unit, hunit, hname'⟩ ⟨hmem, old, hold, hname⟩)
  · rintro ⟨hne, a, ha, unit, hunit, hname'⟩
    have haddr : a ≠ addr := by
      rintro rfl
      rw [hold] at hunit
      cases hunit
      exact hne (hname.symm.trans hname')
    refine ⟨a, ?_, unit, (removed_heap_of_ne hold haddr).trans hunit, hname'⟩
    rw [removed_apply hold]
    exact coherent.nodup.mem_erase_iff.mpr ⟨haddr, ha⟩

theorem present_changed {s : State} {addr : Addr} (haddr : addr ∈ s.observed_units)
    {old : NhmSystemdUnit} (hold : s.heap addr = some old) (state : NhmActiveState)
    (name : CString) : Present ((Move.changed addr state).apply s) name ↔ Present s name := by
  constructor
  · rintro ⟨a, ha⟩
    exact ⟨a, named_changed haddr hold ha⟩
  · rintro ⟨a, ha, unit, hunit, hname⟩
    by_cases hne : a = addr
    · subst hne
      rw [hold] at hunit
      cases hunit
      exact ⟨a, by rwa [changed_observed], _, changed_heap_self hold state, hname⟩
    · exact ⟨a, by rwa [changed_observed], unit,
        (changed_heap_of_ne hold state hne).trans hunit, hname⟩

theorem unitNamed_some {s : State} {name : CString} {a : Addr} (h : s.unitNamed name = some a) :
    Named s name a := by
  have hname : s.nameIs name a = true := List.find?_some h
  rw [State.nameIs, Option.any_eq_true] at hname
  obtain ⟨unit, hunit, hname⟩ := hname
  exact ⟨List.mem_of_find?_eq_some h, unit, hunit, of_decide_eq_true hname⟩

theorem present_listUnits (units : List ListedUnit) (name : CString) {s : State}
    (coherent : Coherent s) : Present (units.foldl State.listUnit s) name ↔
      Present s name ∨ isService name = true ∧ name ∈ units.map (·.name) := by
  induction units generalizing s with
  | nil => simp
  | cons unit units ih =>
    have hunit : Present (s.listUnit unit) name ↔
        Present s name ∨ isService name = true ∧ name = unit.name := by
      unfold State.listUnit
      split
      · rename_i hservice
        rw [present_newUnit coherent (mem_listed s), or_comm, eq_comm]
        exact or_congr_right ⟨fun h => ⟨h ▸ hservice, h⟩, And.right⟩
      · rename_i hservice
        refine ⟨Or.inl, fun h => h.resolve_right ?_⟩
        rintro ⟨h, rfl⟩
        exact hservice h
    rw [List.foldl_cons, ih (listUnit_coherent coherent unit), hunit, List.map_cons, List.mem_cons,
      or_assoc, ← and_or_left]

end NodeHealthMonitor.NhmSystemd
