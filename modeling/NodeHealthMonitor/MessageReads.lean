import NodeHealthMonitor.ChangeAnnouncements

/-! The reads of D-Bus messages under GLib's type check: a member is stored only when the
format asks for the type it has. The path of a new unit has the type `o` and is asked for
as `s`; the answer of `Get` has the type `v` and is asked for as `s`, too. -/

namespace NodeHealthMonitor.DBus

inductive MemberType where
  | string
  | objectPath
  | variant
  | other
  deriving DecidableEq

def Body.memberType : Body → ℕ → MemberType
  | .unit _ _, 0 => .string
  | .unit _ _, 1 => .objectPath
  | .propertiesChanged _ _ _, 0 => .string
  | .property _, 0 => .variant
  | .listedUnit _, 0 | .listedUnit _, 1 | .listedUnit _, 2 | .listedUnit _, 3
  | .listedUnit _, 4 | .listedUnit _, 5 | .listedUnit _, 8 => .string
  | .listedUnit _, 6 | .listedUnit _, 9 => .objectPath
  | _, _ => .other

def Format.memberType : Format → MemberType
  | .string | .stringRef => .string
  | .objectPath => .objectPath

structure GLib.TypeChecked (glib : GLib) : Prop where
  stores : ∀ body i format x s, body.memberType i = format.memberType → body.member i = some s →
    glib.get_child body i format x = .string s
  leaves : ∀ body i format x, body.memberType i ≠ format.memberType →
    glib.get_child body i format x = x
  invalidated : ∀ iface changed invalidated x,
    glib.get_child_strv (.propertiesChanged iface changed invalidated) 2 x = some invalidated

theorem GLib.TypeChecked.fitting {glib : GLib} (checked : glib.TypeChecked) :
    glib.DeliversFitting where
  unit_name name _ x := checked.stores _ _ _ x name rfl rfl
  listed_name unit x := checked.stores _ _ _ x unit.name rfl rfl
  listed_state unit x := checked.stores _ _ _ x unit.active_state rfl rfl
  listed_path unit x := checked.stores _ _ _ x unit.path rfl rfl
  invalidated := checked.invalidated

def typeChecking : GLib where
  get_child body i format x :=
    if body.memberType i = format.memberType then
      match body.member i with
      | some s => .string s
      | none => x
    else x
  get_child_strv := handingOver.get_child_strv

theorem typeChecking_typeChecked : typeChecking.TypeChecked where
  stores body i format x s htype hmember := by simp [typeChecking, htype, hmember]
  leaves body i format x htype := by simp [typeChecking, htype]
  invalidated := handingOver_delivers.invalidated

end NodeHealthMonitor.DBus

namespace NodeHealthMonitor.NhmSystemd
open DBus

def AddedFromMessage (glib : GLib) (name path active_state : CString) (s : State) : Prop :=
  ∃ next addr unit, unitAdded glib (.unit name path) (some (.string active_state)) s =
      some (next, [.get path]) ∧
    next.observed_units = addr :: s.observed_units ∧ next.heap addr = some unit ∧
    unit.name = name ∧ unit.path = .string path ∧
    unit.active_state = activeStateStringToEnum active_state

def ReadFromMessage (glib : GLib) (path active_state : CString) (s : State) : Prop :=
  ∃ sent, unitGetActiveState glib (.string path) (some (.string active_state)) s =
    some (activeStateStringToEnum active_state, sent)

section
variable {glib : GLib} (checked : glib.TypeChecked) {s : State} (usable : Usable s)
include checked usable

theorem unitAdded_indeterminate {name : CString} (hservice : isService name = true)
    (hnew : s.unitNamed name = none) (path : CString) (reply : Option Value) :
    unitAdded glib (.unit name path) reply s = none := by
  have hname : glib.get_child (.unit name path) 0 .stringRef .indeterminate = .string name :=
    checked.stores _ _ _ _ name rfl rfl
  have hpath : glib.get_child (.unit name path) 1 .string .indeterminate = .indeterminate :=
    checked.leaves _ _ _ _ (by simp [Body.memberType, Format.memberType])
  simp [unitAdded, unitAddedCheck, hname, hpath, hservice, usable.findUnit_eq, hnew,
    unitGetActiveState]

theorem unitGetActiveState_unknown (path : CString) (reply : Option Value) :
    unitGetActiveState glib (.string path) reply s = some (.unknown, [.get path]) := by
  cases reply with
  | none => simp [unitGetActiveState, usable.conn]
  | some value =>
    have hstate : glib.get_child (.property value) 0 .stringRef .null = .null :=
      checked.leaves _ _ _ _ (by simp [Body.memberType, Format.memberType])
    simp [unitGetActiveState, usable.conn, hstate, stringToEnum]

/-- No new unit is taken from its messages, and of the states that are read only the
unknown ones come out right. -/
theorem fromMessages_iff :
    (∀ name path active_state, isService name = true → s.unitNamed name = none →
      ¬AddedFromMessage glib name path active_state s) ∧
    ∀ path active_state, ReadFromMessage glib path active_state s ↔
      activeStateStringToEnum active_state = .unknown := by
  constructor
  · rintro name path active_state hservice hnew ⟨next, addr, unit, hadded, -⟩
    rw [unitAdded_indeterminate checked usable hservice hnew] at hadded
    contradiction
  · intro path active_state
    rw [ReadFromMessage, unitGetActiveState_unknown checked usable]
    simp [eq_comm]

end

theorem fromMessages_iff_connected :
    ¬AddedFromMessage typeChecking (serviceA strActive).name (serviceA strActive).path strActive
      (State.connected {}) :=
  (fromMessages_iff typeChecking_typeChecked connected_coherent.usable).1 _ _ _ (by decide) rfl

theorem not_fromMessages_active :
    ¬AddedFromMessage typeChecking (serviceA strActive).name (serviceA strActive).path strActive
      (State.connected {}) ∧
    ¬ReadFromMessage typeChecking (serviceA strActive).path strActive activeA := by
  constructor
  · rintro ⟨next, addr, unit, hadded, -⟩
    rw [unitAdded_indeterminate typeChecking_typeChecked connected_coherent.usable (by decide)
      rfl] at hadded
    contradiction
  · rintro ⟨sent, hread⟩
    have hunknown : unitGetActiveState typeChecking (.string (serviceA strActive).path)
        (some (.string strActive)) activeA = some (.unknown, [.get (serviceA strActive).path]) :=
      rfl
    rw [hunknown] at hread
    have hstate : NhmActiveState.unknown = activeStateStringToEnum strActive :=
      congrArg Prod.fst (Option.some.inj hread)
    exact absurd hstate (by decide)

end NodeHealthMonitor.NhmSystemd
