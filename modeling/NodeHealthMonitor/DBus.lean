import NodeHealthMonitor.CString

/-! The D-Bus messages the NHM looks into, and GLib's access to their members. What
GLib stores is a parameter: the handlers pass the address of a pointer and go on with
whatever it holds afterwards. -/

namespace NodeHealthMonitor.DBus

/-- The content of a variant; only strings are looked into. -/
inductive Value where
  | string (s : CString)
  | other (type_string : String)
  deriving DecidableEq

/-- The members 0, 3 and 6 of a unit that `ListUnits` answers. -/
structure ListedUnit where
  name : CString
  active_state : CString
  path : CString
  deriving DecidableEq

inductive Body where
  /-- `(so)`: name and path of a unit. -/
  | unit (name path : CString)
  /-- `(sa{sv}as)`: interface, changed and invalidated properties. -/
  | propertiesChanged (iface : CString) (changed : List (CString × Value))
      (invalidated : List CString)
  /-- `(v)`: the value of a property. -/
  | property (value : Value)
  /-- `(ssssssouso)` -/
  | listedUnit (unit : ListedUnit)
  | other (type_string : String)
  deriving DecidableEq

inductive StrPtr where
  | indeterminate
  | null
  | string (s : CString)
  deriving DecidableEq

inductive Format where
  | string
  | stringRef
  | objectPath
  deriving DecidableEq

structure GLib where
  /-- `x` after `g_variant_get_child(body, i, format, &x)`. -/
  get_child : Body → ℕ → Format → StrPtr → StrPtr
  /-- The same for the format `"^a&s"`. -/
  get_child_strv : Body → ℕ → Option (List CString) → Option (List CString)

/-- GLib hands the strings and paths of the messages over. -/
structure GLib.Delivers (glib : GLib) : Prop where
  unit_name : ∀ name path x, glib.get_child (.unit name path) 0 .stringRef x = .string name
  unit_path : ∀ name path x, glib.get_child (.unit name path) 1 .string x = .string path
  property : ∀ s x, glib.get_child (.property (.string s)) 0 .stringRef x = .string s
  no_property : ∀ type_string x,
    glib.get_child (.property (.other type_string)) 0 .stringRef x = x
  listed_name : ∀ unit x, glib.get_child (.listedUnit unit) 0 .string x = .string unit.name
  listed_state : ∀ unit x,
    glib.get_child (.listedUnit unit) 3 .stringRef x = .string unit.active_state
  listed_path : ∀ unit x,
    glib.get_child (.listedUnit unit) 6 .objectPath x = .string unit.path
  invalidated : ∀ iface changed invalidated x,
    glib.get_child_strv (.propertiesChanged iface changed invalidated) 2 x = some invalidated

structure GLib.DeliversFitting (glib : GLib) : Prop where
  unit_name : ∀ name path x, glib.get_child (.unit name path) 0 .stringRef x = .string name
  listed_name : ∀ unit x, glib.get_child (.listedUnit unit) 0 .string x = .string unit.name
  listed_state : ∀ unit x,
    glib.get_child (.listedUnit unit) 3 .stringRef x = .string unit.active_state
  listed_path : ∀ unit x,
    glib.get_child (.listedUnit unit) 6 .objectPath x = .string unit.path
  invalidated : ∀ iface changed invalidated x,
    glib.get_child_strv (.propertiesChanged iface changed invalidated) 2 x = some invalidated

theorem GLib.Delivers.fitting {glib : GLib} (delivers : glib.Delivers) : glib.DeliversFitting where
  unit_name := delivers.unit_name
  listed_name := delivers.listed_name
  listed_state := delivers.listed_state
  listed_path := delivers.listed_path
  invalidated := delivers.invalidated

def Body.member : Body → ℕ → Option CString
  | .unit name _, 0 => some name
  | .unit _ path, 1 => some path
  | .property (.string s), 0 => some s
  | .listedUnit listed, 0 => some listed.name
  | .listedUnit listed, 3 => some listed.active_state
  | .listedUnit listed, 6 => some listed.path
  | _, _ => none

def handingOver : GLib where
  get_child body i _ x := match body.member i with
    | some s => .string s
    | none => x
  get_child_strv body i x := match body, i with
    | .propertiesChanged _ _ invalidated, 2 => some invalidated
    | _, _ => x

theorem handingOver_delivers : handingOver.Delivers := by
  constructor <;> intros <;> rfl

end NodeHealthMonitor.DBus
