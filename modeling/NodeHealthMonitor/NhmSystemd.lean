import Mathlib.Logic.Function.Basic
import NodeHealthMonitor.DBus
import NodeHealthMonitor.NhmHelper
import NodeHealthMonitor.NhmMain

/-! `nhm-systemd.c`. A unit is an object on the heap: the list of observed units and the
signal subscriptions hold its address. A handler returns the state behind it and what
it sent, or `none` where the C code would use memory or a pointer it must not use. -/

namespace NodeHealthMonitor

inductive NhmActiveState where
  | unknown | active | reloading | inactive | failed | activating | deactivating
  deriving DecidableEq

structure NhmSystemdAppStatusChange where
  do_callback : Bool
  next_status : NhmAppStatus
  deriving DecidableEq

namespace NhmSystemd
open DBus

def mapRow (unknown active reloading inactive failed activating deactivating :
    NhmSystemdAppStatusChange) : NhmActiveState → NhmSystemdAppStatusChange
  | .unknown => unknown
  | .active => active
  | .reloading => reloading
  | .inactive => inactive
  | .failed => failed
  | .activating => activating
  | .deactivating => deactivating

def noCallback : NhmSystemdAppStatusChange := ⟨false, NhmAppStatus.failed⟩
def callFailed : NhmSystemdAppStatusChange := ⟨true, NhmAppStatus.failed⟩
def callOk : NhmSystemdAppStatusChange := ⟨true, NhmAppStatus.ok⟩
def callRestarting : NhmSystemdAppStatusChange := ⟨true, NhmAppStatus.restarting⟩

/-- `nhm_systemd_active_state_map[old][new]` -/
def activeStateMap : NhmActiveState → NhmActiveState → NhmSystemdAppStatusChange
  | .unknown =>
      mapRow noCallback callOk noCallback noCallback callFailed noCallback noCallback
  | .active =>
      mapRow noCallback noCallback noCallback noCallback callFailed noCallback noCallback
  | .reloading =>
      mapRow noCallback callOk noCallback noCallback callFailed noCallback noCallback
  | .inactive =>
      mapRow noCallback callOk noCallback noCallback callFailed noCallback noCallback
  | .failed =>
      mapRow noCallback callOk noCallback noCallback noCallback callRestarting noCallback
  | .activating =>
      mapRow noCallback callOk noCallback noCallback callFailed noCallback noCallback
  | .deactivating =>
      mapRow noCallback noCallback noCallback noCallback callFailed noCallback noCallback

def strActive : CString := CString.literal [97, 99, 116, 105, 118, 101]
def strInactive : CString := CString.literal [105, 110, 97, 99, 116, 105, 118, 101]
def strActivating : CString := CString.literal [97, 99, 116, 105, 118, 97, 116, 105, 110, 103]
def strDeactivating : CString :=
  CString.literal [100, 101, 97, 99, 116, 105, 118, 97, 116, 105, 110, 103]
def strFailed : CString := CString.literal [102, 97, 105, 108, 101, 100]
def strReloading : CString := CString.literal [114, 101, 108, 111, 97, 100, 105, 110, 103]

def activeStrings : List (CString × NhmActiveState) :=
  [(strActive, .active), (strInactive, .inactive), (strActivating, .activating),
    (strDeactivating, .deactivating), (strFailed, .failed), (strReloading, .reloading)]

def compareStrings (string : CString) : List (CString × NhmActiveState) → NhmActiveState
  | [] => .unknown
  | (s, state) :: rest => if string = s then state else compareStrings string rest

def activeStateStringToEnum (string : CString) : NhmActiveState :=
  compareStrings string activeStrings

def stringToEnum (string : StrPtr) : Option NhmActiveState :=
  match string with
  | .string string => some (activeStateStringToEnum string)
  | .null => some NhmActiveState.unknown
  | .indeterminate => none

def activeStateProp : CString :=
  CString.literal [65, 99, 116, 105, 118, 101, 83, 116, 97, 116, 101]

def objPath : CString :=
  CString.literal [47, 111, 114, 103, 47, 102, 114, 101, 101, 100, 101, 115, 107, 116, 111, 112,
    47, 115, 121, 115, 116, 101, 109, 100, 49]

def serviceSuffix : List UInt8 := [46, 115, 101, 114, 118, 105, 99, 101]

def isService (name : CString) : Bool := serviceSuffix.isSuffixOf name.bytes

abbrev Addr := ℕ

structure NhmSystemdUnit where
  name : CString
  path : StrPtr
  active_state : NhmActiveState
  sig_sub_id : ℕ
  deriving DecidableEq

inductive Handler where
  | unitAdded
  | unitRemoved
  | unitPropertiesChanged (unit : Addr)
  deriving DecidableEq

/-- A live signal subscription; no path means every object. -/
structure Subscription where
  id : ℕ
  object_path : Option CString
  handler : Handler
  deriving DecidableEq

structure State where
  app_status_cb : Bool := false
  conn : Bool := false
  observed_units : List Addr := []
  unit_add_sig_id : ℕ := 0
  unit_rem_sig_id : ℕ := 0
  events_subscribed : Bool := false
  heap : Addr → Option NhmSystemdUnit := fun _ => none
  next_addr : Addr := 0
  subscriptions : List Subscription := []
  next_id : ℕ := 1

inductive Output where
  | get (path : CString)
  | subscribe
  | unsubscribe
  | listUnits
  | appStatus (name : CString) (status : NhmAppStatus)
  deriving DecidableEq

/-- `g_dbus_connection_signal_subscribe`; the id is fresh and not 0. -/
def signalSubscribe (object_path : Option CString) (handler : Handler) (s : State) :
    Option (ℕ × State) :=
  if s.conn then
    some (s.next_id, { s with
      subscriptions := ⟨s.next_id, object_path, handler⟩ :: s.subscriptions
      next_id := s.next_id + 1 })
  else none

def signalUnsubscribe (id : ℕ) (s : State) : Option State :=
  if s.conn then
    some { s with subscriptions := s.subscriptions.filter fun sub => sub.id ≠ id }
  else none

def subscribePropertiesChanged (unit : Addr) (path : StrPtr) (s : State) :
    Option (ℕ × State) :=
  match path with
  | .string path => signalSubscribe (some path) (.unitPropertiesChanged unit) s
  | .null => signalSubscribe none (.unitPropertiesChanged unit) s
  | .indeterminate => none

def findUnit (heap : Addr → Option NhmSystemdUnit) (name : CString) :
    List Addr → Option (Option Addr)
  | [] => some none
  | addr :: rest => do
      let unit ← heap addr
      if unit.name = name then some (some addr) else findUnit heap name rest

def freeUnit (addr : Addr) (s : State) : Option State := do
  let unit ← s.heap addr
  let s ← signalUnsubscribe unit.sig_sub_id s
  some { s with heap := Function.update s.heap addr none }

def unitActiveStateChanged (addr : Addr) (new_state : NhmActiveState) (s : State) :
    Option (State × List Output) := do
  let unit ← s.heap addr
  let status_change := activeStateMap unit.active_state new_state
  let s' := { s with
    heap := Function.update s.heap addr (some { unit with active_state := new_state }) }
  if status_change.do_callback then
    if s.app_status_cb then some (s', [.appStatus unit.name status_change.next_status]) else none
  else some (s', [])

/-- The reply of `Get` has the type `(v)`; no value is a D-Bus error. -/
def unitGetActiveState (glib : GLib) (path : StrPtr) (reply : Option Value) (s : State) :
    Option (NhmActiveState × List Output) :=
  match s.conn, path with
  | true, .string path => do
      let state ← match reply with
        | none => some NhmActiveState.unknown
        | some value => stringToEnum (glib.get_child (.property value) 0 .stringRef .null)
      some (state, [.get path])
  | _, _ => none

/-- A `UnitNew` signal up to the call of `Get`: name and path of the new unit, if any. -/
def unitAddedCheck (glib : GLib) (parameters : Body) (s : State) :
    Option (Option (CString × StrPtr)) :=
  match parameters with
  | .unit _ _ =>
      match glib.get_child parameters 0 .stringRef .indeterminate with
      | .indeterminate => none
      | .null => some none
      | .string name =>
          if isService name then do
            let list_item ← findUnit s.heap name s.observed_units
            match list_item with
            | none => some (some (name, glib.get_child parameters 1 .string .indeterminate))
            | some _ => some none
          else some none
  | _ => some none

def unitAddedSubscribe (name : CString) (path : StrPtr) (active_state : NhmActiveState)
    (s : State) : Option State := do
  let addr := s.next_addr
  let (sig_sub_id, s) ← subscribePropertiesChanged addr path s
  some { s with
    heap := Function.update s.heap addr (some ⟨name, path, active_state, sig_sub_id⟩)
    next_addr := addr + 1
    observed_units := addr :: s.observed_units }

def unitAdded (glib : GLib) (parameters : Body) (reply : Option Value) (s : State) :
    Option (State × List Output) := do
  match ← unitAddedCheck glib parameters s with
  | none => some (s, [])
  | some (name, path) => do
      let (active_state, sent) ← unitGetActiveState glib path reply s
      let s ← unitAddedSubscribe name path active_state s
      some (s, sent)

def unitRemoved (glib : GLib) (parameters : Body) (s : State) :
    Option (State × List Output) :=
  match parameters with
  | .unit _ _ =>
      match glib.get_child parameters 0 .stringRef .indeterminate with
      | .indeterminate => none
      | .null => some (s, [])
      | .string name =>
          if isService name then do
            let list_item ← findUnit s.heap name s.observed_units
            match list_item with
            | none => some (s, [])
            | some addr => do
                let s ← freeUnit addr s
                some ({ s with observed_units := s.observed_units.erase addr }, [])
          else some (s, [])
  | _ => some (s, [])

/-- A `PropertiesChanged` signal up to the reply of `Get`: the ActiveState read, if any. -/
def unitPropertiesChangedRead (glib : GLib) (parameters : Body) (reply : Option Value)
    (unit : Addr) (s : State) : Option (Option NhmActiveState × List Output) :=
  match parameters with
  | .propertiesChanged _ _ _ =>
      if NhmHelper.strInStrv activeStateProp (glib.get_child_strv parameters 2 none) then do
        let u ← s.heap unit
        let (active_state, sent) ← unitGetActiveState glib u.path reply s
        some (some active_state, sent)
      else some (none, [])
  | _ => some (none, [])

def unitUpdate (unit : Addr) (active_state : NhmActiveState) (s : State) :
    Option (State × List Output) := do
  let u ← s.heap unit
  if active_state ≠ u.active_state then unitActiveStateChanged unit active_state s
  else some (s, [])

def unitPropertiesChanged (glib : GLib) (parameters : Body) (reply : Option Value)
    (unit : Addr) (s : State) : Option (State × List Output) := do
  match ← unitPropertiesChangedRead glib parameters reply unit s with
  | (none, sent) => some (s, sent)
  | (some active_state, sent) => do
      let (s, called) ← unitUpdate unit active_state s
      some (s, sent ++ called)

/-- A signal GDBus delivers for a subscription, with the reply to the `Get` it may cause. -/
structure Signal where
  sub_id : ℕ
  parameters : Body
  reply : Option Value

def dispatch (glib : GLib) (signal : Signal) (s : State) : Option (State × List Output) :=
  match s.subscriptions.find? fun sub => sub.id = signal.sub_id with
  | none => some (s, [])
  | some sub => match sub.handler with
    | .unitAdded => unitAdded glib signal.parameters signal.reply s
    | .unitRemoved => unitRemoved glib signal.parameters s
    | .unitPropertiesChanged unit =>
        unitPropertiesChanged glib signal.parameters signal.reply unit s

structure ConnectEnv where
  bus_get : Bool := true
  subscribe : Bool := true
  /-- The units of the answer, which has the type `(a(ssssssouso))`. -/
  list_units : Option (List ListedUnit) := some []
  unsubscribe : Bool := true

def freeUnits : List Addr → State → Option State
  | [], s => some s
  | addr :: rest, s => do
      let s ← freeUnit addr s
      freeUnits rest s

def unsubscribeManager (id : ℕ) (s : State) : Option State :=
  if id ≠ 0 then signalUnsubscribe id s else some s

def disconnect (env : ConnectEnv) (s : State) : Option (State × List Output) := do
  let s := { s with app_status_cb := false }
  let (s, sent) ← (if s.events_subscribed then
      if s.conn then
        some ({ s with events_subscribed := !env.unsubscribe }, [Output.unsubscribe])
      else none
    else some (s, []))
  let s ← unsubscribeManager s.unit_add_sig_id s
  let s ← unsubscribeManager s.unit_rem_sig_id { s with unit_add_sig_id := 0 }
  let s ← freeUnits s.observed_units { s with unit_rem_sig_id := 0 }
  some ({ s with observed_units := [], conn := false }, sent)

structure ListVars where
  unit_name : StrPtr := .null
  active_state : StrPtr := .null

def connectUnit (glib : GLib) (unit : ListedUnit) (vars : ListVars) (s : State) :
    Option (ListVars × State) :=
  let unit_name := glib.get_child (.listedUnit unit) 0 .string vars.unit_name
  match unit_name with
  | .indeterminate => none
  | .null => some ({ vars with unit_name := .null }, s)
  | .string name =>
      if isService name then do
        let active_state := glib.get_child (.listedUnit unit) 3 .stringRef vars.active_state
        let state ← stringToEnum active_state
        let path := glib.get_child (.listedUnit unit) 6 .objectPath .indeterminate
        let addr := s.next_addr
        let (sig_sub_id, s) ← subscribePropertiesChanged addr path s
        some (⟨unit_name, active_state⟩, { s with
          heap := Function.update s.heap addr (some ⟨name, path, state, sig_sub_id⟩)
          next_addr := addr + 1
          observed_units := s.observed_units ++ [addr] })
      else
        -- The name is freed, and the variable is left pointing to it.
        some ({ vars with unit_name := .indeterminate }, s)

def connectUnits (glib : GLib) : List ListedUnit → ListVars → State → Option State
  | [], _, s => some s
  | unit :: units, vars, s => do
      let (vars, s) ← connectUnit glib unit vars s
      connectUnits glib units vars s

/-- The variables as `nhm_systemd_connect` initialises them; nothing is freed. -/
def State.init (s : State) : State :=
  { s with
    app_status_cb := false, conn := false, observed_units := [], events_subscribed := false,
    unit_add_sig_id := 0, unit_rem_sig_id := 0 }

/-- Steps 1 to 4 of `nhm_systemd_connect`. -/
def connectSubscribe (env : ConnectEnv) (app_status_cb : Bool) (s : State) :
    Option (Bool × State × List Output) := do
  let s := { s.init with app_status_cb := app_status_cb }
  if app_status_cb ∧ env.bus_get then
    let (add_id, s) ← signalSubscribe (some objPath) .unitAdded { s with conn := true }
    let (rem_id, s) ←
      signalSubscribe (some objPath) .unitRemoved { s with unit_add_sig_id := add_id }
    some (env.subscribe,
      { s with unit_rem_sig_id := rem_id, events_subscribed := env.subscribe }, [.subscribe])
  else some (false, s, [])

def connectList (glib : GLib) (env : ConnectEnv) (s : State) :
    Option (Bool × State × List Output) :=
  match env.list_units with
  | none => some (false, s, [.listUnits])
  | some units => do
      let s ← connectUnits glib units {} s
      some (true, s, [.listUnits])

def connect (glib : GLib) (env : ConnectEnv) (app_status_cb : Bool) (s : State) :
    Option (Bool × State × List Output) := do
  let (retval, s, sent) ← connectSubscribe env app_status_cb s
  let (retval, s, listed) ← (if retval then connectList glib env s else some (false, s, []))
  if retval = false then
    let (s, disconnected) ← disconnect env s
    some (false, s, sent ++ listed ++ disconnected)
  else some (true, s, sent ++ listed)

end NhmSystemd

end NodeHealthMonitor
