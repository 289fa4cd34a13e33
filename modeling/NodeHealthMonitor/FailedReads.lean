import Mathlib.Data.List.ReduceOption
import NodeHealthMonitor.ChangeAnnouncements
import NodeHealthMonitor.UnitObservation

/-! Signals whose `Get` fails with a D-Bus error. The unit is recorded UNKNOWN then, a
state of the table like any other: nothing is reported on the way into it, but the next
transition starts there and not in the state the unit has left. -/

namespace NodeHealthMonitor.FailedReads
open DBus NhmSystemd NhmMain UnitObservation

def called (old new : NhmActiveState) : List NhmAppStatus :=
  if old ≠ new ∧ (activeStateMap old new).do_callback = true then
    [(activeStateMap old new).next_status]
  else []

def calls : NhmActiveState → List NhmActiveState → List NhmAppStatus
  | _, [] => []
  | old, new :: states => called old new ++ calls new states

/-- The transitions that UNKNOWN, in place of `last`, reports differently. -/
def Altered (last new : NhmActiveState) : Prop :=
  (last = .active ∨ last = .deactivating) ∧ new = .active ∨
    last = .failed ∧ (new = .failed ∨ new = .activating)

instance (last new : NhmActiveState) : Decidable (Altered last new) :=
  inferInstanceAs (Decidable (_ ∨ _))

/-- The reads that succeed behind failed ones are not altered by them. `last` was read
last, and `failed` tells whether a read has failed since. -/
def Harmless : (last : NhmActiveState) → (failed : Bool) → List (Option NhmActiveState) → Prop
  | _, _, [] => True
  | last, _, none :: reads => Harmless last true reads
  | last, failed, some new :: reads =>
      ¬(failed = true ∧ Altered last new) ∧ Harmless new false reads

def recorded (last : NhmActiveState) (failed : Bool) : NhmActiveState :=
  if failed then .unknown else last

@[simp] theorem recorded_true (last : NhmActiveState) : recorded last true = .unknown := rfl

@[simp] theorem recorded_false (last : NhmActiveState) : recorded last false = last := rfl

theorem calls_unknown (old : NhmActiveState) (states : List NhmActiveState) :
    calls old (.unknown :: states) = calls .unknown states := by
  cases old <;> rfl

theorem called_unknown_left {last new : NhmActiveState} (h : ¬Altered last new) :
    called .unknown new = called last new := by
  revert h
  cases last <;> cases new <;> decide

/-- A spurious report weighs as much as a lost restart, so that they cannot make up for
each other. -/
def weight (statuses : List NhmAppStatus) : ℤ :=
  (statuses.map fun status => if status = NhmAppStatus.restarting then -1 else 1).sum

theorem weight_append (xs ys : List NhmAppStatus) : weight (xs ++ ys) = weight xs + weight ys := by
  rw [weight, List.map_append, List.sum_append]
  rfl

theorem weight_altered {last new : NhmActiveState} (h : Altered last new) :
    weight (called .unknown new) = weight (called last new) + 1 := by
  revert h
  cases last <;> cases new <;> decide

theorem called_recorded (last new : NhmActiveState) (failed : Bool)
    (h : ¬(failed = true ∧ Altered last new)) :
    called (recorded last failed) new = called last new := by
  cases failed with
  | false => rfl
  | true => exact called_unknown_left fun haltered => h ⟨rfl, haltered⟩

theorem weight_calls (last : NhmActiveState) (failed : Bool)
    (reads : List (Option NhmActiveState)) :
    weight (calls last (reads.reduceOption)) ≤
      weight (calls (recorded last failed) (reads.map (·.getD .unknown))) := by
  induction reads generalizing last failed with
  | nil => exact le_rfl
  | cons read reads ih =>
    cases read with
    | none =>
      rw [List.reduceOption_cons_of_none, List.map_cons, Option.getD_none, calls_unknown]
      exact ih last true
    | some new =>
      rw [List.reduceOption_cons_of_some, List.map_cons, calls, calls, weight_append, weight_append]
      have hrest := ih new false
      by_cases h : failed = true ∧ Altered last new
      · obtain ⟨rfl, haltered⟩ := h
        have hone := weight_altered haltered
        rw [recorded_false] at hrest
        rw [recorded_true, Option.getD_some]
        omega
      · rw [Option.getD_some, called_recorded last new failed h]
        exact Int.add_le_add_left hrest _

theorem calls_eq_iff (last : NhmActiveState) (failed : Bool)
    (reads : List (Option NhmActiveState)) :
    calls (recorded last failed) (reads.map (·.getD .unknown)) = calls last (reads.reduceOption) ↔
      Harmless last failed reads := by
  induction reads generalizing last failed with
  | nil => exact iff_of_true rfl trivial
  | cons read reads ih =>
    cases read with
    | none =>
      rw [List.reduceOption_cons_of_none, List.map_cons, Option.getD_none, calls_unknown]
      exact ih last true
    | some new =>
      rw [List.reduceOption_cons_of_some, List.map_cons, calls, calls, Harmless, Option.getD_some]
      by_cases h : failed = true ∧ Altered last new
      · refine iff_of_false (fun heq => ?_) fun hharmless => hharmless.1 h
        obtain ⟨rfl, haltered⟩ := h
        have hone := weight_altered haltered
        have hrest := weight_calls new false reads
        have hsum := congrArg weight heq
        rw [weight_append, weight_append, recorded_true] at hsum
        rw [recorded_false] at hrest
        omega
      · rw [called_recorded last new failed h, List.append_cancel_left_eq]
        exact (ih new false).trans ⟨fun hrest => ⟨h, hrest⟩, And.right⟩

/-- A `PropertiesChanged` of the unit that has ActiveState among the invalidated
properties, and the reply of the `Get` that follows; no value is a D-Bus error. -/
structure Invalidation where
  iface : CString := CString.empty
  changed : List (CString × Value) := []
  invalidated : List CString := [activeStateProp]
  active_state : activeStateProp ∈ invalidated := by decide
  reply : Option Value

def Invalidation.read (signal : Invalidation) : Option NhmActiveState :=
  signal.reply.map fun value => readState (some value)

def handle (glib : GLib) (addr : Addr) (s : NhmSystemd.State) (signal : Invalidation) :
    Option (NhmSystemd.State × List Output) :=
  unitPropertiesChanged glib
    (.propertiesChanged signal.iface signal.changed signal.invalidated) signal.reply addr s

def callbacks (glib : GLib) (addr : Addr) (s : NhmSystemd.State) (signals : List Invalidation) :
    List Report :=
  (Transition.outputs (handle glib addr) s signals).filterMap Output.report?

theorem read_getD (signal : Invalidation) :
    signal.read.getD .unknown = readState signal.reply := by
  rw [Invalidation.read]
  cases signal.reply <;> rfl

section
variable {glib : GLib} (delivers : glib.Delivers) {addr : Addr}
include delivers

theorem handle_eq {s : NhmSystemd.State} (usable : Usable s) {unit : NhmSystemdUnit}
    (hunit : s.heap addr = some unit) {path : CString} (hpath : unit.path = .string path)
    (signal : Invalidation) :
    ∃ next sent, handle glib addr s signal = some (next, sent) ∧ Usable next ∧
      next.heap addr = some { unit with active_state := signal.read.getD .unknown } ∧
      sent.filterMap Output.report? =
        (called unit.active_state (signal.read.getD .unknown)).map fun status =>
          (unit.name, status) := by
  obtain ⟨next, sent, hstep, hnext, hstate, hreport⟩ := unitPropertiesChanged_invalidated delivers
    usable hunit hpath signal.iface signal.changed signal.active_state signal.reply
  rw [read_getD]
  refine ⟨next, sent, hstep, hnext, hstate, ?_⟩
  rw [hreport, called]
  split <;> rfl

theorem callbacks_eq (signals : List Invalidation) {s : NhmSystemd.State} (usable : Usable s)
    {unit : NhmSystemdUnit} (hunit : s.heap addr = some unit) {path : CString}
    (hpath : unit.path = .string path) :
    (∃ last, Transition.run (fun s signal => (handle glib addr s signal).map Prod.fst) s signals =
      some last) ∧
    callbacks glib addr s signals =
      (calls unit.active_state (signals.map fun signal => signal.read.getD .unknown)).map
        fun status => (unit.name, status) := by
  induction signals generalizing s unit with
  | nil => exact ⟨⟨s, rfl⟩, rfl⟩
  | cons signal signals ih =>
    obtain ⟨next, sent, hstep, hnext, hheap, hreport⟩ :=
      handle_eq delivers usable hunit hpath signal
    obtain ⟨⟨last, hrun⟩, hrest⟩ := ih hnext hheap hpath
    refine ⟨⟨last, ?_⟩, ?_⟩
    · simp only [Transition.run, hstep, Option.map_some, Option.bind_some]
      exact hrun
    · rw [callbacks] at hrest
      rw [callbacks, Transition.outputs, hstep, List.map_cons, calls, List.map_append, ← hrest]
      exact (List.filterMap_append ..).trans (by rw [hreport])

end

theorem read_filter (signals : List Invalidation) :
    (signals.filter fun signal => signal.reply.isSome).map
        (fun signal => signal.read.getD .unknown) =
      (signals.map Invalidation.read).reduceOption := by
  induction signals with
  | nil => rfl
  | cons signal signals ih =>
    rw [List.map_cons, Invalidation.read]
    cases hreply : signal.reply with
    | none =>
      rw [Option.map_none, List.reduceOption_cons_of_none,
        List.filter_cons_of_neg (by simp [hreply])]
      exact ih
    | some value =>
      rw [Option.map_some, List.reduceOption_cons_of_some,
        List.filter_cons_of_pos (by simp [hreply]), List.map_cons, ih, read_getD, hreply]

/-- Without the signals whose `Get` fails, the callback is called the same way, and so the
list of failed applications and their counts are the same. -/
structure FailuresInvisible (glib : GLib) (addr : Addr) (s : NhmSystemd.State)
    (signals : List Invalidation) : Prop where
  defined : ∃ last,
    Transition.run (fun s signal => (handle glib addr s signal).map Prod.fst) s signals = some last
  called : callbacks glib addr s signals =
    callbacks glib addr s (signals.filter fun signal => signal.reply.isSome)
  registered : ∀ env main, registerAll env (callbacks glib addr s signals) main =
    registerAll env (callbacks glib addr s (signals.filter fun signal => signal.reply.isSome)) main

theorem failuresInvisible_iff {glib : GLib} (delivers : glib.Delivers) {s : NhmSystemd.State}
    (usable : Usable s) {addr : Addr} {unit : NhmSystemdUnit} (hunit : s.heap addr = some unit)
    {path : CString} (hpath : unit.path = .string path) (signals : List Invalidation) :
    FailuresInvisible glib addr s signals ↔
      Harmless unit.active_state false (signals.map Invalidation.read) := by
  obtain ⟨hdefined, hcalls⟩ := callbacks_eq delivers signals usable hunit hpath
  have hbase := (callbacks_eq delivers (signals.filter fun signal => signal.reply.isSome) usable
    hunit hpath).2
  rw [read_filter] at hbase
  have hmap : signals.map (fun signal => signal.read.getD .unknown) =
      (signals.map Invalidation.read).map (·.getD .unknown) := by
    rw [List.map_map]
    rfl
  have hname : Function.Injective fun status : NhmAppStatus => (unit.name, status) :=
    fun _ _ h => (Prod.mk.inj h).2
  have hiff := calls_eq_iff unit.active_state false (signals.map Invalidation.read)
  rw [recorded_false, ← hmap] at hiff
  constructor
  · intro invisible
    have hcalled := invisible.called
    rw [hcalls, hbase] at hcalled
    exact hiff.mp (List.map_injective_iff.mpr hname hcalled)
  · intro hharmless
    have hcalled : callbacks glib addr s signals =
        callbacks glib addr s (signals.filter fun signal => signal.reply.isSome) := by
      rw [hcalls, hbase, hiff.mpr hharmless]
    exact ⟨hdefined, hcalled, fun env main => by rw [hcalled]⟩

def failedRead : Invalidation := { reply := none }

def successfulRead (active_state : CString) : Invalidation :=
  { reply := some (.string active_state) }

theorem activeA_usable : Usable activeA :=
  (listUnit_coherent connected_coherent (serviceA strActive)).usable

theorem activeA_heap : activeA.heap 0 = some
    ⟨(serviceA strActive).name, .string (serviceA strActive).path, .active, 3⟩ := rfl

theorem failuresInvisible_iff_failure :
    FailuresInvisible handingOver 0 activeA [failedRead, successfulRead strFailed] ↔
      Harmless .active false [none, some .failed] :=
  failuresInvisible_iff handingOver_delivers activeA_usable activeA_heap rfl _

theorem not_failuresInvisible_active :
    ¬FailuresInvisible handingOver 0 activeA [failedRead, successfulRead strActive] := by
  intro invisible
  have hcalled := invisible.called
  have hcallbacks (signals : List Invalidation) : callbacks handingOver 0 activeA signals =
      (calls .active (signals.map fun signal => signal.read.getD .unknown)).map
        fun status => ((serviceA strActive).name, status) :=
    (callbacks_eq handingOver_delivers signals activeA_usable activeA_heap rfl).2
  rw [hcallbacks, hcallbacks] at hcalled
  revert hcalled
  decide

end NodeHealthMonitor.FailedReads
