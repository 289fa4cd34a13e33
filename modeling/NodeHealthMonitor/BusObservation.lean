import Mathlib.Data.List.Induction
import NodeHealthMonitor.Userland

/-! One monitored bus over time. The bus goes up and down; a connection belongs to the
period in which it was opened and is closed for good when that period ends. The NHM keeps
the first connection it gets. -/

namespace NodeHealthMonitor.BusObservation
open NhmMain

inductive BusEvent where
  | up
  | down
  /-- A call of `nhm_main_is_dbus_alive`. -/
  | check
  deriving DecidableEq

/-- `period` counts how often the bus came up. -/
structure Bus where
  up : Bool
  period : ℕ

namespace Bus

def next (bus : Bus) : BusEvent → Bus
  | .up => if bus.up then bus else ⟨true, bus.period + 1⟩
  | .down => { bus with up := false }
  | .check => bus

def after (bus : Bus) (events : List BusEvent) : Bus := events.foldl next bus

/-- Opening succeeds while the bus is up; the handle is the period. -/
def connect (bus : Bus) : Option ℕ := if bus.up then some bus.period else none

def call (bus : Bus) (conn : ℕ) : Bool := bus.up && conn = bus.period

theorem after_append (bus : Bus) (pre post : List BusEvent) :
    bus.after (pre ++ post) = (bus.after pre).after post :=
  List.foldl_append

theorem period_next (bus : Bus) (e : BusEvent) : bus.period ≤ (bus.next e).period := by
  cases e with
  | up =>
    rw [next]
    split <;> simp
  | down => exact le_rfl
  | check => exact le_rfl

theorem period_after (bus : Bus) (events : List BusEvent) :
    bus.period ≤ (bus.after events).period := by
  induction events generalizing bus with
  | nil => exact le_rfl
  | cons e events ih => exact (period_next bus e).trans (ih (bus.next e))

theorem period_lt_after (bus : Bus) (events : List BusEvent) (hdown : bus.up = false)
    (hup : (bus.after events).up = true) : bus.period < (bus.after events).period := by
  induction events generalizing bus with
  | nil => simp_all [after]
  | cons e events ih =>
    cases e with
    | up =>
      calc bus.period < bus.period + 1 := Nat.lt_succ_self _
        _ = (bus.next .up).period := by simp [next, hdown]
        _ ≤ ((bus.next .up).after events).period := period_after _ _
    | down => exact ih (bus.next .down) rfl hup
    | check => exact ih bus hdown hup

theorem after_of_down (bus : Bus) (events : List BusEvent) (hdown : .down ∈ events)
    (hup : (bus.after events).up = true) : bus.period < (bus.after events).period := by
  obtain ⟨pre, post, rfl⟩ := List.append_of_mem hdown
  have hafter : bus.after (pre ++ .down :: post) = ((bus.after pre).next .down).after post :=
    after_append bus pre (.down :: post)
  rw [hafter] at hup ⊢
  exact (period_after bus pre).trans_lt (period_lt_after ((bus.after pre).next .down) post rfl hup)

theorem after_of_not_down (bus : Bus) (events : List BusEvent) (hbus : bus.up = true)
    (hdown : .down ∉ events) : bus.after events = bus := by
  induction events with
  | nil => rfl
  | cons e events ih =>
    simp only [List.mem_cons, not_or] at hdown
    obtain ⟨hne, hrest⟩ := hdown
    have hnext : bus.next e = bus := by
      cases e with
      | up => simp [next, hbus]
      | down => exact absurd rfl hne
      | check => rfl
    rw [after, List.foldl_cons, hnext]
    exact ih hrest

end Bus

structure Observed where
  bus : Bus
  checked_dbus : NhmCheckedDbus

namespace Observed

def isAlive (o : Observed) : Bool × NhmCheckedDbus :=
  isDbusAlive o.bus.connect o.bus.call o.checked_dbus

def next (o : Observed) (e : BusEvent) : Observed where
  bus := o.bus.next e
  checked_dbus := if e = .check then o.isAlive.2 else o.checked_dbus

def after (o : Observed) (events : List BusEvent) : Observed := events.foldl next o

theorem after_append (o : Observed) (pre post : List BusEvent) :
    o.after (pre ++ post) = (o.after pre).after post :=
  List.foldl_append

theorem after_bus (o : Observed) (events : List BusEvent) :
    (o.after events).bus = o.bus.after events := by
  induction events generalizing o with
  | nil => rfl
  | cons e events ih => exact ih (o.next e)

theorem next_check_conn (o : Observed) :
    (o.next .check).checked_dbus.bus_conn = (o.checked_dbus.bus_conn <|> o.bus.connect) := by
  rw [next, if_pos rfl, isAlive, isDbusAlive_eq]

theorem next_conn (o : Observed) (e : BusEvent) (conn : ℕ)
    (hconn : o.checked_dbus.bus_conn = some conn) :
    (o.next e).checked_dbus.bus_conn = some conn := by
  by_cases he : e = .check
  · rw [he, next_check_conn, hconn]
    rfl
  · rw [next, if_neg he, hconn]

theorem after_conn (o : Observed) (events : List BusEvent) (conn : ℕ)
    (hconn : o.checked_dbus.bus_conn = some conn) :
    (o.after events).checked_dbus.bus_conn = some conn := by
  induction events generalizing o with
  | nil => exact hconn
  | cons e events ih => exact ih (o.next e) (next_conn o e conn hconn)

theorem conn_opened (o : Observed) (hnone : o.checked_dbus.bus_conn = none)
    (events : List BusEvent) (conn : ℕ)
    (hconn : (o.after events).checked_dbus.bus_conn = some conn) :
    ∃ pre post, events = pre ++ .check :: post ∧ (o.bus.after pre).up = true ∧
      conn = (o.bus.after pre).period := by
  induction events using List.reverseRecOn with
  | nil =>
    rw [after, List.foldl_nil, hnone] at hconn
    contradiction
  | append_singleton events e ih =>
    have hlast : ((o.after events).next e).checked_dbus.bus_conn = some conn := by
      rw [after_append] at hconn
      exact hconn
    cases hearlier : (o.after events).checked_dbus.bus_conn with
    | some conn' =>
      rw [next_conn _ e conn' hearlier] at hlast
      obtain ⟨pre, post, rfl, hup, hperiod⟩ := ih (hearlier.trans hlast)
      exact ⟨pre, post ++ [e], by simp, hup, hperiod⟩
    | none =>
      by_cases he : e = .check
      · subst he
        rw [next_check_conn, hearlier, after_bus] at hlast
        have hopen : (o.bus.after events).connect = some conn := hlast
        rw [Bus.connect] at hopen
        split at hopen
        · rename_i hup
          exact ⟨events, [], rfl, hup, (Option.some.inj hopen).symm⟩
        · contradiction
      · rw [next, if_neg he, hearlier] at hlast
        contradiction

theorem conn_le_period (o : Observed) (hnone : o.checked_dbus.bus_conn = none)
    (events : List BusEvent) (conn : ℕ)
    (hconn : (o.after events).checked_dbus.bus_conn = some conn) :
    conn ≤ (o.bus.after events).period := by
  obtain ⟨pre, post, rfl, -, rfl⟩ := conn_opened o hnone events conn hconn
  rw [Bus.after_append]
  exact Bus.period_after _ _

theorem isAlive_of_none (o : Observed) (hconn : o.checked_dbus.bus_conn = none) :
    o.isAlive.1 = o.bus.up := by
  rw [isAlive, isDbusAlive_eq, hconn]
  cases hup : o.bus.up <;> simp [Bus.connect, Bus.call, hup]

theorem isAlive_of_some (o : Observed) (conn : ℕ) (hconn : o.checked_dbus.bus_conn = some conn) :
    o.isAlive.1 = (o.bus.up && conn = o.bus.period) := by
  rw [isAlive, isDbusAlive_eq, hconn]
  rfl

theorem conn_of_check (o : Observed) (hnone : o.checked_dbus.bus_conn = none)
    (pre : List BusEvent) (hup : (o.bus.after pre).up = true) :
    ∃ conn, ((o.after pre).next .check).checked_dbus.bus_conn = some conn ∧
      conn ≤ (o.bus.after pre).period := by
  cases hconn : (o.after pre).checked_dbus.bus_conn with
  | some conn => exact ⟨conn, next_conn _ _ conn hconn, conn_le_period o hnone pre conn hconn⟩
  | none =>
    refine ⟨(o.bus.after pre).period, ?_, le_rfl⟩
    rw [next_check_conn, hconn, after_bus, Bus.connect, if_pos hup]
    rfl

end Observed

def TellsState (o : Observed) (events : List BusEvent) : Prop :=
  ∀ pre post, events = pre ++ .check :: post → (o.after pre).isAlive.1 = (o.bus.after pre).up

/-- A check finds the bus up, the bus goes down, and another check comes when it is up
again. -/
def ChecksAcrossRestart (bus : Bus) (events : List BusEvent) : Prop :=
  ∃ pre mid post, events = pre ++ .check :: (mid ++ .check :: post) ∧
    (bus.after pre).up = true ∧ .down ∈ mid ∧ (bus.after (pre ++ .check :: mid)).up = true

theorem tellsState_iff (o : Observed) (hnone : o.checked_dbus.bus_conn = none)
    (events : List BusEvent) : TellsState o events ↔ ¬ChecksAcrossRestart o.bus events := by
  constructor
  · rintro tells ⟨pre, mid, post, rfl, hup, hdown, hagain⟩
    obtain ⟨conn, hconn, hle⟩ := o.conn_of_check hnone pre hup
    have hkept : (o.after (pre ++ .check :: mid)).checked_dbus.bus_conn = some conn := by
      rw [Observed.after_append]
      exact Observed.after_conn _ mid conn hconn
    have hlt : (o.bus.after pre).period < (o.bus.after (pre ++ .check :: mid)).period := by
      rw [Bus.after_append] at hagain ⊢
      exact Bus.after_of_down _ _ (List.mem_cons_of_mem _ hdown) hagain
    have halive := tells (pre ++ .check :: mid) post (by simp)
    rw [Observed.isAlive_of_some _ conn hkept, Observed.after_bus, hagain, Bool.true_and,
      decide_eq_true_eq] at halive
    omega
  · intro hno pre post hevents
    cases hconn : (o.after pre).checked_dbus.bus_conn with
    | none => rw [Observed.isAlive_of_none _ hconn, Observed.after_bus]
    | some conn =>
      rw [Observed.isAlive_of_some _ conn hconn, Observed.after_bus]
      cases hup : (o.bus.after pre).up with
      | false => rfl
      | true =>
        obtain ⟨first, mid, rfl, hfirst, rfl⟩ := o.conn_opened hnone pre conn hconn
        have hdown : .down ∉ mid := by
          intro hdown
          exact hno ⟨first, mid, post, by simp [hevents], hfirst, hdown, hup⟩
        have hsame : o.bus.after (first ++ .check :: mid) = o.bus.after first := by
          rw [Bus.after_append]
          exact Bus.after_of_not_down _ _ hfirst (by simp [hdown])
        simp [hsame]

def observedA : Observed := ⟨⟨true, 0⟩, ⟨CString.literal [98, 117, 115], none⟩⟩

theorem tellsState_iff_observedA :
    TellsState observedA [.check, .down, .check] ↔
      ¬ChecksAcrossRestart observedA.bus [.check, .down, .check] :=
  tellsState_iff observedA rfl _

theorem not_tellsState_restart : ¬TellsState observedA [.check, .down, .up, .check] := by
  intro tells
  have := tells [.check, .down, .up] [] rfl
  revert this
  decide

end NodeHealthMonitor.BusObservation
