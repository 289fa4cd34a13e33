import NodeHealthMonitor.Connection
import NodeHealthMonitor.Transition

/-! The observation of systemd beside a systemd that runs on. The ActiveState of a unit is
read first and its signal is subscribed to afterwards, in `nhm_systemd_connect` as well as
in `nhm_systemd_unit_added`; in between the NHM hears of no change. -/

namespace NodeHealthMonitor.ObservationSetup
open DBus NhmSystemd

inductive Activity where
  | connecting
  | listing (units : List ListedUnit) (vars : ListVars)
  | idle
  | adding (name : CString) (path : StrPtr) (active_state : NhmActiveState)
  | updating (unit : Addr) (active_state : NhmActiveState)

structure World where
  truth : CString → CString
  systemd : NhmSystemd.State
  /-- The subscriptions a `PropertiesChanged` signal waits for, in order. -/
  queue : List ℕ
  activity : Activity

inductive Event where
  | change (path active_state : CString)
  | listUnits (units : List (CString × CString))
  | unitNew (parameters : Body)
  | unitRemoved (parameters : Body)
  | receive
  | proceed

def Handler.watches : Handler → Bool
  | .unitPropertiesChanged _ => true
  | _ => false

def World.watchers (w : World) (path : CString) : List ℕ :=
  (w.systemd.subscriptions.filter fun sub =>
    sub.object_path = some path ∧ Handler.watches sub.handler).map (·.id)

def World.reply (w : World) (path : StrPtr) : Option Value :=
  match path with
  | .string path => some (.string (w.truth path))
  | _ => none

def stateChanged : Body := .propertiesChanged CString.empty [] [activeStateProp]

/-- The signal at the head of the queue, up to the reply to `Get`. -/
def World.receive (glib : GLib) (w : World) : Option World :=
  match w.queue with
  | [] => some w
  | id :: queue =>
      match w.systemd.handlerOf id with
      | some (.unitPropertiesChanged addr) => do
          let unit ← w.systemd.heap addr
          let (active_state, _) ← unitPropertiesChangedRead glib stateChanged (w.reply unit.path)
            addr w.systemd
          let activity := match active_state with
            | some active_state => Activity.updating addr active_state
            | none => .idle
          some { w with queue := queue, activity := activity }
      | _ => some { w with queue := queue }

def World.unitNew (glib : GLib) (parameters : Body) (w : World) : Option World := do
  match ← unitAddedCheck glib parameters w.systemd with
  | none => some w
  | some (name, path) => do
      let (active_state, _) ← unitGetActiveState glib path (w.reply path) w.systemd
      some { w with activity := .adding name path active_state }

/-- The next step of what the NHM is in the middle of. -/
def World.proceed (glib : GLib) (w : World) : Option World :=
  match w.activity with
  | .listing [] _ => some { w with activity := .idle }
  | .listing (unit :: units) vars => do
      let (vars, systemd) ← connectUnit glib unit vars w.systemd
      some { w with systemd := systemd, activity := .listing units vars }
  | .adding name path active_state => do
      let systemd ← unitAddedSubscribe name path active_state w.systemd
      some { w with systemd := systemd, activity := .idle }
  | .updating unit active_state => do
      let (systemd, _) ← unitUpdate unit active_state w.systemd
      some { w with systemd := systemd, activity := .idle }
  | _ => some w

def World.whenIdle (w : World) (next : Option World) : Option World :=
  match w.activity with
  | .idle => next
  | _ => some w

/-- Systemd and the NHM take turns in any order; a step the NHM is not ready for waits. -/
def step (glib : GLib) (w : World) (event : Event) : Option World :=
  match event with
  | .change path active_state =>
      if active_state = w.truth path then some w
      else some { w with
        truth := Function.update w.truth path active_state
        queue := w.queue ++ w.watchers path }
  | .listUnits units => match w.activity with
      | .connecting => some { w with
          activity := .listing (units.map fun unit => ⟨unit.1, w.truth unit.2, unit.2⟩) {} }
      | _ => some w
  | .unitNew parameters => w.whenIdle (w.unitNew glib parameters)
  | .unitRemoved parameters => w.whenIdle do
      let (systemd, _) ← unitRemoved glib parameters w.systemd
      some { w with systemd := systemd }
  | .receive => w.whenIdle (w.receive glib)
  | .proceed => w.proceed glib

theorem listing_run (glib : GLib) (units : List ListedUnit) (vars : ListVars) (w : World) :
    Transition.run (step glib) { w with activity := .listing units vars }
        (List.replicate (units.length + 1) .proceed) =
      (connectUnits glib units vars w.systemd).map fun systemd =>
        { w with systemd := systemd, activity := .idle } := by
  induction units generalizing vars w with
  | nil => rfl
  | cons unit units ih =>
    rw [List.length_cons, List.replicate_succ, Transition.run, connectUnits]
    cases hunit : connectUnit glib unit vars w.systemd with
    | none => simp [step, World.proceed, hunit]
    | some next =>
      obtain ⟨vars', systemd⟩ := next
      have hrest := ih vars' { w with systemd := systemd }
      simpa [step, World.proceed, hunit] using hrest

section
variable {glib : GLib} {w : World} (hidle : w.activity = .idle)
include hidle

theorem receive_proceed_run {id : ℕ} {queue : List ℕ} (hqueue : w.queue = id :: queue)
    {addr : Addr} (hhandler : w.systemd.handlerOf id = some (.unitPropertiesChanged addr))
    {unit : NhmSystemdUnit} (hunit : w.systemd.heap addr = some unit) :
    Transition.run (step glib) w [.receive, .proceed] =
      (unitPropertiesChanged glib stateChanged (w.reply unit.path) addr w.systemd).map
        fun result => { w with systemd := result.1, queue := queue } := by
  have hreceive : step glib w .receive = w.receive glib := by
    rw [step, World.whenIdle, hidle]
  have hrun : ∀ event, Transition.run (step glib) w [.receive, event] =
      (w.receive glib).bind fun mid => (step glib mid event).bind some := fun event => by
    rw [Transition.run, hreceive]
    rfl
  rw [hrun, World.receive, hqueue, unitPropertiesChanged]
  cases hread : unitPropertiesChangedRead glib stateChanged (w.reply unit.path) addr w.systemd with
  | none => simp [hhandler, hunit, hread]
  | some read =>
    obtain ⟨active_state, sent⟩ := read
    cases active_state with
    | none => simp [hhandler, hunit, hread, step, World.proceed, hidle]
    | some active_state =>
      cases hupdate : unitUpdate addr active_state w.systemd <;>
        simp [hhandler, hunit, hread, step, World.proceed, hidle, hupdate]

theorem unitNew_proceed_run (delivers : glib.Delivers) (name path : CString) :
    Transition.run (step glib) w [.unitNew (.unit name path), .proceed] =
      (unitAdded glib (.unit name path) (w.reply (.string path)) w.systemd).map
        fun result => { w with systemd := result.1 } := by
  obtain ⟨truth, s, queue, activity⟩ := w
  obtain rfl : activity = .idle := hidle
  simp only [Transition.run, step, World.whenIdle, World.unitNew, unitAdded,
    unitAddedCheck_unit delivers]
  by_cases hservice : isService name = true
  · cases hfind : findUnit s.heap name s.observed_units with
    | none => simp [hservice]
    | some found =>
      cases found with
      | some addr => simp [hservice, World.proceed]
      | none =>
        simp only [hservice, if_true, Option.map_some, Option.bind_eq_bind, Option.bind_some,
          World.reply]
        cases hget : unitGetActiveState glib (.string path) (some (.string (truth path))) s with
        | none => rfl
        | some got =>
          obtain ⟨active_state, sent⟩ := got
          cases hsubscribe : unitAddedSubscribe name (.string path) active_state s <;>
            simp [hsubscribe, World.proceed]
  · simp [hservice, World.proceed]

end

/-- The state that is subscribed with is still the true one. -/
def StillTrue (w : World) (event : Event) : Prop :=
  match event, w.activity with
  | .proceed, .listing (unit :: _) _ => isService unit.name = true →
      activeStateStringToEnum unit.active_state = activeStateStringToEnum (w.truth unit.path)
  | .proceed, .adding _ (.string path) active_state =>
      active_state = activeStateStringToEnum (w.truth path)
  | _, _ => True

/-- The ActiveState recorded of a unit, behind the update that is under way. -/
def Activity.recorded (activity : Activity) (a : Addr) (unit : NhmSystemdUnit) : NhmActiveState :=
  match activity with
  | .updating addr active_state => if addr = a then active_state else unit.active_state
  | _ => unit.active_state

def NoUpdate (activity : Activity) : Prop :=
  ∀ a unit, activity.recorded a unit = unit.active_state

def Known (w : World) (a : Addr) : Prop :=
  ∀ unit path, w.systemd.heap a = some unit → unit.path = .string path →
    unit.sig_sub_id ∈ w.queue ∨ w.activity.recorded a unit = activeStateStringToEnum (w.truth path)

def Activity.Proper (activity : Activity) (s : NhmSystemd.State) : Prop :=
  match activity with
  | .adding _ path _ => ∃ string, path = .string string
  | .updating addr _ => addr ∈ s.observed_units
  | _ => True

structure Attentive (w : World) : Prop where
  coherent : Coherent w.systemd
  proper : w.activity.Proper w.systemd
  known : ∀ a ∈ w.systemd.observed_units, Known w a

theorem stateChanged_read {glib : GLib} (delivers : glib.Delivers) {s : NhmSystemd.State}
    (hconn : s.conn = true) {addr : Addr} {unit : NhmSystemdUnit} {path : CString}
    (hunit : s.heap addr = some unit) (hpath : unit.path = .string path) (reply : Option Value) :
    unitPropertiesChangedRead glib stateChanged reply addr s =
      some (some (readState reply), [.get path]) := by
  have hsearch : NhmHelper.strInStrv activeStateProp (some [activeStateProp]) = true :=
    (NhmHelper.search_iff _ _).mpr List.mem_cons_self
  simp [unitPropertiesChangedRead, stateChanged, delivers.invalidated, hsearch, hunit, hpath,
    unitGetActiveState_eq delivers hconn]

theorem observed_of_handlerOf {s : NhmSystemd.State} (coherent : Coherent s) {id : ℕ} {addr : Addr}
    (h : s.handlerOf id = some (.unitPropertiesChanged addr)) : addr ∈ s.observed_units := by
  rw [State.handlerOf, Option.map_eq_some_iff] at h
  obtain ⟨sub, hfind, hhandler⟩ := h
  exact (coherent.watched sub (List.mem_of_find?_eq_some hfind) addr hhandler).1

theorem unitUpdate_apply {s : NhmSystemd.State} (coherent : Coherent s) {addr : Addr}
    {unit : NhmSystemdUnit} (hunit : s.heap addr = some unit) (active_state : NhmActiveState) :
    ∃ called, unitUpdate addr active_state s =
      some ((Move.changed addr active_state).apply s, called) := by
  by_cases hne : unit.active_state = active_state
  · subst hne
    refine ⟨[], ?_⟩
    have hsame : Function.update s.heap addr (some unit) = s.heap := by
      rw [← hunit, Function.update_eq_self]
    simp [unitUpdate, hunit, changed_apply hunit, hsame]
  · obtain ⟨called, hupdate, -⟩ := unitUpdate_eq coherent.usable addr unit hunit active_state hne
    exact ⟨called, hupdate⟩

theorem unitAddedCheck_some {glib : GLib} (delivers : glib.Delivers) {s : NhmSystemd.State}
    (coherent : Coherent s) (parameters : Body) :
    ∃ found : Option (CString × CString), unitAddedCheck glib parameters s =
      some (found.map fun unit => (unit.1, .string unit.2)) := by
  cases parameters with
  | unit name path =>
    rw [unitAddedCheck_unit delivers, coherent.usable.findUnit_eq, Option.map_some]
    split
    · split
      · exact ⟨some (name, path), rfl⟩
      · exact ⟨none, rfl⟩
    · exact ⟨none, rfl⟩
  | _ => exact ⟨none, rfl⟩

theorem announced_unitRemoved (parameters : Body) (reply : Option Value) (s : NhmSystemd.State) :
    announced .unitRemoved parameters reply s = .stay ∨
      ∃ addr, announced .unitRemoved parameters reply s = .removed addr := by
  cases parameters with
  | unit name path =>
    rw [announced]
    split
    · exact Or.inr ⟨_, rfl⟩
    · exact Or.inl rfl
  | _ => exact Or.inl rfl

section
variable {w : World} (attentive : Attentive w)
include attentive

theorem change_attentive (path active_state : CString) :
    Attentive { w with
      truth := Function.update w.truth path active_state
      queue := w.queue ++ w.watchers path } := by
  refine ⟨attentive.coherent, attentive.proper, fun a ha unit p hunit hpath => ?_⟩
  by_cases hp : p = path
  · subst hp
    obtain ⟨unit', p', hunit', hpath', hsub⟩ := attentive.coherent.listed a ha
    obtain rfl := Option.some.inj (hunit.symm.trans hunit')
    obtain rfl := StrPtr.string.inj (hpath.symm.trans hpath')
    have hwatching : ⟨unit.sig_sub_id, some p, .unitPropertiesChanged a⟩ ∈
        w.systemd.subscriptions.filter fun sub =>
          sub.object_path = some p ∧ Handler.watches sub.handler :=
      List.mem_filter.mpr ⟨hsub, by simp [Handler.watches]⟩
    exact Or.inl (List.mem_append_right _ (List.mem_map.mpr ⟨_, hwatching, rfl⟩))
  · rcases attentive.known a ha unit p hunit hpath with hqueue | htrue
    · exact Or.inl (List.mem_append_left _ hqueue)
    · refine Or.inr ?_
      change _ = activeStateStringToEnum (Function.update w.truth path active_state p)
      rw [Function.update_of_ne hp]
      exact htrue

theorem handlerOf_unit {a : Addr} (ha : a ∈ w.systemd.observed_units) {unit : NhmSystemdUnit}
    (hunit : w.systemd.heap a = some unit) :
    w.systemd.handlerOf unit.sig_sub_id = some (.unitPropertiesChanged a) := by
  obtain ⟨unit', path, hunit', -, hown⟩ := attentive.coherent.listed a ha
  obtain rfl := Option.some.inj (hunit.symm.trans hunit')
  rw [State.handlerOf]
  cases hfind : w.systemd.subscriptions.find? fun sub => sub.id = unit.sig_sub_id with
  | none => simpa using List.find?_eq_none.mp hfind _ hown
  | some sub =>
    have hid : sub.id = unit.sig_sub_id := by simpa using List.find?_some hfind
    rw [attentive.coherent.ids sub (List.mem_of_find?_eq_some hfind) _ hown hid]
    rfl

theorem mem_queue_of_ne {id : ℕ} {queue : List ℕ} (hqueue : w.queue = id :: queue)
    (hidle : w.activity = .idle) {a : Addr} (ha : a ∈ w.systemd.observed_units)
    (hother : w.systemd.handlerOf id ≠ some (.unitPropertiesChanged a))
    {unit : NhmSystemdUnit} {path : CString} (hunit : w.systemd.heap a = some unit)
    (hpath : unit.path = .string path) :
    unit.sig_sub_id ∈ queue ∨ unit.active_state = activeStateStringToEnum (w.truth path) := by
  have hknown := attentive.known a ha unit path hunit hpath
  rw [hqueue, hidle, List.mem_cons] at hknown
  refine hknown.imp_left fun h => h.resolve_left ?_
  rintro rfl
  exact hother (handlerOf_unit attentive ha hunit)

theorem dropped_attentive {id : ℕ} {queue : List ℕ} (hqueue : w.queue = id :: queue)
    (hidle : w.activity = .idle)
    (hnone : ∀ a, w.systemd.handlerOf id ≠ some (.unitPropertiesChanged a)) :
    Attentive { w with queue := queue } where
  coherent := attentive.coherent
  proper := attentive.proper
  known a ha unit path hunit hpath := by
    rw [hidle]
    exact mem_queue_of_ne attentive hqueue hidle ha (hnone a) hunit hpath

theorem receive_attentive {glib : GLib} (delivers : glib.Delivers) (hidle : w.activity = .idle) :
    ∃ next, w.receive glib = some next ∧ Attentive next := by
  cases hqueue : w.queue with
  | nil => exact ⟨w, by rw [World.receive, hqueue], attentive⟩
  | cons id queue =>
    by_cases hwatched : ∃ addr, w.systemd.handlerOf id = some (.unitPropertiesChanged addr)
    · obtain ⟨addr, hhandler⟩ := hwatched
      have haddr := observed_of_handlerOf attentive.coherent hhandler
      obtain ⟨unit, path, hunit, hpath, -⟩ := attentive.coherent.listed addr haddr
      have hread := stateChanged_read delivers attentive.coherent.conn hunit hpath
        (w.reply unit.path)
      have hreply : readState (w.reply unit.path) = activeStateStringToEnum (w.truth path) := by
        rw [hpath]
        rfl
      refine ⟨{ w with
          queue := queue, activity := .updating addr (activeStateStringToEnum (w.truth path)) },
        by simp [World.receive, hqueue, hhandler, hunit, hread, hreply], attentive.coherent,
        haddr, fun a ha other p hother hp => ?_⟩
      by_cases hne : addr = a
      · subst hne
        obtain rfl := Option.some.inj (hunit.symm.trans hother)
        obtain rfl := StrPtr.string.inj (hpath.symm.trans hp)
        exact Or.inr (if_pos rfl)
      · have hother := mem_queue_of_ne attentive hqueue hidle ha
          (by simpa [hhandler] using hne) hother hp
        simpa [Activity.recorded, hne] using hother
    · refine ⟨{ w with queue := queue }, ?_, dropped_attentive attentive hqueue hidle
        fun a h => hwatched ⟨a, h⟩⟩
      rw [World.receive, hqueue]
      dsimp only
      split
      · rename_i addr hhandler
        exact absurd ⟨addr, hhandler⟩ hwatched
      · rfl

theorem newUnit_attentive (name path : CString) (active_state : NhmActiveState)
    (units : List Addr)
    (hunits : ∀ a, a ∈ units ↔ a = w.systemd.next_addr ∨ a ∈ w.systemd.observed_units)
    (hnodup : units.Nodup) (htrue : active_state = activeStateStringToEnum (w.truth path))
    (hrecorded : NoUpdate w.activity) (activity : Activity) (hactivity : NoUpdate activity)
    (hproper : activity.Proper (w.systemd.newUnit name path active_state units)) :
    Attentive { w with
      systemd := w.systemd.newUnit name path active_state units, activity := activity } := by
  refine ⟨attentive.coherent.newUnit name path active_state units hunits hnodup, hproper,
    fun a ha unit p hunit hpath => ?_⟩
  rcases observed_newUnit hunits ha hunit with ⟨rfl, rfl⟩ | ⟨-, ha, hunit⟩
  · obtain rfl := StrPtr.string.inj hpath
    exact Or.inr ((hactivity _ _).trans htrue)
  · have hknown := attentive.known a ha unit p hunit hpath
    rw [hrecorded] at hknown
    rwa [hactivity]

theorem turn_attentive (hrecorded : NoUpdate w.activity) (activity : Activity)
    (hactivity : NoUpdate activity) (hproper : activity.Proper w.systemd) :
    Attentive { w with activity := activity } := by
  refine ⟨attentive.coherent, hproper, fun a ha unit path hunit hpath => ?_⟩
  have hknown := attentive.known a ha unit path hunit hpath
  rw [hrecorded] at hknown
  rwa [hactivity]

theorem unitNew_attentive {glib : GLib} (delivers : glib.Delivers) (hidle : w.activity = .idle)
    (parameters : Body) : ∃ next, w.unitNew glib parameters = some next ∧ Attentive next := by
  obtain ⟨found, hcheck⟩ := unitAddedCheck_some delivers attentive.coherent parameters
  cases found with
  | none => exact ⟨w, by rw [World.unitNew, hcheck]; rfl, attentive⟩
  | some unit =>
    obtain ⟨name, path⟩ := unit
    have hget := unitGetActiveState_eq delivers attentive.coherent.conn path
      (w.reply (.string path))
    have hturn := turn_attentive attentive (by rw [hidle]; exact fun _ _ => rfl)
      (.adding name (.string path) (readState (w.reply (.string path)))) (fun _ _ => rfl)
      ⟨path, rfl⟩
    exact ⟨_, by rw [World.unitNew, hcheck]; simp [hget], hturn⟩

theorem removed_attentive (hidle : w.activity = .idle) {addr : Addr}
    (haddr : addr ∈ w.systemd.observed_units) :
    Attentive { w with systemd := (Move.removed addr).apply w.systemd } := by
  obtain ⟨old, -, hold, -⟩ := attentive.coherent.listed addr haddr
  refine ⟨attentive.coherent.removed addr haddr, by rw [hidle]; trivial,
    fun a ha unit path hunit hpath => ?_⟩
  obtain ⟨-, ha, hunit⟩ := observed_removed hold ha hunit
  exact attentive.known a ha unit path hunit hpath

theorem unitRemoved_attentive {glib : GLib} (delivers : glib.Delivers) (hidle : w.activity = .idle)
    (parameters : Body) : ∃ systemd sent, unitRemoved glib parameters w.systemd =
      some (systemd, sent) ∧ Attentive { w with systemd := systemd } := by
  obtain ⟨sent, hremoved, -⟩ :=
    unitRemoved_performs delivers attentive.coherent.usable parameters none
  refine ⟨_, sent, hremoved, ?_⟩
  have valid : (announced .unitRemoved parameters none w.systemd).Valid w.systemd :=
    announced_valid _ _ _ nofun
  rcases announced_unitRemoved parameters none w.systemd with hmove | ⟨addr, hmove⟩
  · rw [hmove]
    exact attentive
  · rw [hmove] at valid ⊢
    exact removed_attentive attentive hidle valid

theorem updated_attentive {addr : Addr} {active_state : NhmActiveState}
    (hactivity : w.activity = .updating addr active_state) {old : NhmSystemdUnit}
    (hold : w.systemd.heap addr = some old) : Attentive { w with
      systemd := (Move.changed addr active_state).apply w.systemd, activity := .idle } := by
  have haddr : addr ∈ w.systemd.observed_units := by
    have hproper := attentive.proper
    rwa [hactivity] at hproper
  refine ⟨attentive.coherent.changed addr haddr active_state, trivial,
    fun a ha unit path hunit hpath => ?_⟩
  rcases observed_changed hold ha hunit with ⟨rfl, rfl⟩ | ⟨hne, ha, hunit⟩
  · have hknown := attentive.known a haddr old path hold hpath
    rwa [hactivity, Activity.recorded, if_pos rfl] at hknown
  · have hknown := attentive.known a ha unit path hunit hpath
    rwa [hactivity, Activity.recorded, if_neg hne.symm] at hknown

theorem listed_attentive (unit : ListedUnit)
    (htrue : isService unit.name = true → activeStateStringToEnum unit.active_state =
      activeStateStringToEnum (w.truth unit.path))
    (hrecorded : NoUpdate w.activity) (units : List ListedUnit) (vars : ListVars) :
    Attentive { w with
      systemd := w.systemd.listUnit unit, activity := .listing units vars } := by
  by_cases hservice : isService unit.name = true
  · rw [State.listUnit, if_pos hservice]
    exact newUnit_attentive attentive _ _ _ _ (mem_listed w.systemd)
      attentive.coherent.nodup_listed (htrue hservice) hrecorded _ (fun _ _ => rfl) trivial
  · rw [State.listUnit, if_neg hservice]
    exact turn_attentive attentive hrecorded _ (fun _ _ => rfl) trivial

theorem proceed_attentive {glib : GLib} (delivers : glib.Delivers)
    (still : StillTrue w .proceed) : ∃ next, w.proceed glib = some next ∧ Attentive next := by
  have coherent := attentive.coherent
  have hproper := attentive.proper
  cases hactivity : w.activity with
  | connecting => exact ⟨w, by rw [World.proceed, hactivity], attentive⟩
  | idle => exact ⟨w, by rw [World.proceed, hactivity], attentive⟩
  | listing units vars =>
    have hrecorded : NoUpdate w.activity := by
      rw [hactivity]
      exact fun _ _ => rfl
    cases units with
    | nil => exact ⟨_, by rw [World.proceed, hactivity],
        turn_attentive attentive hrecorded .idle (fun _ _ => rfl) trivial⟩
    | cons unit units =>
      obtain ⟨vars', hunit⟩ := connectUnit_eq delivers.fitting unit vars w.systemd coherent.conn
      simp only [StillTrue, hactivity] at still
      exact ⟨_, by rw [World.proceed, hactivity]; simp [hunit],
        listed_attentive attentive unit still hrecorded units vars'⟩
  | adding name path active_state =>
    rw [hactivity] at hproper
    obtain ⟨path, rfl⟩ := hproper
    have hsubscribe := unitAddedSubscribe_eq coherent.conn name path active_state
    simp only [StillTrue, hactivity] at still
    have hnext := newUnit_attentive attentive name path active_state _
      (fun a => List.mem_cons) coherent.nodup_cons still (by rw [hactivity]; exact fun _ _ => rfl)
      .idle (fun _ _ => rfl) trivial
    exact ⟨_, by rw [World.proceed, hactivity]; simp [hsubscribe], hnext⟩
  | updating addr active_state =>
    rw [hactivity] at hproper
    obtain ⟨old, -, hold, -⟩ := coherent.listed addr hproper
    obtain ⟨called, hupdate⟩ := unitUpdate_apply coherent hold active_state
    exact ⟨_, by rw [World.proceed, hactivity]; simp [hupdate],
      updated_attentive attentive hactivity hold⟩

theorem whenIdle_attentive {next : Option World}
    (h : w.activity = .idle → ∃ last, next = some last ∧ Attentive last) :
    ∃ last, w.whenIdle next = some last ∧ Attentive last := by
  unfold World.whenIdle
  split
  · rename_i hidle
    exact h hidle
  · exact ⟨w, rfl, attentive⟩

theorem step_attentive {glib : GLib} (delivers : glib.Delivers) (event : Event)
    (still : StillTrue w event) : ∃ next, step glib w event = some next ∧ Attentive next := by
  cases event with
  | change path active_state =>
    rw [step]
    split
    · exact ⟨w, rfl, attentive⟩
    · exact ⟨_, rfl, change_attentive attentive path active_state⟩
  | listUnits units =>
    rw [step]
    split
    · rename_i hconnecting
      exact ⟨_, rfl, turn_attentive attentive (by rw [hconnecting]; exact fun _ _ => rfl) _
        (fun _ _ => rfl) trivial⟩
    · exact ⟨w, rfl, attentive⟩
  | unitNew parameters =>
    exact whenIdle_attentive attentive fun hidle =>
      unitNew_attentive attentive delivers hidle parameters
  | unitRemoved parameters =>
    refine whenIdle_attentive attentive fun hidle => ?_
    obtain ⟨systemd, sent, hremoved, hnext⟩ :=
      unitRemoved_attentive attentive delivers hidle parameters
    exact ⟨_, by simp [hremoved], hnext⟩
  | receive =>
    exact whenIdle_attentive attentive fun hidle => receive_attentive attentive delivers hidle
  | proceed => exact proceed_attentive attentive delivers still

end

/-- Between handlers and with no signal waiting, the true state of every observed unit is
recorded. -/
def Recorded (w : World) : Prop :=
  w.activity = .idle → w.queue = [] → ∀ a ∈ w.systemd.observed_units, ∃ unit path,
    w.systemd.heap a = some unit ∧ unit.path = .string path ∧
      unit.active_state = activeStateStringToEnum (w.truth path)

theorem Attentive.recorded {w : World} (attentive : Attentive w) : Recorded w := by
  intro hidle hqueue a ha
  obtain ⟨unit, path, hunit, hpath, -⟩ := attentive.coherent.listed a ha
  have hknown := attentive.known a ha unit path hunit hpath
  rw [hidle, hqueue] at hknown
  exact ⟨unit, path, hunit, hpath, hknown.resolve_left List.not_mem_nil⟩

def World.start (truth : CString → CString) (systemd : NhmSystemd.State) : World :=
  ⟨truth, systemd, [], .connecting⟩

/-- In every run in which no state changes between its reading and the subscription, the
observation is up to date in every state reached. -/
theorem recorded_run {glib : GLib} (delivers : glib.Delivers) (env : ConnectEnv)
    (systemd : NhmSystemd.State) (sent : List Output)
    (hsubscribe : connectSubscribe env true {} = some (true, systemd, sent))
    (truth : CString → CString) (events : List Event)
    (still : Transition.AllSteps (step glib) StillTrue (.start truth systemd) events) :
    ∃ last, Transition.run (step glib) (.start truth systemd) events = some last ∧
      Recorded last := by
  have start : Attentive (.start truth systemd) := by
    rw [connectSubscribe_true env true {} systemd sent hsubscribe]
    exact ⟨connected_coherent, trivial, fun a ha => absurd ha List.not_mem_nil⟩
  obtain ⟨last, hrun, hlast⟩ := Transition.run_invariant (step glib) Attentive StillTrue
    (fun w event attentive still => step_attentive attentive delivers event still) events _ start
    still
  exact ⟨last, hrun, hlast.recorded⟩

def unitA : CString × CString := ((serviceA strInactive).name, (serviceA strInactive).path)

theorem recorded_run_listed : ∃ systemd sent last unit,
    connectSubscribe {} true {} = some (true, systemd, sent) ∧
    Transition.run (step handingOver) (.start (fun _ => strInactive) systemd)
      [.listUnits [unitA], .proceed, .proceed, .change unitA.2 strFailed, .receive, .proceed] =
        some last ∧
    Recorded last ∧ last.systemd.heap 0 = some unit ∧ unit.active_state = .failed := by
  obtain ⟨last, hrun, hrecorded⟩ := recorded_run handingOver_delivers {} _ _ rfl
    (fun _ => strInactive)
    [.listUnits [unitA], .proceed, .proceed, .change unitA.2 strFailed, .receive, .proceed]
    ⟨trivial, fun _ h => Option.some.inj h ▸ ⟨fun _ => rfl, fun _ h => Option.some.inj h ▸
      ⟨trivial, fun _ h => Option.some.inj h ▸ ⟨trivial, fun _ h => Option.some.inj h ▸
        ⟨trivial, fun _ h => Option.some.inj h ▸ ⟨trivial, fun _ _ => trivial⟩⟩⟩⟩⟩⟩
  obtain rfl := Option.some.inj hrun
  exact ⟨_, _, _, _, rfl, rfl, hrecorded, rfl, rfl⟩

/-- The unit fails behind the answer to `ListUnits`, or behind the reply to the `Get` for a
new unit, and before it is subscribed to. -/
theorem not_recorded_changed :
    (∃ last, Transition.run (step handingOver) (.start (fun _ => strInactive) (.connected {}))
        [.listUnits [unitA], .change unitA.2 strFailed, .proceed, .proceed] = some last ∧
      ¬Recorded last) ∧
    ∃ last, Transition.run (step handingOver) (.start (fun _ => strInactive) (.connected {}))
        [.listUnits [], .proceed, .unitNew (.unit unitA.1 unitA.2), .change unitA.2 strFailed,
          .proceed] = some last ∧ ¬Recorded last := by
  refine ⟨⟨_, rfl, fun h => ?_⟩, _, rfl, fun h => ?_⟩
  · obtain ⟨unit, path, hunit, hpath, hstate⟩ := h rfl rfl 0 (by decide)
    cases hunit
    cases hpath
    exact absurd hstate (by decide)
  · obtain ⟨unit, path, hunit, hpath, hstate⟩ := h rfl rfl 0 (by decide)
    cases hunit
    cases hpath
    exact absurd hstate (by decide)

end NodeHealthMonitor.ObservationSetup
