import NodeHealthMonitor.MemorySafety
import NodeHealthMonitor.ProgramHistory

/-! How much memory the run-time data takes. It is the records that were loaded, one record for
each application that has failed, and one for each that is failed at the moment; the length of
the run does not matter. -/

namespace NodeHealthMonitor.RunTimeHeap
open LcData LinkedList MainLoop NhmMain OwnedMemory ReportHistory

theorem card_listCells {α : Type} {object : Placed α → Cells Block}
    (h : ∀ p, (object p).card = 2) (ps : List (Placed α)) :
    (listCells object ps).card = 3 * ps.length := by
  have hsum : ((ps.map object).sum).card = 2 * ps.length := by
    induction ps with
    | nil => rfl
    | cons p ps ih =>
      rw [List.map_cons, List.sum_cons, Multiset.card_add, h, ih, List.length_cons]
      omega
  rw [listCells, Multiset.card_add, card_chain, hsum, List.length_map]
  omega

def lcBlocks (lc : NhmLcInfo) : ℕ := 1 + 3 * lc.failed_apps.length

theorem card_lcCells (lc : LcAt) : lc.cells.card = lcBlocks lc.value := by
  rw [LcAt.cells, Multiset.card_cons, card_listCells fun p => rfl, lcBlocks, LcAt.value, values,
    List.length_map]
  omega

theorem card_arrayCells (array : ℕ) (lcs : List LcAt) :
    (arrayCells array lcs).card = 1 + ((lcs.map LcAt.value).map lcBlocks).sum := by
  have hsum : ((lcs.map LcAt.cells).sum).card = ((lcs.map LcAt.value).map lcBlocks).sum := by
    induction lcs with
    | nil => rfl
    | cons lc lcs ih =>
      rw [List.map_cons, List.sum_cons, Multiset.card_add, card_lcCells, ih]
      rfl
  rw [arrayCells, pointerArray, Multiset.card_cons, hsum, add_comm]

theorem card_cells {l : Layout} {lc : NhmLcInfo} {older : List NhmLcInfo}
    (ready : Ready l.state lc older) :
    l.cells.card = 2 + lcBlocks lc + (older.map lcBlocks).sum + 3 * l.state.failedNames.length := by
  have hcurrent : l.state.failedNames.length = l.current.length := by
    rw [State.failedNames, List.length_map]
    exact List.length_map _
  have hinfo : (infoCells l.info).card = 1 := by
    obtain ⟨a, ha⟩ := Option.isSome_iff_exists.mp ready.info
    rw [ha]
    rfl
  have hnodeinfo : (nodeinfoCells l.nodeinfo).card =
      1 + (lcBlocks lc + (older.map lcBlocks).sum) := by
    obtain ⟨⟨array, lcs⟩, hlcs, hvalues⟩ := Option.map_eq_some_iff.mp ready.nodeinfo
    change lcs.map LcAt.value = lc :: older at hvalues
    rw [hlcs]
    change (arrayCells array lcs).card = _
    rw [card_arrayCells, hvalues, List.map_cons, List.sum_cons]
  rw [Layout.cells, Multiset.card_add, Multiset.card_add, card_listCells fun p => rfl, hinfo,
    hnodeinfo, hcurrent]
  omega

def Recorded (cfg : Config) (disk : Disk) (older : List NhmLcInfo) (p : MainLoop.Program) : Prop :=
  ∃ named marks reports, Recording cfg disk older true named marks reports p

theorem Recorded.readable {cfg : Config} {disk : Disk} {older stored : List NhmLcInfo}
    (hstored : Stores disk stored) {p : MainLoop.Program} (recorded : Recorded cfg disk older p)
    {event : Event} (allowed : Allowed p event) : Readable p event := by
  cases event with
  | busAcquired env =>
    obtain ⟨named, marks, reports, rec⟩ := recorded
    obtain ⟨rfl, rfl⟩ := rec.waiting allowed.2
    obtain ⟨lc, current, -, -, hfile⟩ := rec.filed
    have hlcdata : p.main.disk.lcdata = disk.lcdata := hfile rfl
    cases hopen : env.fopen_r with
    | false => exact ⟨[], by rw [hopen, if_neg Bool.false_ne_true, LcData.readData]⟩
    | true =>
      refine ⟨stored.take p.main.cfg.max_lc_count.toNat, ?_⟩
      rw [if_pos hopen, hlcdata]
      exact hstored p.main.cfg.max_lc_count []
  | _ => trivial

section
variable {glib : DBus.GLib} (delivers : glib.Delivers) {sees : LoadedLc → NhmLcInfo}
  (hsees : ∀ lc value, LoadedLc.value lc = some value → sees lc = value)
include delivers hsees

theorem Recorded.advance {cfg : Config} {disk : Disk} {stored : List NhmLcInfo}
    (hstored : Stores disk stored) {p next : MainLoop.Program}
    (recorded : Recorded cfg disk (stored.take cfg.max_lc_count.toNat) p) {event : Event}
    (allowed : Allowed p event) (called : Called p event) (hopens : opens event = true)
    (h : MainLoop.advance glib sees p event = some next) :
    Recorded cfg disk (stored.take cfg.max_lc_count.toNat) next := by
  obtain ⟨named, marks, reports, rec⟩ := recorded
  obtain ⟨next', sent, hstep, -, hnext, -⟩ := rec.step sees delivers
    (fun _ => ⟨stored, hstored, rfl, hsees⟩) allowed called
  rw [MainLoop.advance, hstep] at h
  obtain rfl := Option.some.inj h
  rw [hopens] at hnext
  exact ⟨_, _, _, hnext⟩

/-- As long as the data file can be opened, the memory in use follows from what was stored in
it at the start and from the applications that were reported, however long the run is. -/
theorem memoryUse_run (A : Allocator Block) (cfg : Config) (disk : Disk) (env : NsmEnv)
    (stored : List NhmLcInfo) (hstored : Stores disk stored) (events : List Event)
    (possible : Transition.AllSteps (MainLoop.advance glib sees)
      (fun p event => Allowed p event ∧ Called p event) (.start cfg disk env) events)
    (hopens : ∀ event ∈ events, opens event = true) :
    ∃ q, Transition.run (advance glib A) (.start cfg disk env) events = some q ∧
      q.memory.cells.card = if q.running ∧ q.bus_acquired then
        3 + 3 * (ever isFailed (history glib {} events)).length +
          ((stored.take cfg.max_lc_count.toNat).map lcBlocks).sum +
          3 * (failedNow (history glib {} events)).length
      else 0 := by
  have start := recording_start cfg disk env (stored.take cfg.max_lc_count.toNat) true
  have ok : Transition.AllSteps (MainLoop.advance glib sees)
      (fun p event => Allowed p event ∧ Called p event ∧ Readable p event)
      (.start cfg disk env) events := by
    refine Transition.allSteps_imp _ (Recorded cfg disk (stored.take cfg.max_lc_count.toNat)) _ _
      ?_ ?_ _ events ⟨_, _, _, start⟩ (Transition.allSteps_and _ _ _ _ _ possible
        (Transition.allSteps_of_forall _ (fun event => opens event = true) _ events hopens))
    · rintro p event next recorded ⟨⟨allowed, called⟩, hopen⟩ h
      exact recorded.advance delivers hsees hstored allowed called hopen h
    · rintro p event recorded ⟨⟨allowed, called⟩, -⟩
      exact ⟨allowed, called, recorded.readable hstored allowed⟩
  obtain ⟨q, p, hq, hp, ⟨going, l, holds⟩, -⟩ :=
    refined_run delivers hsees A cfg disk env events ok
  obtain ⟨p', hp', hrec, -⟩ := start.run sees delivers
    (fun _ => ⟨stored, hstored, rfl, hsees⟩) events possible
  obtain rfl := Option.some.inj (hp.symm.trans hp')
  refine ⟨q, hq, ?_⟩
  rw [holds.memory, holds.running, holds.bus_acquired]
  split
  · rename_i hdata
    obtain ⟨-, -, lc, loaded, ready, -, tracks, hfile⟩ := hrec.onRecord hdata.1 hdata.2
    obtain ⟨rfl, -⟩ := hfile (by rw [Bool.and_true]; exact List.all_eq_true.mpr hopens)
    rw [List.append_nil] at tracks
    change Tracks (history glib {} events) lc p.main.failedNames at tracks
    have hlc : lcBlocks lc = 1 + 3 * (ever isFailed (history glib {} events)).length := by
      rw [lcBlocks, tracks.failed_apps_length]
    have hnames : l.state.failedNames.length = (failedNow (history glib {} events)).length := by
      rw [← holds.main, length_current tracks]
    rw [card_cells (holds.main ▸ ready), hlc, hnames]
    omega
  · rename_i hdata
    have hidle : p.bus_acquired = false ∨ p.running = false := by
      rcases Bool.eq_false_or_eq_true p.running with hrunning | hrunning
      · exact Or.inl (eq_false_of_ne_true fun hacquired => hdata ⟨hrunning, hacquired⟩)
      · exact Or.inr hrunning
    rw [(Layout.noData (holds.main ▸ going.idle hidle)).2.2]
    rfl

end

theorem memoryUse_run_failure :
    let events : List Event := [.busAcquired {},
      .request (.registerAppStatus {} (CString.literal [97]) NhmAppStatus.failed)]
    ∃ q, Transition.run (advance DBus.handingOver .next) (.start {} ⟨none, none⟩ {}) events =
        some q ∧
      q.memory.cells.card = if q.running ∧ q.bus_acquired then
        3 + 3 * (ever isFailed (history DBus.handingOver {} events)).length +
          ((([] : List NhmLcInfo).take 0).map lcBlocks).sum +
          3 * (failedNow (history DBus.handingOver {} events)).length
      else 0 :=
  memoryUse_run DBus.handingOver_delivers seesValue_eq .next {} ⟨none, none⟩ {} []
    (stores_none _ rfl) _ ⟨⟨⟨rfl, rfl⟩, trivial⟩, fun _ h => Option.some.inj h ▸
      ⟨⟨⟨rfl, rfl⟩, trivial⟩, fun _ _ => trivial⟩⟩ (by decide)

end NodeHealthMonitor.RunTimeHeap
