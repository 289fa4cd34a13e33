import NodeHealthMonitor.Lifecycles

/-! The statistics of an application over a whole run of life cycles. What is left of
earlier life cycles depends on `max_lc_count` alone: it limits what is stored and, in
the next life cycle, what is loaded. -/

namespace NodeHealthMonitor.NhmMain
open LcData ReportHistory

/-- The life cycles that life cycle `j` knows of, itself first, where `m j` is its
`max_lc_count`. -/
def retained (m : ℕ → ℕ) : ℕ → List ℕ
  | 0 => []
  | j + 1 => (j + 1) :: ((retained m j).take (m j)).take (m (j + 1))

structure Records (l : Lifecycle) (lc : NhmLcInfo) : Prop where
  failcount : ∀ a, appFailcount a lc = UInt32.ofNat (l.failures a)
  countable : lc.failed_apps.length < 2 ^ 32

theorem Tracks.records {l : Lifecycle} {lc : NhmLcInfo} {current : List CString}
    (tracks : Tracks l.reports lc current) (bounded : l.Bounded) : Records l lc where
  failcount := tracks.failcount
  countable := by
    rw [tracks.failed_apps_length]
    exact bounded.failed_apps

theorem run_serve_saved (requests : List Request) (older : List NhmLcInfo) (s : State)
    (following : Following [] older s) (saved : Saved s)
    (opens : ∀ request ∈ requests, request.opens = true) :
    ∃ next, Transition.run serve s requests = some next ∧
      Following (reportsOf requests) older next ∧ Saved next ∧ next.cfg = s.cfg := by
  have hrun := Transition.run_history serve
    (fun hist next => Following (hist.filterMap Request.report?) older next ∧ Saved next ∧
      next.cfg = s.cfg)
    (fun _ request => request.opens = true) ?_ requests [] s ⟨following, saved, rfl⟩
    (Transition.allSteps_of_forall serve _ s requests opens)
  · simpa only [List.append_nil, reportsOf] using hrun
  · rintro hist t request ⟨hfollowing, hsaved, hcfg⟩ hopens
    obtain ⟨next, sent, hstep, hnext, hkeeps⟩ := handle_following request hfollowing
    rw [hopens] at hkeeps
    refine ⟨next, by rw [serve, hstep]; rfl, ?_, hkeeps.saved hsaved, hkeeps.cfg.trans hcfg⟩
    cases hreport : request.report? <;> simpa [hreport] using hnext

theorem Lifecycle.run_following (l : Lifecycle) (ok : l.FilesOk) (disk : Disk)
    (stored : List NhmLcInfo) (hstored : Stores disk stored) :
    ∃ s, l.run disk = some s ∧ s.cfg = l.cfg ∧
      Following l.reports (stored.take l.cfg.max_lc_count.toNat) s ∧
      (l.serving.isSome = true → Saved s) := by
  obtain ⟨first, sent, hbus, hfirst, hcfg, -⟩ :=
    busAcquiredCb_following l.bus_acquired l.cfg disk stored hstored
  rw [ok.read, if_pos rfl] at hfirst
  cases hserving : l.serving with
  | none =>
    refine ⟨first, Lifecycle.run_waiting hbus hserving, hcfg, ?_, by simp⟩
    simpa [Lifecycle.reports, Lifecycle.requests, hserving, reportsOf] using hfirst
  | some served =>
    obtain ⟨env, requests⟩ := served
    obtain ⟨hopen, hopens⟩ := ok.written env requests hserving
    obtain ⟨second, sent', hname, hsecond, hcfg', hsaved, -⟩ :=
      nameAcquiredCb_following env hfirst
    obtain ⟨s, hrun, hlast, hsaved', hcfg''⟩ :=
      run_serve_saved requests _ second hsecond (hsaved hopen) hopens
    refine ⟨s, (Lifecycle.run_serving hbus hserving hname).trans hrun, ?_, ?_, fun _ => hsaved'⟩
    · rw [hcfg'', hcfg', hcfg]
    · simpa [Lifecycle.reports, Lifecycle.requests, hserving] using hlast

section
variable (lifecycle : ℕ → Lifecycle)

def maxLcCount (j : ℕ) : ℕ := (lifecycle j).cfg.max_lc_count.toNat

def Retains (ks : List ℕ) (nodeinfo : List NhmLcInfo) : Prop :=
  List.Forall₂ (fun k lc => Records (lifecycle k) lc) ks nodeinfo

variable {lifecycle}

theorem Retains.countable {ks : List ℕ} {nodeinfo : List NhmLcInfo}
    (retains : Retains lifecycle ks nodeinfo) (h : nodeinfo.length < 2 ^ 32) :
    Countable nodeinfo where
  lcs := h
  apps := by
    intro lc hlc
    induction retains with
    | nil => simp at hlc
    | cons hrecords _ ih =>
      rcases List.mem_cons.mp hlc with rfl | hlc
      · exact hrecords.countable
      · exact ih (by simp only [List.length_cons] at h; omega) hlc

theorem Retains.failcounts {ks : List ℕ} {nodeinfo : List NhmLcInfo}
    (retains : Retains lifecycle ks nodeinfo) (a : CString) :
    nodeinfo.map (appFailcount a) =
      ks.map fun k => UInt32.ofNat ((lifecycle k).failures a) := by
  induction retains with
  | nil => rfl
  | cons hrecords _ ih => rw [List.map_cons, List.map_cons, hrecords.failcount a, ih]

def Leaves (lifecycle : ℕ → Lifecycle) (D : ℕ → Disk → Prop) (R : ℕ → NhmLcInfo → Prop)
    (j : ℕ) : Prop :=
  ∀ disk stored s lc older, D j disk → Stores disk stored → (lifecycle (j + 1)).run disk = some s →
    s.nodeinfo = some (lc :: older) →
    R (j + 1) lc ∧ ((lifecycle (j + 1)).serving.isSome = true → D (j + 1) s.disk)

section
variable {D : ℕ → Disk → Prop} {R : ℕ → NhmLcInfo → Prop} {ks : List ℕ}
  {nodeinfo : List NhmLcInfo}

def RetainsAll (lifecycle : ℕ → Lifecycle) (R : ℕ → NhmLcInfo → Prop) (ks : List ℕ)
    (nodeinfo : List NhmLcInfo) : Prop :=
  List.Forall₂ (fun k lc => Records (lifecycle k) lc ∧ R k lc) ks nodeinfo

theorem RetainsAll.retains (all : RetainsAll lifecycle R ks nodeinfo) :
    Retains lifecycle ks nodeinfo :=
  List.Forall₂.imp (fun _ _ h => h.1) all

theorem RetainsAll.records (all : RetainsAll lifecycle R ks nodeinfo) :
    List.Forall₂ R ks nodeinfo :=
  List.Forall₂.imp (fun _ _ h => h.2) all

theorem run_retainsAll (j : ℕ) (disk : Disk) (stored : List NhmLcInfo) (start : D j disk)
    (hstored : Stores disk stored)
    (all : RetainsAll lifecycle R
      ((retained (maxLcCount lifecycle) j).take (maxLcCount lifecycle j)) stored)
    (ok : (lifecycle (j + 1)).FilesOk) (bounded : (lifecycle (j + 1)).Bounded)
    (leaves : Leaves lifecycle D R j) :
    ∃ s lc older, (lifecycle (j + 1)).run disk = some s ∧
      s.cfg = (lifecycle (j + 1)).cfg ∧ s.nodeinfo = some (lc :: older) ∧
      RetainsAll lifecycle R (retained (maxLcCount lifecycle) (j + 1)) (lc :: older) ∧
      older.length ≤ maxLcCount lifecycle (j + 1) ∧
      ((lifecycle (j + 1)).serving.isSome = true → Saved s ∧ D (j + 1) s.disk) := by
  obtain ⟨s, hrun, hcfg, ⟨lc, ready, tracks⟩, hsaved⟩ :=
    (lifecycle (j + 1)).run_following ok disk stored hstored
  obtain ⟨hrecord, hleft⟩ := leaves disk stored s lc _ start hstored hrun ready.nodeinfo
  refine ⟨s, lc, _, hrun, hcfg, ready.nodeinfo, ?_, List.length_take_le _ _,
    fun hserving => ⟨hsaved hserving, hleft hserving⟩⟩
  exact List.Forall₂.cons ⟨tracks.records bounded, hrecord⟩ (List.forall₂_take _ all)

theorem diskAfter_retainsAll (disk : Disk) (hdisk : disk.lcdata = none) (start : D 0 disk) (j : ℕ)
    (regular : ∀ i, 1 ≤ i → i ≤ j → (lifecycle i).FilesOk ∧ (lifecycle i).Bounded)
    (completed : ∀ i, 1 ≤ i → i ≤ j → (lifecycle i).serving.isSome = true)
    (leaves : ∀ i < j, Leaves lifecycle D R i) :
    ∃ after stored, diskAfter lifecycle disk j = some after ∧ Stores after stored ∧ D j after ∧
      RetainsAll lifecycle R ((retained (maxLcCount lifecycle) j).take (maxLcCount lifecycle j))
        stored := by
  induction j with
  | zero => exact ⟨disk, [], rfl, stores_none disk hdisk, start, by simp [RetainsAll, retained]⟩
  | succ j ih =>
    obtain ⟨before, stored, hbefore, hstored, hstart, hall⟩ :=
      ih (fun i h1 hi => regular i h1 (by omega)) (fun i h1 hi => completed i h1 (by omega))
        (fun i hi => leaves i (by omega))
    obtain ⟨ok, bounded⟩ := regular (j + 1) (by omega) le_rfl
    obtain ⟨s, lc, older, hrun, hcfg, hnodeinfo, hlast, hlen, hleft⟩ :=
      run_retainsAll j before stored hstart hstored hall ok bounded (leaves j (by omega))
    obtain ⟨⟨nodeinfo, hdata, hfile⟩, hdisk⟩ := hleft (completed (j + 1) (by omega) le_rfl)
    have hsame : lc :: older = nodeinfo := by
      rw [hnodeinfo] at hdata
      exact Option.some.inj hdata
    subst hsame
    have hcount : (lc :: older).length < 2 ^ 32 := by
      have hmax := bounded.max_lc_count
      have hlen : older.length ≤ (lifecycle (j + 1)).cfg.max_lc_count.toNat := hlen
      rw [List.length_cons]
      omega
    refine ⟨s.disk, _, ?_, stores_writeData s.disk _ _ hfile (hlast.retains.countable hcount),
      hdisk, ?_⟩
    · simp only [diskAfter, hbefore, hrun, Option.bind_eq_bind, Option.bind_some]
    · rw [hcfg]
      exact List.forall₂_take _ hlast

theorem stateIn_retainsAll (disk : Disk) (hdisk : disk.lcdata = none) (start : D 0 disk) (n : ℕ)
    (hn : 1 ≤ n) (regular : ∀ j, 1 ≤ j → j ≤ n → (lifecycle j).FilesOk ∧ (lifecycle j).Bounded)
    (completed : ∀ j, 1 ≤ j → j < n → (lifecycle j).serving.isSome = true)
    (leaves : ∀ i < n, Leaves lifecycle D R i) :
    ∃ s lc older, stateIn lifecycle disk n = some s ∧ s.nodeinfo = some (lc :: older) ∧
      RetainsAll lifecycle R (retained (maxLcCount lifecycle) n) (lc :: older) ∧
      s.cfg.max_lc_count.toNat = maxLcCount lifecycle n ∧
      (lc :: older).length ≤ s.cfg.max_lc_count.toNat + 1 := by
  obtain ⟨j, rfl⟩ : ∃ j, n = j + 1 := ⟨n - 1, by omega⟩
  obtain ⟨before, stored, hbefore, hstored, hstart, hall⟩ :=
    diskAfter_retainsAll disk hdisk start j (fun i h1 hi => regular i h1 (by omega))
      (fun i h1 hi => completed i h1 (by omega)) (fun i hi => leaves i (by omega))
  obtain ⟨ok, bounded⟩ := regular (j + 1) hn le_rfl
  obtain ⟨s, lc, older, hrun, hcfg, hnodeinfo, hlast, hlen, -⟩ :=
    run_retainsAll j before stored hstart hstored hall ok bounded (leaves j (by omega))
  refine ⟨s, lc, older, ?_, hnodeinfo, hlast, by rw [hcfg]; rfl, ?_⟩
  · simp only [stateIn, Nat.add_sub_cancel, hbefore, hrun, Option.bind_eq_bind, Option.bind_some]
  · rw [hcfg]
    exact Nat.succ_le_succ hlen

end

/-- At every moment of life cycle `n`, an application's statistics are those of the
reports made in the retained life cycles. -/
theorem readStatistics_lifecycles (lifecycle : ℕ → Lifecycle) (disk : Disk)
    (hdisk : disk.lcdata = none) (n : ℕ) (hn : 1 ≤ n)
    (regular : ∀ j, 1 ≤ j → j ≤ n → (lifecycle j).FilesOk ∧ (lifecycle j).Bounded)
    (completed : ∀ j, 1 ≤ j → j < n → (lifecycle j).serving.isSome = true)
    (a : CString) (ha : a ≠ CString.empty) :
    (stateIn lifecycle disk n).bind (readStatistics a) = some
      ⟨UInt32.ofNat ((lifecycle n).failures a),
        UInt32.ofNat (((retained (maxLcCount lifecycle) n).map
          fun k => (lifecycle k).failures a).sum),
        UInt32.ofNat (retained (maxLcCount lifecycle) n).length, .ok⟩ := by
  obtain ⟨s, lc, older, hstate, hnodeinfo, hall, -, hwindow⟩ :=
    stateIn_retainsAll (D := fun _ _ => True) (R := fun _ _ => True) disk hdisk trivial n hn
      regular completed fun _ _ _ _ _ _ _ _ _ _ _ => ⟨trivial, fun _ => trivial⟩
  have hcurrent := hall.retains.failcounts a
  have hlength := List.Forall₂.length_eq hall
  rw [hstate, Option.bind_some, readStatistics_app a s lc older ha hnodeinfo,
    List.take_of_length_le hwindow, min_eq_left hwindow, hcurrent, sum_map_ofNat, ← hlength]
  obtain ⟨j, rfl⟩ : ∃ j, n = j + 1 := ⟨n - 1, by omega⟩
  rw [retained, List.map_cons, List.map_cons, List.cons.injEq] at hcurrent
  rw [hcurrent.1]

end

theorem readStatistics_lifecycles_two :
    let app : CString := CString.literal [97]
    let l : Lifecycle := ⟨{ max_lc_count := 1 }, {}, some ({}, [.registerAppStatus {} app 0])⟩
    (stateIn (fun _ => l) ⟨none, none⟩ 2).bind (readStatistics app) = some ⟨1, 2, 2, .ok⟩ :=
  readStatistics_lifecycles _ ⟨none, none⟩ rfl 2 (by decide)
    (fun _ _ _ => ⟨⟨rfl, by simp [Request.opens]⟩, ⟨by decide, by decide⟩⟩)
    (fun _ _ _ => rfl) (CString.literal [97]) (by decide)

end NodeHealthMonitor.NhmMain
