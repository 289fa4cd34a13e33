import NodeHealthMonitor.Lifecycles

/-! The representation invariant of the run-time data, from any start on a file that
earlier life cycles left, whatever their file operations did. -/

namespace NodeHealthMonitor.NhmMain
open LcData ReportHistory

structure RepresentationInvariant (reports : List Report) (s : State) : Prop where
  current_nodup : s.failedNames.Nodup
  mem_current : ∀ a, a ∈ s.failedNames ↔ latest a reports = some NhmAppStatus.failed
  node_query : ∃ reply, readStatistics CString.empty s = some reply ∧
    reply.currentFailCount.toNat = s.failedNames.length
  loaded : ∃ nodeinfo, s.nodeinfo = some nodeinfo ∧
    (∀ lc ∈ nodeinfo, (recordedNames lc).Nodup) ∧
    (∃ lc, nodeinfo[0]? = some lc ∧ ∀ a ∈ s.failedNames, a ∈ recordedNames lc) ∧
    1 ≤ nodeinfo.length ∧ nodeinfo.length ≤ s.cfg.max_lc_count.toNat + 1

structure WellFormed (nodeinfo : List NhmLcInfo) : Prop where
  countable : Countable nodeinfo
  names_nodup : ∀ lc ∈ nodeinfo, (recordedNames lc).Nodup

theorem WellFormed.nil : WellFormed [] := ⟨⟨by decide, by simp⟩, by simp⟩

theorem WellFormed.take {nodeinfo : List NhmLcInfo} (wf : WellFormed nodeinfo) (k : ℕ) :
    WellFormed (nodeinfo.take k) where
  countable :=
    { lcs := lt_of_le_of_lt (List.length_take_le' k nodeinfo) wf.countable.lcs
      apps := fun lc hlc => wf.countable.apps lc (List.mem_of_mem_take hlc) }
  names_nodup lc hlc := wf.names_nodup lc (List.mem_of_mem_take hlc)

theorem WellFormed.cons {reports : List Report} {lc : NhmLcInfo} {current : List CString}
    {older : List NhmLcInfo} (wf : WellFormed older) (tracks : Tracks reports lc current)
    (hreports : (ever isFailed reports).length < 2 ^ 32) (holder : older.length < 2 ^ 31) :
    WellFormed (lc :: older) where
  countable :=
    { lcs := by
        rw [List.length_cons]
        omega
      apps := by
        intro lc' hlc'
        rcases List.mem_cons.mp hlc' with rfl | hlc'
        · rw [tracks.failed_apps_length]
          exact hreports
        · exact wf.countable.apps lc' hlc' }
  names_nodup := by
    intro lc' hlc'
    rcases List.mem_cons.mp hlc' with rfl | hlc'
    · exact tracks.recorded_nodup
    · exact wf.names_nodup lc' hlc'

def WellStored (disk : Disk) : Prop := ∃ stored, Stores disk stored ∧ WellFormed stored

theorem WellStored.congr {disk disk' : Disk} (h : WellStored disk)
    (hlcdata : disk'.lcdata = disk.lcdata) : WellStored disk' := by
  obtain ⟨stored, hstored, wf⟩ := h
  exact ⟨stored, fun r mem => by rw [hlcdata, hstored r mem], wf⟩

theorem Saved.wellStored {reports : List Report} {older : List NhmLcInfo} {s : State}
    (saved : Saved s) (following : Following reports older s) (wf : WellFormed older)
    (hreports : (ever isFailed reports).length < 2 ^ 32) (holder : older.length < 2 ^ 31) :
    WellStored s.disk := by
  obtain ⟨lc, ready, tracks⟩ := following
  obtain ⟨nodeinfo, hdata, hfile⟩ := saved
  have hsame : lc :: older = nodeinfo := by
    rw [ready.nodeinfo] at hdata
    exact Option.some.inj hdata
  subst hsame
  have hwf := wf.cons tracks hreports holder
  exact ⟨_, stores_writeData s.disk _ _ hfile hwf.countable, hwf.take _⟩

theorem run_serve_wellStored (requests : List Request) (older : List NhmLcInfo) (s : State)
    (following : Following [] older s) (wf : WellFormed older) (holder : older.length < 2 ^ 31)
    (stored : WellStored s.disk) :
    ∃ next, Transition.run serve s requests = some next ∧
      Following (reportsOf requests) older next ∧ next.cfg = s.cfg ∧
      ((ever isFailed (reportsOf requests)).length < 2 ^ 32 → WellStored next.disk) := by
  have hrun := Transition.run_history serve
    (fun hist next => Following (hist.filterMap Request.report?) older next ∧ next.cfg = s.cfg ∧
      ((ever isFailed (hist.filterMap Request.report?)).length < 2 ^ 32 → WellStored next.disk))
    (fun _ _ => True) ?_ requests [] s ⟨following, rfl, fun _ => stored⟩
    (Transition.allSteps_of_forall serve _ s requests fun _ _ => trivial)
  · simpa only [List.append_nil, reportsOf] using hrun
  · rintro hist t request ⟨hfollowing, hcfg, hstored⟩ -
    obtain ⟨next, sent, hstep, hnext, hkeeps⟩ := handle_following request hfollowing
    have hhist : (request :: hist).filterMap Request.report? =
        request.report?.toList ++ hist.filterMap Request.report? := by
      cases hreport : request.report? <;> simp [hreport]
    rw [hhist]
    refine ⟨next, by rw [serve, hstep]; rfl, hnext, hkeeps.cfg.trans hcfg, fun hlen => ?_⟩
    rcases hkeeps.file with hsaved | ⟨hfile, -⟩
    · exact hsaved.wellStored hnext wf hlen holder
    · have hle := ever_length_le_append isFailed request.report?.toList
        (hist.filterMap Request.report?)
      exact (hstored (lt_of_le_of_lt hle hlen)).congr hfile

theorem Lifecycle.run_wellStored (l : Lifecycle) (hmax : l.cfg.max_lc_count.toNat < 2 ^ 31)
    (disk : Disk) (hdisk : WellStored disk) :
    ∃ s older, l.run disk = some s ∧ s.cfg = l.cfg ∧ Following l.reports older s ∧
      WellFormed older ∧ older.length ≤ l.cfg.max_lc_count.toNat ∧
      ((ever isFailed l.reports).length < 2 ^ 32 → WellStored s.disk) := by
  obtain ⟨stored, hstored, wf⟩ := id hdisk
  obtain ⟨first, sent, hbus, hfirst, hcfg, hsame⟩ :=
    busAcquiredCb_following l.bus_acquired l.cfg disk stored hstored
  obtain ⟨older, holder, wfOlder, hlen⟩ : ∃ older,
      (if l.bus_acquired.fopen_r then stored.take l.cfg.max_lc_count.toNat else []) = older ∧
        WellFormed older ∧ older.length ≤ l.cfg.max_lc_count.toNat := by
    cases l.bus_acquired.fopen_r with
    | false => exact ⟨_, rfl, WellFormed.nil, by simp⟩
    | true => exact ⟨_, rfl, wf.take _, List.length_take_le _ _⟩
  rw [holder] at hfirst
  have hstored₁ : WellStored first.disk := hdisk.congr (by rw [hsame])
  cases hserving : l.serving with
  | none =>
    refine ⟨first, older, Lifecycle.run_waiting hbus hserving, hcfg, ?_, wfOlder, hlen,
      fun _ => hstored₁⟩
    simpa [Lifecycle.reports, Lifecycle.requests, hserving, reportsOf] using hfirst
  | some served =>
    obtain ⟨env, requests⟩ := served
    obtain ⟨second, sent', hname, hsecond, hcfg', hopen, hclosed⟩ :=
      nameAcquiredCb_following env hfirst
    have hstored₂ : WellStored second.disk := by
      cases hw : env.fopen_w with
      | false => exact hstored₁.congr (hclosed hw)
      | true => exact (hopen hw).wellStored hsecond wfOlder (by decide) (by omega)
    obtain ⟨s, hrun, hlast, hcfg'', hwell⟩ :=
      run_serve_wellStored requests older second hsecond wfOlder (by omega) hstored₂
    have hreports : l.reports = reportsOf requests := by
      rw [Lifecycle.reports, Lifecycle.requests, hserving]
      rfl
    rw [hreports]
    refine ⟨s, older, (Lifecycle.run_serving hbus hserving hname).trans hrun, ?_, hlast, wfOlder,
      hlen, hwell⟩
    rw [hcfg'', hcfg', hcfg]

theorem diskAfter_wellStored (lifecycle : ℕ → Lifecycle) (disk : Disk)
    (hdisk : disk.lcdata = none) (j : ℕ)
    (bounded : ∀ i, 1 ≤ i → i ≤ j → (lifecycle i).Bounded) :
    ∃ after, diskAfter lifecycle disk j = some after ∧ WellStored after := by
  induction j with
  | zero => exact ⟨disk, rfl, [], stores_none disk hdisk, WellFormed.nil⟩
  | succ j ih =>
    obtain ⟨before, hbefore, hstored⟩ := ih fun i h1 hi => bounded i h1 (by omega)
    have hb := bounded (j + 1) (by omega) le_rfl
    obtain ⟨s, older, hrun, -, -, -, -, hwell⟩ :=
      (lifecycle (j + 1)).run_wellStored hb.max_lc_count before hstored
    refine ⟨s.disk, ?_, hwell hb.failed_apps⟩
    simp only [diskAfter, hbefore, hrun, Option.bind_eq_bind, Option.bind_some]

theorem Following.representationInvariant {reports : List Report} {older : List NhmLcInfo}
    {s : State} (following : Following reports older s) (wf : WellFormed older)
    (hlen : older.length ≤ s.cfg.max_lc_count.toNat)
    (hreports : (ever isFailed reports).length < 2 ^ 32) :
    RepresentationInvariant reports s := by
  obtain ⟨lc, ready, tracks⟩ := following
  have hmem : ∀ a, a ∈ s.failedNames → a ∈ recordedNames lc := by
    intro a ha
    rw [tracks.mem_recorded]
    exact mem_ever_of_holds isFailed a reports ((tracks.mem_current a).mp ha)
  refine ⟨tracks.current_nodup, fun a => ?_, ⟨_, readStatistics_node s _ ready.nodeinfo, ?_⟩,
    _, ready.nodeinfo, ?_, ⟨lc, rfl, hmem⟩, by simp, by simpa using hlen⟩
  · rw [tracks.mem_current, holds_iff]
    simp [isFailed]
  · have hcount : s.failedNames.length ≤ lc.failed_apps.length := by
      have hle := tracks.current_nodup.length_le_of_subset hmem
      rwa [recordedNames, List.length_map] at hle
    have hcurrent : s.failedNames.length = s.current_failed_apps.length := List.length_map ..
    rw [listLength_toNat _ (by rw [tracks.failed_apps_length] at hcount; omega), hcurrent]
  · intro lc' hlc'
    rcases List.mem_cons.mp hlc' with rfl | hlc'
    · exact tracks.recorded_nodup
    · exact wf.names_nodup lc' hlc'

/-- As long as the failed applications of each life cycle can be counted, the invariant
holds in every state a life cycle reaches. -/
theorem representationInvariant_reachable (lifecycle : ℕ → Lifecycle) (disk : Disk)
    (hdisk : disk.lcdata = none) (n : ℕ) (hn : 1 ≤ n)
    (bounded : ∀ j, 1 ≤ j → j ≤ n → (lifecycle j).Bounded) :
    ∃ s, stateIn lifecycle disk n = some s ∧
      RepresentationInvariant (lifecycle n).reports s := by
  obtain ⟨j, rfl⟩ : ∃ j, n = j + 1 := ⟨n - 1, by omega⟩
  obtain ⟨before, hbefore, hstored⟩ :=
    diskAfter_wellStored lifecycle disk hdisk j fun i h1 hi => bounded i h1 (by omega)
  have hb := bounded (j + 1) hn le_rfl
  obtain ⟨s, older, hrun, hcfg, hfollowing, wf, hlen, -⟩ :=
    (lifecycle (j + 1)).run_wellStored hb.max_lc_count before hstored
  refine ⟨s, ?_, hfollowing.representationInvariant wf (by rw [hcfg]; exact hlen) hb.failed_apps⟩
  simp only [stateIn, Nat.add_sub_cancel, hbefore, hrun, Option.bind_eq_bind, Option.bind_some]

theorem representationInvariant_reachable_two :
    let l (a : CString) : Lifecycle :=
      ⟨{ max_lc_count := 1 }, {}, some ({}, [.registerAppStatus {} a 0])⟩
    let lifecycle (j : ℕ) := if j = 1 then l (CString.literal [97]) else l (CString.literal [98])
    ∃ s, stateIn lifecycle ⟨none, none⟩ 2 = some s ∧
      RepresentationInvariant (lifecycle 2).reports s :=
  representationInvariant_reachable _ ⟨none, none⟩ rfl 2 (by decide) fun j _ _ => by
    dsimp only
    split <;> exact ⟨by decide, by decide⟩

def numberedName (i : ℕ) : CString where
  bytes := (List.range 32).map fun k => if i.testBit k then 2 else 1
  nul_free := by
    intro h
    obtain ⟨k, -, hk⟩ := List.mem_map.mp h
    split at hk <;> contradiction
  fits := by simp

theorem numberedName_inj {i j : ℕ} (hi : i < 2 ^ 32) (hj : j < 2 ^ 32)
    (h : numberedName i = numberedName j) : i = j := by
  have hbytes : ((List.range 32).map fun k => if i.testBit k then (2 : UInt8) else 1) =
      (List.range 32).map fun k => if j.testBit k then 2 else 1 := congrArg CString.bytes h
  have hbits := List.map_inj_left.mp hbytes
  apply Nat.eq_of_testBit_eq
  intro k
  by_cases hk : k < 32
  · have hbit := hbits k (List.mem_range.mpr hk)
    cases hik : i.testBit k <;> cases hjk : j.testBit k <;> simp [hik, hjk] at hbit ⊢
  · have hpow : 2 ^ 32 ≤ 2 ^ k := Nat.pow_le_pow_right (by decide) (by omega)
    rw [Nat.testBit_lt_two_pow (lt_of_lt_of_le hi hpow),
      Nat.testBit_lt_two_pow (lt_of_lt_of_le hj hpow)]

def manyFailures (count : ℕ) : Lifecycle :=
  ⟨{ max_lc_count := 1 }, {}, some ({}, (List.range count).map fun i =>
    .registerAppStatus {} (numberedName i) NhmAppStatus.failed)⟩

theorem manyFailures_reports (count : ℕ) : (manyFailures count).reports =
    (List.range count).reverse.map fun i => (numberedName i, NhmAppStatus.failed) := by
  have hreport : (Request.report? ∘ fun i =>
      Request.registerAppStatus {} (numberedName i) NhmAppStatus.failed) =
      some ∘ fun i => (numberedName i, NhmAppStatus.failed) := rfl
  simp only [Lifecycle.reports, Lifecycle.requests, manyFailures, Option.map_some,
    Option.getD_some, reportsOf, ← List.map_reverse, List.filterMap_map, hreport,
    List.filterMap_eq_map]

theorem manyFailures_failedNames (count : ℕ) (hcount : count ≤ 2 ^ 32) (s : State)
    (older : List NhmLcInfo) (following : Following (manyFailures count).reports older s) :
    s.failedNames.length = count := by
  obtain ⟨lc, -, tracks⟩ := following
  have hnames : ((List.range count).map numberedName).Nodup :=
    List.Nodup.map_on (fun i hi j hj h => numberedName_inj
      (lt_of_lt_of_le (List.mem_range.mp hi) hcount)
      (lt_of_lt_of_le (List.mem_range.mp hj) hcount) h) List.nodup_range
  have hlen := length_eq_of_mem_iff tracks.current_nodup hnames fun a => by
    rw [tracks.mem_current, manyFailures_reports, holds_iff_mem isFailed a _ (by simp [isFailed])]
    simp
  rw [hlen, List.length_map, List.length_range]

theorem manyFailures_stateIn (count : ℕ) :
    ∃ s older, stateIn (fun _ => manyFailures count) ⟨none, none⟩ 1 = some s ∧
      Following (manyFailures count).reports older s := by
  obtain ⟨s, older, hrun, -, hfollowing, -⟩ := (manyFailures count).run_wellStored
    (by simp [manyFailures]) ⟨none, none⟩ ⟨[], stores_none _ rfl, WellFormed.nil⟩
  exact ⟨s, older, hrun, hfollowing⟩

theorem manyFailures_not_representationInvariant :
    ∃ s, stateIn (fun _ => manyFailures (2 ^ 32)) ⟨none, none⟩ 1 = some s ∧
      ¬RepresentationInvariant (manyFailures (2 ^ 32)).reports s := by
  obtain ⟨s, older, hstate, hfollowing⟩ := manyFailures_stateIn (2 ^ 32)
  refine ⟨s, hstate, fun invariant => ?_⟩
  have hlen := manyFailures_failedNames _ le_rfl s older hfollowing
  have hcurrent : s.current_failed_apps.length = 2 ^ 32 := by
    rwa [State.failedNames, List.length_map] at hlen
  obtain ⟨lc, ready, -⟩ := hfollowing
  obtain ⟨reply, hreply, hcount⟩ := invariant.node_query
  rw [readStatistics_node s _ ready.nodeinfo] at hreply
  have hzero := Option.some.inj hreply
  rw [← hzero, hlen, listLength, hcurrent, UInt32.toNat_ofNat'] at hcount
  simp at hcount

/-- With `2 ^ 32` failed applications the node query answers 0: `g_slist_length` has wrapped
around. And a first process that is killed ten bytes into its first write leaves a file of which
the next one makes a record without a start state. -/
theorem not_representationInvariant_manyFailures :
    (∃ s, stateIn (fun _ => manyFailures (2 ^ 32)) ⟨none, none⟩ 1 = some s ∧
      ¬RepresentationInvariant (manyFailures (2 ^ 32)).reports s) ∧
    busAcquiredCb {} (.start { max_lc_count := 1 }
      ⟨some (interruptedWrite [] [⟨NhmNodeState.notset, []⟩] 1 10), none⟩) = none :=
  ⟨manyFailures_not_representationInvariant, by decide⟩

end NodeHealthMonitor.NhmMain
