import NodeHealthMonitor.ProcessRuns

/-! What the program says of an application follows from the reports about this application.
The reports of the others, their order among these and the outcomes of the calls for any of
them make no difference. The others have a say only in this: a process that does not acquire
the name is recorded if one of them fails. -/

namespace NodeHealthMonitor.ProcessRuns
open DBus NhmMain MainLoop ReportHistory LcData

variable {glib : GLib} {sees : LoadedLc → NhmLcInfo} {a : CString}

/-- Two processes that hear the same of an application. -/
structure AgreeOn (glib : GLib) (a : CString) (p q : Process) : Prop where
  reports : about a (p.reports glib) = about a (q.reports glib)
  records : p.records glib = q.records glib
  max_lc_count : p.cfg.max_lc_count = q.cfg.max_lc_count

theorem AgreeOn.failures {p q : Process} (agree : AgreeOn glib a p q) :
    p.failures glib a = q.failures glib a := by
  rw [Process.failures, ← turns_about, agree.reports, turns_about]
  rfl

section
variable {process process' : ℕ → Process} {n : ℕ}

theorem stored_eq (agree : ∀ j < n, AgreeOn glib a (process (j + 1)) (process' (j + 1))) :
    stored glib process n = stored glib process' n := by
  induction n with
  | zero => rfl
  | succ n ih =>
    have hlast := agree n (Nat.lt_succ_self n)
    rw [stored, stored, ih fun j hj => agree j (Nat.lt_succ_of_lt hj), hlast.records, maxLcCount,
      maxLcCount, hlast.max_lc_count]

theorem mem_stored {k : ℕ} (h : k ∈ stored glib process n) : ∃ j < n, k = j + 1 := by
  induction n with
  | zero => cases h
  | succ n ih =>
    have hstored : k = n + 1 ∨ k ∈ stored glib process n := by
      rw [stored] at h
      split at h
      · rcases List.mem_cons.mp (List.mem_of_mem_take h) with hlast | holder
        · exact Or.inl hlast
        · exact Or.inr (List.mem_of_mem_take holder)
      · exact Or.inr h
    rcases hstored with hlast | holder
    · exact ⟨n, Nat.lt_succ_self n, hlast⟩
    · obtain ⟨j, hj, rfl⟩ := ih holder
      exact ⟨j, Nat.lt_succ_of_lt hj, rfl⟩

theorem known_eq (agree : ∀ j ≤ n, AgreeOn glib a (process (j + 1)) (process' (j + 1))) :
    known glib process n = known glib process' n := by
  rw [known, known, stored_eq fun j hj => agree j (Nat.le_of_lt hj), maxLcCount, maxLcCount,
    (agree n (Nat.le_refl n)).max_lc_count]

theorem known_failures (agree : ∀ j ≤ n, AgreeOn glib a (process (j + 1)) (process' (j + 1))) :
    (known glib process n).map (fun k => (process k).failures glib a) =
      (known glib process' n).map fun k => (process' k).failures glib a := by
  rw [← known_eq agree]
  refine List.map_congr_left fun k hk => ?_
  rcases List.mem_cons.mp hk with rfl | holder
  · exact (agree n (Nat.le_refl n)).failures
  · obtain ⟨j, hj, rfl⟩ := mem_stored (List.mem_of_mem_take holder)
    exact (agree j (Nat.le_of_lt hj)).failures

/-- Two nodes whose processes hear the same of an application say the same of it, as often as
they were started, and whatever else happened to them. -/
theorem readStatistics_independent (delivers : glib.Delivers)
    (hsees : ∀ lc value, LoadedLc.value lc = some value → sees lc = value) (disk disk' : Disk)
    (hdisk : disk.lcdata = none) (hdisk' : disk'.lcdata = none)
    (regular : ∀ j ≤ n, ∀ before, diskAfter glib sees process disk j = some before →
      (process (j + 1)).Regular glib sees before)
    (regular' : ∀ j ≤ n, ∀ before, diskAfter glib sees process' disk' j = some before →
      (process' (j + 1)).Regular glib sees before)
    (agree : ∀ j ≤ n, AgreeOn glib a (process (j + 1)) (process' (j + 1)))
    (ha : a ≠ CString.empty) :
    ∃ p q, programIn glib sees process disk n = some p ∧
      programIn glib sees process' disk' n = some q ∧
      (p.running = true → p.bus_acquired = true → q.running = true → q.bus_acquired = true →
        (a ∈ p.main.failedNames ↔ a ∈ q.main.failedNames) ∧
        ∃ reply, readStatistics a p.main = some reply ∧ readStatistics a q.main = some reply) := by
  obtain ⟨p, hp, hknown⟩ := programIn_remembers delivers hsees disk hdisk n regular
  obtain ⟨q, hq, hknown'⟩ := programIn_remembers delivers hsees disk' hdisk' n regular'
  refine ⟨p, q, hp, hq, fun hrunning hacquired hrunning' hacquired' => ?_⟩
  obtain ⟨lc, loaded, ready, tracks, hwindow, remembers⟩ := hknown hrunning hacquired
  obtain ⟨lc', loaded', ready', tracks', hwindow', remembers'⟩ := hknown' hrunning' hacquired'
  have hlast := agree n (Nat.le_refl n)
  refine ⟨?_, _, remembers.readStatistics tracks ready hwindow ha, ?_⟩
  · rw [tracks.mem_current, tracks'.mem_current, ← holds_about, hlast.reports, holds_about]
  · rw [remembers'.readStatistics tracks' ready' hwindow' ha, hlast.failures, known_eq agree,
      ← known_failures agree, known_eq agree]

end

/-- In the second node another application fails before, and the NSM does not answer. -/
theorem readStatistics_independent_other :
    let app : CString := CString.literal [97]
    let other : CString := CString.literal [98]
    let sees : LoadedLc → NhmLcInfo := fun lc => lc.value.getD ⟨NhmNodeState.notset, []⟩
    let env : Env := { set_app_health_status := none, request_node_restart := none }
    let process : Process := ⟨{ max_lc_count := 1 }, {},
      [.busAcquired {}, .request (.registerAppStatus {} app NhmAppStatus.failed)]⟩
    let process' : Process := ⟨{ max_lc_count := 1, max_failed_apps := 1 }, {},
      [.busAcquired {}, .request (.registerAppStatus env other NhmAppStatus.failed),
        .request (.registerAppStatus env app NhmAppStatus.failed)]⟩
    ∃ p q, programIn handingOver sees (fun _ => process) ⟨none, none⟩ 1 = some p ∧
      programIn handingOver sees (fun _ => process') ⟨none, some NhmNodeState.shutdown⟩ 1 =
        some q ∧
      (p.running = true → p.bus_acquired = true → q.running = true → q.bus_acquired = true →
        (app ∈ p.main.failedNames ↔ app ∈ q.main.failedNames) ∧
        ∃ reply, readStatistics app p.main = some reply ∧
          readStatistics app q.main = some reply) := by
  refine readStatistics_independent handingOver_delivers ?_ ⟨none, none⟩
    ⟨none, some NhmNodeState.shutdown⟩ rfl rfl
    (fun _ _ before _ => ⟨⟨⟨⟨rfl, rfl⟩, trivial⟩, fun _ h => Option.some.inj h ▸
      ⟨⟨⟨rfl, rfl⟩, trivial⟩, fun _ _ => trivial⟩⟩, rfl, by decide, by decide⟩)
    (fun _ _ before _ => ⟨⟨⟨⟨rfl, rfl⟩, trivial⟩, fun _ h => Option.some.inj h ▸
      ⟨⟨⟨rfl, rfl⟩, trivial⟩, fun _ h => Option.some.inj h ▸
        ⟨⟨⟨rfl, rfl⟩, trivial⟩, fun _ _ => trivial⟩⟩⟩, rfl, by decide, by decide⟩)
    (fun _ _ => ⟨by decide, rfl, rfl⟩) (by decide)
  intro lc value h
  rw [h, Option.getD_some]

end NodeHealthMonitor.ProcessRuns
