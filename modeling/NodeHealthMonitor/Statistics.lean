import Mathlib.Algebra.BigOperators.Group.List.Basic
import Mathlib.Data.UInt
import NodeHealthMonitor.AppStatus

/-! The loops of `nhm_main_read_statistics_cb` as sums over the window of life cycles
they visit, with every index they use inside the array. -/

namespace NodeHealthMonitor.NhmMain

theorem sumLcs_eq (nodeinfo : List NhmLcInfo) (m : UInt32) (count : NhmLcInfo → UInt32)
    (lc_idx : ℕ) (total : UInt32) (h : lc_idx ≤ min nodeinfo.length (m.toNat + 1)) :
    sumLcs nodeinfo m count lc_idx total =
      some (total + (((nodeinfo.take (m.toNat + 1)).drop lc_idx).map count).sum,
        min nodeinfo.length (m.toNat + 1)) := by
  induction lc_idx, total using sumLcs.induct nodeinfo m count with
  | case1 lc_idx total hidx ih =>
    have hlen : lc_idx < (nodeinfo.take (m.toNat + 1)).length := by
      rw [List.length_take]
      omega
    have hget : (nodeinfo.take (m.toNat + 1))[lc_idx] = nodeinfo[lc_idx] := List.getElem_take
    rw [sumLcs, if_pos hidx, List.getElem?_eq_getElem hidx.1, Option.bind_eq_bind, Option.bind_some,
      ih nodeinfo[lc_idx] (by omega), List.drop_eq_getElem_cons hlen, List.map_cons, List.sum_cons,
      hget, add_assoc]
  | case2 lc_idx total hidx =>
    have hend : lc_idx = min nodeinfo.length (m.toNat + 1) := by omega
    have hdrop : (nodeinfo.take (m.toNat + 1)).drop lc_idx = [] := by
      apply List.drop_eq_nil_of_le
      rw [List.length_take]
      omega
    rw [sumLcs, if_neg hidx, hdrop, ← hend, List.map_nil, List.sum_nil, add_zero]

theorem readStatistics_app (app_name : CString) (s : State) (lc : NhmLcInfo)
    (older : List NhmLcInfo) (happ : app_name ≠ CString.empty)
    (hnodeinfo : s.nodeinfo = some (lc :: older)) :
    readStatistics app_name s = some
      ⟨appFailcount app_name lc,
        (((lc :: older).take (s.cfg.max_lc_count.toNat + 1)).map (appFailcount app_name)).sum,
        UInt32.ofNat (min (lc :: older).length (s.cfg.max_lc_count.toNat + 1)), .ok⟩ := by
  have hsum := sumLcs_eq (lc :: older) s.cfg.max_lc_count (appFailcount app_name) 1
    (appFailcount app_name lc) (by simp)
  simp only [readStatistics, hnodeinfo, happ, if_false, Option.bind_eq_bind, Option.bind_some,
    List.getElem?_cons_zero, hsum, List.take_succ_cons, List.drop_succ_cons, List.drop_zero,
    List.map_cons, List.sum_cons]

theorem readStatistics_node (s : State) (nodeinfo : List NhmLcInfo)
    (hnodeinfo : s.nodeinfo = some nodeinfo) :
    readStatistics CString.empty s = some
      ⟨LcData.listLength s.current_failed_apps,
        ((nodeinfo.take (s.cfg.max_lc_count.toNat + 1)).map uncleanStart).sum,
        UInt32.ofNat (min nodeinfo.length (s.cfg.max_lc_count.toNat + 1)), .ok⟩ := by
  have hsum := sumLcs_eq nodeinfo s.cfg.max_lc_count uncleanStart 0 0 (by omega)
  simp only [readStatistics, hnodeinfo, if_true, Option.bind_eq_bind, Option.bind_some, hsum,
    List.drop_zero, zero_add]

theorem sum_map_ofNat {α : Type*} (count : α → ℕ) (xs : List α) :
    (xs.map fun x => UInt32.ofNat (count x)).sum = UInt32.ofNat (xs.map count).sum := by
  induction xs with
  | nil => rfl
  | cons x xs ih =>
    rw [List.map_cons, List.sum_cons, ih, List.map_cons, List.sum_cons, UInt32.ofNat_add]

def recordedFailures (app_name : CString) (lc : NhmLcInfo) : ℕ :=
  ((lc.failed_apps.filter fun app => app.name = app_name).map fun app => app.failcount.toNat).sum

theorem appFailcount_toNat (app_name : CString) (lc : NhmLcInfo)
    (hnames : (recordedNames lc).Nodup) :
    (appFailcount app_name lc).toNat = recordedFailures app_name lc := by
  obtain ⟨start_state, apps⟩ := lc
  induction apps with
  | nil => rfl
  | cons app apps ih =>
    obtain ⟨hfresh, hrest⟩ := List.nodup_cons.mp hnames
    by_cases happ : app.name = app_name
    · have hnone : apps.filter (fun other => other.name = app_name) = [] := by
        rw [List.filter_eq_nil_iff]
        intro other hother heq
        exact hfresh (List.mem_map.mpr ⟨other, hother, (of_decide_eq_true heq).trans happ.symm⟩)
      simp [appFailcount, findFailedApp, recordedFailures, happ, hnone]
    · have := ih hrest
      simpa [appFailcount, findFailedApp, recordedFailures, happ] using this

theorem sum_appFailcount (app_name : CString) (lcs : List NhmLcInfo)
    (hnames : ∀ lc ∈ lcs, (recordedNames lc).Nodup) :
    (lcs.map (appFailcount app_name)).sum =
      UInt32.ofNat (lcs.map (recordedFailures app_name)).sum := by
  rw [← sum_map_ofNat]
  congr 1
  apply List.map_congr_left
  intro lc hlc
  rw [← appFailcount_toNat app_name lc (hnames lc hlc), UInt32.ofNat_toNat]

theorem sum_uncleanStart (lcs : List NhmLcInfo) :
    (lcs.map uncleanStart).sum =
      UInt32.ofNat (lcs.countP (·.start_state ≠ NhmNodeState.shutdown)) := by
  induction lcs with
  | nil => rfl
  | cons lc lcs ih =>
    rw [List.map_cons, List.sum_cons, ih, List.countP_cons, UInt32.ofNat_add, add_comm]
    by_cases h : lc.start_state = NhmNodeState.shutdown <;> simp [uncleanStart, h]

/-- `failed` applications have failed now, and the life cycles of `window`, the first of
them the current one, are evaluated. -/
structure Answers (app_name : CString) (failed : ℕ) (lc : NhmLcInfo) (window : List NhmLcInfo)
    (reply : ReadStatistics) : Prop where
  totalLifecycles : reply.totalLifecycles.toNat = window.length
  app : app_name ≠ CString.empty →
    reply.currentFailCount.toNat = recordedFailures app_name lc ∧
      reply.totalFailures.toNat = (window.map (recordedFailures app_name)).sum % 2 ^ 32
  node : app_name = CString.empty →
    reply.currentFailCount.toNat = failed ∧
      reply.totalFailures.toNat = window.countP (·.start_state ≠ NhmNodeState.shutdown)
  errorStatus : reply.errorStatus = .ok

theorem readStatisticsCb_answers (app_name : CString) (s : State) (lc : NhmLcInfo)
    (older : List NhmLcInfo) (hnodeinfo : s.nodeinfo = some (lc :: older))
    (hnames : ∀ lc' ∈ lc :: older, (recordedNames lc').Nodup)
    (hmax : s.cfg.max_lc_count.toNat < 2 ^ 31) :
    ∃ reply, readStatisticsCb app_name s = some (s, [.completeReadStatistics reply]) ∧
      Answers app_name (s.current_failed_apps.length % 2 ^ 32) lc
        ((lc :: older).take (s.cfg.max_lc_count.toNat + 1)) reply := by
  have hcount : min (lc :: older).length (s.cfg.max_lc_count.toNat + 1) < 2 ^ 32 := by omega
  have hlength : (UInt32.ofNat (min (lc :: older).length (s.cfg.max_lc_count.toNat + 1))).toNat =
      ((lc :: older).take (s.cfg.max_lc_count.toNat + 1)).length := by
    rw [UInt32.toNat_ofNat', Nat.mod_eq_of_lt hcount, List.length_take, Nat.min_comm]
  by_cases hname : app_name = CString.empty
  · subst hname
    refine ⟨_, by rw [readStatisticsCb, readStatistics_node s _ hnodeinfo]; rfl, hlength,
      fun hne => absurd rfl hne, fun _ => ⟨?_, ?_⟩, rfl⟩
    · exact UInt32.toNat_ofNat'
    · have hwindow := List.countP_le_length (p := fun lc => lc.start_state ≠ NhmNodeState.shutdown)
        (l := (lc :: older).take (s.cfg.max_lc_count.toNat + 1))
      rw [List.length_take] at hwindow
      rw [sum_uncleanStart, UInt32.toNat_ofNat', Nat.mod_eq_of_lt (by omega)]
  · refine ⟨_, by rw [readStatisticsCb, readStatistics_app _ s lc older hname hnodeinfo]; rfl,
      hlength, fun _ => ⟨?_, ?_⟩, fun he => absurd he hname, rfl⟩
    · exact appFailcount_toNat app_name lc (hnames lc List.mem_cons_self)
    · rw [sum_appFailcount app_name _ fun lc' hlc => hnames lc' (List.mem_of_mem_take hlc),
        UInt32.toNat_ofNat']

def appName : CString := CString.literal [97, 112, 112]

def failuresOfApp (failcount : UInt32) : NhmLcInfo :=
  ⟨NhmNodeState.started, [⟨appName, failcount⟩]⟩

def threeLcs : State where
  __ := State.start { max_lc_count := 1 } ⟨none, none⟩
  nodeinfo := some [failuresOfApp 3, failuresOfApp 2, failuresOfApp 1]

theorem readStatisticsCb_answers_threeLcs :
    ∃ reply, readStatisticsCb appName threeLcs =
        some (threeLcs, [.completeReadStatistics reply]) ∧
      Answers appName 0 (failuresOfApp 3) [failuresOfApp 3, failuresOfApp 2] reply :=
  readStatisticsCb_answers _ threeLcs (failuresOfApp 3) [failuresOfApp 2, failuresOfApp 1] rfl
    (by decide) (by decide)

def manyFailedApps : State where
  __ := threeLcs
  current_failed_apps := List.replicate (2 ^ 32) ⟨appName⟩

/-- `g_slist_length` counts in a `guint`. -/
theorem not_answers_manyFailedApps :
    ¬∃ reply, readStatisticsCb CString.empty manyFailedApps =
        some (manyFailedApps, [.completeReadStatistics reply]) ∧
      Answers CString.empty manyFailedApps.current_failed_apps.length (failuresOfApp 3)
        [failuresOfApp 3, failuresOfApp 2] reply := by
  rintro ⟨reply, hreply, answers⟩
  have hlength : manyFailedApps.current_failed_apps.length = 2 ^ 32 := List.length_replicate
  have hcurrent := (answers.node rfl).1
  rw [readStatisticsCb, readStatistics_node manyFailedApps _ rfl, Option.bind_eq_bind,
    Option.bind_some] at hreply
  obtain ⟨-, hsent⟩ := Prod.mk.inj (Option.some.inj hreply)
  obtain ⟨hzero, -⟩ := List.cons.inj hsent
  rw [← Effect.completeReadStatistics.inj hzero, hlength, LcData.listLength, hlength,
    UInt32.toNat_ofNat'] at hcurrent
  simp at hcurrent

end NodeHealthMonitor.NhmMain
