import NodeHealthMonitor.AppStatus
import NodeHealthMonitor.Transition

/-! The limit of failed applications. The comments and the configuration file promise a
restart request when the number of failed applications exceeds `max_failed_apps`; the
code compares with `>=`, so it asks one failure earlier. -/

namespace NodeHealthMonitor.NhmMain

abbrev StatusCall := Env × Report

def report (s : State) (call : StatusCall) : Option State :=
  (registerAppStatus call.1 call.2.1 call.2.2 s).map Prod.fst

def NewFailure (s : State) (call : StatusCall) : Prop :=
  call.2.1 ∉ s.failedNames ∧ isFailed call.2.2 = true

/-- The call asks for a restart exactly when the documentation says so. -/
def DocumentedLimit (s : State) (call : StatusCall) : Prop :=
  ∃ next sent, registerAppStatus call.1 call.2.1 call.2.2 s = some (next, sent) ∧
    ((∃ type, Effect.requestNodeRestart .applicationFailure type ∈ sent) ↔
      0 < s.cfg.max_failed_apps ∧ NewFailure s call ∧
        s.cfg.max_failed_apps.toNat < next.failedNames.dedup.length)

/-- The call does not bring the number of failed applications to the very limit, nor
beyond a limit that its 32-bit count falls below. -/
def OffLimit (s : State) (call : StatusCall) : Prop :=
  0 < s.cfg.max_failed_apps → NewFailure s call →
    s.failedNames.length + 1 ≠ s.cfg.max_failed_apps.toNat ∧
      (s.cfg.max_failed_apps.toNat < s.failedNames.length + 1 →
        s.cfg.max_failed_apps.toNat ≤ (s.failedNames.length + 1) % 2 ^ 32)

theorem mem_restartRequests (s : State) :
    (∃ type, Effect.requestNodeRestart .applicationFailure type ∈ restartRequests s) ↔
      0 < s.cfg.max_failed_apps ∧
        s.cfg.max_failed_apps.toNat ≤ s.failedNames.length % 2 ^ 32 := by
  have hlen : s.failedNames.length = s.current_failed_apps.length := List.length_map ..
  have hpos : s.cfg.max_failed_apps ≠ 0 ↔ 0 < s.cfg.max_failed_apps :=
    UInt32.pos_iff_ne_zero.symm
  have hcount : s.cfg.max_failed_apps ≤ LcData.listLength s.current_failed_apps ↔
      s.cfg.max_failed_apps.toNat ≤ s.failedNames.length % 2 ^ 32 := by
    rw [UInt32.le_iff_toNat_le, LcData.listLength, UInt32.toNat_ofNat', hlen]
  rw [← hpos, ← hcount, restartRequests]
  by_cases h : s.cfg.max_failed_apps ≠ 0 ∧
      s.cfg.max_failed_apps ≤ LcData.listLength s.current_failed_apps
  · simp [h]
  · rw [if_neg h]
    simp only [List.not_mem_nil, exists_false, h]

private theorem exceeds_iff (m n : ℕ) (hm : m < 2 ^ 32) :
    (m ≤ n % 2 ^ 32 ↔ m < n) ↔ n ≠ m ∧ (m < n → m ≤ n % 2 ^ 32) := by
  have hle : n % 2 ^ 32 ≤ n := Nat.mod_le n (2 ^ 32)
  have hself : n = m → n % 2 ^ 32 = m := fun h => h ▸ Nat.mod_eq_of_lt (h ▸ hm)
  omega

theorem documentedLimit_iff (s : State) (call : StatusCall) {lc : NhmLcInfo}
    {older : List NhmLcInfo} (ready : Ready s lc older) (nodup : s.failedNames.Nodup) :
    DocumentedLimit s call ↔ OffLimit s call := by
  obtain ⟨env, name, status⟩ := call
  obtain ⟨next, restart, hstep, hcase⟩ := registerAppStatus_cases env name status ready
  have hdoc : DocumentedLimit s (env, name, status) ↔
      ((∃ type, Effect.requestNodeRestart .applicationFailure type ∈ restart) ↔
        0 < s.cfg.max_failed_apps ∧ NewFailure s (env, name, status) ∧
          s.cfg.max_failed_apps.toNat < next.failedNames.dedup.length) := by
    simp [DocumentedLimit, hstep]
  rw [hdoc]
  by_cases hnew : NewFailure s (env, name, status)
  · rcases hcase with ⟨-, -, rfl, rfl⟩ | ⟨hname, -⟩ | ⟨hsame, -⟩
    · have hnodup := nodup_append_singleton nodup hnew.1
      rw [mem_restartRequests, addFailure_cfg, failedNames_addFailure, hnodup.dedup,
        List.length_append, List.length_singleton]
      have hiff := exceeds_iff s.cfg.max_failed_apps.toNat (s.failedNames.length + 1)
        s.cfg.max_failed_apps.toNat_lt
      by_cases hmax : 0 < s.cfg.max_failed_apps
      · simpa only [OffLimit, hmax, hnew, true_and, forall_const] using hiff
      · simp only [OffLimit, hmax, false_and, false_implies]
    · exact absurd hname hnew.1
    · exact absurd (hsame.mpr hnew.2) hnew.1
  · have hrestart : restart = [] := by
      rcases hcase with ⟨hname, hstatus, -⟩ | ⟨-, -, -, hrestart⟩ | ⟨-, -, hrestart⟩
      · exact absurd ⟨hname, hstatus⟩ hnew
      · exact hrestart
      · exact hrestart
    simp only [hrestart, List.not_mem_nil, exists_false, hnew, false_and, and_false, OffLimit,
      false_implies, implies_true]

theorem documentedLimit_run (s : State) {lc : NhmLcInfo} {older : List NhmLcInfo}
    (ready : Ready s lc older) (hempty : s.current_failed_apps = []) (calls : List StatusCall) :
    Transition.AllSteps report (fun t call => DocumentedLimit t call ↔ OffLimit t call)
      s calls := by
  apply Transition.allSteps_of_invariant report
    (fun t => (∃ lc, Ready t lc older) ∧ t.failedNames.Nodup)
  · rintro t ⟨env, name, status⟩ next ⟨⟨lc, ready⟩, nodup⟩ hnext
    obtain ⟨next', restart, hstep, hcase⟩ := registerAppStatus_cases env name status ready
    have hsame : next' = next := by
      simpa only [report, hstep, Option.map_some, Option.some.injEq] using hnext
    subst hsame
    rcases hcase with ⟨hname, -, rfl, -⟩ | ⟨-, -, rfl, -⟩ | ⟨-, rfl, -⟩
    · refine ⟨⟨_, ready.addFailure env name⟩, ?_⟩
      rw [failedNames_addFailure]
      exact nodup_append_singleton nodup hname
    · refine ⟨⟨_, ready.dropFailure name⟩, ?_⟩
      rw [failedNames_dropFailure]
      exact nodup.erase name
    · exact ⟨⟨lc, ready⟩, nodup⟩
  · rintro t call ⟨⟨lc, ready⟩, nodup⟩
    exact documentedLimit_iff t call ready nodup
  · exact ⟨⟨lc, ready⟩, by simp [State.failedNames, hempty]⟩

def limitOne : State :=
  { State.start { max_failed_apps := 1 } ⟨none, none⟩ with
    dbus_nhm_info_obj := true, nodeinfo := some [⟨NhmNodeState.notset, []⟩] }

theorem documentedLimit_run_limitOne :
    Transition.AllSteps report (fun t call => DocumentedLimit t call ↔ OffLimit t call) limitOne
      [({}, CString.literal [97], NhmAppStatus.failed),
        ({}, CString.literal [98], NhmAppStatus.failed)] :=
  documentedLimit_run limitOne ⟨rfl, rfl, rfl⟩ rfl _

theorem not_documentedLimit_limitOne :
    ¬Transition.AllSteps report DocumentedLimit limitOne
      [({}, CString.literal [97], NhmAppStatus.failed)] := by
  rintro ⟨⟨next, sent, hstep, hlimit⟩, -⟩
  have hsent : (registerAppStatus {} (CString.literal [97]) NhmAppStatus.failed limitOne).map
      (fun r => (r.1.failedNames, r.2)) = some ([CString.literal [97]],
        [.setAppHealthStatus (CString.literal [97]) false,
          .emitAppHealthStatus (CString.literal [97]) NhmAppStatus.failed,
          .requestNodeRestart .applicationFailure .normal]) := by decide
  rw [hstep] at hsent
  simp only [Option.map_some, Option.some.injEq, Prod.mk.injEq] at hsent
  obtain ⟨hnames, rfl⟩ := hsent
  have hexceeds := (hlimit.mp ⟨.normal, by simp⟩).2.2
  rw [hnames] at hexceeds
  exact absurd hexceeds (by decide)

end NodeHealthMonitor.NhmMain
