import Mathlib.Algebra.BigOperators.Intervals
import NodeHealthMonitor.RunStatistics

/-! The node's failure total over a whole run of life cycles. A life cycle records how
the one before it ended: the shutdown flag is read at the start, set when the name is
acquired, and written again by every lifecycle request. -/

namespace NodeHealthMonitor.NhmMain
open LcData
open scoped BigOperators

def Request.shutdownType? : Request → Option NsmShutdownType
  | .lcRequest _ shutdown_type => some shutdown_type
  | _ => none

def Request.storesFlag : Request → Bool
  | .lcRequest env _ => env.pclKeyWrite
  | _ => true

def shutdownLast (requests : List Request) : Bool :=
  (requests.findSome? Request.shutdownType?).any fun shutdown_type => shutdown_type ≠ .runup

def flagAfter (requests : List Request) : NhmNodeState :=
  if shutdownLast requests then NhmNodeState.shutdown else NhmNodeState.started

namespace Lifecycle

def clean (l : Lifecycle) : Bool := shutdownLast l.requests.reverse

structure FlagsOk (l : Lifecycle) : Prop where
  read : l.bus_acquired.pclKeyRead = true
  written : ∀ env requests, l.serving = some (env, requests) →
    env.pclKeyWrite = true ∧ ∀ request ∈ requests, request.storesFlag = true

end Lifecycle

theorem shutdownLast_cons (request : Request) (requests : List Request) :
    shutdownLast (request :: requests) = match request.shutdownType? with
      | some shutdown_type => decide (shutdown_type ≠ .runup)
      | none => shutdownLast requests := by
  rw [shutdownLast, List.findSome?_cons]
  cases request.shutdownType? <;> rfl

theorem flagAfter_cons (request : Request) (requests : List Request) :
    flagAfter (request :: requests) = match request.shutdownType? with
      | some shutdown_type =>
          if shutdown_type = .runup then NhmNodeState.started else NhmNodeState.shutdown
      | none => flagAfter requests := by
  rw [flagAfter, shutdownLast_cons]
  cases request.shutdownType? with
  | none => rfl
  | some shutdown_type => by_cases htype : shutdown_type = .runup <;> simp [htype]

theorem addFailure_shutdown_flag (env : Env) (name : CString) (lc : NhmLcInfo)
    (older : List NhmLcInfo) (s : State) :
    (addFailure env name lc older s).disk.shutdown_flag = s.disk.shutdown_flag := by
  unfold addFailure
  split <;> rfl

structure Flagged (start_state : NhmNodeState) (older : List NhmLcInfo) (requests : List Request)
    (s : State) : Prop where
  recorded : ∃ lc, Ready s lc older ∧ lc.start_state = start_state
  flag : s.disk.shutdown_flag = some (flagAfter requests)

section
variable {start_state : NhmNodeState} {older : List NhmLcInfo} {requests : List Request}

theorem registerAppStatus_flagged (env : Env) (name : CString) (status : NhmAppStatus)
    {s : State} (flagged : Flagged start_state older requests s) :
    ∃ next sent, registerAppStatus env name status s = some (next, sent) ∧
      Flagged start_state older requests next := by
  obtain ⟨⟨lc, ready, hstart⟩, hflag⟩ := flagged
  rw [registerAppStatus_eq env name status ready]
  by_cases hfailure : name ∉ s.failedNames ∧ isFailed status = true
  · rw [if_pos hfailure]
    refine ⟨_, _, rfl, ⟨_, ready.addFailure env name, hstart⟩, ?_⟩
    rw [addFailure_shutdown_flag, hflag]
  · rw [if_neg hfailure]
    by_cases hrecovery : name ∈ s.failedNames ∧ isFailed status = false
    · rw [if_pos hrecovery]
      exact ⟨_, _, rfl, ⟨lc, ready.dropFailure name, hstart⟩, hflag⟩
    · rw [if_neg hrecovery]
      exact ⟨_, _, rfl, ⟨lc, ready, hstart⟩, hflag⟩

theorem handle_flagged (request : Request) (stores : request.storesFlag = true) {s : State}
    (flagged : Flagged start_state older requests s) :
    ∃ next sent, handle s request = some (next, sent) ∧
      Flagged start_state older (request :: requests) next := by
  obtain ⟨lc, ready, hstart⟩ := flagged.recorded
  cases request with
  | registerAppStatus env app_name app_status =>
    obtain ⟨next, sent, hstep, hnext⟩ := registerAppStatus_flagged env app_name app_status flagged
    refine ⟨next, sent ++ [.completeRegisterAppStatus], ?_, hnext.recorded, hnext.flag⟩
    simp only [handle, registerAppStatusCb, hstep, Option.bind_eq_bind, Option.bind_some]
  | requestNodeRestart env app_name =>
    obtain ⟨sent, hstep⟩ := requestNodeRestartCb_eq env app_name s ready.control
    exact ⟨s, sent, hstep, flagged.recorded, flagged.flag⟩
  | readStatistics app_name =>
    obtain ⟨sent, hstep⟩ := readStatisticsCb_eq app_name s lc older ready.nodeinfo
    exact ⟨s, sent, hstep, flagged.recorded, flagged.flag⟩
  | lcRequest env shutdown_type =>
    obtain ⟨disk, status, hstep, -, hflag⟩ := lcRequestCb_eq env shutdown_type s
    refine ⟨_, _, congrArg some hstep, ⟨lc, ready.withDisk disk, hstart⟩, ?_⟩
    rw [hflag stores, flagAfter_cons]
    rfl

theorem run_serve_flagged (requests : List Request) {s : State}
    (flagged : Flagged start_state older [] s)
    (stores : ∀ request ∈ requests, request.storesFlag = true) :
    ∃ next, Transition.run serve s requests = some next ∧
      Flagged start_state older requests.reverse next := by
  have hrun := Transition.run_history serve (Flagged start_state older)
    (fun _ request => request.storesFlag = true) ?_ requests [] s flagged
    (Transition.allSteps_of_forall serve _ s requests stores)
  · simpa only [List.append_nil] using hrun
  · intro hist t request hflagged hstore
    obtain ⟨next, sent, hstep, hnext⟩ := handle_flagged request hstore hflagged
    exact ⟨next, by rw [serve, hstep]; rfl, hnext⟩

end

theorem Lifecycle.run_flagged (l : Lifecycle) (ok : l.FlagsOk) (disk : Disk)
    (stored : List NhmLcInfo) (hstored : Stores disk stored) :
    ∃ s lc older, l.run disk = some s ∧ s.nodeinfo = some (lc :: older) ∧
      lc.start_state = disk.shutdown_flag.getD NhmNodeState.notset ∧
      (l.serving.isSome = true → s.disk.shutdown_flag = some (flagAfter l.requests.reverse)) := by
  have hread : readShutdownFlag l.bus_acquired disk =
      disk.shutdown_flag.getD NhmNodeState.notset := by
    rw [readShutdownFlag, ok.read]
    cases disk.shutdown_flag <;> rfl
  obtain ⟨first, sent, older, hbus, ready⟩ : ∃ first sent older,
      busAcquiredCb l.bus_acquired (State.start l.cfg disk) = some (first, sent) ∧
        Ready first ⟨disk.shutdown_flag.getD NhmNodeState.notset, []⟩ older := by
    obtain ⟨sent, hbus⟩ := busAcquiredCb_eq l.bus_acquired l.cfg disk stored hstored
    rw [hread] at hbus
    exact ⟨_, sent, _, hbus, rfl, rfl, rfl⟩
  cases hserving : l.serving with
  | none =>
    exact ⟨first, _, older, Lifecycle.run_waiting hbus hserving, ready.nodeinfo, rfl, by simp⟩
  | some served =>
    obtain ⟨env, requests⟩ := served
    obtain ⟨hwrite, hstores⟩ := ok.written env requests hserving
    obtain ⟨disk', sent', hname, hflag, -⟩ := nameAcquiredCb_eq env first _ ready.nodeinfo
    obtain ⟨s, hrun, ⟨lc, hready, hstart⟩, hend⟩ := run_serve_flagged requests
      ⟨⟨_, ready.withDisk disk', rfl⟩, hflag hwrite⟩ hstores
    refine ⟨s, lc, older, (Lifecycle.run_serving hbus hserving hname).trans hrun,
      hready.nodeinfo, hstart, fun _ => ?_⟩
    rw [hend, Lifecycle.requests, hserving]
    rfl

theorem retained_eq (m : ℕ → ℕ) (c n : ℕ) (fixed : ∀ j, 1 ≤ j → j ≤ n → m j = c) :
    retained m n = (List.range (min n (c + 1))).map fun i => n - i := by
  induction n with
  | zero => simp [retained]
  | succ n ih =>
    have hprevious : (retained m n).take (m n) = (List.range (min n c)).map fun i => n - i := by
      rw [ih fun j h1 hj => fixed j h1 (by omega)]
      cases n with
      | zero => simp
      | succ n =>
        rw [fixed (n + 1) (by omega) (by omega), ← List.map_take, List.take_range]
        congr 2
        omega
    rw [retained, hprevious, fixed (n + 1) (by omega) le_rfl, ← List.map_take, List.take_range,
      min_eq_right (min_le_right n c), Nat.add_min_add_right, List.range_succ_eq_map,
      List.map_cons, List.map_map, Nat.sub_zero]
    congr 2
    funext i
    exact (Nat.add_sub_add_right n 1 i).symm

section
variable (lifecycle : ℕ → Lifecycle)

/-- The flag on the disk after life cycle `j`, from a fresh node on. -/
def endFlag : ℕ → Option NhmNodeState
  | 0 => none
  | j + 1 => some (flagAfter (lifecycle (j + 1)).requests.reverse)

def uncleanCount (first last : ℕ) : ℕ :=
  ((Finset.Icc first last).filter fun k => (lifecycle k).clean = false).card

def failedEnd (j : ℕ) : ℕ :=
  if (endFlag lifecycle j).getD NhmNodeState.notset ≠ NhmNodeState.shutdown then 1 else 0

theorem failedEnd_zero : failedEnd lifecycle 0 = 1 := rfl

theorem failedEnd_succ (j : ℕ) :
    failedEnd lifecycle (j + 1) = if (lifecycle (j + 1)).clean = false then 1 else 0 := by
  rw [failedEnd, endFlag, Option.getD_some, flagAfter, Lifecycle.clean]
  cases shutdownLast (lifecycle (j + 1)).requests.reverse <;> rfl

theorem uncleanCount_eq (first n : ℕ) (hfirst : 1 ≤ first) (hn : 1 ≤ n) :
    uncleanCount lifecycle first (n - 1) = ∑ k ∈ Finset.Ico first n, failedEnd lifecycle k := by
  have hinterval : Finset.Icc first (n - 1) = Finset.Ico first n := by
    ext k
    rw [Finset.mem_Icc, Finset.mem_Ico]
    omega
  rw [uncleanCount, Finset.card_filter, hinterval]
  refine Finset.sum_congr rfl fun k hk => ?_
  obtain ⟨j, rfl⟩ : ∃ j, k = j + 1 := ⟨k - 1, by
    have hk := (Finset.mem_Ico.mp hk).1
    omega⟩
  exact (failedEnd_succ lifecycle j).symm

theorem sum_failedEnd (m n : ℕ) (hn : 1 ≤ n) :
    ((List.range (min n (m + 1))).map fun i => failedEnd lifecycle (n - i - 1)).sum =
      uncleanCount lifecycle (max 1 (n - m - 1)) (n - 1) + if n ≤ m + 1 then 1 else 0 := by
  have hreflect : ∑ i ∈ Finset.Ico 0 (min n (m + 1)), failedEnd lifecycle (n - 1 - i) =
      ∑ k ∈ Finset.Ico (n - (m + 1)) n, failedEnd lifecycle k := by
    rw [Finset.sum_Ico_reflect _ 0 (by omega)]
    congr 2 <;> omega
  have hlist : ((List.range (min n (m + 1))).map fun i => failedEnd lifecycle (n - i - 1)).sum =
      ∑ i ∈ Finset.Ico 0 (min n (m + 1)), failedEnd lifecycle (n - 1 - i) := by
    rw [← Finset.range_eq_Ico]
    simp only [Nat.sub_right_comm n 1]
    rfl
  rw [hlist, hreflect, uncleanCount_eq lifecycle _ n (le_max_left 1 _) hn]
  by_cases hall : n ≤ m + 1
  · rw [if_pos hall, Nat.sub_eq_zero_of_le hall, Finset.sum_eq_sum_Ico_succ_bot (by omega),
      failedEnd_zero, Nat.sub_sub, Nat.sub_eq_zero_of_le hall, add_comm]
    rfl
  · rw [if_neg hall, add_zero, Nat.sub_sub, max_eq_right (by omega)]

def BeginsAfter (k : ℕ) (lc : NhmLcInfo) : Prop :=
  lc.start_state = (endFlag lifecycle (k - 1)).getD NhmNodeState.notset

variable {lifecycle}

theorem leaves_flag (j : ℕ) (ok : (lifecycle (j + 1)).FlagsOk) :
    Leaves lifecycle (fun j disk => disk.shutdown_flag = endFlag lifecycle j)
      (BeginsAfter lifecycle) j := by
  intro disk stored s lc older hdisk hstored hrun hnodeinfo
  obtain ⟨s', lc', older', hrun', hnodeinfo', hstart, hflag⟩ :=
    (lifecycle (j + 1)).run_flagged ok disk stored hstored
  rw [hrun, Option.some.injEq] at hrun'
  subst hrun'
  rw [hnodeinfo, Option.some.injEq, List.cons.injEq] at hnodeinfo'
  refine ⟨?_, hflag⟩
  rw [BeginsAfter, hnodeinfo'.1, hstart, hdisk, Nat.add_sub_cancel]

theorem uncleanStart_eq (k : ℕ) (lc : NhmLcInfo) (h : BeginsAfter lifecycle k lc) :
    uncleanStart lc = UInt32.ofNat (failedEnd lifecycle (k - 1)) := by
  rw [uncleanStart, h, failedEnd]
  split <;> rfl

theorem map_uncleanStart (ks : List ℕ) (nodeinfo : List NhmLcInfo)
    (h : List.Forall₂ (BeginsAfter lifecycle) ks nodeinfo) :
    nodeinfo.map uncleanStart = ks.map fun k => UInt32.ofNat (failedEnd lifecycle (k - 1)) := by
  induction h with
  | nil => rfl
  | cons hbegins _ ih => rw [List.map_cons, List.map_cons, uncleanStart_eq _ _ hbegins, ih]

/-- In life cycle `n` the node's failure total is the number of life cycles before it that
were not clean, and one more where the window reaches back to the first life cycle. -/
theorem totalFailures_eq (lifecycle : ℕ → Lifecycle) (m n : ℕ) (hn : 1 ≤ n)
    (fixed : ∀ j, 1 ≤ j → j ≤ n → maxLcCount lifecycle j = m)
    (regular : ∀ j, 1 ≤ j → j ≤ n → (lifecycle j).FilesOk ∧ (lifecycle j).Bounded)
    (flagged : ∀ j, 1 ≤ j → j ≤ n → (lifecycle j).FlagsOk)
    (completed : ∀ j, 1 ≤ j → j < n → (lifecycle j).serving.isSome = true) :
    ((stateIn lifecycle ⟨none, none⟩ n).bind (readStatistics CString.empty)).map
        (fun reply => reply.totalFailures.toNat) =
      some (uncleanCount lifecycle (max 1 (n - m - 1)) (n - 1) +
        if n ≤ m + 1 then 1 else 0) := by
  obtain ⟨s, lc, older, hstate, hnodeinfo, hall, hmax, hwindow⟩ :=
    stateIn_retainsAll (D := fun j disk => disk.shutdown_flag = endFlag lifecycle j)
      (R := BeginsAfter lifecycle) ⟨none, none⟩ rfl rfl n hn regular completed
      fun j hj => leaves_flag j (flagged (j + 1) (by omega) hj)
  have htotal : ((lc :: older).map uncleanStart).sum = UInt32.ofNat
      (uncleanCount lifecycle (max 1 (n - m - 1)) (n - 1) + if n ≤ m + 1 then 1 else 0) := by
    rw [map_uncleanStart _ _ hall.records, sum_map_ofNat, retained_eq _ m n fixed, List.map_map]
    exact congrArg UInt32.ofNat (sum_failedEnd lifecycle m n hn)
  have hcount : uncleanCount lifecycle (max 1 (n - m - 1)) (n - 1) ≤ m + 1 := by
    refine (Finset.card_filter_le _ _).trans ?_
    rw [Nat.card_Icc]
    omega
  have hm : m < 2 ^ 31 := fixed n hn le_rfl ▸ (regular n hn le_rfl).2.max_lc_count
  have hsmall : uncleanCount lifecycle (max 1 (n - m - 1)) (n - 1) +
      (if n ≤ m + 1 then 1 else 0) < 2 ^ 32 := by
    split <;> omega
  rw [hstate, Option.bind_some, readStatistics_node s _ hnodeinfo,
    List.take_of_length_le hwindow, htotal, Option.map_some, UInt32.toNat_ofNat_of_lt' hsmall]

/-- The failure total of the node in life cycle `n` is the number of the life cycles before it
that were not clean, as far back as `max_lc_count` reaches. -/
def CountsShutdowns (lifecycle : ℕ → Lifecycle) (m n : ℕ) : Prop :=
  ((stateIn lifecycle ⟨none, none⟩ n).bind (readStatistics CString.empty)).map
      (fun reply => reply.totalFailures.toNat) =
    some (uncleanCount lifecycle (max 1 (n - m - 1)) (n - 1))

/-- The first start of a node counts as a failed shutdown for as long as it is retained. -/
theorem countsShutdowns_iff (lifecycle : ℕ → Lifecycle) (m n : ℕ) (hn : 1 ≤ n)
    (fixed : ∀ j, 1 ≤ j → j ≤ n → maxLcCount lifecycle j = m)
    (regular : ∀ j, 1 ≤ j → j ≤ n → (lifecycle j).FilesOk ∧ (lifecycle j).Bounded)
    (flagged : ∀ j, 1 ≤ j → j ≤ n → (lifecycle j).FlagsOk)
    (completed : ∀ j, 1 ≤ j → j < n → (lifecycle j).serving.isSome = true) :
    CountsShutdowns lifecycle m n ↔ m + 1 < n := by
  rw [CountsShutdowns, totalFailures_eq lifecycle m n hn fixed regular flagged completed,
    Option.some.injEq]
  split <;> omega

end

theorem countsShutdowns_iff_three :
    let l : Lifecycle :=
      ⟨{ max_lc_count := 1 }, {}, some ({}, [.lcRequest {} .normal, .lcRequest {} .runup])⟩
    CountsShutdowns (fun _ => l) 1 3 ↔ 1 + 1 < 3 :=
  countsShutdowns_iff _ 1 3 (by decide) (fun _ _ _ => rfl)
    (fun _ _ _ => ⟨⟨rfl, by simp [Request.opens]⟩, ⟨by decide, by decide⟩⟩)
    (fun _ _ _ => ⟨rfl, by simp [Request.storesFlag]⟩) (fun _ _ _ => rfl)

theorem not_countsShutdowns_firstStart :
    let l : Lifecycle := ⟨{ max_lc_count := 1 }, {}, some ({}, [.lcRequest {} .normal])⟩
    ¬CountsShutdowns (fun _ => l) 1 2 ∧ uncleanCount (fun _ => l) 1 1 = 0 ∧
      ((stateIn (fun _ => l) ⟨none, none⟩ 2).bind (readStatistics CString.empty)).map
        (fun reply => reply.totalFailures.toNat) = some 1 := by
  intro l
  have htotal := totalFailures_eq (fun _ => l) 1 2 (by decide) (fun _ _ _ => rfl)
    (fun _ _ _ => ⟨⟨rfl, by simp [l, Request.opens]⟩, ⟨by decide, by decide⟩⟩)
    (fun _ _ _ => ⟨rfl, by simp [l, Request.storesFlag]⟩) (fun _ _ _ => rfl)
  refine ⟨?_, rfl, htotal⟩
  rw [CountsShutdowns, htotal]
  decide

end NodeHealthMonitor.NhmMain
