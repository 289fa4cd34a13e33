import NodeHealthMonitor.LcDataCodec

/-! The reader on a file that was cut behind its first `k` bytes. It never looks at what
`fread` returns: it makes as many records as the count it has got asks for, whether their
bytes are there or not. -/

namespace NodeHealthMonitor.LcData
open ByteStream

def storedLcs (nodeinfo : List NhmLcInfo) (w : UInt32) : List NhmLcInfo :=
  nodeinfo.take (lcListSize nodeinfo w).toNat

def completeLcs : (k : ℕ) → List NhmLcInfo → List NhmLcInfo
  | _, [] => []
  | k, lc :: lcs =>
      if (writeLc lc).length ≤ k then lc :: completeLcs (k - (writeLc lc).length) lcs else []

/-- The first `k` bytes of a file yield the first `r` stored life cycles, as far as they
are complete, and nothing else. -/
def NoInventedData (nodeinfo : List NhmLcInfo) (w r : UInt32) (k : ℕ) : Prop :=
  readRecords r ((writeData nodeinfo w).take k) =
    (completeLcs (k - 8) ((storedLcs nodeinfo w).take r.toNat)).map lcImage

/-- The cut leaves no more life cycles to read than are complete: none while the count
itself is cut, else all that are wanted. -/
def CutHarmless (nodeinfo : List NhmLcInfo) (w r : UInt32) (k : ℕ) : Prop :=
  if k < 8 then min ((lcListSize nodeinfo w).toNat % 2 ^ (8 * (k - 4))) r.toNat = 0
  else storedSize ((storedLcs nodeinfo w).take r.toNat) ≤ k ∧
    ∀ lc ∈ (storedLcs nodeinfo w).take r.toNat, lc.failed_apps.length < 2 ^ 32

theorem completeLcs_length (k : ℕ) (lcs : List NhmLcInfo) :
    (completeLcs k lcs).length = lcs.length ↔ (lcs.flatMap writeLc).length ≤ k := by
  induction lcs generalizing k with
  | nil => simp [completeLcs]
  | cons lc lcs ih =>
    rw [completeLcs, List.flatMap_cons, List.length_append]
    by_cases hlc : (writeLc lc).length ≤ k
    · have hrest := ih (k - (writeLc lc).length)
      rw [if_pos hlc, List.length_cons, List.length_cons]
      omega
    · rw [if_neg hlc, List.length_nil, List.length_cons]
      omega

theorem completeLcs_eq (k : ℕ) (lcs : List NhmLcInfo) (h : (lcs.flatMap writeLc).length ≤ k) :
    completeLcs k lcs = lcs := by
  induction lcs generalizing k with
  | nil => rfl
  | cons lc lcs ih =>
    rw [List.flatMap_cons, List.length_append] at h
    rw [completeLcs, if_pos (by omega), ih _ (by omega)]

theorem completeLcs_zero (lcs : List NhmLcInfo) : completeLcs 0 lcs = [] := by
  cases lcs with
  | nil => rfl
  | cons lc lcs =>
    rw [completeLcs, if_neg]
    simp [writeLc]

theorem readMany_writeLc (lcs : List NhmLcInfo) (vars : ReadVars) (rest : List UInt8) :
    (readMany readLc lcs.length vars (lcs.flatMap writeLc ++ rest)).1 = lcs.map lcImage ↔
      ∀ lc ∈ lcs, lc.failed_apps.length < 2 ^ 32 := by
  induction lcs generalizing vars with
  | nil => simp [readMany]
  | cons lc lcs ih =>
    rw [List.flatMap_cons, List.append_assoc, List.length_cons, List.forall_mem_cons]
    constructor
    · intro h
      simp only [readMany, List.map_cons, List.cons.injEq] at h
      have hcount : lc.failed_apps.length < 2 ^ 32 := by
        have hlen := congrArg (fun record => record.failed_apps.length) h.1
        simp only [readLc, writeLc, List.append_assoc, fread_freshWord, readWord_encodeWord,
          readMany_length, lcImage, List.length_map] at hlen
        rw [← hlen]
        exact (listLength lc.failed_apps).toNat_lt
      obtain ⟨vars', hlc⟩ := readLc_writeLc lc hcount vars (lcs.flatMap writeLc ++ rest)
      rw [hlc] at h
      exact ⟨hcount, (ih vars').mp h.2⟩
    · rintro ⟨hcount, hrest⟩
      obtain ⟨vars', hlc⟩ := readLc_writeLc lc hcount vars (lcs.flatMap writeLc ++ rest)
      simp only [readMany, hlc, List.map_cons, (ih vars').mpr hrest]

theorem storedLcs_length (nodeinfo : List NhmLcInfo) (w : UInt32) :
    (storedLcs nodeinfo w).length = (lcListSize nodeinfo w).toNat := by
  have hle : (lcListSize nodeinfo w).toNat ≤ nodeinfo.length := by
    rw [lcListSize, guintMin_toNat, listLength, UInt32.toNat_ofNat']
    exact (Nat.min_le_left _ _).trans (Nat.mod_le _ _)
  rw [storedLcs, List.length_take, Nat.min_eq_left hle]

theorem readRecords_length (r : UInt32) (file : List UInt8) :
    (readRecords r file).length = min (readWord 0 (file.drop 4)).1.toNat r.toNat := by
  rw [← guintMin_toNat]
  exact readMany_length readLc _ _ _

theorem noInventedData_cutHeader (nodeinfo : List NhmLcInfo) (w r : UInt32) (k : ℕ)
    (hk : k < 8) : NoInventedData nodeinfo w r k ↔
      min ((lcListSize nodeinfo w).toNat % 2 ^ (8 * (k - 4))) r.toNat = 0 := by
  have hcount : ((writeData nodeinfo w).take k).drop 4 =
      (encodeWord (lcListSize nodeinfo w)).take (k - 4) := by
    rw [writeData, List.append_assoc, List.drop_take, List.drop_left' (encodeWord_length _),
      List.take_append_of_le_length (by rw [encodeWord_length]; omega)]
  rw [NoInventedData, Nat.sub_eq_zero_of_le (Nat.le_of_lt hk), completeLcs_zero, List.map_nil,
    ← List.length_eq_zero_iff, readRecords_length, hcount, readWord_take _ _ (by omega)]

theorem readRecords_wholeHeader (nodeinfo : List NhmLcInfo) (w r : UInt32) (k : ℕ) (hk : 8 ≤ k) :
    readRecords r ((writeData nodeinfo w).take k) =
      (readMany readLc ((storedLcs nodeinfo w).take r.toNat).length ⟨0, 0⟩
        (((storedLcs nodeinfo w).flatMap writeLc).take (k - 8))).1 := by
  have hwanted : ((storedLcs nodeinfo w).take r.toNat).length =
      (guintMin (lcListSize nodeinfo w) r).toNat := by
    rw [List.length_take, storedLcs_length, guintMin_toNat, Nat.min_comm]
  have hfile : (writeData nodeinfo w).take k = encodeWord nhmVersion ++
      (encodeWord (lcListSize nodeinfo w) ++
        ((storedLcs nodeinfo w).flatMap writeLc).take (k - 8)) := by
    rw [writeData, List.take_append, List.take_of_length_le (by simpa using hk),
      List.append_assoc]
    rfl
  simp only [readRecords, hfile, readWord_encodeWord, hwanted]

theorem noInventedData_wholeHeader (nodeinfo : List NhmLcInfo) (w r : UInt32) (k : ℕ)
    (hk : 8 ≤ k) : NoInventedData nodeinfo w r k ↔
      storedSize ((storedLcs nodeinfo w).take r.toNat) ≤ k ∧
        ∀ lc ∈ (storedLcs nodeinfo w).take r.toNat, lc.failed_apps.length < 2 ^ 32 := by
  have hsize : storedSize ((storedLcs nodeinfo w).take r.toNat) ≤ k ↔
      (((storedLcs nodeinfo w).take r.toNat).flatMap writeLc).length ≤ k - 8 := by
    rw [storedSize]
    omega
  rw [NoInventedData, readRecords_wholeHeader nodeinfo w r k hk, hsize]
  generalize hlcs : (storedLcs nodeinfo w).take r.toNat = lcs
  have hfile : (lcs.flatMap writeLc).length ≤ k - 8 →
      ∃ rest, ((storedLcs nodeinfo w).flatMap writeLc).take (k - 8) =
        lcs.flatMap writeLc ++ rest := by
    intro hlen
    rw [← List.take_append_drop r.toNat (storedLcs nodeinfo w), hlcs, List.flatMap_append,
      List.take_append, List.take_of_length_le hlen]
    exact ⟨_, rfl⟩
  constructor
  · intro h
    have hlen := congrArg List.length h
    rw [readMany_length, List.length_map, eq_comm, completeLcs_length] at hlen
    obtain ⟨rest, hrest⟩ := hfile hlen
    rw [hrest, completeLcs_eq _ _ hlen, readMany_writeLc] at h
    exact ⟨hlen, h⟩
  · rintro ⟨hlen, hcount⟩
    obtain ⟨rest, hrest⟩ := hfile hlen
    rw [hrest, completeLcs_eq _ _ hlen, readMany_writeLc]
    exact hcount

theorem noInventedData_iff (nodeinfo : List NhmLcInfo) (w r : UInt32) (k : ℕ) :
    NoInventedData nodeinfo w r k ↔ CutHarmless nodeinfo w r k := by
  unfold CutHarmless
  split
  · rename_i hk
    exact noInventedData_cutHeader nodeinfo w r k hk
  · rename_i hk
    exact noInventedData_wholeHeader nodeinfo w r k (Nat.le_of_not_lt hk)

theorem not_noInventedData_header :
    ¬NoInventedData [⟨NhmNodeState.started, []⟩] 1 1 8 := by
  unfold NoInventedData
  decide

end NodeHealthMonitor.LcData
