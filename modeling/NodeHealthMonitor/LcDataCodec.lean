import Mathlib.Data.List.Flatten
import NodeHealthMonitor.LcData

/-! Round trip of the file `lcdata`, for a complete file and for one whose writing
was cut short. The reader is followed from a record boundary: whatever its loop
variables hold there, a record that is complete comes back exactly. -/

namespace NodeHealthMonitor.LcData
open ByteStream

def appImage (app : NhmFailedApp) : LoadedApp :=
  ⟨some (app.name.terminated.map some), wordCells app.failcount⟩

def lcImage (lc : NhmLcInfo) : LoadedLc :=
  ⟨wordCells lc.start_state, lc.failed_apps.map appImage⟩

@[simp] theorem value_appImage (app : NhmFailedApp) : (appImage app).value = some app := by
  simp [LoadedApp.value, appImage, CString.ofCells_terminated]

@[simp] theorem value_lcImage (lc : NhmLcInfo) : (lcImage lc).value = some lc := by
  simp [LoadedLc.value, lcImage, collect_map LoadedApp.value appImage value_appImage]

theorem listLength_toNat {α : Type*} (xs : List α) (h : xs.length < 2 ^ 32) :
    (listLength xs).toNat = xs.length := by
  simpa [listLength] using Nat.mod_eq_of_lt h

theorem guintMin_toNat (a b : UInt32) : (guintMin a b).toNat = min a.toNat b.toNat := by
  unfold guintMin
  split
  · rename_i h
    have := UInt32.lt_iff_toNat_lt.mp h
    omega
  · rename_i h
    have := mt UInt32.lt_iff_toNat_lt.mpr h
    omega

theorem lcListSize_toNat (nodeinfo : List NhmLcInfo) (w : UInt32)
    (h : nodeinfo.length < 2 ^ 32) :
    (lcListSize nodeinfo w).toNat = min nodeinfo.length w.toNat := by
  rw [lcListSize, guintMin_toNat, listLength_toNat nodeinfo h]

theorem readApp_writeApp (app : NhmFailedApp) (len : UInt32) (rest : List UInt8) :
    readApp len (writeApp app ++ rest) = (appImage app, app.name.size, rest) := by
  have hname : app.name.terminated.length = (allocate app.name.size).length := by
    simp [allocate]
  have hsize : app.name.size ≠ 0 := by
    intro h
    have := congrArg UInt32.toNat h
    simp at this
  simp only [readApp, writeApp, List.append_assoc, readWord_encodeWord,
    fread_append some _ _ _ hname, fread_freshWord, if_neg hsize, appImage]

theorem readLc_writeLc (lc : NhmLcInfo) (h : lc.failed_apps.length < 2 ^ 32)
    (vars : ReadVars) (rest : List UInt8) :
    ∃ vars', readLc vars (writeLc lc ++ rest) = (lcImage lc, vars', rest) := by
  obtain ⟨len, happs⟩ := readMany_flatMap readApp writeApp appImage lc.failed_apps
    (fun app _ len rest => ⟨_, readApp_writeApp app len rest⟩) 0 vars.app_name_len rest
  refine ⟨⟨listLength lc.failed_apps, len⟩, ?_⟩
  simp only [Nat.add_zero, readMany, List.append_nil] at happs
  simp only [readLc, writeLc, List.append_assoc, fread_freshWord, readWord_encodeWord,
    listLength_toNat _ h, happs, lcImage]

/-- Every list the file stores a length of can be counted in 32 bits. -/
structure Countable (nodeinfo : List NhmLcInfo) : Prop where
  lcs : nodeinfo.length < 2 ^ 32
  apps : ∀ lc ∈ nodeinfo, lc.failed_apps.length < 2 ^ 32

def storedSize (lcs : List NhmLcInfo) : ℕ := 8 + (lcs.flatMap writeLc).length

def fopenW (_old : List UInt8) : List UInt8 := []

/-- The file after a call of `nhm_main_write_data` that ended when `k` bytes of the
new content had reached it. -/
def interruptedWrite (old : List UInt8) (nodeinfo : List NhmLcInfo) (w : UInt32) (k : ℕ) :
    List UInt8 :=
  fopenW old ++ (writeData nodeinfo w).take k

theorem interruptedWrite_complete (old : List UInt8) (nodeinfo : List NhmLcInfo) (w : UInt32) :
    interruptedWrite old nodeinfo w (writeData nodeinfo w).length = writeData nodeinfo w := by
  simp [interruptedWrite, fopenW]

theorem take_writeData (nodeinfo : List NhmLcInfo) (w : UInt32) (k i : ℕ)
    (hi : i ≤ (lcListSize nodeinfo w).toNat) (hk : storedSize (nodeinfo.take i) ≤ k) :
    ∃ rest, (writeData nodeinfo w).take k = encodeWord nhmVersion ++
      (encodeWord (lcListSize nodeinfo w) ++ ((nodeinfo.take i).flatMap writeLc ++ rest)) := by
  obtain ⟨later, hlater⟩ : ∃ later, nodeinfo.take (lcListSize nodeinfo w).toNat =
      nodeinfo.take i ++ later := by
    refine ⟨(nodeinfo.take (lcListSize nodeinfo w).toNat).drop i, ?_⟩
    have := List.take_append_drop i (nodeinfo.take (lcListSize nodeinfo w).toNat)
    rwa [List.take_take, min_eq_left hi, eq_comm] at this
  refine ⟨(later.flatMap writeLc).take (k - storedSize (nodeinfo.take i)), ?_⟩
  have hsplit : writeData nodeinfo w = (encodeWord nhmVersion ++
      (encodeWord (lcListSize nodeinfo w) ++ (nodeinfo.take i).flatMap writeLc)) ++
        later.flatMap writeLc := by
    simp only [writeData, hlater, List.flatMap_append, List.append_assoc]
  have hlen : (encodeWord nhmVersion ++ (encodeWord (lcListSize nodeinfo w) ++
      (nodeinfo.take i).flatMap writeLc)).length = storedSize (nodeinfo.take i) := by
    simp only [List.length_append, encodeWord_length, storedSize]
    omega
  rw [hsplit, List.take_append, List.take_of_length_le (by omega), hlen]
  simp only [List.append_assoc]

theorem readRecords_take_writeData (nodeinfo : List NhmLcInfo) (hn : Countable nodeinfo)
    (w r : UInt32) (k i : ℕ) (hi : i ≤ min nodeinfo.length (min w.toNat r.toNat))
    (hk : storedSize (nodeinfo.take i) ≤ k) :
    ∃ rest, readRecords r ((writeData nodeinfo w).take k) =
        (nodeinfo.take i).map lcImage ++ rest ∧
      rest.length = min nodeinfo.length (min w.toNat r.toNat) - i := by
  have hsize := lcListSize_toNat nodeinfo w hn.lcs
  obtain ⟨tail, hfile⟩ := take_writeData nodeinfo w k i (by omega) hk
  have hcount : (guintMin (lcListSize nodeinfo w) r).toNat =
      (nodeinfo.take i).length + (min nodeinfo.length (min w.toNat r.toNat) - i) := by
    rw [guintMin_toNat, hsize, List.length_take]
    omega
  obtain ⟨vars, hread⟩ := readMany_flatMap readLc writeLc lcImage (nodeinfo.take i)
    (fun lc hlc vars rest =>
      readLc_writeLc lc (hn.apps lc (List.mem_of_mem_take hlc)) vars rest)
    (min nodeinfo.length (min w.toNat r.toNat) - i) ⟨0, 0⟩ tail
  refine ⟨_, ?_, readMany_length readLc _ vars tail⟩
  simp only [readRecords, hfile, readWord_encodeWord, hcount, hread]

theorem readRecords_writeData (nodeinfo : List NhmLcInfo) (hn : Countable nodeinfo)
    (w r : UInt32) (k : ℕ)
    (hk : storedSize (nodeinfo.take (min nodeinfo.length (min w.toNat r.toNat))) ≤ k) :
    readRecords r ((writeData nodeinfo w).take k) =
      (nodeinfo.take (min nodeinfo.length (min w.toNat r.toNat))).map lcImage := by
  obtain ⟨rest, hread, hrest⟩ := readRecords_take_writeData nodeinfo hn w r k _ le_rfl hk
  rw [Nat.sub_self] at hrest
  rw [hread, List.eq_nil_of_length_eq_zero hrest, List.append_nil]

theorem storedSize_le_writeData (nodeinfo : List NhmLcInfo) (w : UInt32) (i : ℕ)
    (hi : i ≤ (lcListSize nodeinfo w).toNat) :
    storedSize (nodeinfo.take i) ≤ (writeData nodeinfo w).length := by
  have hsub : (nodeinfo.take i).Sublist (nodeinfo.take (lcListSize nodeinfo w).toNat) :=
    List.take_sublist_take_left hi
  have := (hsub.flatMap writeLc).length_le
  simp only [storedSize, writeData, List.length_append, encodeWord_length]
  omega

theorem readRecords_complete (nodeinfo : List NhmLcInfo) (hn : Countable nodeinfo)
    (w r : UInt32) :
    readRecords r (writeData nodeinfo w) =
      (nodeinfo.take (min nodeinfo.length (min w.toNat r.toNat))).map lcImage := by
  have hsize := lcListSize_toNat nodeinfo w hn.lcs
  have hfull := readRecords_writeData nodeinfo hn w r (writeData nodeinfo w).length
    (storedSize_le_writeData nodeinfo w _ (by omega))
  rwa [List.take_length] at hfull

theorem readData_complete (nodeinfo mem : List NhmLcInfo) (hn : Countable nodeinfo)
    (w r : UInt32) :
    readData r (some (writeData nodeinfo w)) mem =
      some (mem ++ nodeinfo.take (min nodeinfo.length (min w.toNat r.toNat))) := by
  rw [readData, readRecords_complete nodeinfo hn w r,
    collect_map LoadedLc.value lcImage value_lcImage, Option.map_some]

/-- What is written is read back: the first `min(len, w, r)` life cycles, as heap
records and as the program sees them, behind the entries already in memory. -/
theorem lcdata_roundTrip (nodeinfo mem : List NhmLcInfo) (hn : Countable nodeinfo)
    (w r : UInt32) :
    readRecords r (writeData nodeinfo w) =
        (nodeinfo.take (min nodeinfo.length (min w.toNat r.toNat))).map lcImage ∧
      readData r (some (writeData nodeinfo w)) mem =
        some (mem ++ nodeinfo.take (min nodeinfo.length (min w.toNat r.toNat))) :=
  ⟨readRecords_complete nodeinfo hn w r, readData_complete nodeinfo mem hn w r⟩

theorem lcdata_roundTrip_twoLcs :
    let app : NhmFailedApp := ⟨CString.empty, 3⟩
    readData 1 (some (writeData [⟨2, [app]⟩, ⟨1, []⟩] 5)) [⟨0, []⟩] =
      some [⟨0, []⟩, ⟨2, [app]⟩] :=
  (lcdata_roundTrip [⟨2, [⟨CString.empty, 3⟩]⟩, ⟨1, []⟩] [⟨0, []⟩]
    ⟨by decide, by decide⟩ 5 1).2

def SurvivesInterruption (old : List NhmLcInfo) (wOld : UInt32) (nodeinfo : List NhmLcInfo)
    (w r : UInt32) (k : ℕ) : Prop :=
  readRecords r (interruptedWrite (writeData old wOld) nodeinfo w k) =
      readRecords r (writeData old wOld) ∨
    readRecords r (interruptedWrite (writeData old wOld) nodeinfo w k) =
      readRecords r (writeData nodeinfo w)

theorem not_survivesInterruption_empty :
    ¬SurvivesInterruption [⟨NhmNodeState.shutdown, []⟩] 1 [⟨NhmNodeState.started, []⟩] 1 1 0 := by
  unfold SurvivesInterruption
  decide

theorem readRecords_short (r : UInt32) (file : List UInt8) (h : file.length ≤ 4) :
    readRecords r file = [] := by
  have hdrop : (readWord 0 file).2 = [] := by
    simp only [readWord, fread, encodeWord_length]
    exact List.drop_eq_nil_of_le h
  have hzero : (guintMin 0 r).toNat = 0 := by
    rw [guintMin_toNat]
    simp
  simp only [readRecords, hdrop, readWord_nil, hzero, readMany]

/-- A write that is cut short has given up the old history. The next start loads the
complete life cycles of the new one, first and in order; all it takes, once these have
reached the file; nothing, while only the version has. -/
theorem readRecords_interruptedWrite (old : List UInt8) (nodeinfo : List NhmLcInfo)
    (hn : Countable nodeinfo) (w r : UInt32) (k : ℕ) :
    let taken := min nodeinfo.length (min w.toNat r.toNat)
    let loaded := readRecords r (interruptedWrite old nodeinfo w k)
    (∀ i ≤ taken, storedSize (nodeinfo.take i) ≤ k →
        loaded.take i = (nodeinfo.take i).map lcImage) ∧
      (storedSize (nodeinfo.take taken) ≤ k →
        loaded = readRecords r (writeData nodeinfo w)) ∧
      (k ≤ 4 → loaded = []) := by
  have hfile : interruptedWrite old nodeinfo w k = (writeData nodeinfo w).take k := rfl
  refine ⟨fun i hi hk => ?_, fun hk => ?_, fun hk => ?_⟩
  · obtain ⟨rest, hread, -⟩ := readRecords_take_writeData nodeinfo hn w r k i hi hk
    have hlen : ((nodeinfo.take i).map lcImage).length = i := by
      rw [List.length_map, List.length_take]
      omega
    rw [hfile, hread, List.take_left' hlen]
  · rw [hfile, readRecords_writeData nodeinfo hn w r k hk, readRecords_complete nodeinfo hn w r]
  · exact readRecords_short r _ (by rw [hfile, List.length_take]; omega)

theorem readRecords_interruptedWrite_firstLc :
    (readRecords 5 (interruptedWrite [] [⟨2, []⟩, ⟨1, []⟩] 5 16)).take 1 =
      [lcImage ⟨2, []⟩] :=
  (readRecords_interruptedWrite [] [⟨2, []⟩, ⟨1, []⟩] ⟨by decide, by decide⟩ 5 5 16).1 1
    (by decide) (by decide)

end NodeHealthMonitor.LcData
