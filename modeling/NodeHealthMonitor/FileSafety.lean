import Mathlib.Algebra.BigOperators.Group.List.Basic
import NodeHealthMonitor.LcDataCodec

/-! The reader on arbitrary bytes. The lengths in the file steer its loops and its
allocations unchecked, so a record is only as good as the bytes it is made of. -/

namespace NodeHealthMonitor.LcData
open ByteStream

/-- A name that string functions can use: not NULL, all of it read from the file, and
terminated within its allocation. -/
def LoadedApp.NameUsable (app : LoadedApp) : Prop :=
  ∃ name, app.name = some name ∧ none ∉ name ∧ some 0 ∈ name

structure LoadsSafely (r : UInt32) (file : List UInt8) : Prop where
  names : ∀ lc ∈ readRecords r file, ∀ app ∈ lc.failed_apps, app.NameUsable
  bound : ((readRecords r file).map fun lc => lc.failed_apps.length).sum ≤ file.length / 8

def nameLength (file : List UInt8) : ℕ := (decodeWord (file.take 4)).toNat

def nameComplete (file : List UInt8) : Bool :=
  4 + nameLength file ≤ file.length && ((file.drop 4).take (nameLength file)).contains 0

def behindApp (file : List UInt8) : List UInt8 := file.drop (4 + nameLength file + 4)

def namesComplete : (app_list_size : ℕ) → List UInt8 → Bool
  | 0, _ => true
  | size + 1, file => nameComplete file && namesComplete size (behindApp file)

def behindApps : (app_list_size : ℕ) → List UInt8 → List UInt8
  | 0, file => file
  | size + 1, file => behindApps size (behindApp file)

/-- The same for the lists of `n` life cycles. Where the file ends before the size of a
list, what is left of it goes over the size of the list before. -/
def listsComplete : (n : ℕ) → (app_list_size : UInt32) → List UInt8 → Bool
  | 0, _, _ => true
  | n + 1, app_list_size, file =>
      let size := (readWord app_list_size (file.drop 4)).1
      namesComplete size.toNat (file.drop 8) &&
        listsComplete n size (behindApps size.toNat (file.drop 8))

def NamesInFile (r : UInt32) (file : List UInt8) : Prop :=
  listsComplete (min (readWord 0 (file.drop 4)).1.toNat r.toNat) 0 (file.drop 8) = true

theorem readWord_whole (old : UInt32) (file : List UInt8) (h : 4 ≤ file.length) :
    (readWord old file).1 = decodeWord (file.take 4) := by
  have hrest : (encodeWord old).drop file.length = [] :=
    List.drop_eq_nil_of_le (by rwa [encodeWord_length])
  simp [readWord, fread, hrest]

theorem fread_allocate (len : UInt32) (file : List UInt8) :
    (fread some (allocate len) file).1 =
      (file.take len.toNat).map some ++ List.replicate (len.toNat - file.length) none := by
  simp [fread, allocate]

theorem nameUsable_readApp (app_name_len : UInt32) (file : List UInt8) :
    (readApp app_name_len file).1.NameUsable ↔ nameComplete file = true := by
  have hname : (readApp app_name_len file).1.name =
      if (readWord app_name_len file).1 = 0 then none
      else some (fread some (allocate (readWord app_name_len file).1) (file.drop 4)).1 := rfl
  have husable : (readApp app_name_len file).1.NameUsable ↔
      (readWord app_name_len file).1.toNat ≤ (file.drop 4).length ∧
        0 ∈ (file.drop 4).take (readWord app_name_len file).1.toNat := by
    rw [LoadedApp.NameUsable, hname]
    by_cases hzero : (readWord app_name_len file).1 = 0
    · simp [hzero]
    · generalize file.drop 4 = body
      simp [hzero, fread_allocate, Nat.sub_eq_zero_iff_le, -List.map_take]
  rw [husable, nameComplete, Bool.and_eq_true, decide_eq_true_eq, List.contains_iff_mem]
  by_cases hlen : 4 ≤ file.length
  · rw [readWord_whole app_name_len file hlen, List.length_drop, nameLength]
    refine and_congr_left fun _ => ?_
    omega
  · have hrest : file.drop 4 = [] := List.drop_eq_nil_of_le (by omega)
    rw [hrest]
    simp

theorem readApp_rest (app_name_len : UInt32) (file : List UInt8) (h : nameComplete file = true) :
    (readApp app_name_len file).2.2 = behindApp file := by
  have hlen : 4 ≤ file.length := by
    rw [nameComplete, Bool.and_eq_true, decide_eq_true_eq] at h
    omega
  have hrest : (readApp app_name_len file).2.2 =
      ((file.drop 4).drop (allocate (readWord app_name_len file).1).length).drop 4 := rfl
  rw [hrest, readWord_whole app_name_len file hlen, List.drop_drop, List.drop_drop, behindApp,
    allocate, List.length_replicate, nameLength, Nat.add_assoc]

theorem nameUsable_readMany (size : ℕ) (app_name_len : UInt32) (file : List UInt8) :
    ((∀ app ∈ (readMany readApp size app_name_len file).1, app.NameUsable) ↔
        namesComplete size file = true) ∧
      (namesComplete size file = true →
        (readMany readApp size app_name_len file).2.2 = behindApps size file) := by
  induction size generalizing app_name_len file with
  | zero => simp [readMany, namesComplete, behindApps]
  | succ size ih =>
    have hhead := nameUsable_readApp app_name_len file
    simp only [readMany, List.forall_mem_cons, hhead, namesComplete, Bool.and_eq_true]
    by_cases hname : nameComplete file = true
    · obtain ⟨hall, hrest⟩ := ih (readApp app_name_len file).2.1 (behindApp file)
      rw [readApp_rest app_name_len file hname]
      exact ⟨and_congr_right fun _ => hall, fun h => hrest h.2⟩
    · simp [hname]

theorem readLc_usable (vars : ReadVars) (file : List UInt8) :
    ((∀ app ∈ (readLc vars file).1.failed_apps, app.NameUsable) ↔
        namesComplete (readWord vars.app_list_size (file.drop 4)).1.toNat (file.drop 8) = true) ∧
      (readLc vars file).2.1.app_list_size = (readWord vars.app_list_size (file.drop 4)).1 ∧
      (namesComplete (readWord vars.app_list_size (file.drop 4)).1.toNat (file.drop 8) = true →
        (readLc vars file).2.2 =
          behindApps (readWord vars.app_list_size (file.drop 4)).1.toNat (file.drop 8)) := by
  have hbody : (readWord vars.app_list_size (file.drop 4)).2 = file.drop 8 := by
    rw [← List.drop_drop (i := 4) (j := 4)]
    rfl
  obtain ⟨hall, hrest⟩ := nameUsable_readMany
    (readWord vars.app_list_size (file.drop 4)).1.toNat vars.app_name_len (file.drop 8)
  rw [← hbody] at hall hrest ⊢
  exact ⟨hall, rfl, hrest⟩

theorem nameUsable_lists (n : ℕ) (vars : ReadVars) (file : List UInt8) :
    (∀ lc ∈ (readMany readLc n vars file).1, ∀ app ∈ lc.failed_apps, app.NameUsable) ↔
      listsComplete n vars.app_list_size file = true := by
  induction n generalizing vars file with
  | zero => simp [readMany, listsComplete]
  | succ n ih =>
    obtain ⟨hall, hsize, hrest⟩ := readLc_usable vars file
    simp only [readMany, List.forall_mem_cons, hall, listsComplete, Bool.and_eq_true]
    refine and_congr_right fun hnames => ?_
    rw [ih, hsize, hrest hnames]

theorem behindApp_length (file : List UInt8) (h : nameComplete file = true) :
    1 ≤ nameLength file ∧ 4 + nameLength file ≤ file.length ∧
      (behindApp file).length = file.length - (4 + nameLength file + 4) := by
  rw [nameComplete, Bool.and_eq_true, decide_eq_true_eq, List.contains_iff_mem] at h
  refine ⟨Nat.one_le_iff_ne_zero.mpr fun hzero => ?_, h.1, List.length_drop⟩
  rw [hzero] at h
  exact absurd h.2 (by simp)

theorem behindApps_length (size : ℕ) (file : List UInt8) (h : namesComplete size file = true) :
    8 * size + (behindApps size file).length ≤ file.length + 3 := by
  induction size generalizing file with
  | zero => simp [behindApps]
  | succ size ih =>
    rw [namesComplete, Bool.and_eq_true] at h
    obtain ⟨hpos, hname, hrest⟩ := behindApp_length file h.1
    have hlater := ih (behindApp file) h.2
    rw [behindApps]
    cases size with
    | zero =>
      rw [behindApps]
      omega
    | succ size => omega

theorem lists_bound (n : ℕ) (vars : ReadVars) (file : List UInt8)
    (h : listsComplete n vars.app_list_size file = true) :
    8 * ((readMany readLc n vars file).1.map fun lc => lc.failed_apps.length).sum ≤
      file.length := by
  induction n generalizing vars file with
  | zero => simp [readMany]
  | succ n ih =>
    obtain ⟨-, hsize, hrest⟩ := readLc_usable vars file
    rw [listsComplete, Bool.and_eq_true] at h
    have hlater := ih (readLc vars file).2.1 (readLc vars file).2.2 (by
      rw [hsize, hrest h.1]
      exact h.2)
    have hsum : ((readMany readLc (n + 1) vars file).1.map fun lc => lc.failed_apps.length).sum =
        (readWord vars.app_list_size (file.drop 4)).1.toNat +
          ((readMany readLc n (readLc vars file).2.1 (readLc vars file).2.2).1.map
            fun lc => lc.failed_apps.length).sum := by
      rw [← readMany_length readApp (readWord vars.app_list_size (file.drop 4)).1.toNat
        vars.app_name_len (readWord vars.app_list_size (file.drop 4)).2]
      rfl
    rw [hsum]
    have hnames := behindApps_length _ _ h.1
    have hbehind := congrArg List.length (hrest h.1)
    rw [List.length_drop] at hnames
    cases hzero : (readWord vars.app_list_size (file.drop 4)).1.toNat with
    | zero =>
      rw [hzero, behindApps, List.length_drop] at hbehind
      omega
    | succ size => omega

theorem loadsSafely_iff (r : UInt32) (file : List UInt8) :
    LoadsSafely r file ↔ NamesInFile r file := by
  have hrecords : readRecords r file = (readMany readLc
      (min (readWord 0 (file.drop 4)).1.toNat r.toNat) ⟨0, 0⟩ (file.drop 8)).1 := by
    rw [← guintMin_toNat, ← List.drop_drop (i := 4) (j := 4)]
    rfl
  have hnames := nameUsable_lists (min (readWord 0 (file.drop 4)).1.toNat r.toNat) ⟨0, 0⟩
    (file.drop 8)
  rw [← hrecords] at hnames
  constructor
  · exact fun safe => hnames.mp safe.names
  · intro h
    refine ⟨hnames.mpr h, ?_⟩
    have hbound := lists_bound _ ⟨0, 0⟩ (file.drop 8) h
    rw [← hrecords, List.length_drop] at hbound
    omega

theorem not_loadsSafely_nullName :
    ¬LoadsSafely 1 (encodeWord nhmVersion ++ encodeWord 1 ++ encodeWord 2 ++ encodeWord 1 ++
      encodeWord 0 ++ encodeWord 7) := by
  intro safe
  obtain ⟨name, hname, -⟩ := safe.names ⟨wordCells 2, [⟨none, wordCells 7⟩]⟩ (by decide)
    ⟨none, wordCells 7⟩ (by decide)
  contradiction

end NodeHealthMonitor.LcData
