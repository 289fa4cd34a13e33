import NodeHealthMonitor.CString

/-! The run-time data of `nhm-main.c` and its file `lcdata`. `writeData` gives
the bytes `nhm_main_write_data` puts into the file; `readRecords` gives the heap
records `nhm_main_read_data` builds from any bytes, byte for byte: its loop
variables outlive a record, and memory a short read leaves out stays unwritten. -/

namespace NodeHealthMonitor
open ByteStream

/-- The value found in the flag when the NHM started; any 32 bits can be stored. -/
abbrev NhmNodeState := UInt32

namespace NhmNodeState

def notset : NhmNodeState := 0
def started : NhmNodeState := 1
def shutdown : NhmNodeState := 2

end NhmNodeState

structure NhmCurrentFailedApp where
  name : CString
  deriving DecidableEq

structure NhmFailedApp where
  name : CString
  failcount : UInt32
  deriving DecidableEq

structure NhmLcInfo where
  start_state : NhmNodeState
  failed_apps : List NhmFailedApp
  deriving DecidableEq

namespace LcData

/-- `g_slist_length`, and the `len` of a `GPtrArray`. -/
def listLength {α : Type*} (xs : List α) : UInt32 := UInt32.ofNat xs.length

def guintMin (a b : UInt32) : UInt32 := if a < b then a else b

/-- `g_strsplit(s, ".", max_tokens)` for a string that is not empty. -/
def strsplit : (max_tokens : ℕ) → List Char → List (List Char)
  | 0, _ => []
  | 1, s => [s]
  | k + 2, s =>
      match s.span (· ≠ '.') with
      | (token, []) => [token]
      | (token, _ :: rest) => token :: strsplit (k + 1) rest

def digits (s : List Char) : ℕ :=
  (s.takeWhile Char.isDigit).foldl (fun n c => 10 * n + (c.toNat - '0'.toNat)) 0

/-- `isspace` of C, with vertical tab and form feed. -/
def isSpace (c : Char) : Bool := c = ' ' || (9 ≤ c.toNat && c.toNat ≤ 13)

/-- `strtol(s, NULL, 10)` with a 64-bit `long`. -/
def strtol (s : List Char) : ℤ :=
  match s.dropWhile isSpace with
  | '-' :: rest => max (-(digits rest : ℤ)) (-2 ^ 63)
  | '+' :: rest => min (digits rest : ℤ) (2 ^ 63 - 1)
  | rest => min (digits rest : ℤ) (2 ^ 63 - 1)

def convertVersionString (version_string : List Char) : UInt32 :=
  (strsplit 4 version_string).zipIdx.foldl
    (fun version token => version ||| UInt32.ofInt (strtol token.1 * 2 ^ (24 - 8 * token.2))) 0

def nhmVersion : UInt32 := convertVersionString ['1', '.', '3', '.', '5']

example : nhmVersion = 0x01030500 := by decide

def writeApp (app : NhmFailedApp) : List UInt8 :=
  encodeWord app.name.size ++ app.name.terminated ++ encodeWord app.failcount

def writeLc (lc : NhmLcInfo) : List UInt8 :=
  encodeWord lc.start_state ++ encodeWord (listLength lc.failed_apps) ++
    lc.failed_apps.flatMap writeApp

def lcListSize (nodeinfo : List NhmLcInfo) (max_lc_count : UInt32) : UInt32 :=
  guintMin (listLength nodeinfo) max_lc_count

def writeData (nodeinfo : List NhmLcInfo) (max_lc_count : UInt32) : List UInt8 :=
  encodeWord nhmVersion ++ encodeWord (lcListSize nodeinfo max_lc_count) ++
    (nodeinfo.take (lcListSize nodeinfo max_lc_count).toNat).flatMap writeLc

/-- A `NhmFailedApp` as `nhm_main_read_data` leaves it on the heap; a name of
length 0 is a NULL pointer. -/
structure LoadedApp where
  name : Option (List Cell)
  failcount : List Cell
  deriving DecidableEq

structure LoadedLc where
  start_state : List Cell
  failed_apps : List LoadedApp
  deriving DecidableEq

def allocate (len : UInt32) : List Cell := List.replicate len.toNat none

/-- One turn of the inner loop; `app_name_len` is the value left by the turn before. -/
def readApp (app_name_len : UInt32) (file : List UInt8) :
    LoadedApp × UInt32 × List UInt8 :=
  let (app_name_len, file) := readWord app_name_len file
  let (name, file) := fread some (allocate app_name_len) file
  let (failcount, file) := fread some freshWord file
  (⟨if app_name_len = 0 then none else some name, failcount⟩, app_name_len, file)

/-- The variables of `nhm_main_read_data` that survive from life cycle to life cycle. -/
structure ReadVars where
  app_list_size : UInt32
  app_name_len : UInt32

def readLc (vars : ReadVars) (file : List UInt8) : LoadedLc × ReadVars × List UInt8 :=
  let (start_state, file) := fread some freshWord file
  let (app_list_size, file) := readWord vars.app_list_size file
  let (failed_apps, app_name_len, file) :=
    readMany readApp app_list_size.toNat vars.app_name_len file
  (⟨start_state, failed_apps⟩, ⟨app_list_size, app_name_len⟩, file)

def readRecords (max_lc_count : UInt32) (file : List UInt8) : List LoadedLc :=
  let (_, file) := readWord 0 file
  let (lc_list_size, file) := readWord 0 file
  (readMany readLc (guintMin lc_list_size max_lc_count).toNat ⟨0, 0⟩ file).1

/-- The record as the rest of the program sees it; `none` where using it is
undefined (NULL or unterminated name, a field that was never written). -/
def LoadedApp.value (app : LoadedApp) : Option NhmFailedApp := do
  let buffer ← app.name
  let name ← CString.ofCells buffer
  let failcount ← wordValue app.failcount
  some ⟨name, failcount⟩

def LoadedLc.value (lc : LoadedLc) : Option NhmLcInfo := do
  let start_state ← wordValue lc.start_state
  let failed_apps ← collect LoadedApp.value lc.failed_apps
  some ⟨start_state, failed_apps⟩

def readData (max_lc_count : UInt32) (file : Option (List UInt8)) (nodeinfo : List NhmLcInfo) :
    Option (List NhmLcInfo) :=
  match file with
  | none => some nodeinfo
  | some bytes => (collect LoadedLc.value (readRecords max_lc_count bytes)).map (nodeinfo ++ ·)

end LcData

end NodeHealthMonitor
