import NodeHealthMonitor.ByteStream

/-! NUL-terminated strings. A `CString` is a string the program can hold and
count in 32 bits: no NUL byte inside and `strlen + 1` below `2^32`, which every
string of a D-Bus message satisfies. -/

namespace NodeHealthMonitor

structure CString where
  bytes : List UInt8
  nul_free : 0 ∉ bytes
  fits : bytes.length + 1 < 2 ^ 32
  deriving DecidableEq

namespace CString
open ByteStream

def empty : CString := ⟨[], by decide, by decide⟩

def literal (bytes : List UInt8) (nul_free : 0 ∉ bytes := by decide)
    (fits : bytes.length + 1 < 2 ^ 32 := by decide) : CString :=
  ⟨bytes, nul_free, fits⟩

theorem ext {s t : CString} (h : s.bytes = t.bytes) : s = t := by
  cases s
  cases t
  simpa using h

def size (s : CString) : UInt32 := UInt32.ofNat (s.bytes.length + 1)

@[simp] theorem size_toNat (s : CString) : s.size.toNat = s.bytes.length + 1 := by
  simp only [size, UInt32.toNat_ofNat']
  exact Nat.mod_eq_of_lt s.fits

def terminated (s : CString) : List UInt8 := s.bytes ++ [0]

@[simp] theorem terminated_length (s : CString) : s.terminated.length = s.bytes.length + 1 := by
  simp [terminated]

/-- The bytes of memory a string function reads up to the NUL; `none` where it
would read an indeterminate byte or run past the allocation. -/
def scan : List Cell → Option (List UInt8)
  | [] => none
  | none :: _ => none
  | some b :: rest => if b = 0 then some [] else (scan rest).map (b :: ·)

def ofCells (cells : List Cell) : Option CString := do
  let bytes ← scan cells
  if h : 0 ∉ bytes ∧ bytes.length + 1 < 2 ^ 32 then some ⟨bytes, h.1, h.2⟩ else none

theorem scan_terminated (bytes : List UInt8) (h : 0 ∉ bytes) (rest : List Cell) :
    scan ((bytes ++ [0]).map some ++ rest) = some bytes := by
  induction bytes with
  | nil => simp [scan]
  | cons b bytes ih =>
    simp only [List.mem_cons, not_or] at h
    have hb : ¬b = 0 := fun e => h.1 e.symm
    simp only [List.cons_append, List.map_cons, scan, hb, if_false, ih h.2, Option.map_some]

theorem ofCells_terminated (s : CString) : ofCells (s.terminated.map some) = some s := by
  have h := scan_terminated s.bytes s.nul_free []
  rw [List.append_nil] at h
  rw [ofCells, terminated, h]
  exact dif_pos ⟨s.nul_free, s.fits⟩

end CString

end NodeHealthMonitor
