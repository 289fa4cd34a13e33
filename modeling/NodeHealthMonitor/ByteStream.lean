import Mathlib.Data.List.Basic
import Mathlib.Tactic.Ring

/-! Byte streams of a C program: little-endian 32-bit words and `fread` into
memory. A short read fills the front of its destination and leaves the rest as
it was, so the destination may be initialised bytes or freshly allocated cells. -/

namespace NodeHealthMonitor.ByteStream

/-- A byte of allocated memory; `none` until something is stored in it. -/
abbrev Cell := Option UInt8

def encodeWord (w : UInt32) : List UInt8 :=
  [UInt8.ofNat w.toNat, UInt8.ofNat (w.toNat / 2 ^ 8),
    UInt8.ofNat (w.toNat / 2 ^ 16), UInt8.ofNat (w.toNat / 2 ^ 24)]

def decodeWord : List UInt8 → UInt32
  | [a, b, c, d] =>
      UInt32.ofNat (a.toNat + 2 ^ 8 * b.toNat + 2 ^ 16 * c.toNat + 2 ^ 24 * d.toNat)
  | _ => 0

@[simp] theorem encodeWord_length (w : UInt32) : (encodeWord w).length = 4 := rfl

@[simp] theorem decodeWord_encodeWord (w : UInt32) : decodeWord (encodeWord w) = w := by
  apply UInt32.toNat_inj.mp
  have bound := w.toNat_lt
  simp only [encodeWord, decodeWord, UInt8.toNat_ofNat', UInt32.toNat_ofNat']
  omega

/-- `fread` of one item of `dst.length` bytes; `put` is how memory holds a byte. -/
def fread {α : Type*} (put : UInt8 → α) (dst : List α) (file : List UInt8) :
    List α × List UInt8 :=
  ((file.take dst.length).map put ++ dst.drop file.length, file.drop dst.length)

theorem fread_append {α : Type*} (put : UInt8 → α) (dst : List α) (item rest : List UInt8)
    (h : item.length = dst.length) : fread put dst (item ++ rest) = (item.map put, rest) := by
  have hd : dst.drop (item ++ rest).length = [] := by
    apply List.drop_eq_nil_of_le
    simp only [List.length_append]
    omega
  simp only [fread, hd, List.append_nil, ← h, List.take_left', List.drop_left']

@[simp] theorem fread_nil {α : Type*} (put : UInt8 → α) (dst : List α) :
    fread put dst [] = (dst, []) := by
  simp [fread]

/-- A read into a 32-bit variable that already holds `old`. -/
def readWord (old : UInt32) (file : List UInt8) : UInt32 × List UInt8 :=
  let (bytes, file) := fread id (encodeWord old) file
  (decodeWord bytes, file)

theorem readWord_encodeWord (old w : UInt32) (rest : List UInt8) :
    readWord old (encodeWord w ++ rest) = (w, rest) := by
  rw [readWord, fread_append id (encodeWord old) (encodeWord w) rest rfl]
  simp

@[simp] theorem readWord_nil (old : UInt32) : readWord old [] = (old, []) := by
  simp [readWord]

theorem readWord_take (w : UInt32) (j : ℕ) (hj : j < 4) :
    (readWord 0 ((encodeWord w).take j)).1.toNat = w.toNat % 2 ^ (8 * j) := by
  have bound := w.toNat_lt
  obtain rfl | rfl | rfl | rfl : j = 0 ∨ j = 1 ∨ j = 2 ∨ j = 3 := by omega
  · simp [readWord]
    omega
  all_goals
    simp [readWord, fread, encodeWord, decodeWord]
    omega

def freshWord : List Cell := List.replicate 4 none

def wordCells (w : UInt32) : List Cell := (encodeWord w).map some

def collect {α β : Type*} (value : α → Option β) : List α → Option (List β)
  | [] => some []
  | a :: rest => do
      let b ← value a
      let bs ← collect value rest
      some (b :: bs)

theorem collect_map {α β : Type*} (value : α → Option β) (image : β → α)
    (h : ∀ b, value (image b) = some b) (bs : List β) :
    collect value (bs.map image) = some bs := by
  induction bs with
  | nil => rfl
  | cons b bs ih => simp [collect, h, ih]

theorem map_of_collect {α β : Type*} {value : α → Option β} {sees : α → β}
    (hsees : ∀ a b, value a = some b → sees a = b) {xs : List α} {ys : List β}
    (h : collect value xs = some ys) : xs.map sees = ys := by
  induction xs generalizing ys with
  | nil =>
    cases h
    rfl
  | cons x xs ih =>
    simp only [collect, Option.bind_eq_bind, Option.bind_eq_some_iff] at h
    obtain ⟨y, hy, ys', hys, hcons⟩ := h
    cases hcons
    rw [List.map_cons, hsees x y hy, ih hys]

def wordValue (cells : List Cell) : Option UInt32 := (collect id cells).map decodeWord

@[simp] theorem wordValue_wordCells (w : UInt32) : wordValue (wordCells w) = some w := by
  rw [wordValue, wordCells, collect_map id some (fun _ => rfl)]
  simp

theorem fread_freshWord (w : UInt32) (rest : List UInt8) :
    fread some freshWord (encodeWord w ++ rest) = (wordCells w, rest) :=
  fread_append some freshWord (encodeWord w) rest rfl

/-- A counted loop of reads; `vars` are the loop variables that outlive a turn. -/
def readMany {α ν : Type*} (turn : ν → List UInt8 → α × ν × List UInt8) :
    ℕ → ν → List UInt8 → List α × ν × List UInt8
  | 0, vars, file => ([], vars, file)
  | count + 1, vars, file =>
      let (item, vars, file) := turn vars file
      let (items, vars, file) := readMany turn count vars file
      (item :: items, vars, file)

theorem readMany_length {α ν : Type*} (turn : ν → List UInt8 → α × ν × List UInt8)
    (count : ℕ) (vars : ν) (file : List UInt8) :
    (readMany turn count vars file).1.length = count := by
  induction count generalizing vars file with
  | zero => rfl
  | succ count ih => simp only [readMany, List.length_cons, ih]

theorem readMany_flatMap {α β ν : Type*} (turn : ν → List UInt8 → α × ν × List UInt8)
    (encode : β → List UInt8) (image : β → α) (items : List β)
    (exact : ∀ item ∈ items, ∀ vars rest, ∃ vars',
      turn vars (encode item ++ rest) = (image item, vars', rest))
    (count : ℕ) (vars : ν) (rest : List UInt8) :
    ∃ vars', readMany turn (items.length + count) vars (items.flatMap encode ++ rest) =
      (items.map image ++ (readMany turn count vars' rest).1,
        (readMany turn count vars' rest).2) := by
  induction items generalizing vars with
  | nil => exact ⟨vars, by simp⟩
  | cons item items ih =>
    obtain ⟨next, hturn⟩ := exact item List.mem_cons_self vars (items.flatMap encode ++ rest)
    obtain ⟨vars', hrest⟩ := ih (fun i hi => exact i (List.mem_cons_of_mem item hi)) next
    refine ⟨vars', ?_⟩
    have hcount : (item :: items).length + count = items.length + count + 1 := by
      simp only [List.length_cons]
      omega
    rw [hcount, List.flatMap_cons, List.append_assoc]
    simp only [readMany, hturn, hrest, List.map_cons, List.cons_append]

end NodeHealthMonitor.ByteStream
