import NodeHealthMonitor.CString
import Mathlib.Data.List.TakeWhile

/-! `nhm_main_start_wdog`: the watchdog period taken from `WATCHDOG_USEC`, with
`g_ascii_strtoull` as GLib documents it. -/

namespace NodeHealthMonitor.Watchdog

structure Parsed where
  value : UInt64
  /-- Offset of `endptr` in the string. -/
  endptr : ℕ
  /-- `errno` was set to `ERANGE`. -/
  erange : Bool

def isSpace (b : UInt8) : Bool := b = 32 || (9 ≤ b && b ≤ 13)

def isDigit (b : UInt8) : Bool := 48 ≤ b && b ≤ 57

def sign : List UInt8 → Bool × ℕ
  | 45 :: _ => (true, 1)
  | 43 :: _ => (false, 1)
  | _ => (false, 0)

/-- `g_ascii_strtoull(nptr, &endptr, 10)` -/
def strtoull (nptr : List UInt8) : Parsed :=
  let spaces := (nptr.takeWhile isSpace).length
  let (negative, signs) := sign (nptr.drop spaces)
  let digits := (nptr.drop (spaces + signs)).takeWhile isDigit
  if digits = [] then ⟨0, 0, false⟩
  else
    let n := digits.foldl (fun n b => 10 * n + (b.toNat - 48)) 0
    let magnitude := UInt64.ofNat (min n (2 ^ 64 - 1))
    ⟨if negative then -magnitude else magnitude, spaces + signs + digits.length, 2 ^ 64 ≤ n⟩

/-- The period in ms of the timer that is installed, if one is. -/
def startWdog (wdog_str_us : Option CString) : Option UInt32 := do
  let str ← wdog_str_us
  let parsed := strtoull str.bytes
  if parsed.endptr = str.bytes.length ∧ parsed.endptr ≠ 0 ∧ parsed.erange = false then
    let wdog_us := parsed.value / 2000
    some (if wdog_us > 0xFFFFFFFF then 0xFFFFFFFF else wdog_us.toUInt32)
  else none

def decimal (digits : List UInt8) : ℕ := digits.foldl (fun n b => 10 * n + (b.toNat - 48)) 0

structure Numeral where
  spaces : List UInt8
  signs : List UInt8
  digits : List UInt8
  spaces_isSpace : ∀ b ∈ spaces, isSpace b = true
  signs_sign : signs = [] ∨ signs = [43] ∨ signs = [45]
  digits_isDigit : ∀ b ∈ digits, isDigit b = true
  digits_ne_nil : digits ≠ []

namespace Numeral

def bytes (z : Numeral) : List UInt8 := z.spaces ++ (z.signs ++ z.digits)

def value (z : Numeral) : ℕ := decimal z.digits

def negative (z : Numeral) : Bool := z.signs = [45]

def parsed (z : Numeral) : UInt64 :=
  if z.negative then -UInt64.ofNat z.value else UInt64.ofNat z.value

end Numeral

theorem isDigit_iff (b : UInt8) : isDigit b = true ↔ 48 ≤ b.toNat ∧ b.toNat ≤ 57 := by
  simp [isDigit, UInt8.le_iff_toNat_le]

theorem isSpace_iff (b : UInt8) :
    isSpace b = true ↔ b.toNat = 32 ∨ 9 ≤ b.toNat ∧ b.toNat ≤ 13 := by
  simp [isSpace, UInt8.le_iff_toNat_le, ← UInt8.toNat_inj]

theorem not_isSpace_of_isDigit {b : UInt8} (h : isDigit b = true) : isSpace b = false := by
  rw [isDigit_iff] at h
  rw [Bool.eq_false_iff, ne_eq, isSpace_iff]
  omega

theorem takeWhile_exact {p : UInt8 → Bool} {body rest : List UInt8}
    (inside : ∀ b ∈ body, p b = true) (stop : ∀ b, rest.head? = some b → p b = false) :
    (body ++ rest).takeWhile p = body := by
  rw [List.takeWhile_append_of_pos inside]
  cases rest with
  | nil => simp
  | cons b rest => simp [stop b rfl]

theorem sign_digits (z : Numeral) :
    sign (z.signs ++ z.digits) = (z.negative, z.signs.length) := by
  obtain ⟨b, digits, hdigits⟩ := List.exists_cons_of_ne_nil z.digits_ne_nil
  rcases z.signs_sign with hsigns | hsigns | hsigns
  · have hb : 48 ≤ b.toNat ∧ b.toNat ≤ 57 :=
      (isDigit_iff b).mp (z.digits_isDigit b (by simp [hdigits]))
    rw [hsigns, hdigits, List.nil_append, sign]
    · simp [Numeral.negative, hsigns]
    · rintro rest ⟨⟩
      revert hb
      decide
    · rintro rest ⟨⟩
      revert hb
      decide
  · simp [hsigns, sign, Numeral.negative]
  · simp [hsigns, sign, Numeral.negative]

theorem takeWhile_spaces (z : Numeral) : z.bytes.takeWhile isSpace = z.spaces := by
  apply takeWhile_exact z.spaces_isSpace
  intro b hb
  obtain ⟨c, digits, hdigits⟩ := List.exists_cons_of_ne_nil z.digits_ne_nil
  rcases z.signs_sign with hsigns | hsigns | hsigns
  · have : c = b := by simpa [hsigns, hdigits] using hb
    exact not_isSpace_of_isDigit (z.digits_isDigit b (by simp [hdigits, this]))
  · have : 43 = b := by simpa [hsigns] using hb
    rw [← this]
    rfl
  · have : 45 = b := by simpa [hsigns] using hb
    rw [← this]
    rfl

theorem strtoull_numeral (z : Numeral) :
    strtoull z.bytes =
      ⟨if z.negative then -UInt64.ofNat (min z.value (2 ^ 64 - 1))
        else UInt64.ofNat (min z.value (2 ^ 64 - 1)), z.bytes.length, 2 ^ 64 ≤ z.value⟩ := by
  have hsigns : z.bytes.drop z.spaces.length = z.signs ++ z.digits := List.drop_left
  have hdigits : (z.bytes.drop (z.spaces.length + z.signs.length)).takeWhile isDigit
      = z.digits := by
    rw [← List.drop_drop, hsigns, List.drop_left]
    exact List.takeWhile_eq_self_iff.mpr z.digits_isDigit
  simp only [strtoull, takeWhile_spaces, hsigns, sign_digits, hdigits, if_neg z.digits_ne_nil]
  rw [Numeral.bytes, List.length_append, List.length_append, Nat.add_assoc]
  rfl

theorem sign_take (nptr : List UInt8) :
    nptr.take (sign nptr).2 = [] ∨ nptr.take (sign nptr).2 = [43] ∨
      nptr.take (sign nptr).2 = [45] := by
  rw [sign.eq_def]
  split <;> simp

theorem exists_numeral (nptr : List UInt8) (hend : (strtoull nptr).endptr = nptr.length)
    (hne : (strtoull nptr).endptr ≠ 0) : ∃ z : Numeral, z.bytes = nptr := by
  let rest := nptr.drop (nptr.takeWhile isSpace).length
  let body := rest.drop (sign rest).2
  have hbody : nptr.drop ((nptr.takeWhile isSpace).length + (sign rest).2) = body :=
    (List.drop_drop ..).symm
  have hparse : (strtoull nptr).endptr = if body.takeWhile isDigit = [] then 0 else
      (nptr.takeWhile isSpace).length + (sign rest).2 + (body.takeWhile isDigit).length := by
    simp only [strtoull, ← hbody]
    split <;> rfl
  by_cases hdigits : body.takeWhile isDigit = []
  · rw [if_pos hdigits] at hparse
    exact absurd hparse hne
  rw [if_neg hdigits, hend] at hparse
  have hall : body.takeWhile isDigit = body := by
    apply (List.takeWhile_prefix isDigit).eq_of_length
    have hlength := congrArg List.length hbody
    rw [List.length_drop] at hlength
    omega
  rw [hall] at hdigits
  refine ⟨⟨nptr.takeWhile isSpace, rest.take (sign rest).2, body,
    fun b hb => List.mem_takeWhile_imp hb, sign_take rest,
    List.takeWhile_eq_self_iff.mp hall, hdigits⟩, ?_⟩
  calc nptr.takeWhile isSpace ++ (rest.take (sign rest).2 ++ body)
      = nptr.takeWhile isSpace ++ rest := by rw [List.take_append_drop]
    _ = nptr := List.prefix_iff_eq_append.mp (List.takeWhile_prefix isSpace)

namespace Numeral

/-- Half the timeout in ms, no more than a `guint` holds. -/
def period (z : Numeral) : UInt32 :=
  if z.parsed / 2000 > 0xFFFFFFFF then 0xFFFFFFFF else (z.parsed / 2000).toUInt32

theorem period_toNat (z : Numeral) :
    z.period.toNat = min (z.parsed.toNat / 2000) (2 ^ 32 - 1) := by
  have hdiv : (z.parsed / 2000).toNat = z.parsed.toNat / 2000 := by
    rw [UInt64.toNat_div]
    rfl
  rw [period]
  split
  · rename_i h
    have : 2 ^ 32 - 1 < (z.parsed / 2000).toNat := h
    rw [hdiv] at this
    rw [min_eq_right this.le]
    rfl
  · rename_i h
    have : (z.parsed / 2000).toNat ≤ 2 ^ 32 - 1 := not_lt.mp h
    rw [UInt64.toNat_toUInt32, Nat.mod_eq_of_lt (by omega), hdiv]
    rw [hdiv] at this
    rw [min_eq_left this]

end Numeral

theorem startWdog_eq (str : CString) :
    startWdog (some str) =
      if (strtoull str.bytes).endptr = str.bytes.length ∧ (strtoull str.bytes).endptr ≠ 0 ∧
          (strtoull str.bytes).erange = false then
        some (if (strtoull str.bytes).value / 2000 > 0xFFFFFFFF then 0xFFFFFFFF
          else ((strtoull str.bytes).value / 2000).toUInt32)
      else none := rfl

theorem startWdog_some_iff (str : CString) (p : UInt32) :
    startWdog (some str) = some p ↔
      ∃ z : Numeral, z.bytes = str.bytes ∧ z.value < 2 ^ 64 ∧ z.period = p := by
  have hperiod (z : Numeral) (hz : z.bytes = str.bytes) (hvalue : z.value < 2 ^ 64) :
      (strtoull str.bytes).value = z.parsed := by
    rw [← hz, strtoull_numeral, Nat.min_eq_left (by omega)]
    rfl
  rw [startWdog_eq]
  constructor
  · intro hstart
    split at hstart
    · rename_i hparse
      obtain ⟨hend, hne, herange⟩ := hparse
      obtain ⟨z, hz⟩ := exists_numeral str.bytes hend hne
      have hvalue : z.value < 2 ^ 64 := by
        rw [← hz, strtoull_numeral] at herange
        simpa using herange
      rw [hperiod z hz hvalue] at hstart
      exact ⟨z, hz, hvalue, Option.some.inj hstart⟩
    · simp at hstart
  · rintro ⟨z, hz, hvalue, rfl⟩
    have hlength : str.bytes.length ≠ 0 := by simp [← hz, Numeral.bytes, z.digits_ne_nil]
    rw [if_pos, hperiod z hz hvalue]
    · rfl
    · rw [← hz, strtoull_numeral, hz]
      exact ⟨rfl, hlength, by simpa using hvalue⟩

def PlainNumber (str : CString) (n : ℕ) : Prop :=
  str.bytes ≠ [] ∧ (∀ b ∈ str.bytes, isDigit b = true) ∧ decimal str.bytes = n

structure DerivesSafely (str : CString) : Prop where
  rejects : (¬∃ n, PlainNumber str n ∧ 0 < n ∧ n < 2 ^ 64) → startWdog (some str) = none
  halves (p : UInt32) : startWdog (some str) = some p →
    ∃ n, PlainNumber str n ∧ 1 ≤ p.toNat ∧ p.toNat ≤ 2 ^ 32 - 1 ∧ 2000 * p.toNat ≤ n

/-- A number below `2^64` that stands behind white space or a sign, or is below 2000. -/
def IsMistaken (z : Numeral) : Prop :=
  z.value < 2 ^ 64 ∧ (z.spaces ≠ [] ∨ z.signs ≠ [] ∨ z.value < 2000)

theorem plainNumber_iff (str : CString) (z : Numeral) (hz : z.bytes = str.bytes) (n : ℕ) :
    PlainNumber str n ↔ z.spaces = [] ∧ z.signs = [] ∧ z.value = n := by
  have hdigits (hspaces : z.spaces = []) (hsigns : z.signs = []) : str.bytes = z.digits := by
    simp [← hz, Numeral.bytes, hspaces, hsigns]
  constructor
  · rintro ⟨-, hdigit, hn⟩
    have hbytes (b : UInt8) (hb : b ∈ z.bytes) : isDigit b = true := hdigit b (hz ▸ hb)
    have hspaces : z.spaces = [] := by
      by_contra hne
      obtain ⟨b, hb⟩ := List.exists_mem_of_ne_nil z.spaces hne
      have hnot := not_isSpace_of_isDigit (hbytes b (by simp [Numeral.bytes, hb]))
      rw [z.spaces_isSpace b hb] at hnot
      contradiction
    have hsigns : z.signs = [] := by
      rcases z.signs_sign with hsigns | hsigns | hsigns
      · exact hsigns
      · have := hbytes 43 (by simp [Numeral.bytes, hsigns])
        contradiction
      · have := hbytes 45 (by simp [Numeral.bytes, hsigns])
        contradiction
    rw [hdigits hspaces hsigns] at hn
    exact ⟨hspaces, hsigns, hn⟩
  · rintro ⟨hspaces, hsigns, hn⟩
    rw [PlainNumber, hdigits hspaces hsigns]
    exact ⟨z.digits_ne_nil, z.digits_isDigit, hn⟩

theorem halves_of_not_isMistaken (str : CString) (z : Numeral) (hz : z.bytes = str.bytes)
    (hvalue : z.value < 2 ^ 64) (hnot : ¬IsMistaken z) :
    PlainNumber str z.value ∧ 0 < z.value ∧
      1 ≤ z.period.toNat ∧ z.period.toNat ≤ 2 ^ 32 - 1 ∧ 2000 * z.period.toNat ≤ z.value := by
  simp only [IsMistaken, hvalue, true_and, not_or, not_not, not_lt] at hnot
  obtain ⟨hspaces, hsigns, hge⟩ := hnot
  have hparsed : z.parsed.toNat = z.value := by
    have hnegative : z.negative = false := by simp [Numeral.negative, hsigns]
    rw [Numeral.parsed, hnegative, if_neg Bool.false_ne_true, UInt64.toNat_ofNat']
    exact Nat.mod_eq_of_lt hvalue
  have hperiod := z.period_toNat
  rw [hparsed] at hperiod
  exact ⟨(plainNumber_iff str z hz _).mpr ⟨hspaces, hsigns, rfl⟩, by omega, by omega, by omega,
    by omega⟩

theorem derivesSafely_iff (str : CString) :
    DerivesSafely str ↔ ¬∃ z : Numeral, z.bytes = str.bytes ∧ IsMistaken z := by
  constructor
  · rintro ⟨-, halves⟩ ⟨z, hz, hvalue, hmistaken⟩
    obtain ⟨n, hplain, hpos, -, hhalf⟩ :=
      halves z.period ((startWdog_some_iff _ _).mpr ⟨z, hz, hvalue, rfl⟩)
    obtain ⟨hspaces, hsigns, rfl⟩ := (plainNumber_iff str z hz n).mp hplain
    rcases hmistaken with hne | hne | hlt
    · exact hne hspaces
    · exact hne hsigns
    · omega
  · intro hnone
    have hsafe (z : Numeral) (hz : z.bytes = str.bytes) (hvalue : z.value < 2 ^ 64) :=
      halves_of_not_isMistaken str z hz hvalue fun h => hnone ⟨z, hz, h⟩
    constructor
    · intro hplain
      refine Option.eq_none_iff_forall_ne_some.mpr fun p hp => hplain ?_
      obtain ⟨z, hz, hvalue, rfl⟩ := (startWdog_some_iff _ _).mp hp
      obtain ⟨hnumber, hpos, -⟩ := hsafe z hz hvalue
      exact ⟨z.value, hnumber, hpos, hvalue⟩
    · intro p hp
      obtain ⟨z, hz, hvalue, rfl⟩ := (startWdog_some_iff _ _).mp hp
      obtain ⟨hnumber, -, hperiod⟩ := hsafe z hz hvalue
      exact ⟨z.value, hnumber, hperiod⟩

/-- `WatchdogSec=1ms`, for which `WATCHDOG_USEC` is `1000`. -/
theorem not_derivesSafely_oneMillisecond :
    ¬DerivesSafely (CString.literal [49, 48, 48, 48]) := by
  rintro ⟨-, halves⟩
  obtain ⟨n, -, hpos, -⟩ := halves 0 (by decide)
  contradiction

end NodeHealthMonitor.Watchdog
