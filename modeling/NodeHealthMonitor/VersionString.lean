import Mathlib.Data.List.Lex
import Mathlib.Data.List.TakeDrop
import Mathlib.Data.List.TakeWhile
import NodeHealthMonitor.LcData

/-! The version at the start of the file `lcdata`. A version string of up to four numbers, as
`nhm_main_convert_version_string` expects it, becomes one number; the numbers are ordered as
the versions are. -/

namespace NodeHealthMonitor.LcData

section
variable (b : ℕ)

def horner (m : ℕ) (ds : List ℕ) : ℕ := ds.foldl (fun m d => b * m + d) m

variable {b}

theorem horner_replicate_zero (m k : ℕ) : horner b m (List.replicate k 0) = m * b ^ k := by
  induction k generalizing m with
  | zero => simp [horner]
  | succ k ih =>
    rw [List.replicate_succ, horner, List.foldl_cons]
    change horner b (b * m + 0) (List.replicate k 0) = _
    rw [ih, add_zero, pow_succ]
    ring

theorem next_lt {m n d : ℕ} (h : m < n) (hd : d < b) : b * m + d < b * n :=
  calc b * m + d < b * m + b := Nat.add_lt_add_left hd _
    _ = b * (m + 1) := (Nat.mul_succ b m).symm
    _ ≤ b * n := Nat.mul_le_mul_left b h

theorem horner_lt_pow {m n : ℕ} (h : m < n) {ds : List ℕ} (small : ∀ d ∈ ds, d < b) :
    horner b m ds < n * b ^ ds.length := by
  induction ds generalizing m n with
  | nil => simpa [horner] using h
  | cons d ds ih =>
    have hnext : b * m + d < b * n := next_lt h (small d List.mem_cons_self)
    have hrest := ih hnext fun d' hd' => small d' (List.mem_cons_of_mem d hd')
    rw [List.length_cons, pow_succ]
    calc horner b (b * m + d) ds < b * n * b ^ ds.length := hrest
      _ = n * (b ^ ds.length * b) := by ring

theorem horner_lt_of_lt {m n : ℕ} (h : m < n) {ds es : List ℕ} (hlen : ds.length = es.length)
    (small : ∀ d ∈ ds, d < b) : horner b m ds < horner b n es := by
  induction ds generalizing m n es with
  | nil =>
    obtain rfl : es = [] := List.length_eq_zero_iff.mp hlen.symm
    exact h
  | cons d ds ih =>
    cases es with
    | nil => cases hlen
    | cons e es =>
      have hnext : b * m + d < b * n + e :=
        (next_lt h (small d List.mem_cons_self)).trans_le (Nat.le_add_right _ e)
      exact ih hnext (Nat.succ.inj hlen) fun d' hd' => small d' (List.mem_cons_of_mem d hd')

theorem horner_lt_iff (m : ℕ) {ds es : List ℕ} (hlen : ds.length = es.length)
    (hds : ∀ d ∈ ds, d < b) (hes : ∀ e ∈ es, e < b) :
    horner b m ds < horner b m es ↔ ds < es := by
  induction ds generalizing m es with
  | nil =>
    obtain rfl : es = [] := List.length_eq_zero_iff.mp hlen.symm
    simp
  | cons d ds ih =>
    cases es with
    | nil => cases hlen
    | cons e es =>
      have hlen' : ds.length = es.length := Nat.succ.inj hlen
      have hds' : ∀ d' ∈ ds, d' < b := fun d' hd' => hds d' (List.mem_cons_of_mem d hd')
      have hes' : ∀ e' ∈ es, e' < b := fun e' he' => hes e' (List.mem_cons_of_mem e he')
      change horner b (b * m + d) ds < horner b (b * m + e) es ↔ _
      rw [List.cons_lt_cons_iff]
      rcases lt_trichotomy d e with hlt | rfl | hgt
      · exact iff_of_true (horner_lt_of_lt (by omega) hlen' hds') (Or.inl hlt)
      · simpa using ih (b * m + d) hlen' hds' hes'
      · have hother := horner_lt_of_lt (Nat.add_lt_add_left hgt (b * m)) hlen'.symm hes'
        refine iff_of_false (Nat.not_lt.mpr hother.le) ?_
        rintro (hlt | ⟨rfl, -⟩)
        · omega
        · omega

end

structure Version where
  numbers : List ℕ
  some_number : numbers ≠ []
  four : numbers.length ≤ 4
  small : ∀ n ∈ numbers, n < 256

/-- The string that names a version, such as "1.21.3.4". -/
def Version.text (version : Version) : List Char :=
  ['.'].intercalate (version.numbers.map (Nat.toDigits 10))

/-- The numbers that are not named are zero. -/
def Version.padded (version : Version) : List ℕ :=
  version.numbers ++ List.replicate (4 - version.numbers.length) 0

theorem span_of_notMem {token : List Char} (h : '.' ∉ token) (rest : List Char) :
    (token ++ rest).span (· ≠ '.') =
      (token ++ rest.takeWhile (· ≠ '.'), rest.dropWhile (· ≠ '.')) := by
  have hall : ∀ c ∈ token, decide (c ≠ '.') = true := fun c hc =>
    decide_eq_true fun heq => h (heq ▸ hc)
  rw [List.span_eq_takeWhile_dropWhile, List.takeWhile_append_of_pos hall,
    List.dropWhile_append_of_pos hall]

theorem strsplit_last {token : List Char} (h : '.' ∉ token) (k : ℕ) :
    strsplit (k + 1) token = [token] := by
  cases k with
  | zero => rfl
  | succ k =>
    have hspan := span_of_notMem h []
    rw [List.append_nil] at hspan
    rw [strsplit, hspan]
    simp

theorem strsplit_token {token : List Char} (h : '.' ∉ token) (rest : List Char) (k : ℕ) :
    strsplit (k + 2) (token ++ '.' :: rest) = token :: strsplit (k + 1) rest := by
  rw [strsplit, span_of_notMem h]
  simp

theorem strsplit_intercalate (tokens : List (List Char)) (hne : tokens ≠ [])
    (hdots : ∀ token ∈ tokens, '.' ∉ token) (max_tokens : ℕ)
    (hmax : tokens.length ≤ max_tokens) :
    strsplit max_tokens (['.'].intercalate tokens) = tokens := by
  induction tokens generalizing max_tokens with
  | nil => exact absurd rfl hne
  | cons token tokens ih =>
    have hdot : '.' ∉ token := hdots token List.mem_cons_self
    obtain ⟨k, rfl⟩ := Nat.exists_eq_succ_of_ne_zero (Nat.ne_zero_of_lt hmax)
    cases tokens with
    | nil =>
      rw [List.intercalate_singleton]
      exact strsplit_last hdot k
    | cons next tokens =>
      have hk : (next :: tokens).length ≤ k := Nat.le_of_succ_le_succ hmax
      obtain ⟨k, rfl⟩ := Nat.exists_eq_succ_of_ne_zero (Nat.ne_zero_of_lt hk)
      rw [List.intercalate_cons_cons, List.append_assoc, List.singleton_append]
      exact (strsplit_token hdot _ k).trans (congrArg _ (ih (List.cons_ne_nil _ _)
        (fun token' h => hdots token' (List.mem_cons_of_mem _ h)) (k + 1) hk))

theorem strtol_toDigits {n : ℕ} (h : n < 2 ^ 63) : strtol (Nat.toDigits 10 n) = n := by
  have hdigit : ∀ c ∈ Nat.toDigits 10 n, c.isDigit = true := fun c hc =>
    Nat.isDigit_of_mem_toDigits (by decide) (by decide) hc
  have hdigits : digits (Nat.toDigits 10 n) = n := by
    rw [digits, List.takeWhile_eq_self_iff.mpr hdigit]
    exact Nat.ofDigitChars_ten_toDigits
  cases htext : Nat.toDigits 10 n with
  | nil => exact absurd htext Nat.toDigits_ne_nil
  | cons c cs =>
    have hc : c.isDigit = true := hdigit c (htext ▸ List.mem_cons_self)
    have hlow : 48 ≤ c.toNat := by
      rw [Char.isDigit, Bool.and_eq_true, decide_eq_true_eq] at hc
      exact UInt32.le_iff_toNat_le.mp hc.1
    have hblank : isSpace c = false := by
      refine eq_false_of_ne_true fun hspace => ?_
      simp only [isSpace, Bool.or_eq_true, Bool.and_eq_true, decide_eq_true_eq] at hspace
      rcases hspace with rfl | ⟨-, htop⟩
      · exact absurd hlow (by decide)
      · omega
    rw [htext] at hdigits
    rw [strtol, List.dropWhile_cons_of_neg (by simp [hblank])]
    split
    · rename_i heq
      cases heq
      contradiction
    · rename_i heq
      cases heq
      contradiction
    · rw [hdigits]
      omega

theorem ofInt_natCast (x : ℕ) : UInt32.ofInt x = UInt32.ofNat x := by
  have hmod : ((x : ℤ) % 2 ^ 32).toNat = x % 2 ^ 32 := by omega
  rw [UInt32.ofInt, hmod]
  exact UInt32.ofNat_mod_size

theorem or_shifted (m n k : ℕ) (h : n < 256) :
    UInt32.ofNat (m * 256 ^ (k + 1)) ||| UInt32.ofInt (n * 2 ^ (8 * k)) =
      UInt32.ofNat ((256 * m + n) * 256 ^ k) := by
  have hpow : (256 : ℕ) ^ k = 2 ^ (8 * k) := (pow_mul 2 8 k).symm
  have hcast : (n : ℤ) * 2 ^ (8 * k) = ((n * 2 ^ (8 * k) : ℕ) : ℤ) := by push_cast; rfl
  have hlow : n * 2 ^ (8 * k) < 2 ^ (8 * (k + 1)) := by
    rw [mul_add, pow_add, mul_comm]
    exact Nat.mul_lt_mul_of_pos_left h (Nat.two_pow_pos _)
  have hhigh : m * 256 ^ (k + 1) = 2 ^ (8 * (k + 1)) * m := by
    rw [mul_comm, pow_mul 2 8 (k + 1), show (2 : ℕ) ^ 8 = 256 from rfl]
  rw [hcast, ofInt_natCast, ← UInt32.ofNat_or, hhigh, ← Nat.two_pow_add_eq_or_of_lt hlow]
  congr 1
  rw [hpow, mul_add, pow_add]
  ring

theorem fold_tokens (numbers : List ℕ) (i m : ℕ) (hlen : i + numbers.length ≤ 4)
    (small : ∀ n ∈ numbers, n < 256) :
    ((numbers.map (Nat.toDigits 10)).zipIdx i).foldl
        (fun version token => version ||| UInt32.ofInt (strtol token.1 * 2 ^ (24 - 8 * token.2)))
        (UInt32.ofNat (m * 256 ^ (4 - i))) =
      UInt32.ofNat (horner 256 m numbers * 256 ^ (4 - (i + numbers.length))) := by
  induction numbers generalizing i m with
  | nil => rfl
  | cons n numbers ih =>
    have hn : n < 256 := small n List.mem_cons_self
    have hlen' : i + 1 + numbers.length ≤ 4 := by
      rw [List.length_cons] at hlen
      omega
    have hshift : 24 - 8 * i = 8 * (3 - i) := by omega
    have hplace : 4 - i = 3 - i + 1 := by omega
    have hnext : 3 - i = 4 - (i + 1) := by omega
    have hlast : 4 - (i + (n :: numbers).length) = 4 - (i + 1 + numbers.length) := by
      rw [List.length_cons]
      omega
    have hstep : UInt32.ofNat (m * 256 ^ (4 - i)) |||
        UInt32.ofInt (strtol (Nat.toDigits 10 n) * 2 ^ (24 - 8 * i)) =
          UInt32.ofNat ((256 * m + n) * 256 ^ (4 - (i + 1))) := by
      rw [strtol_toDigits (hn.trans (by decide)), hshift, hplace, or_shifted m n (3 - i) hn, hnext]
    rw [List.map_cons, List.zipIdx_cons, List.foldl_cons, hstep, hlast]
    exact ih (i + 1) (256 * m + n) hlen' fun n' hn' => small n' (List.mem_cons_of_mem n hn')

theorem Version.length_padded (version : Version) : version.padded.length = 4 := by
  have hfour := version.four
  rw [padded, List.length_append, List.length_replicate]
  omega

theorem Version.padded_small (version : Version) : ∀ n ∈ version.padded, n < 256 := by
  intro n hn
  rcases List.mem_append.mp hn with hn | hn
  · exact version.small n hn
  · rw [List.eq_of_mem_replicate hn]
    decide

theorem convertVersionString_text (version : Version) :
    convertVersionString version.text = UInt32.ofNat (horner 256 0 version.padded) := by
  have hsplit : strsplit 4 version.text = version.numbers.map (Nat.toDigits 10) := by
    refine strsplit_intercalate _ ?_ ?_ 4 ?_
    · simpa using version.some_number
    · intro token htoken hdot
      obtain ⟨n, -, rfl⟩ := List.mem_map.mp htoken
      exact absurd (Nat.isDigit_of_mem_toDigits (by decide) (by decide) hdot) (by decide)
    · simpa using version.four
  have hfold := fold_tokens version.numbers 0 0 (by simpa using version.four) version.small
  rw [zero_mul, zero_add] at hfold
  rw [convertVersionString, hsplit]
  refine hfold.trans (congrArg UInt32.ofNat ?_)
  rw [Version.padded, horner, horner, List.foldl_append]
  exact (horner_replicate_zero _ _).symm

theorem toNat_convertVersionString (version : Version) :
    (convertVersionString version.text).toNat = horner 256 0 version.padded := by
  have hbound := horner_lt_pow (b := 256) Nat.zero_lt_one version.padded_small
  rw [version.length_padded] at hbound
  rw [convertVersionString_text, UInt32.toNat_ofNat_of_lt' (by simpa using hbound)]

/-- The number of a version has its numbers as bytes. Two versions have the same number if they
differ in trailing zeros only, and their numbers are ordered as they are. -/
theorem convertVersionString_order (version other : Version) :
    (convertVersionString version.text).toNat = horner 256 0 version.padded ∧
      (convertVersionString version.text = convertVersionString other.text ↔
        version.padded = other.padded) ∧
      (convertVersionString version.text < convertVersionString other.text ↔
        version.padded < other.padded) := by
  have hlt : ∀ v w : Version, convertVersionString v.text < convertVersionString w.text ↔
      v.padded < w.padded := by
    intro v w
    rw [UInt32.lt_iff_toNat_lt, toNat_convertVersionString, toNat_convertVersionString]
    exact horner_lt_iff 0 (v.length_padded.trans w.length_padded.symm) v.padded_small
      w.padded_small
  refine ⟨toNat_convertVersionString version, ⟨fun heq => ?_, fun heq => ?_⟩, hlt version other⟩
  · have hnot : ¬version.padded < other.padded := by
      rw [← hlt, heq]
      exact UInt32.lt_irrefl _
    have hnot' : ¬other.padded < version.padded := by
      rw [← hlt, heq]
      exact UInt32.lt_irrefl _
    exact le_antisymm (not_lt.mp hnot') (not_lt.mp hnot)
  · rw [convertVersionString_text, convertVersionString_text, heq]

end NodeHealthMonitor.LcData
