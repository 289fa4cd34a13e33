import Mathlib.Data.List.Dedup
import Mathlib.Data.List.Nodup

/-! Histories of keyed reports, latest first: the level last reported for a key, whether
a property holds of a key at the moment, and how often the key turned to it. A repeated
report of the same level is no turn. -/

namespace NodeHealthMonitor.ReportHistory

variable {α β : Type*} [DecidableEq α]

def latest (a : α) : List (α × β) → Option β
  | [] => none
  | (b, v) :: h => if b = a then some v else latest a h

variable (p : β → Bool)

def holds (a : α) (h : List (α × β)) : Bool := (latest a h).any p

/-- How often `a` was reported to have the property when it did not have it. -/
def turns (a : α) : List (α × β) → ℕ
  | [] => 0
  | (b, v) :: h => (if b = a ∧ p v ∧ holds p a h = false then 1 else 0) + turns a h

def ever (h : List (α × β)) : List α := ((h.filter fun r => p r.2).map Prod.fst).dedup

@[simp] theorem holds_nil (a : α) : holds p a ([] : List (α × β)) = false := rfl

theorem holds_cons (a b : α) (v : β) (h : List (α × β)) :
    holds p a ((b, v) :: h) = if b = a then p v else holds p a h := by
  by_cases hb : b = a <;> simp [holds, latest, hb]

theorem holds_iff (a : α) (h : List (α × β)) :
    holds p a h = true ↔ ∃ v, latest a h = some v ∧ p v := by
  simp [holds, Option.any_eq_true]

theorem mem_ever (a : α) (h : List (α × β)) : a ∈ ever p h ↔ ∃ v, (a, v) ∈ h ∧ p v := by
  simp [ever]

theorem ever_nodup (h : List (α × β)) : (ever p h).Nodup := List.nodup_dedup _

theorem mem_ever_cons (a b : α) (v : β) (h : List (α × β)) :
    a ∈ ever p ((b, v) :: h) ↔ (b = a ∧ p v) ∨ a ∈ ever p h := by
  simp only [mem_ever, List.mem_cons, Prod.mk.injEq]
  constructor
  · rintro ⟨w, ⟨ha, hv⟩ | hw, hp⟩
    · exact Or.inl ⟨ha.symm, hv ▸ hp⟩
    · exact Or.inr ⟨w, hw, hp⟩
  · rintro (⟨ha, hp⟩ | ⟨w, hw, hp⟩)
    · exact ⟨v, Or.inl ⟨ha.symm, rfl⟩, hp⟩
    · exact ⟨w, Or.inr hw, hp⟩

theorem mem_ever_of_holds (a : α) (h : List (α × β)) (hold : holds p a h = true) :
    a ∈ ever p h := by
  induction h with
  | nil => simp at hold
  | cons r h ih =>
    obtain ⟨b, v⟩ := r
    rw [mem_ever_cons]
    rw [holds_cons] at hold
    by_cases hb : b = a
    · exact Or.inl ⟨hb, by simpa [hb] using hold⟩
    · exact Or.inr (ih (by simpa [hb] using hold))

theorem ever_length_le_append (g h : List (α × β)) :
    (ever p h).length ≤ (ever p (g ++ h)).length := by
  refine (ever_nodup p h).length_le_of_subset fun a ha => ?_
  rw [mem_ever] at ha ⊢
  obtain ⟨v, hv, hp⟩ := ha
  exact ⟨v, List.mem_append_right g hv, hp⟩

theorem holds_iff_mem (a : α) (h : List (α × β)) (hall : ∀ r ∈ h, p r.2 = true) :
    holds p a h = true ↔ a ∈ h.map Prod.fst := by
  induction h with
  | nil => simp
  | cons r h ih =>
    have hrest := ih fun r' hr' => hall r' (List.mem_cons_of_mem r hr')
    rw [holds_cons, List.map_cons, List.mem_cons, ← hrest]
    by_cases hr : r.1 = a
    · simp [hr, hall r List.mem_cons_self]
    · have hr' : ¬a = r.1 := fun e => hr e.symm
      simp [hr, hr']

omit [DecidableEq α] in
theorem length_eq_of_mem_iff {xs ys : List α} (hx : xs.Nodup) (hy : ys.Nodup)
    (h : ∀ a, a ∈ xs ↔ a ∈ ys) : xs.length = ys.length :=
  ((List.perm_ext_iff_of_nodup hx hy).mpr h).length_eq

def about (a : α) (h : List (α × β)) : List (α × β) := h.filter fun r => r.1 = a

theorem about_cons (a b : α) (v : β) (h : List (α × β)) :
    about a ((b, v) :: h) = if b = a then (b, v) :: about a h else about a h := by
  by_cases hb : b = a <;> simp [about, hb]

theorem holds_about (a : α) (h : List (α × β)) : holds p a (about a h) = holds p a h := by
  induction h with
  | nil => rfl
  | cons r h ih =>
    obtain ⟨b, v⟩ := r
    rw [about_cons, holds_cons]
    by_cases hb : b = a
    · rw [if_pos hb, if_pos hb, holds_cons, if_pos hb]
    · rw [if_neg hb, if_neg hb, ih]

theorem turns_about (a : α) (h : List (α × β)) : turns p a (about a h) = turns p a h := by
  induction h with
  | nil => rfl
  | cons r h ih =>
    obtain ⟨b, v⟩ := r
    rw [about_cons, turns]
    by_cases hb : b = a
    · rw [if_pos hb, turns, holds_about, ih]
    · rw [if_neg hb, if_neg fun hturn => hb hturn.1, ih, Nat.zero_add]

end NodeHealthMonitor.ReportHistory
