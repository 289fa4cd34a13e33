import NodeHealthMonitor.CString

/-! `nhm-helper.c`: search of a string in a string array. -/

namespace NodeHealthMonitor.NhmHelper

/-- The loop of `nhm_helper_str_in_strv`; it ends at the first match. -/
def search (str : CString) : List CString → Bool
  | [] => false
  | s :: strv => if str = s then true else search str strv

def strInStrv (str : CString) (strv : Option (List CString)) : Bool :=
  match strv with
  | some strv => search str strv
  | none => false

theorem search_iff (str : CString) (strv : List CString) : search str strv = true ↔ str ∈ strv := by
  induction strv with
  | nil => simp [search]
  | cons s strv ih =>
    by_cases h : str = s
    · simp [search, h]
    · simp [search, h, ih]

end NodeHealthMonitor.NhmHelper
