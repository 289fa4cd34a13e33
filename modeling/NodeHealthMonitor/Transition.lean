import Mathlib.Data.List.Basic

/-! Finite runs of a partial step function. `none` is a step that has no defined
result, so a run that is `some` never met one. The rules below turn what one step
preserves into what a whole run preserves, with the events so far, latest first,
as the history an invariant may speak about. -/

namespace NodeHealthMonitor.Transition

variable {σ ε : Type*} (step : σ → ε → Option σ)

def run : σ → List ε → Option σ
  | s, [] => some s
  | s, e :: es => (step s e).bind fun next => run next es

/-- Every step of the run meets a condition on its event and the state before it. -/
def AllSteps (cond : σ → ε → Prop) : σ → List ε → Prop
  | _, [] => True
  | s, e :: es => cond s e ∧ ∀ next, step s e = some next → AllSteps cond next es

theorem run_append (s : σ) (es fs : List ε) :
    run step s (es ++ fs) = (run step s es).bind fun next => run step next fs := by
  induction es generalizing s with
  | nil => rfl
  | cons e es ih =>
    simp only [List.cons_append, run]
    cases step s e with
    | none => rfl
    | some next => exact ih next

theorem allSteps_of_forall (cond : ε → Prop) (s : σ) (es : List ε) (h : ∀ e ∈ es, cond e) :
    AllSteps step (fun _ e => cond e) s es := by
  induction es generalizing s with
  | nil => trivial
  | cons e es ih =>
    exact ⟨h e List.mem_cons_self,
      fun next _ => ih next fun f hf => h f (List.mem_cons_of_mem e hf)⟩

theorem allSteps_of_invariant (inv : σ → Prop) (cond : σ → ε → Prop)
    (preserved : ∀ s e next, inv s → step s e = some next → inv next)
    (implied : ∀ s e, inv s → cond s e) (s : σ) (es : List ε) (start : inv s) :
    AllSteps step cond s es := by
  induction es generalizing s with
  | nil => trivial
  | cons e es ih =>
    exact ⟨implied s e start, fun next hnext => ih next (preserved s e next start hnext)⟩

theorem allSteps_imp (inv : σ → Prop) (cond cond' : σ → ε → Prop)
    (preserved : ∀ s e next, inv s → cond s e → step s e = some next → inv next)
    (implied : ∀ s e, inv s → cond s e → cond' s e) (s : σ) (es : List ε) (start : inv s)
    (ok : AllSteps step cond s es) : AllSteps step cond' s es := by
  induction es generalizing s with
  | nil => trivial
  | cons e es ih =>
    refine ⟨implied s e start ok.1, fun next hnext => ?_⟩
    exact ih next (preserved s e next start ok.1 hnext) (ok.2 next hnext)

theorem allSteps_and (cond cond' : σ → ε → Prop) (s : σ) (es : List ε)
    (ok : AllSteps step cond s es) (ok' : AllSteps step cond' s es) :
    AllSteps step (fun s e => cond s e ∧ cond' s e) s es := by
  induction es generalizing s with
  | nil => trivial
  | cons e es ih =>
    exact ⟨⟨ok.1, ok'.1⟩, fun next hnext => ih next (ok.2 next hnext) (ok'.2 next hnext)⟩

theorem allSteps_congr (inv : σ → Prop) (cond cond' : σ → ε → Prop)
    (preserved : ∀ s e next, inv s → cond' s e → step s e = some next → inv next)
    (agree : ∀ s e, inv s → (cond s e ↔ cond' s e)) (s : σ) (es : List ε) (start : inv s) :
    AllSteps step cond s es ↔ AllSteps step cond' s es := by
  induction es generalizing s with
  | nil => exact Iff.rfl
  | cons e es ih =>
    rw [AllSteps, AllSteps, agree s e start]
    refine and_congr_right fun hcond => forall_congr' fun next => ?_
    exact forall_congr' fun hnext => ih next (preserved s e next start hcond hnext)

/-- A property of states and histories that each step meeting the condition has a
result for and preserves holds, with a result, of every run of such steps. -/
theorem run_history (inv : List ε → σ → Prop) (cond : σ → ε → Prop)
    (preserved : ∀ h s e, inv h s → cond s e → ∃ next, step s e = some next ∧ inv (e :: h) next)
    (es h : List ε) (s : σ) (start : inv h s) (ok : AllSteps step cond s es) :
    ∃ next, run step s es = some next ∧ inv (es.reverse ++ h) next := by
  induction es generalizing h s with
  | nil => exact ⟨s, rfl, start⟩
  | cons e es ih =>
    obtain ⟨mid, hmid, hinv⟩ := preserved h s e start ok.1
    obtain ⟨next, hnext, hlast⟩ := ih (e :: h) mid hinv (ok.2 mid hmid)
    refine ⟨next, ?_, ?_⟩
    · rw [run, hmid]
      exact hnext
    · simpa only [List.reverse_cons, List.append_assoc, List.singleton_append] using hlast

theorem run_invariant (inv : σ → Prop) (cond : σ → ε → Prop)
    (preserved : ∀ s e, inv s → cond s e → ∃ next, step s e = some next ∧ inv next)
    (es : List ε) (s : σ) (start : inv s) (ok : AllSteps step cond s es) :
    ∃ next, run step s es = some next ∧ inv next :=
  run_history step (fun _ => inv) cond (fun _ => preserved) es [] s start ok

theorem run_simulates {τ : Type*} (next : τ → ε → τ) (rel : σ → τ → Prop) (cond : τ → ε → Prop)
    (preserved : ∀ s t e, rel s t → cond t e → ∃ s', step s e = some s' ∧ rel s' (next t e))
    (es : List ε) (s : σ) (t : τ) (start : rel s t)
    (ok : AllSteps (fun t e => some (next t e)) cond t es) :
    ∃ s', run step s es = some s' ∧ rel s' (es.foldl next t) := by
  induction es generalizing s t with
  | nil => exact ⟨s, rfl, start⟩
  | cons e es ih =>
    obtain ⟨mid, hmid, hrel⟩ := preserved s t e start ok.1
    obtain ⟨last, hlast, hend⟩ := ih mid (next t e) hrel (ok.2 _ rfl)
    refine ⟨last, ?_, hend⟩
    rw [run, hmid]
    exact hlast

/-- Where a step keeps a property exactly under a condition, the property holds in every
state of a run if and only if each of its steps meets the condition. -/
theorem always_iff_allSteps (inv good : σ → Prop) (cond : σ → ε → Prop)
    (exact : ∀ s e, inv s → good s →
      ∃ next, step s e = some next ∧ inv next ∧ (good next ↔ cond s e))
    (es : List ε) (s : σ) (start : inv s) (holds : good s) :
    (∀ pre, pre <+: es → ∀ t, run step s pre = some t → good t) ↔ AllSteps step cond s es := by
  induction es generalizing s with
  | nil =>
    refine iff_of_true (fun pre hpre t ht => ?_) trivial
    rw [List.prefix_nil.mp hpre, run, Option.some.injEq] at ht
    exact ht ▸ holds
  | cons e es ih =>
    obtain ⟨next, hnext, hinv, hiff⟩ := exact s e start holds
    have hcons : ∀ pre, run step s (e :: pre) = run step next pre := fun pre => by
      rw [run, hnext, Option.bind_some]
    constructor
    · intro hall
      have hgood : good next := hall [e] (by simp) next (hcons [])
      refine ⟨hiff.mp hgood, fun n hn => ?_⟩
      rw [hnext] at hn
      cases hn
      refine (ih next hinv hgood).mp fun pre hpre t ht => ?_
      exact hall (e :: pre) (List.cons_prefix_cons.mpr ⟨rfl, hpre⟩) t ((hcons pre).trans ht)
    · rintro ⟨hcond, hrest⟩ pre hpre t ht
      cases pre with
      | nil =>
        rw [run, Option.some.injEq] at ht
        exact ht ▸ holds
      | cons e' pre =>
        obtain ⟨rfl, htail⟩ := List.cons_prefix_cons.mp hpre
        rw [hcons] at ht
        exact (ih next hinv (hiff.mpr hcond)).mpr (hrest next hnext) pre htail t ht

/-- The outputs of a run, up to a step without a result. -/
def outputs {ω : Type*} (step : σ → ε → Option (σ × List ω)) : σ → List ε → List ω
  | _, [] => []
  | s, e :: es => match step s e with
    | some (next, sent) => sent ++ outputs step next es
    | none => []

theorem outputs_of_allSteps {ω : Type*} (step : σ → ε → Option (σ × List ω)) (good : ω → Prop)
    (s : σ) (es : List ε)
    (ok : AllSteps (fun s e => (step s e).map Prod.fst)
      (fun s e => ∀ next sent, step s e = some (next, sent) → ∀ o ∈ sent, good o) s es) :
    ∀ o ∈ outputs step s es, good o := by
  induction es generalizing s with
  | nil => exact fun o ho => absurd ho List.not_mem_nil
  | cons e es ih =>
    intro o ho
    rw [outputs] at ho
    cases hstep : step s e with
    | none =>
      rw [hstep] at ho
      exact absurd ho List.not_mem_nil
    | some result =>
      obtain ⟨next, sent⟩ := result
      rw [hstep] at ho
      rcases List.mem_append.mp ho with ho | ho
      · exact ok.1 next sent hstep o ho
      · exact ih next (ok.2 next (by simp only [hstep, Option.map_some])) o ho

theorem run_pairs {γ ω : Type*} (step : σ → ε → Option (σ × List ω)) (left right : γ → ε)
    (view : ω → Bool) (rel : σ → σ → Prop)
    (preserved : ∀ s t c, rel s t → ∃ s' sent t' sent', step s (left c) = some (s', sent) ∧
      step t (right c) = some (t', sent') ∧ rel s' t' ∧ sent.filter view = sent'.filter view)
    (cs : List γ) (s t : σ) (start : rel s t) :
    ∃ s' t', run (fun s e => (step s e).map Prod.fst) s (cs.map left) = some s' ∧
      run (fun s e => (step s e).map Prod.fst) t (cs.map right) = some t' ∧ rel s' t' ∧
      (outputs step s (cs.map left)).filter view = (outputs step t (cs.map right)).filter view := by
  induction cs generalizing s t with
  | nil => exact ⟨s, t, rfl, rfl, start, rfl⟩
  | cons c cs ih =>
    obtain ⟨s₁, sent, t₁, sent', hs, ht, hrel, hview⟩ := preserved s t c start
    obtain ⟨s', t', hs', ht', hend, hrest⟩ := ih s₁ t₁ hrel
    refine ⟨s', t', ?_, ?_, hend, ?_⟩
    · simpa only [List.map_cons, run, hs, Option.map_some, Option.bind_some] using hs'
    · simpa only [List.map_cons, run, ht, Option.map_some, Option.bind_some] using ht'
    · simp only [List.map_cons, outputs, hs, ht, List.filter_append, hview, hrest]

theorem run_refines {τ ω : Type*} (step : σ → ε → Option (σ × List ω))
    (step' : τ → ε → Option (τ × List ω)) (rel : σ → τ → Prop) (cond : τ → ε → Prop)
    (preserved : ∀ s t e, rel s t → cond t e → ∃ s' t' sent, step s e = some (s', sent) ∧
      step' t e = some (t', sent) ∧ rel s' t')
    (es : List ε) (s : σ) (t : τ) (start : rel s t)
    (ok : AllSteps (fun t e => (step' t e).map Prod.fst) cond t es) :
    ∃ s' t', run (fun s e => (step s e).map Prod.fst) s es = some s' ∧
      run (fun t e => (step' t e).map Prod.fst) t es = some t' ∧ rel s' t' ∧
      outputs step s es = outputs step' t es := by
  induction es generalizing s t with
  | nil => exact ⟨s, t, rfl, rfl, start, rfl⟩
  | cons e es ih =>
    obtain ⟨s₁, t₁, sent, hs, ht, hrel⟩ := preserved s t e start ok.1
    have hrest := ok.2 t₁ (by simp only [ht, Option.map_some])
    obtain ⟨s', t', hs', ht', hend, houtputs⟩ := ih s₁ t₁ hrel hrest
    refine ⟨s', t', ?_, ?_, hend, ?_⟩
    · simpa only [run, hs, Option.map_some, Option.bind_some] using hs'
    · simpa only [run, ht, Option.map_some, Option.bind_some] using ht'
    · simp only [outputs, hs, ht, houtputs]

end NodeHealthMonitor.Transition
