import Mathlib

/-!
Runs of a labelled transition system given by a partial step function. A label
carries every choice the environment makes at that step (which party moves, the
clock, the outcome of an external call), so the system is deterministic given
its list of labels, and a concrete run can be evaluated. `none` means the label
is not enabled in that state.
-/
namespace LabelledRun

variable {σ α : Type} (step : σ → α → Option σ)

def run : σ → List α → Option σ
  | s, [] => some s
  | s, a :: as =>
    match step s a with
    | some t => run t as
    | none => none

@[simp] theorem run_nil (s : σ) : run step s [] = some s := rfl

theorem run_cons (s : σ) (a : α) (as : List α) :
    run step s (a :: as) = (step s a).bind (fun t => run step t as) := by
  simp only [run]
  cases step s a <;> rfl

theorem run_cons_eq_some {s t : σ} {a : α} {as : List α} (run_eq : run step s (a :: as) = some t) :
    ∃ u, step s a = some u ∧ run step u as = some t := by
  rw [run_cons] at run_eq
  exact Option.bind_eq_some_iff.mp run_eq

theorem run_eq_some_getD {s : σ} {as : List α} (d : σ) (ends : (run step s as).isSome) :
    run step s as = some ((run step s as).getD d) :=
  (Option.eq_some_of_isSome ends).trans (congrArg some (Option.get_eq_getD _))

/-- A state predicate kept by every enabled step. -/
def Invariant (inv : σ → Prop) : Prop :=
  ∀ s a t, inv s → step s a = some t → inv t

theorem run_invariant_of_allowed {inv : σ → Prop} {allowed : α → Prop}
    (keep : ∀ s a t, inv s → allowed a → step s a = some t → inv t) :
    ∀ {s t : σ} {as : List α}, inv s → (∀ a ∈ as, allowed a) → run step s as = some t → inv t := by
  intro s t as hs good run_eq
  induction as generalizing s with
  | nil => cases run_eq; exact hs
  | cons a as ih =>
    obtain ⟨u, hstep, run_eq⟩ := run_cons_eq_some step run_eq
    exact ih (keep s a u hs (good a List.mem_cons_self) hstep)
      (fun b member => good b (List.mem_cons_of_mem a member)) run_eq

theorem run_invariant {inv : σ → Prop} (keep : Invariant step inv) :
    ∀ {s t : σ} {as : List α}, inv s → run step s as = some t → inv t :=
  fun hs run_eq =>
    @run_invariant_of_allowed _ _ step inv (fun _ => True) (fun s a t hs _ => keep s a t hs) _ _ _ hs
      (fun _ _ => trivial) run_eq

theorem run_isSome (total : ∀ s a, (step s a).isSome) : ∀ s as, (run step s as).isSome := by
  intro s as
  induction as generalizing s with
  | nil => rfl
  | cons a as ih =>
    rw [run_cons]
    obtain ⟨t, stepped⟩ := Option.isSome_iff_exists.mp (total s a)
    rw [stepped]
    exact ih t

theorem run_invariant_within {inv : σ → Prop} {allowed : α → Prop} {level : σ → Int}
    {cost : α → Int} {bound : Int}
    (keep : ∀ s a t, inv s → allowed a → level s + cost a ≤ bound → step s a = some t →
      inv t ∧ level t = level s + cost a)
    (nonneg : ∀ a, allowed a → 0 ≤ cost a) :
    ∀ {s t : σ} {as : List α}, inv s → (∀ a ∈ as, allowed a) →
      level s + (as.map cost).sum ≤ bound → run step s as = some t → inv t := by
  intro s t as hs good within run_eq
  induction as generalizing s with
  | nil => cases run_eq; exact hs
  | cons a as ih =>
    obtain ⟨u, hstep, run_eq⟩ := run_cons_eq_some step run_eq
    have first := good a List.mem_cons_self
    have rest : ∀ b ∈ as, allowed b := fun b member => good b (List.mem_cons_of_mem a member)
    have spent : 0 ≤ (as.map cost).sum :=
      List.sum_nonneg (fun c member => by
        obtain ⟨b, inside, rfl⟩ := List.mem_map.mp member
        exact nonneg b (rest b inside))
    simp only [List.map_cons, List.sum_cons] at within
    obtain ⟨hu, raised⟩ := keep s a u hs first (by omega) hstep
    exact ih hu rest (by omega) run_eq

end LabelledRun
