import Mathlib.Data.List.Induction

/-! # Runs of a step function

    A deterministic machine takes a list of inputs one after the other.
    What holds along a run is proved once here: a property kept by every
    step the run takes, at the state and the position it takes it. -/

namespace Trace

variable {σ ι : Type} {step : σ → ι → σ}

/-- The state after a list of inputs. -/
def run (step : σ → ι → σ) (s : σ) (inputs : List ι) : σ := inputs.foldl step s

@[simp] theorem run_nil (s : σ) : run step s [] = s := rfl

@[simp] theorem run_cons (s : σ) (i : ι) (rest : List ι) : run step s (i :: rest) = run step (step s i) rest := rfl

theorem run_append (s : σ) (l r : List ι) : run step s (l ++ r) = run step (run step s l) r :=
  List.foldl_append

theorem run_concat (s : σ) (l : List ι) (i : ι) : run step s (l ++ [i]) = step (run step s l) i := by
  rw [run_append, run_cons, run_nil]

variable {inputs : List ι} {s : σ} {P : σ → ι → Prop}

/-- **RUN RULE**: what every step taken keeps holds at the end. -/
theorem run_keeps (P : σ → Prop) (h0 : P s)
    (hstep : ∀ l i r, inputs = l ++ i :: r → P (run step s l) → P (step (run step s l) i)) : P (run step s inputs) := by
  induction inputs using List.reverseRecOn with
  | nil =>
    exact h0
  | append_singleton l i ih =>
    rw [run_concat]
    refine hstep l i [] rfl (ih fun l' j r hl hP => ?_)
    exact hstep l' j (r ++ [i]) (by rw [hl, List.append_assoc, List.cons_append]) hP

theorem run_invariant (P : σ → Prop) (inputs : List ι) (h0 : P s) (hstep : ∀ s i, P s → P (step s i)) :
    P (run step s inputs) :=
  run_keeps P h0 fun _ _ _ _ h => hstep _ _ h

/-! ## What every step of a run satisfies -/

/-- Each input meets `P` at the state it is taken in. -/
def Along (step : σ → ι → σ) (P : σ → ι → Prop) : σ → List ι → Prop
  | _, [] => True
  | s, i :: rest => P s i ∧ Along step P (step s i) rest

instance decidableAlong (P : σ → ι → Prop) [∀ s i, Decidable (P s i)] :
    ∀ s inputs, Decidable (Along step P s inputs)
  | _, [] => .isTrue trivial
  | s, i :: rest => @instDecidableAnd _ _ _ (decidableAlong P (step s i) rest)

theorem along_append {l r : List ι} : Along step P s (l ++ r) ↔ Along step P s l ∧ Along step P (run step s l) r := by
  induction l generalizing s with
  | nil =>
    exact ⟨fun h => ⟨trivial, h⟩, fun h => h.2⟩
  | cons i l ih =>
    show P s i ∧ Along step P (step s i) (l ++ r) ↔ (P s i ∧ Along step P (step s i) l) ∧ _
    rw [ih, and_assoc, run_cons]

theorem Along.and {Q : σ → ι → Prop} (hp : Along step P s inputs) (hq : Along step Q s inputs) :
    Along step (fun s i => P s i ∧ Q s i) s inputs := by
  induction inputs generalizing s with
  | nil =>
    exact trivial
  | cons i rest ih =>
    exact ⟨⟨hp.1, hq.1⟩, ih hp.2 hq.2⟩

/-- **RUN RULE** for steps that all meet a condition. -/
theorem Along.keeps (h : Along step P s inputs) (Q : σ → Prop) (h0 : Q s) (hstep : ∀ s i, P s i → Q s → Q (step s i)) :
    Q (run step s inputs) := by
  induction inputs generalizing s with
  | nil =>
    exact h0
  | cons i rest ih =>
    exact ih h.2 (hstep s i h.1 h0)

end Trace
