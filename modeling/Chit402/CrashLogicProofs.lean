import Chit402.InterleavingProofs

/-! # Runs that are cut off

    One program of a pool runs alone and may be cut off after any operation.
    `Cut` says what holds of the shared state wherever that is, and what
    holds where the program ends.  A ghost goes along with the run: it may
    move on with each operation, and what a cut-off state has in common with
    the end of the same run is what the ghost keeps. -/

namespace CrashLogic

open Interleaving Trace

variable {Op : Type} {Res : Op → Type} {α β S E G : Type}

variable {p : Prog Op Res α}

section Cut

variable (exec : S → ℕ → (o : Op) → E → S × Option (Res o)) (cond : S → ℕ → Op → E → Prop) (n : ℕ)
  (later : G → G → Prop) (crash : G → S → Prop)

/-- Wherever a run of the program alone is cut off its state meets `crash`, and where it ends, `fin`. -/
def Cut (fin : G → S → Option α → Prop) : G → S → Prog Op Res α → Prop
  | g, s, .done a => crash g s ∧ fin g s (some a)
  | g, s, .thrown => crash g s ∧ fin g s none
  | g, s, .op o next => crash g s ∧ ∀ e, cond s n o e →
      ∃ g', later g g' ∧ Cut fin g' (exec s n o e).1 (next (exec s n o e).2)

variable {exec cond n later crash} {fin fin' : G → S → Option α → Prop} {g : G} {s : S}

theorem Cut.point (h : Cut exec cond n later crash fin g s p) : crash g s := by
  cases p with
  | done a => exact h.1
  | thrown => exact h.1
  | op o next => exact h.1

/-- What the programs after one operation keep, the program it heads keeps. -/
theorem Cut.op {o : Op} {next : Option (Res o) → Prog Op Res α} {next' : Option (Res o) → Prog Op Res β}
    {fin' : G → S → Option β → Prop}
    (hnext : ∀ r {g : G} {s : S}, Cut exec cond n later crash fin g s (next r) →
      Cut exec cond n later crash fin' g s (next' r)) (h : Cut exec cond n later crash fin g s (.op o next)) :
    Cut exec cond n later crash fin' g s (.op o next') := by
  refine ⟨h.1, ?_⟩
  intro e he
  obtain ⟨g', hlater, hcut⟩ := h.2 e he
  exact ⟨g', hlater, hnext _ hcut⟩

theorem Cut.mono (hfin : ∀ g s r, crash g s → fin g s r → fin' g s r) :
    ∀ {g : G} {s : S}, Cut exec cond n later crash fin g s p → Cut exec cond n later crash fin' g s p := by
  induction p with
  | done | thrown => exact fun h => ⟨h.1, hfin _ _ _ h.1 h.2⟩
  | op o next ih => exact fun h => Cut.op ih h

/-! ## Rules -/

theorem cut_pure {a : α} (hcrash : crash g s) (hfin : fin g s (some a)) :
    Cut exec cond n later crash fin g s (pure a : Prog Op Res α) := ⟨hcrash, hfin⟩

/-- **SEQUENCE**: the second program starts where the first one ends. -/
theorem cut_bind {fin : G → S → Option β → Prop} {f : α → Prog Op Res β} {p : Prog Op Res α} :
    ∀ {g : G} {s : S}, Cut exec cond n later crash (fun g s r => match r with
        | some a => Cut exec cond n later crash fin g s (f a)
        | none => fin g s none) g s p → Cut exec cond n later crash fin g s (p >>= f) := by
  induction p with
  | done a => exact fun h => h.2
  | thrown => exact fun h => h
  | op o next ih => exact fun h => Cut.op ih h

/-- One operation at the head of a program. -/
theorem cut_call_bind {fin : G → S → Option β → Prop} {o : Op} {f : Res o → Prog Op Res β} (hcrash : crash g s)
    (h : ∀ e, cond s n o e → ∃ r g', (exec s n o e).2 = some r ∧ later g g'
      ∧ Cut exec cond n later crash fin g' (exec s n o e).1 (f r)) :
    Cut exec cond n later crash fin g s (Prog.call o >>= f) := by
  refine ⟨hcrash, ?_⟩
  intro e he
  obtain ⟨r, g', hanswer, hlater, hnext⟩ := h e he
  refine ⟨g', hlater, ?_⟩
  dsimp only
  rw [hanswer]
  exact hnext

theorem cut_orElse {p handler : Prog Op Res α} :
    ∀ {g : G} {s : S}, Cut exec cond n later crash (fun g s r => match r with
        | some a => fin g s (some a)
        | none => Cut exec cond n later crash fin g s handler) g s p →
      Cut exec cond n later crash fin g s (p.orElse handler) := by
  induction p with
  | done a => exact fun h => h
  | thrown => exact fun h => h.2
  | op o next ih => exact fun h => Cut.op ih h

theorem cut_andFinally {p : Prog Op Res α} {after : Prog Op Res Unit} :
    ∀ {g : G} {s : S}, Cut exec cond n later crash
      (fun g s r => Cut exec cond n later crash (fun g s r' => match r' with
        | some _ => fin g s r
        | none => fin g s none) g s after) g s p → Cut exec cond n later crash fin g s (p.andFinally after) := by
  induction p with
  | done | thrown =>
    intro g s h
    refine cut_bind (Cut.mono ?_ h.2)
    intro g s r hcrash hr
    cases r with
    | some _ => exact ⟨hcrash, hr⟩
    | none => exact hr
  | op o next ih => exact fun h => Cut.op ih h

/-! ## Runs -/

/-- The program of a thread has ended. -/
def Ended (p : Prog Op Res α) : Prop := ∀ o next, p ≠ .op o next

instance (p : Prog Op Res α) : Decidable (Ended p) :=
  match p with
  | .done _ => isTrue nofun
  | .thrown => isTrue nofun
  | .op o next => isFalse fun h => h o next rfl

/-- The programs of the other threads are as they were. -/
theorem pool_other {m : ℕ} (hm : m ≠ n) (events : List E) :
    ∀ {c : Config Op Res α S}, (run (step exec) c (events.map (n, ·))).pool m = c.pool m := by
  induction events with
  | nil => exact rfl
  | cons e events ih =>
    intro c
    rw [List.map_cons, run_cons, ih]
    cases hprog : c.pool n with
    | done a =>
      have hstep : step exec c (n, e) = c := step_done hprog
      rw [hstep]
    | thrown =>
      have hstep : step exec c (n, e) = c := step_thrown hprog
      rw [hstep]
    | op o next =>
      have hstep : step exec c (n, e) = ⟨(exec c.state n o e).1,
        Function.update c.pool n (next (exec c.state n o e).2)⟩ :=
        step_op hprog
      rw [hstep]
      exact Function.update_of_ne hm ..

/-- **CUT-OFF RULE**: after any part of its run the rest of the program is judged still, with a later ghost. -/
theorem cut_run (hrefl : ∀ g, later g g) (htrans : ∀ g g' g'', later g g' → later g' g'' → later g g'')
    (events : List E) : ∀ {c : Config Op Res α S} {g : G}, Cut exec cond n later crash fin g c.state (c.pool n) →
      MeetsRun exec cond c (events.map (n, ·)) →
      ∃ g', later g g' ∧ Cut exec cond n later crash fin g' (run (step exec) c (events.map (n, ·))).state
        ((run (step exec) c (events.map (n, ·))).pool n) := by
  induction events with
  | nil => exact fun h _ => ⟨_, hrefl _, h⟩
  | cons e events ih =>
    intro c g h hmeets
    obtain ⟨hmeet, hmeets⟩ := hmeets
    rw [List.map_cons, run_cons]
    cases hprog : c.pool n with
    | done a =>
      have hstep : step exec c (n, e) = c := step_done hprog
      rw [hstep] at hmeets ⊢
      exact ih h hmeets
    | thrown =>
      have hstep : step exec c (n, e) = c := step_thrown hprog
      rw [hstep] at hmeets ⊢
      exact ih h hmeets
    | op o next =>
      have hcond : cond c.state n o e := by
        unfold Meets at hmeet
        dsimp only at hmeet
        rw [hprog] at hmeet
        exact hmeet
      rw [hprog] at h
      obtain ⟨g', hlater, hnext⟩ := h.2 e hcond
      have hstep : step exec c (n, e) = ⟨(exec c.state n o e).1,
        Function.update c.pool n (next (exec c.state n o e).2)⟩ :=
        step_op hprog
      have hcut : Cut exec cond n later crash fin g' (step exec c (n, e)).state ((step exec c (n, e)).pool n) := by
        rw [hstep]
        dsimp only
        rw [Function.update_self]
        exact hnext
      obtain ⟨g'', hlater', hend⟩ := ih hcut hmeets
      exact ⟨g'', htrans _ _ _ hlater hlater', hend⟩

theorem Cut.ends (h : Cut exec cond n later crash fin g s p) (hended : Ended p) : ∃ r, fin g s r := by
  cases p with
  | done a => exact ⟨some a, h.2⟩
  | thrown => exact ⟨none, h.2⟩
  | op o next => exact (hended o next rfl).elim

end Cut

end CrashLogic
