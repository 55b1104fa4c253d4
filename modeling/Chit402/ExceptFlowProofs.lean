import Mathlib.Algebra.BigOperators.Group.List.Basic
import Mathlib.Algebra.GroupWithZero.Nat

/-! # Success of a fallible computation

    Inversion lemmas for code written in `Except`: a chain of checks
    succeeds exactly when each link does.  They replace unfolding at every
    later use. -/

namespace ExceptFlow

variable {ε α β : Type}

@[simp] theorem ok_bind (a : α) (f : α → Except ε β) : (Except.ok a >>= f) = f a := rfl

@[simp] theorem error_bind (e : ε) (f : α → Except ε β) : ((Except.error e : Except ε α) >>= f) = .error e := rfl

variable {x : Except ε α} {ys : List β} {a : α} {f : α → Except ε β} {g : α → β} {b : β} {e : ε}

theorem bind_iff : (x >>= f) = .ok b ↔ ∃ a, x = .ok a ∧ f a = .ok b := by
  cases x with
  | error e => simp
  | ok a => simp

/-- Stop with `e` when the condition holds. -/
def revertIf (c : Prop) [Decidable c] (e : ε) : Except ε Unit :=
  if c then .error e else .ok ()

@[simp] theorem revertIf_ok_iff {c : Prop} [Decidable c] {u : Unit} : revertIf c e = .ok u ↔ ¬ c := by
  unfold revertIf
  by_cases h : c <;> simp [h]

theorem revertIf_of_not {c : Prop} [Decidable c] (e : ε) (h : ¬ c) : revertIf c e = .ok () := if_neg h

theorem revertIf_of {c : Prop} [Decidable c] (e : ε) (h : c) : revertIf c e = .error e := if_pos h

theorem guarded_of_not {c : Prop} [Decidable c] {f : Unit → Except ε β} (h : ¬ c) : (revertIf c e >>= f) = f () := by
  rw [revertIf_of_not e h, ok_bind]

theorem guarded_iff {c : Prop} [Decidable c] {f : Unit → Except ε β} :
    (revertIf c e >>= f) = .ok b ↔ ¬ c ∧ f () = .ok b := by
  rw [bind_iff]
  constructor
  · rintro ⟨u, hu, hf⟩
    exact ⟨revertIf_ok_iff.mp hu, hf⟩
  · rintro ⟨hc, hf⟩
    exact ⟨(), revertIf_of_not e hc, hf⟩

theorem ite_error_ok_iff {c : Prop} [Decidable c] {x : Except ε β} :
    (if c then .error e else x) = .ok b ↔ ¬ c ∧ x = .ok b := by
  by_cases h : c <;> simp [h]

theorem mapError_ok_iff {ε' : Type} {f : ε → ε'} : x.mapError f = .ok a ↔ x = .ok a := by
  cases x with
  | error e => exact ⟨fun h => (nomatch h), fun h => (nomatch h)⟩
  | ok b => simp [Except.mapError]

/-! ## The errors a computation can raise -/

/-- Every error of `x` satisfies `P`. -/
def Raises (P : ε → Prop) (x : Except ε α) : Prop := ∀ e, x = .error e → P e

variable {P : ε → Prop}

theorem raises_ok (a : α) : Raises P (.ok a : Except ε α) := fun _ h => nomatch h

theorem raises_error (h : P e) : Raises P (.error e : Except ε α) := by
  intro e' he
  rw [← Except.error.inj he]
  exact h

theorem raises_bind (hx : Raises P x) (hf : ∀ a, x = .ok a → Raises P (f a)) : Raises P (x >>= f) := by
  cases x with
  | error e => exact raises_error (hx e rfl)
  | ok a => exact hf a rfl

theorem raises_revertIf_bind {c : Prop} [Decidable c] {f : Unit → Except ε β} (he : P e) (hf : ¬ c → Raises P (f ())) :
    Raises P (revertIf c e >>= f) := by
  by_cases hc : c
  · rw [revertIf_of e hc]
    exact raises_error he
  · rw [revertIf_of_not e hc]
    exact hf hc

theorem raises_revertIf {c : Prop} [Decidable c] (he : P e) : Raises P (revertIf c e) := by
  by_cases hc : c
  · rw [revertIf_of e hc]
    exact raises_error he
  · rw [revertIf_of_not e hc]
    exact raises_ok ()

/-! ## Results and errors at once -/

/-- A result satisfies `Q`, an error satisfies `P`. -/
def Yields (Q : α → Prop) (P : ε → Prop) : Except ε α → Prop
  | .ok a => Q a
  | .error e => P e

variable {Q : α → Prop}

theorem Yields.ok (h : Yields Q P x) (hx : x = .ok a) : Q a := by
  rw [hx] at h
  exact h

theorem Yields.raises (h : Yields Q P x) : Raises P x := by
  intro e hx
  rw [hx] at h
  exact h

theorem Yields.mono {Q' : α → Prop} {P' : ε → Prop} (h : Yields Q P x) (hQ : ∀ a, Q a → Q' a) (hP : ∀ e, P e → P' e) :
    Yields Q' P' x := by
  cases x with
  | error e => exact hP e h
  | ok a => exact hQ a h

theorem yields_bind {R : β → Prop} (hx : Yields Q P x) (hf : ∀ a, Q a → Yields R P (f a)) : Yields R P (x >>= f) := by
  cases x with
  | error e => exact hx
  | ok a => exact hf a hx

theorem yields_revertIf_bind {c : Prop} [Decidable c] {f : Unit → Except ε β} {R : β → Prop} (he : c → P e)
    (hf : ¬ c → Yields R P (f ())) : Yields R P (revertIf c e >>= f) := by
  by_cases hc : c
  · rw [revertIf_of e hc]
    exact he hc
  · rw [revertIf_of_not e hc]
    exact hf hc

/-! ## Results alone -/

/-- A result satisfies `Q`, whatever the errors. -/
def Ensures (Q : α → Prop) (x : Except ε α) : Prop := ∀ a, x = .ok a → Q a

theorem ensures_ok (h : Q a) : Ensures Q (.ok a : Except ε α) := by
  intro a' ha
  rw [← Except.ok.inj ha]
  exact h

theorem ensures_error (e : ε) : Ensures Q (.error e : Except ε α) := fun _ h => nomatch h

theorem ensures_bind {R : β → Prop} (hx : Ensures Q x) (hf : ∀ a, Q a → Ensures R (f a)) : Ensures R (x >>= f) := by
  intro b hb
  obtain ⟨a, ha, hfa⟩ := bind_iff.mp hb
  exact hf a (hx a ha) b hfa

theorem ensures_skip {R : β → Prop} (hf : ∀ a, Ensures R (f a)) : Ensures R (x >>= f) := by
  intro b hb
  obtain ⟨a, -, hfa⟩ := bind_iff.mp hb
  exact hf a b hfa

theorem ensures_ite {c : Prop} [Decidable c] {y : Except ε α} (hx : Ensures Q x) (hy : Ensures Q y) :
    Ensures Q (if c then x else y) := by
  split
  · exact hx
  · exact hy

/-! ## Two runs side by side -/

section Related

variable {γ δ : Type} {R : α → β → Prop} {S : γ → δ → Prop}

/-- Both fail with one error, or both succeed with related results. -/
inductive Related (R : α → β → Prop) : Except ε α → Except ε β → Prop where
  | ok {a : α} {b : β} (h : R a b) : Related R (.ok a) (.ok b)
  | error (e : ε) : Related R (.error e) (.error e)

theorem related_bind {f : α → Except ε γ} {g : α → Except ε δ} (h : ∀ a, x = .ok a → Related S (f a) (g a)) :
    Related S (x >>= f) (x >>= g) := by
  cases x with
  | error e => exact .error e
  | ok a => exact h a rfl

theorem related_revertIf_bind {c : Prop} [Decidable c] {f : Unit → Except ε γ} {g : Unit → Except ε δ}
    (h : ¬ c → Related S (f ()) (g ())) : Related S (revertIf c e >>= f) (revertIf c e >>= g) :=
  related_bind fun _ hguard => h (revertIf_ok_iff.mp hguard)

theorem Related.bind {y : Except ε β} {f : α → Except ε γ} {g : β → Except ε δ} (h : Related R x y)
    (hf : ∀ a b, R a b → Related S (f a) (g b)) : Related S (x >>= f) (y >>= g) := by
  cases h with
  | ok hab => exact hf _ _ hab
  | error e => exact .error e

end Related

/-! ## Checked lists -/

/-- A checked list succeeds element by element. -/
theorem mapM_ok_iff {xs : List α} : xs.mapM f = .ok ys ↔ List.Forall₂ (fun x y => f x = .ok y) xs ys := by
  induction xs generalizing ys with
  | nil =>
    rw [List.mapM_nil]
    cases ys with
    | nil => exact ⟨fun _ => .nil, fun _ => rfl⟩
    | cons y ys => exact ⟨fun h => (nomatch h), fun h => (nomatch h)⟩
  | cons x xs ih =>
    rw [List.mapM_cons, bind_iff]
    constructor
    · rintro ⟨y, hy, h⟩
      obtain ⟨rest, hrest, h⟩ := bind_iff.mp h
      cases h
      exact .cons hy (ih.mp hrest)
    · rintro (_ | ⟨hy, hrest⟩)
      exact ⟨_, hy, bind_iff.mpr ⟨_, ih.mpr hrest, rfl⟩⟩

theorem mapM_ok_map {xs : List α} (h : ∀ x ∈ xs, f x = .ok (g x)) : xs.mapM f = .ok (xs.map g) := by
  rw [mapM_ok_iff, List.forall₂_map_right_iff, List.forall₂_same]
  exact h

theorem mapM_ok_iff_map {code : β → α} (h : ∀ x y, f x = .ok y ↔ x = code y) {xs : List α} :
    xs.mapM f = .ok ys ↔ xs = ys.map code := by
  rw [mapM_ok_iff]
  simp only [h]
  rw [← List.forall₂_eq_eq_eq, List.forall₂_map_right_iff]

theorem map_ne_error {r : Except ε α} (f : α → β) (h : r ≠ .error e) : r.map f ≠ .error e := by
  cases r with
  | ok a => simp [Except.map]
  | error e' => simpa [Except.map] using h

/-- A checked list fails only with a fault of one of its checks. -/
theorem mapM_ne_error (h : ∀ a, f a ≠ .error e) (xs : List α) : xs.mapM f ≠ .error e := by
  induction xs with
  | nil => simp [pure, Except.pure]
  | cons a rest ih =>
    rw [List.mapM_cons]
    have ha := h a
    cases hfa : f a with
    | error e' =>
      rw [hfa] at ha
      simpa using ha
    | ok b =>
      cases hrest : rest.mapM f with
      | error e' =>
        rw [hrest] at ih
        simpa using ih
      | ok bs => simp [pure, Except.pure]

/-! ## Checked loops -/

section Loops

variable {σ : Type} {step : σ → α → Except ε σ} {xs : List α} {s s' : σ}

theorem foldlM_cons_ok_iff {x : α} :
    (x :: xs).foldlM step s = .ok s' ↔ ∃ t, step s x = .ok t ∧ xs.foldlM step t = .ok s' := by
  rw [List.foldlM_cons, bind_iff]

/-- A loop that checks each element and pushes one result for it. -/
theorem foldlM_collects {P : α → Prop} {f : σ → List β} (hstep : ∀ s x t, step s x = .ok t → P x ∧ f t = f s ++ [g x])
    (h : xs.foldlM step s = .ok s') : (∀ x ∈ xs, P x) ∧ f s' = f s ++ xs.map g := by
  induction xs generalizing s with
  | nil =>
    cases h
    exact ⟨fun x hx => (nomatch hx), (List.append_nil _).symm⟩
  | cons x xs ih =>
    obtain ⟨t, ht, hrest⟩ := foldlM_cons_ok_iff.mp h
    obtain ⟨hx, hpush⟩ := hstep s x t ht
    obtain ⟨hxs, hcollect⟩ := ih hrest
    constructor
    · intro y hy
      rcases List.mem_cons.mp hy with rfl | hy
      · exact hx
      · exact hxs y hy
    · rw [hcollect, hpush, List.append_assoc, List.singleton_append, List.map_cons]

/-- A loop that adds amounts of at most `bound`, while the total stays below `cap`. -/
theorem foldlM_adds (total : σ → ℕ) (amount : α → ℕ) {bound cap : ℕ}
    (hstep : ∀ s x t, total s + bound < cap → step s x = .ok t → total t = total s + amount x ∧ amount x ≤ bound)
    (hroom : total s + xs.length * bound < cap) (h : xs.foldlM step s = .ok s') :
    total s' = total s + (xs.map amount).sum := by
  induction xs generalizing s with
  | nil =>
    cases h
    rfl
  | cons x xs ih =>
    obtain ⟨t, ht, hrest⟩ := foldlM_cons_ok_iff.mp h
    rw [List.length_cons, Nat.succ_mul] at hroom
    obtain ⟨hadd, hle⟩ := hstep s x t (by omega) ht
    rw [ih (by omega) hrest, hadd, List.map_cons, List.sum_cons, Nat.add_assoc]

theorem forM_ok_iff {f : α → Except ε Unit} {xs : List α} : xs.forM f = .ok () ↔ ∀ x ∈ xs, f x = .ok () := by
  induction xs with
  | nil => exact ⟨fun _ x hx => (nomatch hx), fun _ => rfl⟩
  | cons x xs ih =>
    show (f x >>= fun _ => xs.forM f) = .ok () ↔ _
    rw [bind_iff, List.forall_mem_cons, ← ih]
    constructor
    · rintro ⟨_, hx, hrest⟩
      exact ⟨hx, hrest⟩
    · rintro ⟨hx, hrest⟩
      exact ⟨(), hx, hrest⟩

end Loops

end ExceptFlow
