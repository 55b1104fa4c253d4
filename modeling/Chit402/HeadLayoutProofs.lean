import Chit402.TensorProofs

/-! # Heads and rotations

    `slice_head` takes the columns of a head out of a row-major matrix, the
    loops of `rope_all_heads` and `prove_mha` put them back, and `apply_rope`
    turns adjacent pairs of a head by the angles of its position. -/

namespace HeadLayout

open ExceptFlow Mle Tensor MatMulSound

variable {F : Type} [Field F]

/-! ## Heads -/

/-- Head `h`, columns `[h·dHead, (h+1)·dHead)`. -/
def sliceHead (mat : List F) (seq width dHead h : ℕ) : List F :=
  (List.range (seq * dHead)).map fun x => entry mat (x / dHead * width + h * dHead + x % dHead)

/-- Overwrite head `h`. -/
def putHead (out : List F) (seq width dHead h : ℕ) (head : List F) : List F :=
  (List.range out.length).map fun x =>
    if x / width < seq ∧ x % width / dHead = h then entry head (x / width * dHead + x % width % dHead) else entry out x

/-- Overwrite `n` heads from `h` on. -/
def putHeads (seq width dHead : ℕ) (f : ℕ → List F) : ℕ → ℕ → List F → List F
  | 0, _, out => out
  | n + 1, h, out => putHeads seq width dHead f n (h + 1) (putHead out seq width dHead h (f h))

variable {mat out head : List F} {seq width dHead heads g h n s e : ℕ} {f f' : ℕ → List F}

theorem length_sliceHead : (sliceHead mat seq width dHead h).length = seq * dHead := by
  rw [sliceHead, List.length_map, List.length_range]

theorem entry_sliceHead (hs : s < seq) (he : e < dHead) :
    entry (sliceHead mat seq width dHead h) (s * dHead + e) = entry mat (s * width + h * dHead + e) := by
  rw [sliceHead, entry_map_range _ (row_major_lt hs he), row_major_div he, row_major_mod he]

theorem length_putHead : (putHead out seq width dHead h head).length = out.length := by
  rw [putHead, List.length_map, List.length_range]

theorem length_putHeads : (putHeads seq width dHead f n h out).length = out.length := by
  induction n generalizing h out with
  | zero => rfl
  | succ n ih => rw [putHeads, ih, length_putHead]

theorem column_lt (hg : g < heads) (he : e < dHead) : g * dHead + e < heads * dHead := row_major_lt hg he

theorem entry_putHead (hout : out.length = seq * (heads * dHead)) (hs : s < seq) (hg : g < heads) (he : e < dHead) :
    entry (putHead out seq (heads * dHead) dHead h head) (s * (heads * dHead) + (g * dHead + e))
      = if g = h then entry head (s * dHead + e) else entry out (s * (heads * dHead) + (g * dHead + e)) := by
  have hcol := column_lt hg he
  have hx : s * (heads * dHead) + (g * dHead + e) < out.length := by
    rw [hout]
    exact row_major_lt hs hcol
  rw [putHead, entry_map_range _ hx, row_major_div hcol, row_major_mod hcol, row_major_div he, row_major_mod he]
  simp only [hs, true_and]

/-- By induction on the heads that are left. -/
theorem entry_putHeads (hout : out.length = seq * (heads * dHead)) (hs : s < seq) (hg : g < heads) (he : e < dHead) :
    entry (putHeads seq (heads * dHead) dHead f n h out) (s * (heads * dHead) + (g * dHead + e))
      = if h ≤ g ∧ g < h + n then entry (f g) (s * dHead + e) else entry out
        (s * (heads * dHead) + (g * dHead + e)) := by
  induction n generalizing h out with
  | zero =>
    rw [putHeads, if_neg]
    rintro ⟨hle, hlt⟩
    exact absurd hle (Nat.not_le.mpr hlt)
  | succ n ih =>
    rw [putHeads, ih (length_putHead.trans hout), entry_putHead hout hs hg he]
    by_cases hgh : g = h
    · subst hgh
      rw [if_neg (by omega), if_pos rfl, if_pos (by omega)]
    · rw [if_neg hgh]
      exact if_congr (by omega) rfl rfl

theorem putHeads_congr (h' : ∀ i < n, f (h + i) = f' (h + i)) :
    putHeads seq width dHead f n h out = putHeads seq width dHead f' n h out := by
  induction n generalizing h out with
  | zero => rfl
  | succ n ih =>
    rw [putHeads, putHeads, show f h = f' h from h' 0 (Nat.succ_pos n)]
    refine ih fun i hi => ?_
    rw [Nat.succ_add_eq_add_succ]
    exact h' (i + 1) (Nat.succ_lt_succ hi)

theorem sliceHead_putHeads (hout : out.length = seq * (heads * dHead)) (hg : g < heads)
    (hf : (f g).length = seq * dHead) :
    sliceHead (putHeads seq (heads * dHead) dHead f heads 0 out) seq (heads * dHead) dHead g = f g := by
  refine grid_ext length_sliceHead hf fun s hs e he => ?_
  rw [entry_sliceHead hs he, Nat.add_assoc, entry_putHeads hout hs hg he,
    if_pos ⟨Nat.zero_le g, by rw [Nat.zero_add]; exact hg⟩]

theorem sliceHead_one (hmat : mat.length = seq * dHead) : sliceHead mat seq dHead dHead 0 = mat := by
  refine grid_ext length_sliceHead hmat fun s hs e he => ?_
  rw [entry_sliceHead hs he, Nat.zero_mul, Nat.add_zero]

theorem putHeads_one (hout : out.length = seq * dHead) (hf : (f 0).length = seq * dHead) :
    putHeads seq dHead dHead f 1 0 out = f 0 := by
  refine grid_ext (length_putHeads.trans hout) hf fun s hs e he => ?_
  have hput := entry_putHeads (f := f) (n := 1) (h := 0) (g := 0) (by rw [Nat.one_mul]; exact hout) hs Nat.one_pos he
  rw [Nat.one_mul, Nat.zero_mul, Nat.zero_add] at hput
  rw [hput, if_pos ⟨le_refl 0, Nat.one_pos⟩]

/-! ## Rotations -/

/-- Public rotation tables, by position and pair. -/
structure RopeParams (F : Type) where
  cos : List F
  sin : List F

/-- The pairs of a head, each turned by the angle of its position. -/
def rotate (rope : RopeParams F) (seq dHead : ℕ) (x : List F) : List F :=
  (List.range (seq * dHead)).map fun y =>
    let s := y / dHead
    let i := y % dHead / 2
    let c := entry rope.cos (s * (dHead / 2) + i)
    let sn := entry rope.sin (s * (dHead / 2) + i)
    let a := entry x (s * dHead + 2 * i)
    let b := entry x (s * dHead + 2 * i + 1)
    if y % dHead % 2 = 0 then a * c - b * sn else a * sn + b * c

/-- What `apply_rope` asserts of the tables. -/
def RopeParams.Shaped (rope : RopeParams F) (seq dHead : ℕ) : Prop :=
  2 ∣ dHead ∧ rope.cos.length = seq * (dHead / 2) ∧ rope.sin.length = seq * (dHead / 2)

instance (rope : RopeParams F) (seq dHead : ℕ) : Decidable (rope.Shaped seq dHead) :=
    inferInstanceAs (Decidable (_ ∧ _))

def applyRope (rope : RopeParams F) (seq dHead : ℕ) (x : List F) : Except Abort (List F) := do
  revertIf (¬ rope.Shaped seq dHead ∨ x.length ≠ seq * dHead) .panic
  .ok (rotate rope seq dHead x)

def VerifyRope (rope : RopeParams F) (seq dHead : ℕ) (x rotated : List F) : Prop :=
  rope.Shaped seq dHead ∧ x.length = seq * dHead ∧ rotated.length = seq * dHead ∧ rotated = rotate rope seq dHead x

instance [DecidableEq F] (rope : RopeParams F) (seq dHead : ℕ) (x rotated : List F) :
    Decidable (VerifyRope rope seq dHead x rotated) := inferInstanceAs (Decidable (_ ∧ _))

/-- The loop of `rope_all_heads`, `n` heads from `h` on. -/
def ropeHeads (rope : RopeParams F) (mat : List F) (seq width dHead : ℕ) : ℕ → ℕ → List F → Except Abort (List F)
  | 0, _, out => .ok out
  | n + 1, h, out => do
    let rot ← applyRope rope seq dHead (sliceHead mat seq width dHead h)
    ropeHeads rope mat seq width dHead n (h + 1) (putHead out seq width dHead h rot)

def ropeAllHeads (rope : RopeParams F) (mat : List F) (seq heads dHead : ℕ) : Except Abort (List F) :=
  ropeHeads rope mat seq (heads * dHead) dHead heads 0 mat

def VerifyRopeAllHeads (rope : RopeParams F) (src rotated : List F) (seq heads dHead : ℕ) : Prop :=
  ∀ h < heads, VerifyRope rope seq dHead (sliceHead src seq (heads * dHead) dHead h)
    (sliceHead rotated seq (heads * dHead) dHead h)

instance [DecidableEq F] (rope : RopeParams F) (src rotated : List F) (seq heads dHead : ℕ) :
    Decidable (VerifyRopeAllHeads rope src rotated seq heads dHead) := inferInstanceAs (Decidable (∀ h < heads, _))

variable {rope : RopeParams F} {x : List F}

theorem length_rotate : (rotate rope seq dHead x).length = seq * dHead := by
  rw [rotate, List.length_map, List.length_range]

theorem entry_rotate (hs : s < seq) (he : e < dHead) : entry (rotate rope seq dHead x) (s * dHead + e)
      = if e % 2 = 0 then entry x (s * dHead + 2 * (e / 2)) * entry rope.cos (s * (dHead / 2) + e / 2)
            - entry x (s * dHead + 2 * (e / 2) + 1) * entry rope.sin (s * (dHead / 2) + e / 2) else
          entry x (s * dHead + 2 * (e / 2)) * entry rope.sin (s * (dHead / 2) + e / 2)
            + entry x (s * dHead + 2 * (e / 2) + 1) * entry rope.cos (s * (dHead / 2) + e / 2) := by
  rw [rotate, entry_map_range _ (row_major_lt hs he), row_major_div he, row_major_mod he]

theorem ropeHeads_eq (hrope : rope.Shaped seq dHead) : ropeHeads rope mat seq width dHead n h out
      = .ok (putHeads seq width dHead (fun h => rotate rope seq dHead (sliceHead mat seq width dHead h)) n h out) := by
  induction n generalizing h out with
  | zero => rfl
  | succ n ih =>
    have happly : applyRope rope seq dHead (sliceHead mat seq width dHead h)
        = .ok (rotate rope seq dHead (sliceHead mat seq width dHead h)) := by
      rw [applyRope, revertIf_of_not _ (not_or.mpr ⟨not_not.mpr hrope, not_not.mpr length_sliceHead⟩)]
      rfl
    rw [ropeHeads, happly, ok_bind, ih]
    rfl

/-- **COMPLETE**: what `rope_all_heads` makes is verified. -/
theorem ropeAllHeads_complete (hrope : rope.Shaped seq dHead) (hmat : mat.length = seq * (heads * dHead)) :
    ∃ rotated, ropeAllHeads rope mat seq heads dHead = .ok rotated ∧ rotated.length = seq * (heads * dHead)
      ∧ VerifyRopeAllHeads rope mat rotated seq heads dHead := by
  refine ⟨_, ropeHeads_eq hrope, length_putHeads.trans hmat, ?_⟩
  intro h hh
  exact ⟨hrope, length_sliceHead, length_sliceHead, sliceHead_putHeads hmat hh length_rotate⟩

end HeadLayout
