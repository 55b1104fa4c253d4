import Mathlib.Data.List.GetD
import Mathlib.Tactic.Common

/-! # The transcript

    The Fiat–Shamir transcript: what is absorbed, and the challenges drawn
    in between.  The rolling hash is an arbitrary function of all that the
    transcript has taken in, so that a challenge is fixed by what comes
    before it, and by nothing else. -/

namespace FiatShamir

/-- One step of a transcript.  A field element stands for its canonical bytes. -/
inductive Entry (F : Type) where
  | bytes (label data : List UInt8)
  | field (label : List UInt8) (f : F)
  | challenge (label : List UInt8)
deriving DecidableEq

/-- What a transcript has taken in, latest first, and the hash that answers to it. -/
structure Transcript (F : Type) where
  oracle : List (Entry F) → F
  log : List (Entry F)

variable {F : Type}

namespace Transcript

def absorbBytes (label data : List UInt8) (tr : Transcript F) : Transcript F :=
  { tr with log := .bytes label data :: tr.log }

def absorbField (label : List UInt8) (f : F) (tr : Transcript F) : Transcript F :=
  { tr with log := .field label f :: tr.log }

def challenge (label : List UInt8) (tr : Transcript F) : F × Transcript F :=
  (tr.oracle (.challenge label :: tr.log), { tr with log := .challenge label :: tr.log })

end Transcript

open Transcript

def label (s : String) : List UInt8 := s.toUTF8.toList

/-- `draw_point`. -/
def drawPoint : ℕ → List UInt8 → Transcript F → List F × Transcript F
  | 0, _, tr => ([], tr)
  | vars + 1, lbl, tr =>
    let drawn := tr.challenge lbl
    let rest := drawPoint vars lbl drawn.2
    (drawn.1 :: rest.1, rest.2)

theorem length_drawPoint (vars : ℕ) (lbl : List UInt8) (tr : Transcript F) :
    (drawPoint vars lbl tr).1.length = vars := by
  induction vars generalizing tr with
  | zero => rfl
  | succ vars ih => exact congrArg (· + 1) (ih _)

/-! ## Challenges that are given -/

def Entry.isChallenge : Entry F → Bool
  | .challenge _ => true
  | _ => false

/-- How many challenges were drawn. -/
def drawn (log : List (Entry F)) : ℕ := log.countP Entry.isChallenge

/-- The transcript that yields the challenges `cs`. -/
def replay [Zero F] (cs : List F) : Transcript F where
  oracle := fun log => cs.getD (drawn log - 1) 0
  log := []

/-- The next challenges of the transcript are `rs`. -/
def Draws [Zero F] (tr : Transcript F) (rs : List F) : Prop :=
  ∃ cs, tr.oracle = (replay cs).oracle ∧ cs.drop (drawn tr.log) = rs

variable [Zero F] {tr : Transcript F} {rs rest : List F}

theorem replay_draws (cs : List F) : Draws (replay cs) cs := ⟨cs, rfl, rfl⟩

theorem Draws.absorbBytes (h : Draws tr rs) (lbl data : List UInt8) : Draws (tr.absorbBytes lbl data) rs := h

theorem Draws.absorbField (h : Draws tr rs) (lbl : List UInt8) (f : F) : Draws (tr.absorbField lbl f) rs := h

/-- A challenge is the next one given. -/
theorem Draws.challenge {c : F} (h : Draws tr (c :: rs)) (lbl : List UInt8) :
    (tr.challenge lbl).1 = c ∧ Draws (tr.challenge lbl).2 rs := by
  obtain ⟨cs, horacle, hdrop⟩ := h
  have hcount : drawn (.challenge lbl :: tr.log) = drawn tr.log + 1 := List.countP_cons_of_pos rfl
  constructor
  · show tr.oracle (.challenge lbl :: tr.log) = c
    rw [horacle]
    show cs.getD (drawn (.challenge lbl :: tr.log) - 1) 0 = c
    rw [hcount, Nat.add_sub_cancel, List.getD_eq_getElem?_getD, ← List.head?_drop, hdrop]
    rfl
  · refine ⟨cs, horacle, ?_⟩
    show cs.drop (drawn (.challenge lbl :: tr.log)) = rs
    rw [hcount, ← List.drop_drop, hdrop]
    rfl

theorem Draws.drawPoint (h : Draws tr (rs ++ rest)) (lbl : List UInt8) :
    (drawPoint rs.length lbl tr).1 = rs ∧ Draws (drawPoint rs.length lbl tr).2 rest := by
  induction rs generalizing tr with
  | nil => exact ⟨rfl, h⟩
  | cons c rs ih =>
    obtain ⟨hc, hrest⟩ := Draws.challenge h lbl
    obtain ⟨hrs, hdone⟩ := ih hrest
    exact ⟨congrArg₂ List.cons hc hrs, hdone⟩

end FiatShamir
