import Chit402.ExceptFlowProofs

/-! # Ideal arguments

    A prover and a verifier that share a transcript.  An argument is ideal
    for a relation when its verifier accepts only statements in the relation,
    and accepts the honest proof of each of them with both sides left at the
    same transcript.  What a verifier built from such parts proves is then a
    matter of how the parts are tied together. -/

namespace IdealArgument

open ExceptFlow

variable {ε T S W : Type}

/-- An argument about statements `S`, proved from witnesses `W`, on transcripts `T`. -/
structure Argument (ε T S W : Type) where
  Proof : Type
  prove : W → T → Except ε (Proof × T)
  verify : S → Proof → T → Except ε T

/-- **IDEAL**: sound for what is behind the statement, and complete in step. -/
structure Argument.Ideal (arg : Argument ε T S W) (statement : W → S) (behind : S → W) (rel : W → Prop) : Prop where
  sound : ∀ s proof tr tr', arg.verify s proof tr = .ok tr' → rel (behind s)
  complete : ∀ w tr, rel w → ∃ out, arg.prove w tr = .ok out ∧ arg.verify (statement w) out.1 tr = .ok out.2

/-! ## Stages

    A stage proves that an output is a function of an input on a domain of
    inputs, both of them behind statements. -/

variable {A : Type}

/-- A prover that returns its output, and a verifier of an input and an output. -/
structure Stage (ε T S A : Type) where
  Proof : Type
  prove : A → T → Except ε ((Proof × A) × T)
  verify : S → S → Proof → T → Except ε T

/-- **IDEAL**: sound for the function on the domain, and complete in step. -/
structure Stage.Ideal (stage : Stage ε T S A) (statement : A → S) (behind : S → A) (domain : A → Prop) (f : A → A) :
    Prop where
  sound : ∀ s s' proof tr tr', stage.verify s s' proof tr = .ok tr' → domain (behind s) ∧ behind s' = f (behind s)
  complete : ∀ a tr, domain a → ∃ out, stage.prove a tr = .ok out ∧ out.1.2 = f a
    ∧ stage.verify (statement a) (statement (f a)) out.1.1 tr = .ok out.2

/-- Some statements with these behind them have an accepted proof. -/
def Stage.Accepts (stage : Stage ε T S A) (behind : S → A) (a b : A) (tr : T) : Prop :=
  ∃ s s' proof tr', behind s = a ∧ behind s' = b ∧ stage.verify s s' proof tr = .ok tr'

theorem Stage.Ideal.accepts_iff {stage : Stage ε T S A} {statement : A → S} {behind : S → A} {domain : A → Prop}
    {f : A → A} (h : stage.Ideal statement behind domain f)
    (hbehind : ∀ a, domain a → behind (statement a) = a ∧ behind (statement (f a)) = f a) {a b : A} (tr : T) :
    stage.Accepts behind a b tr ↔ domain a ∧ b = f a := by
  constructor
  · rintro ⟨s, s', proof, tr', rfl, rfl, hverify⟩
    exact h.sound s s' proof tr tr' hverify
  · rintro ⟨ha, rfl⟩
    obtain ⟨out, -, -, hverify⟩ := h.complete a tr ha
    exact ⟨statement a, statement (f a), out.1.1, out.2, (hbehind a ha).1, (hbehind a ha).2, hverify⟩

/-! ## The argument that checks the relation -/

/-- No proof: the verifier looks behind the statement. -/
def checking (stop : ε) (behind : S → W) (rel : W → Prop) [DecidablePred rel] : Argument ε T S W where
  Proof := Unit
  prove _ tr := .ok ((), tr)
  verify s _ tr := do
    revertIf (¬ rel (behind s)) stop
    .ok tr

theorem checking_ideal (stop : ε) {statement : W → S} {behind : S → W} {rel : W → Prop} [DecidablePred rel]
    (hbehind : ∀ w, rel w → behind (statement w) = w) :
    (checking stop behind rel : Argument ε T S W).Ideal statement behind rel := by
  constructor
  case sound =>
    intro s proof tr tr' hverify
    exact not_not.mp (guarded_iff.mp hverify).1
  case complete =>
    intro w tr hrel
    refine ⟨((), tr), rfl, guarded_iff.mpr ⟨?_, rfl⟩⟩
    rw [hbehind w hrel]
    exact not_not.mpr hrel

end IdealArgument
