import Mathlib.Data.ZMod.Basic
import Chit402.LittleEndianProofs
import Chit402.TranscriptProofs

/-! # What the rolling hash binds

    The state of a transcript is one hash: of the version and the domain at
    first, and then of the state before it, a label and the data, written
    one after the other.  Nothing marks where the label ends, or that a
    step was a challenge, so the hash binds the bytes of every step and not
    the step. -/

namespace RollingTranscript

open FiatShamir LittleEndian

variable {p : ℕ} {keccak256 : List UInt8 → List UInt8} {domain domain' : List UInt8} {log log' : List (Entry (ZMod p))}

/-! ## The source -/

/-- `into_bigint().to_bytes_le()` -/
def toBytesLe (f : ZMod p) : List UInt8 := List.ofFn fun i : Fin 32 => byteAt f.val i

def new (keccak256 : List UInt8 → List UInt8) (domain : List UInt8) : List UInt8 :=
  keccak256 (label "xfuel-zkllm-v1" ++ domain)

def absorbBytes (keccak256 : List UInt8 → List UInt8) (state lbl data : List UInt8) : List UInt8 :=
  keccak256 (state ++ (lbl ++ data))

def absorbField (keccak256 : List UInt8 → List UInt8) (state lbl : List UInt8) (f : ZMod p) : List UInt8 :=
  absorbBytes keccak256 state lbl (toBytesLe f)

/-- The challenge and the state it leaves. -/
def challenge (p : ℕ) (keccak256 : List UInt8 → List UInt8) (state lbl : List UInt8) : ZMod p × List UInt8 :=
  let out := keccak256 (state ++ (lbl ++ label "challenge"))
  (value out, out)

/-- The state after one step. -/
def step (keccak256 : List UInt8 → List UInt8) (state : List UInt8) : Entry (ZMod p) → List UInt8
  | .bytes lbl data => absorbBytes keccak256 state lbl data
  | .field lbl f => absorbField keccak256 state lbl f
  | .challenge lbl => (challenge p keccak256 state lbl).2

/-- The state after the steps of `log`, latest first. -/
def run (keccak256 : List UInt8 → List UInt8) (domain : List UInt8) : List (Entry (ZMod p)) → List UInt8
  | [] => new keccak256 domain
  | e :: log => step keccak256 (run keccak256 domain log) e

def rolling (keccak256 : List UInt8 → List UInt8) (domain : List UInt8) (log : List (Entry (ZMod p))) :
    Transcript (ZMod p) where
  oracle := fun log => value (run keccak256 domain log)
  log := log

/-! ## What is hashed -/

/-- The bytes a step hashes after the state. -/
def spelled : Entry (ZMod p) → List UInt8
  | .bytes lbl data => lbl ++ data
  | .field lbl f => lbl ++ toBytesLe f
  | .challenge lbl => lbl ++ label "challenge"

theorem step_eq (state : List UInt8) (e : Entry (ZMod p)) :
    step keccak256 state e = keccak256 (state ++ spelled e) := by
  cases e with
  | bytes lbl data => rfl
  | field lbl f => rfl
  | challenge lbl => rfl

/-- The hash calls of a run, latest first. -/
def queries (keccak256 : List UInt8 → List UInt8) (domain : List UInt8) : List (Entry (ZMod p)) → List (List UInt8)
  | [] => [label "xfuel-zkllm-v1" ++ domain]
  | e :: log => (run keccak256 domain log ++ spelled e) :: queries keccak256 domain log

/-- Step for step the runs spell the same bytes; where one is used up first, its domain spells the other's
    state and step. -/
def Collide (keccak256 : List UInt8 → List UInt8) (domain domain' : List UInt8) :
    List (Entry (ZMod p)) → List (Entry (ZMod p)) → Prop
  | [], [] => domain = domain'
  | [], e' :: log' => label "xfuel-zkllm-v1" ++ domain = run keccak256 domain' log' ++ spelled e'
  | e :: log, [] => run keccak256 domain log ++ spelled e = label "xfuel-zkllm-v1" ++ domain'
  | e :: log, e' :: log' => spelled e = spelled e' ∧ Collide keccak256 domain domain' log log'

/-- The hash has digests of 32 bytes and no collision between the calls of the two runs. -/
structure CollisionFree (keccak256 : List UInt8 → List UInt8) (calls calls' : List (List UInt8)) : Prop where
  length : ∀ bytes, (keccak256 bytes).length = 32
  injective : ∀ x ∈ calls, ∀ y ∈ calls', keccak256 x = keccak256 y → x = y

theorem CollisionFree.eq_iff {calls calls' : List (List UInt8)} {x y : List UInt8}
    (h : CollisionFree keccak256 (x :: calls) (y :: calls')) : keccak256 x = keccak256 y ↔ x = y :=
  ⟨h.injective x List.mem_cons_self y List.mem_cons_self, congrArg keccak256⟩

theorem CollisionFree.tail {calls calls' : List (List UInt8)} {x y : List UInt8}
    (h : CollisionFree keccak256 (x :: calls) (y :: calls')) : CollisionFree keccak256 calls calls' :=
  ⟨h.length, fun a ha b hb => h.injective a (List.mem_cons_of_mem _ ha) b (List.mem_cons_of_mem _ hb)⟩

theorem length_run (hlength : ∀ bytes, (keccak256 bytes).length = 32) (log : List (Entry (ZMod p))) :
    (run keccak256 domain log).length = 32 := by
  cases log with
  | nil => exact hlength _
  | cons e log =>
    rw [run, step_eq]
    exact hlength _

theorem run_eq_iff (h : CollisionFree keccak256 (queries keccak256 domain log) (queries keccak256 domain' log')) :
    run keccak256 domain log = run keccak256 domain' log' ↔ Collide keccak256 domain domain' log log' := by
  induction log generalizing log' with
  | nil =>
    cases log' with
    | nil =>
      rw [run, run, new, new, h.eq_iff, Collide]
      exact List.append_right_inj _
    | cons e' log' => rw [run, run, new, step_eq, h.eq_iff, Collide]
  | cons e log ih =>
    cases log' with
    | nil => rw [run, run, new, step_eq, h.eq_iff, Collide]
    | cons e' log' =>
      have hlength : (run keccak256 domain log).length = (run keccak256 domain' log').length := by
        rw [length_run h.length, length_run h.length]
      rw [run, run, step_eq, step_eq, h.eq_iff, Collide, ← ih h.tail, and_comm]
      exact ⟨fun hbytes => List.append_inj hbytes hlength, fun hparts => congrArg₂ _ hparts.1 hparts.2⟩

/-- Under domains too short to spell a state, the runs collide only step for step. -/
theorem collide_of_short (hlength : ∀ bytes, (keccak256 bytes).length = 32) (hd : domain.length < 18)
    (hd' : domain'.length < 18) :
    Collide keccak256 domain domain' log log' ↔ domain = domain' ∧ log.map spelled = log'.map spelled := by
  have hversion : (label "xfuel-zkllm-v1").length = 14 := by decide +kernel
  induction log generalizing log' with
  | nil =>
    cases log' with
    | nil => exact (and_iff_left rfl).symm
    | cons e' log' =>
      refine iff_of_false (fun h => ?_) (fun h => nomatch h.2)
      have hsizes := congrArg List.length h
      rw [List.length_append, List.length_append, length_run hlength, hversion] at hsizes
      omega
  | cons e log ih =>
    cases log' with
    | nil =>
      refine iff_of_false (fun h => ?_) (fun h => nomatch h.2)
      have hsizes := congrArg List.length h
      rw [List.length_append, List.length_append, length_run hlength, hversion] at hsizes
      omega
    | cons e' log' =>
      rw [Collide, List.map_cons, List.map_cons, List.cons.injEq, and_left_comm]
      exact and_congr_right fun _ => ih

/-- **A state binds the steps before it exactly when no other steps spell the same bytes.** -/
theorem binds_iff (h : CollisionFree keccak256 (queries keccak256 domain log) (queries keccak256 domain' log')) :
    (run keccak256 domain log = run keccak256 domain' log' → domain = domain' ∧ log = log')
      ↔ (Collide keccak256 domain domain' log log' → domain = domain' ∧ log = log') := by
  rw [run_eq_iff h]

/-- **Under a short domain, a state binds the bytes of every step before it.** -/
theorem short_domain_binds (h : CollisionFree keccak256 (queries keccak256 domain log) (queries keccak256 domain' log'))
    (hd : domain.length < 18) (hd' : domain'.length < 18) :
    run keccak256 domain log = run keccak256 domain' log' ↔ domain = domain' ∧ log.map spelled = log'.map spelled := by
  rw [run_eq_iff h]
  exact collide_of_short h.length hd hd'

/-! ## Parties of a proof -/

/-- A prover or a verifier: what it does next may depend on what it has drawn. -/
inductive Party (F α : Type) where
  | done (result : α)
  | absorbBytes (lbl data : List UInt8) (rest : Party F α)
  | absorbField (lbl : List UInt8) (f : F) (rest : Party F α)
  | challenge (lbl : List UInt8) (rest : F → Party F α)

variable {α : Type}

/-- On the state of the source. -/
def Party.exec (keccak256 : List UInt8 → List UInt8) (state : List UInt8) : Party (ZMod p) α → α × List UInt8
  | .done result => (result, state)
  | .absorbBytes lbl data rest => rest.exec keccak256 (RollingTranscript.absorbBytes keccak256 state lbl data)
  | .absorbField lbl f rest => rest.exec keccak256 (RollingTranscript.absorbField keccak256 state lbl f)
  | .challenge lbl rest =>
    let (c, next) := RollingTranscript.challenge p keccak256 state lbl
    (rest c).exec keccak256 next

/-- On a transcript that answers from all it has taken in. -/
def Party.play {F : Type} (tr : Transcript F) : Party F α → α × Transcript F
  | .done result => (result, tr)
  | .absorbBytes lbl data rest => rest.play (tr.absorbBytes lbl data)
  | .absorbField lbl f rest => rest.play (tr.absorbField lbl f)
  | .challenge lbl rest => (rest (tr.challenge lbl).1).play (tr.challenge lbl).2

/-- **REFINEMENT**: on one hash of state a party does what it does on the transcript that keeps everything. -/
theorem exec_refines (party : Party (ZMod p) α) (log : List (Entry (ZMod p))) :
    ∃ entries, party.play (rolling keccak256 domain log)
        = ((party.exec keccak256 (run keccak256 domain log)).1, rolling keccak256 domain (entries ++ log))
      ∧ (party.exec keccak256 (run keccak256 domain log)).2 = run keccak256 domain (entries ++ log) := by
  -- on the party; each step puts its entry on the log, and the hash of that log is the next state
  induction party generalizing log with
  | done result => exact ⟨[], rfl, rfl⟩
  | absorbBytes lbl data rest ih =>
    obtain ⟨entries, hplay, hstate⟩ := ih (.bytes lbl data :: log)
    refine ⟨entries ++ [.bytes lbl data], ?_⟩
    rw [List.append_assoc]
    exact ⟨hplay, hstate⟩
  | absorbField lbl f rest ih =>
    obtain ⟨entries, hplay, hstate⟩ := ih (.field lbl f :: log)
    refine ⟨entries ++ [.field lbl f], ?_⟩
    rw [List.append_assoc]
    exact ⟨hplay, hstate⟩
  | challenge lbl rest ih =>
    obtain ⟨entries, hplay, hstate⟩ := ih _ (.challenge lbl :: log)
    refine ⟨entries ++ [.challenge lbl], ?_⟩
    rw [List.append_assoc]
    exact ⟨hplay, hstate⟩

/-! ## Steps that spell the same -/

def absorbSplit (lbl data : String) : List (Entry (ZMod 5)) := [.bytes (label lbl) (label data)]

/-- No hash tells a label from its data, or a challenge from what it spells. -/
theorem steps_confused : absorbSplit "ab" "c" ≠ absorbSplit "a" "bc" ∧ ¬ ∃ keccak256 : List UInt8 → List UInt8,
    run keccak256 (label "t") (absorbSplit "ab" "c") ≠ run keccak256 (label "t") (absorbSplit "a" "bc")
      ∨ run (p := 5) keccak256 (label "t") [.challenge (label "x")]
        ≠ run keccak256 (label "t") (absorbSplit "x" "challenge") := by
  refine ⟨by decide +kernel, ?_⟩
  rintro ⟨keccak256, hsplit | hkind⟩
  · have hmoved : label "ab" ++ label "c" = label "a" ++ label "bc" := by decide +kernel
    exact hsplit (congrArg (fun bytes => keccak256 (new keccak256 (label "t") ++ bytes)) hmoved)
  · exact hkind rfl

/-- Keccak-256 on the calls of two transcripts of domain `t` that draw one challenge. -/
def keccakSample (bytes : List UInt8) : List UInt8 :=
  List.ofFn fun i : Fin 32 => byteAt
    (if bytes.drop 32 = label "achallenge" then 0xd05df3a683f1d1041006ed9efcb24e49a1a3777fefd4a2b33455cc81e0f178e3
    else if bytes.drop 32 = label "bchallenge" then 0x1d11fc1b47f8fe7decc9aca06a9a1756bf337d1ca7903e9ee6c789ba20a07c01
    else 0x122a1579778b7ee85c8ead1316e95feeceb2d1091764f609edd6380bff9d78b0) i

def drawA : List (Entry (ZMod 5)) := [.challenge (label "a")]

def drawB : List (Entry (ZMod 5)) := [.challenge (label "b")]

theorem binds_sample : run keccakSample (label "t") drawA ≠ run keccakSample (label "t") drawB := by
  have hfree : CollisionFree keccakSample (queries keccakSample (label "t") drawA)
      (queries keccakSample (label "t") drawB) := by
    refine ⟨fun _ => List.length_ofFn, ?_⟩
    decide +kernel
  intro hstate
  have hspelled : ¬ Collide keccakSample (label "t") (label "t") drawA drawB := by
    intro hcollide
    exact absurd hcollide.1 (by decide +kernel)
  have hsame := (binds_iff hfree).mpr (fun hcollide => absurd hcollide hspelled) hstate
  exact absurd hsame.2 (by decide +kernel)

theorem short_domain_binds_sample : run keccakSample (label "t") drawA = run keccakSample (label "t") drawB
    ↔ label "t" = label "t" ∧ drawA.map spelled = drawB.map spelled := by
  have hfree : CollisionFree keccakSample (queries keccakSample (label "t") drawA)
      (queries keccakSample (label "t") drawB) := by
    refine ⟨fun _ => List.length_ofFn, ?_⟩
    decide +kernel
  exact short_domain_binds hfree (by decide +kernel) (by decide +kernel)

end RollingTranscript
