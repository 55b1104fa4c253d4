import Chit402.RollingTranscriptProofs

/-! # Spot checks of a window of blocks

    `select_blocks` draws indices from a transcript of the two commitments
    until it holds enough different ones.  Prover and verifier each derive
    the window from the commitments alone and then walk it with one
    transcript, so that a block stands in the proof because it was drawn. -/

namespace SpotCheck

open FiatShamir LittleEndian RollingTranscript

variable {p : ℕ} {keccak256 : List UInt8 → List UInt8} {modelCommitment binding : List UInt8} {nLayers k : ℕ}
  {chosen : List ℕ}

/-! ## The selection -/

/-- The low 16 bytes, little-endian, reduced. -/
def fieldToIndex (c : ZMod p) (n : ℕ) : ℕ := value ((toBytesLe c).take 16) % n

/-- The loop, with the draws the guard still allows; `none` where the guard's assertion fails. -/
def selectLoop (nLayers k : ℕ) : ℕ → List ℕ → Transcript (ZMod p) → Option (List ℕ)
  | left, chosen, tr =>
    if chosen.length < k then
      match left with
      | 0 => none
      | left + 1 =>
        let drawn := tr.challenge (label "block")
        let idx := fieldToIndex drawn.1 nLayers
        selectLoop nLayers k left (if idx ∈ chosen then chosen else chosen ++ [idx]) drawn.2
    else some chosen

/-- `none` where an assertion fails. -/
def selectBlocks (p : ℕ) (keccak256 : List UInt8 → List UInt8) (modelCommitment binding : List UInt8)
    (nLayers k : ℕ) : Option (List ℕ) :=
  if nLayers = 0 then none
  else
    let tr : Transcript (ZMod p) := ((rolling keccak256 (label "spotcheck-select") []).absorbBytes (label "model")
      modelCommitment).absorbBytes (label "binding") binding
    (selectLoop nLayers (min k nLayers) 99999 [] tr).map fun chosen => chosen.mergeSort (· ≤ ·)

/-! ## Prover and verifier -/

/-- A proof, its blocks of any kind `B`. -/
structure SpotCheckProof (p : ℕ) (B : Type) where
  selected : List ℕ
  blocks : List B
  outs : List (List (ZMod p))

variable {B σ : Type}

/-- The layer as the transcript takes it in. -/
def layerBytes (layer : ℕ) : List UInt8 := List.ofFn fun i : Fin 8 => byteAt layer i

/-- The world a closure runs in: the transcript it is lent and what it has captured. -/
abbrev World (p : ℕ) (σ : Type) := Transcript (ZMod p) × σ

def absorb (lbl data : List UInt8) (w : World p σ) : World p σ := (w.1.absorbBytes lbl data, w.2)

/-- Both absorb the commitments first. -/
def start (modelCommitment binding : List UInt8) (w : World p σ) : World p σ :=
  absorb (label "spotcheck-binding") binding (absorb (label "spotcheck-model") modelCommitment w)

def proveBlocks (proveOne : ℕ → World p σ → (B × List (ZMod p)) × World p σ) :
    List ℕ → World p σ → (List B × List (List (ZMod p))) × World p σ
  | [], w => (([], []), w)
  | layer :: rest, w =>
    let one := proveOne layer (absorb (label "layer-idx") (layerBytes layer) w)
    let more := proveBlocks proveOne rest one.2
    ((one.1.1 :: more.1.1, one.1.2 :: more.1.2), more.2)

def proveBlockWindow (keccak256 : List UInt8 → List UInt8) (modelCommitment binding : List UInt8) (nLayers k : ℕ)
    (proveOne : ℕ → World p σ → (B × List (ZMod p)) × World p σ) (w : World p σ) :
    Option (SpotCheckProof p B × World p σ) :=
  (selectBlocks p keccak256 modelCommitment binding nLayers k).map fun selected =>
    let proved := proveBlocks proveOne selected (start modelCommitment binding w)
    (⟨selected, proved.1.1, proved.1.2⟩, proved.2)

/-- The walk over the window; the lists have one length. -/
def verifyBlocks (verifyOne : ℕ → B → List (ZMod p) → World p σ → Bool × World p σ) :
    List ℕ → List B → List (List (ZMod p)) → World p σ → Bool × World p σ
  | layer :: rest, block :: blocks, out :: outs, w =>
    let one := verifyOne layer block out (absorb (label "layer-idx") (layerBytes layer) w)
    if one.1 = true then verifyBlocks verifyOne rest blocks outs one.2 else (false, one.2)
  | _, _, _, w => (true, w)

def verifyBlockWindow (keccak256 : List UInt8 → List UInt8) (modelCommitment binding : List UInt8) (nLayers k : ℕ)
    (proof : SpotCheckProof p B) (verifyOne : ℕ → B → List (ZMod p) → World p σ → Bool × World p σ)
    (w : World p σ) : Option (Bool × World p σ) :=
  (selectBlocks p keccak256 modelCommitment binding nLayers k).map fun selected =>
    if selected ≠ proof.selected ∨ proof.blocks.length ≠ selected.length ∨ proof.outs.length ≠ selected.length then
      (false, start modelCommitment binding w)
    else verifyBlocks verifyOne selected proof.blocks proof.outs (start modelCommitment binding w)

/-! ## What is selected -/

/-- What the loop keeps: different indices, all of them layers, no more than wanted. -/
structure Window (nLayers k : ℕ) (chosen : List ℕ) : Prop where
  nodup : chosen.Nodup
  below : ∀ i ∈ chosen, i < nLayers
  atMost : chosen.length ≤ k

theorem Window.push (h : Window nLayers k chosen) (hn : 0 < nLayers) (hmore : chosen.length < k) (c : ZMod p) :
    Window nLayers k (if fieldToIndex c nLayers ∈ chosen then chosen else chosen ++ [fieldToIndex c nLayers]) := by
  split
  · exact h
  · rename_i hnew
    refine ⟨?_, ?_, ?_⟩
    · exact h.nodup.append (List.nodup_singleton _) (by rwa [List.disjoint_singleton])
    · intro i hi
      rcases List.mem_append.mp hi with hold | hlast
      · exact h.below i hold
      · rw [List.mem_singleton.mp hlast]
        exact Nat.mod_lt _ hn
    · rw [List.length_append, List.length_singleton]
      exact hmore

theorem selectLoop_window (hn : 0 < nLayers) {left : ℕ} {before : List ℕ} {tr : Transcript (ZMod p)}
    (hbefore : Window nLayers k before) (h : selectLoop nLayers k left before tr = some chosen) :
    Window nLayers k chosen ∧ k ≤ chosen.length := by
  induction left generalizing before tr with
  | zero =>
    rw [selectLoop] at h
    split at h
    · cases h
    · rename_i hdone
      cases h
      exact ⟨hbefore, Nat.not_lt.mp hdone⟩
  | succ left ih =>
    rw [selectLoop] at h
    split at h
    · rename_i hmore
      exact ih (hbefore.push hn hmore _) h
    · rename_i hdone
      cases h
      exact ⟨hbefore, Nat.not_lt.mp hdone⟩

theorem selectBlocks_window (h : selectBlocks p keccak256 modelCommitment binding nLayers k = some chosen) :
    chosen.Pairwise (· < ·) ∧ chosen.length = min k nLayers ∧ ∀ i ∈ chosen, i < nLayers := by
  rw [selectBlocks] at h
  split at h
  · cases h
  · rename_i hn
    obtain ⟨drawn, hloop, rfl⟩ := Option.map_eq_some_iff.mp h
    have hempty : Window nLayers (min k nLayers) [] :=
      ⟨List.nodup_nil, fun _ hi => (nomatch hi), Nat.zero_le _⟩
    obtain ⟨hwindow, henough⟩ := selectLoop_window (Nat.pos_of_ne_zero hn) hempty hloop
    refine ⟨?_, ?_, ?_⟩
    · have hsorted : (drawn.mergeSort (· ≤ ·)).Pairwise (· ≤ ·) := List.sortedLE_mergeSort.pairwise
      have hdifferent : (drawn.mergeSort (· ≤ ·)).Nodup := (List.mergeSort_perm _ _).nodup_iff.mpr hwindow.nodup
      exact (hsorted.and hdifferent).imp fun hpair => lt_of_le_of_ne hpair.1 hpair.2
    · rw [List.length_mergeSort]
      exact Nat.le_antisymm hwindow.atMost henough
    · intro i hi
      exact hwindow.below i (List.mem_mergeSort.mp hi)

/-! ## What is accepted -/

/-- `verify_one` accepts the blocks one after the other, from one world to another. -/
def Accepts (verifyOne : ℕ → B → List (ZMod p) → World p σ → Bool × World p σ) :
    List ℕ → List B → List (List (ZMod p)) → World p σ → World p σ → Prop
  | layer :: rest, block :: blocks, out :: outs, w, w' =>
    ∃ w1, verifyOne layer block out (absorb (label "layer-idx") (layerBytes layer) w) = (true, w1)
      ∧ Accepts verifyOne rest blocks outs w1 w'
  | _, _, _, w, w' => w' = w

variable {verifyOne : ℕ → B → List (ZMod p) → World p σ → Bool × World p σ} {w w' : World p σ}

theorem verifyBlocks_accepts {layers : List ℕ} {blocks : List B} {outs : List (List (ZMod p))}
    (h : verifyBlocks verifyOne layers blocks outs w = (true, w')) : Accepts verifyOne layers blocks outs w w' := by
  fun_induction verifyBlocks verifyOne layers blocks outs w with
  | case1 layer rest block blocks out outs w one hone ih => exact ⟨one.2, Prod.ext hone rfl, ih h⟩
  | case2 layer rest block blocks out outs w one hone => cases h
  | case3 layers blocks outs w hshort =>
    rw [Accepts]
    · exact (Prod.mk.inj h).2.symm
    · exact hshort

theorem verifyBlockWindow_accepts {proof : SpotCheckProof p B}
    (h : verifyBlockWindow keccak256 modelCommitment binding nLayers k proof verifyOne w = some (true, w')) :
    selectBlocks p keccak256 modelCommitment binding nLayers k = some proof.selected
      ∧ proof.blocks.length = proof.selected.length ∧ proof.outs.length = proof.selected.length
      ∧ Accepts verifyOne proof.selected proof.blocks proof.outs (start modelCommitment binding w) w' := by
  obtain ⟨selected, hselected, hwalk⟩ := Option.map_eq_some_iff.mp h
  split at hwalk
  · cases hwalk
  · rename_i hshape
    rw [not_or, not_or, not_not, not_not, not_not] at hshape
    obtain ⟨rfl, hblocks, houts⟩ := hshape
    exact ⟨hselected, hblocks, houts, verifyBlocks_accepts hwalk⟩

/-! ## What is proved is accepted -/

/-- From equal transcripts, whatever each has captured, the block proved is accepted and the transcripts stay equal. -/
def Agree (proveOne : ℕ → World p σ → (B × List (ZMod p)) × World p σ)
    (verifyOne : ℕ → B → List (ZMod p) → World p σ → Bool × World p σ) : Prop :=
  ∀ layer tr s s', (verifyOne layer (proveOne layer (tr, s)).1.1 (proveOne layer (tr, s)).1.2 (tr, s')).1 = true
    ∧ (verifyOne layer (proveOne layer (tr, s)).1.1 (proveOne layer (tr, s)).1.2 (tr, s')).2.1
      = (proveOne layer (tr, s)).2.1

theorem verifyBlocks_proved {proveOne : ℕ → World p σ → (B × List (ZMod p)) × World p σ}
    (hagree : Agree proveOne verifyOne) (layers : List ℕ) (tr : Transcript (ZMod p)) (s s' : σ) :
    (proveBlocks proveOne layers (tr, s)).1.1.length = layers.length
      ∧ (proveBlocks proveOne layers (tr, s)).1.2.length = layers.length
      ∧ ∃ s1, verifyBlocks verifyOne layers (proveBlocks proveOne layers (tr, s)).1.1
          (proveBlocks proveOne layers (tr, s)).1.2 (tr, s')
        = (true, (proveBlocks proveOne layers (tr, s)).2.1, s1) := by
  induction layers generalizing tr s s' with
  | nil => exact ⟨rfl, rfl, s', rfl⟩
  | cons layer rest ih =>
    obtain ⟨haccepted, hsame⟩ := hagree layer (tr.absorbBytes (label "layer-idx") (layerBytes layer)) s s'
    obtain ⟨hblocks, houts, s1, hrest⟩ :=
      ih _ (proveOne layer (absorb (label "layer-idx") (layerBytes layer) (tr, s))).2.2
      (verifyOne layer _ _ (tr.absorbBytes (label "layer-idx") (layerBytes layer), s')).2.2
    refine ⟨congrArg (· + 1) hblocks, congrArg (· + 1) houts, s1, ?_⟩
    rw [proveBlocks, verifyBlocks]
    refine (if_pos haccepted).trans ?_
    rw [← hrest]
    exact congrArg (verifyBlocks verifyOne rest _ _) (Prod.ext hsame rfl)

/-- **No cherry-picking**: the window is a set of the right size fixed by the commitments, only a proof of exactly that
    window is accepted, and an honest one always is. -/
theorem block_window (p : ℕ) (keccak256 : List UInt8 → List UInt8) (modelCommitment binding : List UInt8)
    (nLayers k : ℕ) : (∀ chosen, selectBlocks p keccak256 modelCommitment binding nLayers k = some chosen →
      chosen.Pairwise (· < ·) ∧ chosen.length = min k nLayers ∧ ∀ i ∈ chosen, i < nLayers)
    ∧ (∀ (B σ : Type) (proof : SpotCheckProof p B) verifyOne (w w' : World p σ),
      verifyBlockWindow keccak256 modelCommitment binding nLayers k proof verifyOne w = some (true, w') →
      selectBlocks p keccak256 modelCommitment binding nLayers k = some proof.selected
        ∧ proof.blocks.length = proof.selected.length ∧ proof.outs.length = proof.selected.length
        ∧ Accepts verifyOne proof.selected proof.blocks proof.outs (start modelCommitment binding w) w')
    ∧ ∀ (B σ : Type) (proveOne : ℕ → World p σ → (B × List (ZMod p)) × World p σ) verifyOne tr (s s' : σ),
      Agree proveOne verifyOne → selectBlocks p keccak256 modelCommitment binding nLayers k ≠ none →
      ∃ proof tr' s1 s1', proveBlockWindow keccak256 modelCommitment binding nLayers k proveOne (tr, s)
          = some (proof, tr', s1)
        ∧ verifyBlockWindow keccak256 modelCommitment binding nLayers k proof verifyOne (tr, s')
          = some (true, tr', s1') := by
  refine ⟨fun chosen => selectBlocks_window, fun B σ proof verifyOne w w' => verifyBlockWindow_accepts, ?_⟩
  intro B σ proveOne verifyOne tr s s' hagree hselects
  obtain ⟨selected, hselected⟩ := Option.ne_none_iff_exists'.mp hselects
  obtain ⟨hblocks, houts, s1, hwalk⟩ := verifyBlocks_proved hagree selected
    (start modelCommitment binding (tr, s)).1 s s'
  refine ⟨_, _, _, s1, by rw [proveBlockWindow, hselected]; rfl, ?_⟩
  rw [verifyBlockWindow, hselected, Option.map_some, if_neg]
  · exact congrArg some hwalk
  · rintro (hne | hne | hne)
    · exact hne rfl
    · exact hne hblocks
    · exact hne houts

/-! ## Three layers of four -/

/-- An index is the low half of a challenge. -/
theorem fieldToIndex_eq (c : ZMod p) (n : ℕ) : fieldToIndex c n = c.val % 256 ^ 16 % n := by
  have hlength : ((toBytesLe c).take 16).length = 16 := by rw [List.length_take, toBytesLe, List.length_ofFn]; rfl
  have hparts := value_append ((toBytesLe c).take 16) ((toBytesLe c).drop 16)
  rw [List.take_append_drop, hlength, toBytesLe, value_ofFn_byteAt, ← toBytesLe] at hparts
  have hlow := value_lt ((toBytesLe c).take 16)
  rw [hlength] at hlow
  rw [fieldToIndex, ← Nat.mod_mod_of_dvd c.val (pow_dvd_pow 256 (show 16 ≤ 32 by decide)), hparts,
    Nat.add_mul_mod_self_left, Nat.mod_eq_of_lt hlow]

/-- A draw of the loop reads the hash of the steps before it. -/
theorem selectLoop_draw {domain : List UInt8} {log : List (Entry (ZMod p))} {left i : ℕ} (hmore : chosen.length < k)
    (hidx : value (run keccak256 domain (.challenge (label "block") :: log)) % p % 256 ^ 16 % nLayers = i) :
    selectLoop nLayers k (left + 1) chosen (rolling keccak256 domain log)
      = selectLoop nLayers k left (if i ∈ chosen then chosen else chosen ++ [i])
          (rolling keccak256 domain (.challenge (label "block") :: log)) := by
  have hdrawn : fieldToIndex (value (run keccak256 domain (.challenge (label "block") :: log)) : ZMod p)
    nLayers = i := by
    rw [fieldToIndex_eq, ZMod.val_natCast, hidx]
  rw [selectLoop, if_pos hmore, ← hdrawn]
  rfl

/-- The order of the scalar field. -/
def sampleField : ℕ := 21888242871839275222246405745257275088548364400416034343698204186575808495617

def sampleModel : List UInt8 := List.replicate 32 0x01

def sampleBinding : List UInt8 := List.replicate 32 0x22

/-- A state, from the number it spells. -/
def stateOf (n : ℕ) : List UInt8 := List.ofFn fun i : Fin 32 => byteAt n i

/-- Keccak-256 on the seven calls of the selection. -/
def sampleTable : List (List UInt8 × ℕ) :=
  let opened := 0x4583048d097fdf63cc503aac7cd08e80ae38395d9f43c521a8154df79dd1bfbe
  let model := 0xa49505ed4b2b3643b9e863cf15a336f5269552c38025002a2c6b93f7bf2fcfed
  let bound := 0x835dddd31e68f18c1fd1f982bf4155a9d03bd203929fed387f605c41759a9f52
  let first := 0xeb4101f540029d87159016dbb11f8b7ca12ca4370ca6c8a94b103a70f1a41323
  let second := 0xacc72d058ba0f0650a56b8b9cc85e540f2f44a061ba49bb9fe45f77865732079
  let third := 0xd777cff804954fc7f21027baca162df44f84cc5406c8300249961a0cb4e1cdeb
  let draw := label "block" ++ label "challenge"
  [(label "xfuel-zkllm-v1" ++ label "spotcheck-select", opened),
    (stateOf opened ++ (label "model" ++ sampleModel), model),
    (stateOf model ++ (label "binding" ++ sampleBinding), bound), (stateOf bound ++ draw, first),
    (stateOf first ++ draw, second), (stateOf second ++ draw, third),
    (stateOf third ++ draw, 0x99d5d4aa422238d0fcaf36573419cd998f80aa6313a36e635014ae8eda51d617)]

def sampleKeccak (bytes : List UInt8) : List UInt8 := stateOf ((sampleTable.lookup bytes).getD 0)

/-- The commitments taken in, and some draws after them. -/
def sampleLog (draws : ℕ) : List (Entry (ZMod sampleField)) := List.replicate draws (.challenge (label "block"))
  ++ [.bytes (label "binding") sampleBinding, .bytes (label "model") sampleModel]

/-- The index a draw of the sample gives. -/
def sampleDraw (draws : ℕ) : ℕ :=
  value (run sampleKeccak (label "spotcheck-select") (sampleLog draws)) % sampleField % 256 ^ 16 % 4

/-- Four draws; the third repeats the first and is passed over. -/
theorem sampleDraws : sampleDraw 1 = 3 ∧ sampleDraw 2 = 2 ∧ sampleDraw 3 = 3 ∧ sampleDraw 4 = 0 := by decide +kernel

theorem selectBlocks_sample : selectBlocks sampleField sampleKeccak sampleModel sampleBinding 4 3 = some [0, 2, 3] := by
  obtain ⟨h1, h2, h3, h4⟩ := sampleDraws
  rw [selectBlocks, if_neg (by decide)]
  have hloop : selectLoop 4 3 (99998 + 1) [] (rolling sampleKeccak (label "spotcheck-select") (sampleLog 0))
      = some [3, 2, 0] :=
    calc selectLoop 4 3 (99998 + 1) [] (rolling sampleKeccak (label "spotcheck-select") (sampleLog 0))
        = selectLoop 4 3 (99997 + 1) [3] (rolling sampleKeccak (label "spotcheck-select") (sampleLog 1)) :=
          selectLoop_draw (by decide) h1
      _ = selectLoop 4 3 (99996 + 1) [3, 2] (rolling sampleKeccak (label "spotcheck-select") (sampleLog 2)) :=
          selectLoop_draw (by decide) h2
      _ = selectLoop 4 3 (99995 + 1) [3, 2] (rolling sampleKeccak (label "spotcheck-select") (sampleLog 3)) :=
          selectLoop_draw (by decide) h3
      _ = selectLoop 4 3 99995 [3, 2, 0] (rolling sampleKeccak (label "spotcheck-select") (sampleLog 4)) :=
          selectLoop_draw (by decide) h4
      _ = some [3, 2, 0] := by rw [selectLoop, if_neg (by decide)]
  have hsort : ([3, 2, 0] : List ℕ).mergeSort (fun a b => decide (a ≤ b)) = [0, 2, 3] := by
    simp [List.mergeSort, List.MergeSort.Internal.splitInTwo]
  rw [← hsort]
  exact congrArg (Option.map fun chosen => chosen.mergeSort fun a b => decide (a ≤ b)) hloop

/-- A block answers a challenge drawn for its layer. -/
def proveLayer (layer : ℕ) (w : World sampleField Unit) :
    (ZMod sampleField × List (ZMod sampleField)) × World sampleField Unit :=
  let drawn := w.1.challenge (label "point")
  ((drawn.1 + layer, [(layer : ZMod sampleField)]), drawn.2, ())

def verifyLayer (layer : ℕ) (block : ZMod sampleField) (out : List (ZMod sampleField)) (w : World sampleField Unit) :
    Bool × World sampleField Unit :=
  let drawn := w.1.challenge (label "point")
  (decide (block = drawn.1 + layer ∧ out = [(layer : ZMod sampleField)]), drawn.2, ())

theorem layers_agree : Agree proveLayer verifyLayer := by
  intro layer tr s s'
  exact ⟨decide_eq_true ⟨rfl, rfl⟩, rfl⟩

theorem block_window_sample : [0, 2, 3].Pairwise (· < ·) ∧ [0, 2, 3].length = min 3 4 ∧ (∀ i ∈ [0, 2, 3], i < 4)
    ∧ ∃ proof w, proveBlockWindow sampleKeccak sampleModel sampleBinding 4 3 proveLayer
          (rolling sampleKeccak (label "window") [], ()) = some (proof, w)
      ∧ verifyBlockWindow sampleKeccak sampleModel sampleBinding 4 3 proof verifyLayer
          (rolling sampleKeccak (label "window") [], ()) = some (true, w)
      ∧ proof.selected = [0, 2, 3] ∧ proof.blocks.length = 3 ∧ proof.outs.length = 3
      ∧ Accepts verifyLayer [0, 2, 3] proof.blocks proof.outs
          (start sampleModel sampleBinding (rolling sampleKeccak (label "window") [], ())) w := by
  obtain ⟨hselected, haccepted, hproved⟩ := block_window sampleField sampleKeccak sampleModel sampleBinding 4 3
  obtain ⟨hsorted, hlength, hbelow⟩ := hselected _ selectBlocks_sample
  obtain ⟨proof, tr', s1, s1', hprove, hverify⟩ := hproved _ _ proveLayer verifyLayer
    (rolling sampleKeccak (label "window") []) () () layers_agree
      (by rw [selectBlocks_sample]; exact Option.some_ne_none _)
  obtain ⟨hwindow, hblocks, houts, haccepts⟩ := haccepted _ _ proof verifyLayer _ _ hverify
  have hsame : proof.selected = [0, 2, 3] := Option.some.inj (hwindow.symm.trans selectBlocks_sample)
  rw [hsame] at hblocks houts haccepts
  exact ⟨hsorted, hlength, hbelow, proof, _, hprove, hverify, hsame, hblocks, houts, haccepts⟩

end SpotCheck
