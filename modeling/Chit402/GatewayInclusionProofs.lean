import Chit402.GatewayConsistencyProofs
import Mathlib.Data.Nat.Bitwise

/-! # The gateway's inclusion prover

    `inclusionProof` climbs level by level: it pairs neighbours, promotes an
    odd tail, and pushes the sibling where there is one.  What it pushes is
    the audit path with the sides of its nodes, and the verifier accepts that
    proof and no other, up to the case of the digits and labels left out. -/

namespace GatewayInclusion

open AnchorAnswer AnchorLeaf GatewayConsistency HexDigest InclusionAgreement MerkleLevel MerkleWalk
open JsText (isHexDigit isLowerHexDigit truthy)

variable (js : Text) (sha256 : Bytes → Digest)

/-! ## The prover -/

/-- Reading a hash beside the level's first entry throws. -/
inductive HashRead where
  | undefined

/-- JavaScript's `idx ^ 1`: both operands go through a signed 32-bit word. -/
def siblingIndex (idx : ℕ) : ℤ := (BitVec.ofNat 32 idx ^^^ 1#32).toInt

/-- The step pushed on one level, if the index has a sibling there. -/
def levelStep (level : List Bytes) (idx : ℕ) : Except HashRead (Option InclusionStep) :=
  let sibling := siblingIndex idx
  if sibling < level.length then
    match if sibling < 0 then none else level[sibling.toNat]? with
    | none => .error .undefined
    | some hash => .ok (some ⟨hex hash, some (if sibling < idx then "left" else "right")⟩)
  else .ok none

def proofSteps (level : List Bytes) (idx : ℕ) : Except HashRead (List InclusionStep) :=
  if level.length ≤ 1 then .ok []
  else do
    let step ← levelStep level idx
    let rest ← proofSteps (pairUp (nodeHash sha256) level) (idx / 2)
    return step.toList ++ rest
termination_by level.length
decreasing_by
  rw [length_pairUp]
  omega

def inclusionProof (leaves : List Bytes) (index : ℤ) : Except HashRead (Option (List InclusionStep)) :=
  if index < 0 ∨ leaves.length ≤ index then .ok none
  else some <$> proofSteps sha256 leaves index.toNat

/-- Below 2^31 the 32-bit word is the index with its last bit flipped. -/
theorem siblingIndex_of_lt {idx : ℕ} (h : idx < 2 ^ 31) : siblingIndex idx = ↑(idx ^^^ 1) := by
  have hxor : idx ^^^ 1 < 2 ^ 31 := Nat.xor_lt_two_pow h (by decide)
  have hnat : (BitVec.ofNat 32 idx ^^^ 1#32).toNat = idx ^^^ 1 := by
    rw [BitVec.toNat_xor, BitVec.toNat_ofNat, Nat.mod_eq_of_lt (by omega)]
    rfl
  rw [siblingIndex, BitVec.toInt_eq_toNat_of_lt (by omega), hnat]

/-- From 2^31 on the word is negative. -/
theorem siblingIndex_neg {idx : ℕ} (hlow : 2 ^ 31 ≤ idx) (hhigh : idx < 2 ^ 32) : siblingIndex idx < 0 := by
  refine BitVec.toInt_neg_of_msb_true ?_
  have hmsb : (BitVec.ofNat 32 idx).msb = true := by
    rw [BitVec.msb_eq_true_iff_two_mul_ge, BitVec.toNat_ofNat, Nat.mod_eq_of_lt hhigh]
    omega
  rw [BitVec.msb_xor, hmsb]
  rfl

/-- **THE 32-BIT SIBLING**: at an index from 2^31 on the prover throws, whatever the leaves. -/
theorem inclusionProof_throws {leaves : List Bytes} {index : ℕ} (hlow : 2 ^ 31 ≤ index) (hhigh : index < 2 ^ 32)
    (hi : index < leaves.length) : inclusionProof sha256 leaves index = .error .undefined := by
  have hneg := siblingIndex_neg hlow hhigh
  have hstep : levelStep leaves index = .error .undefined := by
    rw [levelStep, if_pos (by omega), if_pos hneg]
  rw [inclusionProof, if_neg (by omega), Int.toNat_natCast, proofSteps, if_neg (by omega), hstep]
  rfl

/-! ## The audit path with its sides -/

/-- A node of the path as the prover writes it. -/
def honestStep (hash : Digest) (side : Side) : InclusionStep := ⟨hash.toHex, some (sideLabel side)⟩

variable {sha256}

theorem pairUp_bytes (level : List Digest) :
    pairUp (nodeHash sha256) (level.map Digest.bytes)
      = (pairUp (Cs2Merkle.hashPair sha256) level).map Digest.bytes := by
  fun_induction pairUp (Cs2Merkle.hashPair sha256) level with
  | case1 => rfl
  | case2 x => rfl
  | case3 x y rest ih =>
    rw [List.map_cons, List.map_cons, List.map_cons, pairUp, ih]
    rfl

theorem levelRoot_bytes (level : List Digest) :
    levelRoot (nodeHash sha256) (sha256 [0x00]).bytes (level.map Digest.bytes)
      = (levelRoot (Cs2Merkle.hashPair sha256) (sha256 [0x00]) level).bytes := by
  fun_induction levelRoot (Cs2Merkle.hashPair sha256) (sha256 [0x00]) level with
  | case1 level h =>
    rw [levelRoot, if_pos (by rw [List.length_map]; exact h)]
    cases level with
    | nil => rfl
    | cons x rest => rfl
  | case2 level h ih =>
    rw [levelRoot, if_neg (by rw [List.length_map]; exact h), pairUp_bytes, ih]

/-- With a 31-bit index the step is the sibling's, on its side. -/
theorem levelStep_bytes (level : List Digest) {idx : ℕ} (hidx : idx < 2 ^ 31) : levelStep (level.map Digest.bytes) idx
      = .ok ((sibling idx level).map fun hash => honestStep hash (if idx % 2 = 1 then .left else .right)) := by
  have hsibling : sibling idx level = level[idx ^^^ 1]? := by
    rw [sibling]
    split_ifs with hodd
    · rw [Nat.xor_one_of_odd (Nat.odd_iff.2 hodd)]
    · rw [Nat.xor_one_of_even (Nat.even_iff.2 (by omega))]
  have hside : (if ((idx ^^^ 1 : ℕ) : ℤ) < idx then "left" else "right")
      = sideLabel (if idx % 2 = 1 then .left else .right) := by
    split_ifs with hless hodd hodd
    · rfl
    · rw [Nat.xor_one_of_even (Nat.even_iff.2 (by omega))] at hless
      omega
    · rw [Nat.xor_one_of_odd (Nat.odd_iff.2 hodd)] at hless
      omega
    · rfl
  rw [levelStep, siblingIndex_of_lt hidx, hside, hsibling, List.length_map]
  by_cases hlevel : idx ^^^ 1 < level.length
  · rw [if_pos (by omega), if_neg (by omega), Int.toNat_natCast, List.getElem?_map, List.getElem?_eq_getElem hlevel]
    rfl
  · rw [if_neg (by omega), List.getElem?_eq_none (by omega)]
    rfl

/-- **PUSHED**: the audit path, each node with its side. -/
theorem proofSteps_path (sha256 : Bytes → Digest) (size : ℕ) (hmax : size ≤ 2 ^ 31) :
    ∀ {level : List Digest} {idx : ℕ}, level.length = size → idx < size →
    (path (Cs2Merkle.hashPair sha256) (sha256 [0x00]) idx level).length = (sides idx (size - 1)).length
      ∧ proofSteps sha256 (level.map Digest.bytes) idx
        = .ok (List.zipWith honestStep (path (Cs2Merkle.hashPair sha256) (sha256 [0x00]) idx level)
          (sides idx (size - 1))) := by
  induction size using Nat.strongRecOn with
  | ind size ih =>
    intro level idx hsize hidx
    subst hsize
    by_cases h1 : level.length ≤ 1
    · rw [path_short idx h1, show level.length - 1 = 0 by omega, sides_root, proofSteps, List.length_map, if_pos h1]
      exact ⟨rfl, rfl⟩
    · have hup : (pairUp (Cs2Merkle.hashPair sha256) level).length = (level.length + 1) / 2 := length_pairUp ..
      obtain ⟨hlen, hsteps⟩ := ih _ (by omega) (by omega) hup (show idx / 2 < (level.length + 1) / 2 by omega)
      rw [show (level.length + 1) / 2 - 1 = (level.length - 1) / 2 by omega] at hlen hsteps
      rw [proofSteps, List.length_map, if_neg h1, levelStep_bytes level (by omega), pairUp_bytes, hsteps,
        path_pairUp idx level hidx]
      by_cases hlast : idx % 2 = 0 ∧ idx = level.length - 1
      · -- the odd tail is promoted: no step, and no side
        have hnone : sibling idx level = none :=
          (level_promoted (Cs2Merkle.hashPair sha256) (List.getElem?_eq_getElem hidx) hlast.1 (by omega)).1
        have hsides : sides idx (level.length - 1) = sides (idx / 2) ((level.length - 1) / 2) := by
          rw [sides, if_neg (by omega), if_pos hlast]
        rw [hnone, hsides]
        exact ⟨hlen, rfl⟩
      · obtain ⟨hash, hsome⟩ := exists_sibling hidx hlast
        have hsides : sides idx (level.length - 1)
            = (if idx % 2 = 1 then .left else .right) :: sides (idx / 2) ((level.length - 1) / 2) := by
          rw [sides, if_neg (by omega), if_neg hlast]
        rw [hsome, hsides]
        refine ⟨?_, rfl⟩
        rw [Option.toList_some, List.singleton_append, List.length_cons, List.length_cons, hlen]

/-! ## Hex in any case -/

/-- The same digits, up to case. -/
def SameHex (a b : String) : Prop := a.toList.map Char.toLower = b.toList.map Char.toLower

theorem ascii_digits : ∀ n : Fin 128, (isHexDigit (Char.ofNat n) = true ↔ (Char.ofNat n).toLower ∈ hexAlphabet)
      ∧ (isHexDigit (Char.ofNat n) = true → digitValue (Char.ofNat n) = hexVal (Char.ofNat n).toLower) := by
  decide

variable {c : Char} {proof : List InclusionStep}

theorem ascii_of_digit (h : isHexDigit c = true ∨ c.toLower ∈ hexAlphabet) : c.toNat < 128 := by
  rcases h with h | h
  · simp only [isHexDigit, isLowerHexDigit, Char.isDigit, Bool.or_eq_true, Bool.and_eq_true, decide_eq_true_eq,
      Char.le_def, UInt32.le_iff_toNat_le] at h
    have hval : c.toNat = c.val.toNat := rfl
    rcases h with (⟨-, h⟩ | ⟨-, h⟩) | ⟨-, h⟩
    · exact lt_of_le_of_lt h (by decide)
    · exact lt_of_le_of_lt h (by decide)
    · exact lt_of_le_of_lt h (by decide)
  · unfold Char.toLower at h
    split at h
    · rename_i hupper
      exact lt_of_le_of_lt (UInt32.le_iff_toNat_le.1 hupper.2) (by decide)
    · have hall : ∀ d ∈ hexAlphabet, d.toNat < 128 := by decide
      exact hall c h

theorem isHexDigit_iff (c : Char) : isHexDigit c = true ↔ c.toLower ∈ hexAlphabet := by
  constructor
  · intro h
    have hc := (ascii_digits ⟨c.toNat, ascii_of_digit (.inl h)⟩).1
    rw [Char.ofNat_toNat] at hc
    exact hc.1 h
  · intro h
    have hc := (ascii_digits ⟨c.toNat, ascii_of_digit (.inr h)⟩).1
    rw [Char.ofNat_toNat] at hc
    exact hc.2 h

theorem digitValue_toLower (h : isHexDigit c = true) : digitValue c = hexVal c.toLower := by
  have hc := (ascii_digits ⟨c.toNat, ascii_of_digit (.inl h)⟩).2
  rw [Char.ofNat_toNat] at hc
  exact hc h

/-- Digits of any case read as their lowercase does. -/
theorem bufferFromHex_toLower {cs : List Char} (h : ∀ c ∈ cs, isHexDigit c = true) :
    bufferFromHex cs = fromHexChars (cs.map Char.toLower) := by
  fun_induction bufferFromHex cs with
  | case1 a b rest hab ih =>
    rw [List.map_cons, List.map_cons, fromHexChars, digitValue_toLower (h a (by simp)),
      digitValue_toLower (h b (by simp)),
      ih fun c hc => h c (by simp [hc])]
  | case2 a b rest hab =>
    exact absurd (by rw [h a (by simp), h b (by simp)]; rfl) hab
  | case3 cs hcs =>
    rcases cs with _ | ⟨a, _ | ⟨b, rest⟩⟩
    · rfl
    · rfl
    · exact absurd rfl (hcs a b rest)

theorem toLower_toHex (d : Digest) : d.toHex.toList.map Char.toLower = d.toHex.toList := by
  have hall : ∀ c ∈ hexAlphabet, c.toLower = c := by decide
  rw [List.map_congr_left fun c hc => hall c (d.isWireHash.2 c hc), List.map_id']

/-- **SPELLING**: a text is a digest's hex up to case when it is 64 digits that read as the digest. -/
theorem sameHex_toHex_iff {text : String} {d : Digest} :
    SameHex text d.toHex ↔ IsSiblingHex text ∧ bufferFromHex text.toList = d.bytes := by
  rw [SameHex, toLower_toHex, d.toHex_toList]
  constructor
  · intro h
    have hdigits : ∀ c ∈ text.toList, isHexDigit c = true := by
      intro c hc
      have hmem : c.toLower ∈ toHexChars d.bytes := by
        rw [← h]
        exact List.mem_map_of_mem hc
      exact (isHexDigit_iff c).2 (toHexChars_lower d.bytes _ hmem)
    have hlength : text.toList.length = 64 := by
      rw [← List.length_map (f := Char.toLower), h, length_toHexChars, d.size]
    refine ⟨⟨hlength, List.all_eq_true.2 hdigits⟩, ?_⟩
    rw [bufferFromHex_toLower hdigits, h, fromHexChars_toHexChars]
  · rintro ⟨⟨hlength, hdigits⟩, hbytes⟩
    have hdigits' := List.all_eq_true.1 hdigits
    have hlower : ∀ c ∈ text.toList.map Char.toLower, c ∈ hexAlphabet := by
      intro c hc
      obtain ⟨u, hu, rfl⟩ := List.mem_map.1 hc
      exact (isHexDigit_iff u).1 (hdigits' u hu)
    rw [← hbytes, bufferFromHex_toLower hdigits', toHexChars_fromHexChars hlower (by rw [List.length_map, hlength])]

/-! ## Steps and the path -/

/-- A step that spells an honest one: the same hash up to hex case, and its label if it has one. -/
def SameStep (step honest : InclusionStep) : Prop :=
  SameHex step.hash honest.hash ∧ ∀ label ∈ truthy step.position, honest.position = some label

/-- The steps that spell a path with its sides. -/
theorem sameSteps_iff : ∀ {hashes : List Digest} {sides : List Side}, hashes.length = sides.length →
      (List.Forall₂ SameStep proof (List.zipWith honestStep hashes sides)
        ↔ List.Forall₂ (fun step hash => SameHex step.hash hash.toHex) proof hashes ∧ Labels sides proof) := by
  induction proof with
  | nil =>
    intro hashes sides hlen
    rw [List.forall₂_nil_left_iff, List.forall₂_nil_left_iff]
    constructor
    · intro hnil
      have hzero := congrArg List.length hnil
      rw [List.length_zipWith, hlen, min_self, List.length_nil] at hzero
      rw [← hlen] at hzero
      exact ⟨List.length_eq_zero_iff.1 hzero, fun p hp => nomatch hp⟩
    · rintro ⟨rfl, -⟩
      rfl
  | cons step rest ih =>
    intro hashes sides hlen
    cases hashes with
    | nil =>
      rw [List.zipWith_nil_left, List.forall₂_nil_right_iff, List.forall₂_nil_right_iff]
      exact ⟨fun h => (nomatch h), fun h => (nomatch h.1)⟩
    | cons hash hashes =>
      cases sides with
      | nil => cases hlen
      | cons side sides =>
        have htail := ih (Nat.succ.inj hlen)
        have hlabel : Labels (side :: sides) (step :: rest)
            ↔ (∀ label ∈ truthy step.position, label = sideLabel side) ∧ Labels sides rest := by
          rw [Labels, List.zip_cons_cons, List.forall_mem_cons]
          rfl
        rw [List.zipWith_cons_cons, List.forall₂_cons, List.forall₂_cons, htail, hlabel, SameStep]
        have hposition : (∀ label ∈ truthy step.position, (honestStep hash side).position = some label)
            ↔ ∀ label ∈ truthy step.position, label = sideLabel side := by
          refine forall₂_congr fun label _ => ?_
          rw [honestStep, Option.some.injEq]
          exact eq_comm
        rw [hposition]
        exact and_and_and_comm

/-- Siblings of 64 digits are nodes. -/
theorem sameHexes_iff : ∀ {hashes : List Digest},
    List.Forall₂ (fun step hash => SameHex step.hash hash.toHex) proof hashes
      ↔ (∀ step ∈ proof, IsSiblingHex step.hash) ∧ proof.map node = hashes.map Digest.bytes := by
  induction proof with
  | nil =>
    intro hashes
    rw [List.forall₂_nil_left_iff, List.map_nil, eq_comm (a := []), List.map_eq_nil_iff]
    exact ⟨fun h => ⟨fun step hstep => (nomatch hstep), h⟩, fun h => h.2⟩
  | cons step rest ih =>
    intro hashes
    cases hashes with
    | nil =>
      rw [List.forall₂_nil_right_iff]
      exact ⟨fun h => (nomatch h), fun h => (nomatch h.2)⟩
    | cons hash hashes =>
      rw [List.forall₂_cons, ih, sameHex_toHex_iff, List.forall_mem_cons, List.map_cons, List.map_cons, List.cons.injEq]
      exact and_and_and_comm

/-! ## Exactness -/

theorem sibling_of_fold {leaf : Bytes} {index treeSize : ℚ} {top : Bytes}
    (h : fold sha256 leaf index treeSize proof = some (0, some top)) : ∀ step ∈ proof, IsSiblingHex step.hash := by
  obtain ⟨-, nodes, -, hnodes, -⟩ := proofLoop_joinStep proof h
  intro step hstep
  have hmem : siblingBytes step ∈ nodes.map some := by
    rw [← hnodes]
    exact List.mem_map_of_mem hstep
  obtain ⟨bytes, -, hbytes⟩ := List.mem_map.1 hmem
  unfold siblingBytes at hbytes
  split_ifs at hbytes with hdigits
  rw [Bool.and_eq_true, decide_eq_true_eq] at hdigits
  exact hdigits

/-- The gateway accepts the labelled walks of siblings spelled in hex. -/
theorem verifyInclusion_walks (sha256 : Bytes → Digest) (leaf root : Digest) {index size : ℤ}
    (proof : List InclusionStep)
    (hindex : IsSafe index) (hsize : IsSafe size) :
    verifyInclusion js sha256 leaf.bytes index size root.toHex proof = true
      ↔ (∀ step ∈ proof, IsSiblingHex step.hash) ∧ Walks sha256 leaf root index size proof
        ∧ NamesSides index size proof := by
  constructor
  · intro h
    obtain ⟨-, -, -, top, hfold, -⟩ := (verifyInclusion_iff ..).1 h
    have hproof := sibling_of_fold hfold
    rw [verifyInclusion_eq] at h
    exact ⟨hproof, (verifyMerkleInclusion_walks js sha256 hindex hsize hproof).1 h⟩
  · rintro ⟨hproof, h⟩
    rw [verifyInclusion_eq]
    exact (verifyMerkleInclusion_walks js sha256 hindex hsize hproof).2 h

theorem exists_nodes (h : ∀ step ∈ proof, IsSiblingHex step.hash) :
    ∃ nodes : List Digest, proof.map node = nodes.map Digest.bytes := by
  refine ⟨proof.attach.map fun step => ⟨node step.1, length_node (h step.1 step.2)⟩, ?_⟩
  rw [List.map_map]
  exact (List.attach_map_val (f := node)).symm

/-- **INCLUSION IS EXACT**: against the root over the leaves, the leaf at the
    index is accepted along the steps the prover pushes, and nothing else is. -/
theorem verifyInclusion_exact (js : Text) (sha256 : Bytes → Digest) (leaves : List Digest)
    (hmax : leaves.length ≤ 2 ^ 31) (hcf : CollisionFree (Cs2Merkle.hashPair sha256) leaves) {i : ℕ}
    (hi : i < leaves.length) (leaf : Digest) (proof : List InclusionStep) :
    verifyInclusion js sha256 leaf.bytes i leaves.length (hex (rootOf sha256 (leaves.map Digest.bytes))) proof = true
      ↔ leaf = leaves[i] ∧ ∃ honest, inclusionProof sha256 (leaves.map Digest.bytes) i = .ok (some honest)
        ∧ List.Forall₂ SameStep proof honest := by
  obtain ⟨hlen, hsteps⟩ := proofSteps_path sha256 leaves.length hmax rfl hi
  have hroot : hex (rootOf sha256 (leaves.map Digest.bytes))
      = (mth (Cs2Merkle.hashPair sha256) (sha256 [0x00]) leaves).toHex := by
    rw [rootOf, levelRoot_bytes, levelRoot_eq_mth]
    rfl
  have hhonest : inclusionProof sha256 (leaves.map Digest.bytes) i = .ok (some (List.zipWith honestStep
      (path (Cs2Merkle.hashPair sha256) (sha256 [0x00]) i leaves) (sides i (leaves.length - 1)))) := by
    rw [inclusionProof, if_neg (by rw [List.length_map]; omega), Int.toNat_natCast, hsteps]
    rfl
  have hindex : IsSafe i := by
    unfold IsSafe MAX_SAFE_INTEGER
    omega
  have hsize : IsSafe leaves.length := by
    unfold IsSafe MAX_SAFE_INTEGER
    omega
  have hwalks := verifyInclusion_walks js sha256 leaf (mth (Cs2Merkle.hashPair sha256) (sha256 [0x00]) leaves) proof
    hindex hsize
  rw [Int.cast_natCast, Int.cast_natCast] at hwalks
  rw [hroot, hwalks, hhonest, Walks, NamesSides, Int.toNat_natCast, Int.toNat_natCast]
  have hexact := climb_inclusion_iff (sha256 [0x00]) hcf (List.getElem?_eq_getElem hi) leaf
  constructor
  · rintro ⟨hproof, ⟨-, -, hclimb⟩, hlabels⟩
    obtain ⟨nodes, hnodes⟩ := exists_nodes hproof
    rw [hnodes] at hclimb
    obtain ⟨rfl, rfl⟩ := (hexact nodes).1 ((climb_bytes sha256 nodes (by omega) leaf _).1 hclimb)
    refine ⟨rfl, _, rfl, ?_⟩
    rw [sameSteps_iff hlen, sameHexes_iff]
    exact ⟨⟨hproof, hnodes⟩, hlabels⟩
  · rintro ⟨rfl, honest, ⟨⟩, hsame⟩
    rw [sameSteps_iff hlen, sameHexes_iff] at hsame
    obtain ⟨⟨hproof, hnodes⟩, hlabels⟩ := hsame
    refine ⟨hproof, ⟨by omega, by omega, ?_⟩, hlabels⟩
    rw [hnodes]
    exact (climb_bytes sha256 _ (by omega) _ _).2 ((hexact _).2 ⟨rfl, rfl⟩)

theorem pairLeaves_collisionFree : CollisionFree (Cs2Merkle.hashPair pairHash) pairLeaves := by
  refine CollisionFree.of_pair fun c d h => ?_
  have hroot : Cs2Merkle.hashPair pairHash zeroLeaf ⟨List.replicate 32 0xaa, rfl⟩ = pairRoot := by decide +kernel
  rw [hroot, Cs2Merkle.hashPair, pairHash] at h
  split at h
  · rename_i heq
    obtain ⟨hc, hd⟩ := List.append_inj (List.cons.inj heq).2 (c.size.trans zeroLeaf.size.symm)
    exact ⟨Digest.ext hc, Digest.ext hd⟩
  · exact absurd h (by decide)

/-- A sibling in upper case is the honest one. -/
theorem verifyInclusion_exact_upper : verifyInclusion asciiText pairHash zeroLeaf.bytes (0 : ℕ) pairLeaves.length
        (hex (rootOf pairHash (pairLeaves.map Digest.bytes))) [upperStep] = true
      ↔ zeroLeaf = pairLeaves[0] ∧ ∃ honest, inclusionProof pairHash (pairLeaves.map Digest.bytes)
        (0 : ℕ) = .ok (some honest)
        ∧ List.Forall₂ SameStep [upperStep] honest :=
  verifyInclusion_exact asciiText pairHash pairLeaves (by decide) pairLeaves_collisionFree (i := 0) (by decide) zeroLeaf
    [upperStep]

end GatewayInclusion
