import Chit402.AnchorLeafProofs
import Chit402.Cs2MerkleProofs
import Chit402.EscrowMerkleProofs

/-! # Four inclusion verifiers, one walk

    The verify package, the gateway, `cs2-core` and the escrow contract each
    check an RFC 9162 inclusion proof with a loop of their own.  Here all four
    are held against one walk over 32-byte nodes, `Walks`. -/

namespace InclusionAgreement

open AnchorAnswer AnchorLeaf ExceptFlow HexDigest MerkleWalk Solidity
open JsText (isHexDigit isLowerHexDigit truthy)

/-! ## The gateway -/

section Gateway

variable (js : Text) (sha256 : List UInt8 → Digest)

def sideLabel : Side → String
  | .left => "left"
  | .right => "right"

/-- One step: a malformed element or a label that names the other side ends the fold. -/
def joinLabelled (side : Side) (join : List UInt8 → List UInt8 → List UInt8) (step : InclusionStep)
    (hash : Option (List UInt8)) : Option (List UInt8) :=
  match siblingBytes step, hash with
  | some sib, some hash =>
    if (truthy step.position).any (· ≠ sideLabel side) then none else some (join sib hash)
  | _, _ => none

def verifyInclusion (leaf : List UInt8) (index treeSize : ℚ) (rootHex : String) (proof : List InclusionStep) : Bool :=
  if placed index treeSize then
    let root := js.toLowerCase (strip0x rootHex)
    if isHex64 root.toList then
      match proofLoop (joinLabelled .left (includeLeft (nodeHash sha256)))
        (joinLabelled .right (includeRight (nodeHash sha256)))
        index.num.toNat (treeSize.num.toNat - 1) (some leaf) proof with
      | some (0, some hash) => String.ofList (toHexChars hash) = root
      | _ => false
    else false
  else false

end Gateway

/-! ## Labels -/

/-- Every label that is there names the side of its sibling. -/
def Labels (sides : List Side) (proof : List InclusionStep) : Prop :=
  ∀ p ∈ proof.zip sides, ∀ label ∈ truthy p.1.position, label = sideLabel p.2

/-- Every non-empty label names the side that the index and the size choose. -/
def NamesSides (index size : ℤ) (proof : List InclusionStep) : Prop :=
  Labels (sides index.toNat (size.toNat - 1)) proof

def unlabelled (step : InclusionStep) : InclusionStep := { step with position := none }

theorem Labels.nil (proof : List InclusionStep) : Labels [] proof := by
  intro p hp
  rw [List.zip_nil_right] at hp
  cases hp

variable {leaf root : Digest} {step : InclusionStep} {cs : List Char} {proof : List InclusionStep}
  {join left right : List UInt8 → List UInt8 → List UInt8} {side : Side} {fn sn : ℕ} {treeSize : ℚ} {index size : ℤ}

theorem labels_cons {rest : List Side} : Labels (side :: rest) (step :: proof)
      ↔ ¬ (truthy step.position).any (· ≠ sideLabel side) = true ∧ Labels rest proof := by
  rw [any_ne_eq_false, Labels, List.zip_cons_cons, List.forall_mem_cons]
  rfl

theorem labels_unlabelled (sides : List Side) (proof : List InclusionStep) : Labels sides (proof.map unlabelled) := by
  intro p hp label hlabel
  obtain ⟨step, -, hstep⟩ := List.mem_map.mp (List.of_mem_zip hp).1
  rw [← hstep] at hlabel
  cases hlabel

/-- The second pass accepts a proof that is not too long and names the sides. -/
theorem labelsAgree_iff (proof : List InclusionStep) (fn sn : ℕ) :
    labelsAgree fn sn proof = true ↔ proof.length ≤ (sides fn sn).length ∧ Labels (sides fn sn) proof := by
  induction proof generalizing fn sn with
  | nil =>
    constructor
    · intro _
      exact ⟨Nat.zero_le _, fun p hp => nomatch hp⟩
    · intro _
      rfl
  | cons step rest ih =>
    rw [labelsAgree]
    by_cases h0 : sn = 0
    · rw [if_pos h0, h0, sides_root]
      simp
    · rw [if_neg h0]
      by_cases hside : fn % 2 = 1 ∨ fn = sn
      · have hleft : (decide (fn % 2 = 1) || decide (fn = sn)) = true := by simpa using hside
        simp only [hleft, if_true]
        rw [sides_left h0 hside, labels_cons, List.length_cons, List.length_cons, Nat.succ_le_succ_iff]
        show ite _ _ _ = true ↔ _ ∧ ¬ (truthy step.position).any (· ≠ "left") = true ∧ _
        split_ifs with hlabel
        · exact ⟨False.elim, fun h => absurd hlabel h.2.1⟩
        · rw [ih]
          exact ⟨fun h => ⟨h.1, hlabel, h.2⟩, fun h => ⟨h.1, h.2.2⟩⟩
      · have hright : (decide (fn % 2 = 1) || decide (fn = sn)) = false := by simpa using hside
        simp only [hright, Bool.false_eq_true, if_false]
        rw [sides_right h0 hside, labels_cons, List.length_cons, List.length_cons, Nat.succ_le_succ_iff]
        show ite _ _ _ = true ↔ _ ∧ ¬ (truthy step.position).any (· ≠ "right") = true ∧ _
        split_ifs with hlabel
        · exact ⟨False.elim, fun h => absurd hlabel h.2.1⟩
        · rw [ih]
          exact ⟨fun h => ⟨h.1, hlabel, h.2⟩, fun h => ⟨h.1, h.2.2⟩⟩

/-! ## The gateway's loop is the two passes -/

theorem joinLabelled_named (h : ¬ (truthy step.position).any (· ≠ sideLabel side) = true) (hash : Option (List UInt8)) :
    joinLabelled side join step hash = joinStep join step hash := by
  unfold joinLabelled joinStep
  cases siblingBytes step with
  | none => rfl
  | some sib =>
    cases hash with
    | none => rfl
    | some hash => exact if_neg h

theorem joinLabelled_misnamed (h : (truthy step.position).any (· ≠ sideLabel side) = true)
    (hash : Option (List UInt8)) : joinLabelled side join step hash = none := by
  unfold joinLabelled
  split
  · rw [if_pos h]
  · rfl

theorem proofLoop_ended (proof : List InclusionStep) (fn sn : ℕ) {k : ℕ} {top : List UInt8} :
    proofLoop (joinStep left) (joinStep right) fn sn none proof ≠ some (k, some top) := by
  intro h
  obtain ⟨leaf, path, hleaf, -⟩ := proofLoop_joinStep proof h
  cases hleaf

theorem proofLoop_joinLabelled (proof : List InclusionStep) (fn sn k : ℕ) (acc : Option (List UInt8))
    (top : List UInt8) :
    proofLoop (joinLabelled .left left) (joinLabelled .right right) fn sn acc proof = some (k, some top)
      ↔ Labels (sides fn sn) proof ∧ proofLoop (joinStep left) (joinStep right) fn sn acc proof
        = some (k, some top) := by
  induction proof generalizing fn sn acc with
  | nil =>
    constructor
    · intro h
      exact ⟨fun p hp => (nomatch hp), h⟩
    · intro h
      exact h.2
  | cons step rest ih =>
    rw [proofLoop, proofLoop]
    -- the side is the same on both, so only the label tells the joins apart
    split_ifs with h0 hside
    · simp
    · rw [ih, sides_left h0 hside, labels_cons]
      by_cases hlabel : (truthy step.position).any (· ≠ sideLabel .left) = true
      · rw [joinLabelled_misnamed hlabel]
        constructor
        · intro h
          exact absurd h.2 (proofLoop_ended rest _ _)
        · intro h
          exact absurd hlabel h.1.1
      · rw [joinLabelled_named hlabel, and_assoc]
        exact (and_iff_right hlabel).symm
    · rw [ih, sides_right h0 hside, labels_cons]
      by_cases hlabel : (truthy step.position).any (· ≠ sideLabel .right) = true
      · rw [joinLabelled_misnamed hlabel]
        constructor
        · intro h
          exact absurd h.2 (proofLoop_ended rest _ _)
        · intro h
          exact absurd hlabel h.1.1
      · rw [joinLabelled_named hlabel, and_assoc]
        exact (and_iff_right hlabel).symm

section Verifiers

variable (js : Text) (sha256 : List UInt8 → Digest)

/-- The fold of both packages, from the leaf on. -/
def fold (leaf : List UInt8) (index treeSize : ℚ) (proof : List InclusionStep) : Option (ℕ × Option (List UInt8)) :=
  proofLoop (joinStep (includeLeft (nodeHash sha256))) (joinStep (includeRight (nodeHash sha256)))
    index.num.toNat (treeSize.num.toNat - 1) (some leaf) proof

/-- What both packages accept: a placed index, a root of 64 digits, labels
    that name the sides, and a fold that ends at the root. -/
def Folds (leaf : List UInt8) (index treeSize : ℚ) (rootHex : String) (proof : List InclusionStep) : Prop :=
  placed index treeSize = true ∧ isHex64 (js.toLowerCase (strip0x rootHex)).toList = true
    ∧ Labels (sides index.num.toNat (treeSize.num.toNat - 1)) proof
    ∧ ∃ top, fold sha256 leaf index treeSize proof = some (0, some top)
      ∧ String.ofList (toHexChars top) = js.toLowerCase (strip0x rootHex)

theorem inclusionRoot_iff {leaf : List UInt8} {index : ℚ} {root : String} (hplaced : placed index treeSize = true) :
    inclusionRoot sha256 leaf index treeSize proof = some root
      ↔ ∃ top, fold sha256 leaf index treeSize proof = some (0, some top) ∧ String.ofList (toHexChars top) = root := by
  rw [inclusionRoot, if_pos hplaced]
  show (match fold sha256 leaf index treeSize proof with
    | some (0, some hash) => some (String.ofList (toHexChars hash))
    | _ => none) = some root ↔ _
  split
  · rename_i hash hfold
    rw [Option.some.injEq]
    constructor
    · intro h
      exact ⟨hash, hfold, h⟩
    · rintro ⟨top, htop, h⟩
      rw [hfold] at htop
      cases htop
      exact h
  · rename_i hnone
    constructor
    · intro h
      cases h
    · rintro ⟨top, hfold, -⟩
      exact absurd hfold (hnone top)

theorem verifyMerkleInclusion_iff (leaf : List UInt8) (index treeSize : ℚ) (rootHex : String)
    (proof : List InclusionStep) : verifyMerkleInclusion js sha256 leaf index treeSize rootHex proof = true
      ↔ Folds js sha256 leaf index treeSize rootHex proof := by
  simp only [verifyMerkleInclusion, positionAgrees, Bool.and_eq_true, decide_eq_true_eq]
  constructor
  · rintro ⟨⟨hroot, hplaced, hlabels⟩, htop⟩
    exact ⟨hplaced, hroot, ((labelsAgree_iff ..).1 hlabels).2, (inclusionRoot_iff sha256 hplaced).1 htop⟩
  · rintro ⟨hplaced, hroot, hlabels, top, hfold, htop⟩
    refine ⟨⟨hroot, hplaced, (labelsAgree_iff ..).2 ⟨?_, hlabels⟩⟩,
      (inclusionRoot_iff sha256 hplaced).2 ⟨top, hfold, htop⟩⟩
    have hsome : (fold sha256 leaf index treeSize proof).isSome = true := by rw [hfold]; rfl
    exact (proofLoop_isSome_iff ..).1 hsome

/-- The gateway: one loop. -/
theorem verifyInclusion_iff (leaf : List UInt8) (index treeSize : ℚ) (rootHex : String) (proof : List InclusionStep) :
    verifyInclusion js sha256 leaf index treeSize rootHex proof = true
      ↔ Folds js sha256 leaf index treeSize rootHex proof := by
  unfold verifyInclusion
  dsimp only
  split_ifs with hplaced hroot
  · split
    · rename_i hash hloop
      obtain ⟨hlabels, hfold⟩ := (proofLoop_joinLabelled ..).1 hloop
      rw [decide_eq_true_iff]
      constructor
      · intro h
        exact ⟨hplaced, hroot, hlabels, hash, hfold, h⟩
      · rintro ⟨-, -, -, top, htop, h⟩
        rw [fold, hfold] at htop
        cases htop
        exact h
    · rename_i hnone
      constructor
      · intro h
        cases h
      · rintro ⟨-, -, hlabels, top, htop, -⟩
        exact absurd ((proofLoop_joinLabelled ..).2 ⟨hlabels, htop⟩) (hnone top)
  · exact ⟨False.elim, fun h => absurd h.2.1 hroot⟩
  · exact ⟨False.elim, fun h => absurd h.1 hplaced⟩

/-- **LOCKSTEP**: the gateway and the verify package give one answer on every input. -/
theorem verifyInclusion_eq (leaf : List UInt8) (index treeSize : ℚ) (rootHex : String) (proof : List InclusionStep) :
    verifyInclusion js sha256 leaf index treeSize rootHex proof
      = verifyMerkleInclusion js sha256 leaf index treeSize rootHex proof := by
  rw [Bool.eq_iff_iff, verifyInclusion_iff, verifyMerkleInclusion_iff]

theorem fold_unlabelled (leaf : List UInt8) (index treeSize : ℚ) (proof : List InclusionStep) :
    fold sha256 leaf index treeSize (proof.map unlabelled) = fold sha256 leaf index treeSize proof := by
  have hmap : proofLoop (joinStep (includeLeft (nodeHash sha256))) (joinStep (includeRight (nodeHash sha256)))
      index.num.toNat (treeSize.num.toNat - 1) (id (some leaf)) (proof.map unlabelled)
        = (fold sha256 leaf index treeSize proof).map fun r => (r.1, id r.2) := by
    refine proofLoop_map (f := unlabelled) (g := id) ?_ ?_ _ _ _
    · intro step _ hash
      rfl
    · intro step _ hash
      rfl
  refine hmap.trans ?_
  exact Option.map_id'

/-- **LABELS**: a proof is accepted exactly when it is without its labels and
    they name the sides. -/
theorem verifyMerkleInclusion_labels (leaf : List UInt8) (index treeSize : ℚ) (rootHex : String)
    (proof : List InclusionStep) : verifyMerkleInclusion js sha256 leaf index treeSize rootHex proof = true
      ↔ verifyMerkleInclusion js sha256 leaf index treeSize rootHex (proof.map unlabelled) = true
        ∧ Labels (sides index.num.toNat (treeSize.num.toNat - 1)) proof := by
  rw [verifyMerkleInclusion_iff, verifyMerkleInclusion_iff, Folds, Folds, fold_unlabelled]
  constructor
  · rintro ⟨hplaced, hroot, hlabels, hfold⟩
    exact ⟨⟨hplaced, hroot, labels_unlabelled _ proof, hfold⟩, hlabels⟩
  · rintro ⟨⟨hplaced, hroot, -, hfold⟩, hlabels⟩
    exact ⟨hplaced, hroot, hlabels, hfold⟩

end Verifiers

/-! ## Hex siblings -/

/-- A sibling hash as the packages' own test has it: 64 hex digits in any case. -/
def IsSiblingHex (text : String) : Prop := text.toList.length = 64 ∧ text.toList.all isHexDigit = true

theorem length_bufferFromHex (h : cs.all isHexDigit = true) : (bufferFromHex cs).length = cs.length / 2 := by
  fun_induction bufferFromHex cs with
  | case1 a b rest hab ih =>
    rw [List.all_cons, List.all_cons, Bool.and_eq_true, Bool.and_eq_true] at h
    rw [List.length_cons, ih h.2.2, List.length_cons, List.length_cons]
    omega
  | case2 a b rest hab =>
    rw [List.all_cons, List.all_cons, Bool.and_eq_true, Bool.and_eq_true] at h
    exact absurd (by rw [h.1, h.2.1]; rfl) hab
  | case3 cs hcs =>
    match cs, hcs with
    | [], _ => rfl
    | [a], _ => simp
    | a :: b :: rest, hcs => exact absurd rfl (hcs a b rest)

theorem hexAlphabet_digits :
    ∀ c ∈ hexAlphabet, isLowerHexDigit c = true ∧ isHexDigit c = true ∧ digitValue c = hexVal c := by
  decide

theorem isHex64_toHex (d : Digest) : isHex64 d.toHex.toList = true := by
  obtain ⟨hlength, hdigits⟩ := d.isWireHash
  rw [isHex64, hlength, Bool.and_eq_true, List.all_eq_true]
  exact ⟨rfl, fun c hc => (hexAlphabet_digits c (hdigits c hc)).1⟩

theorem bufferFromHex_lower (h : ∀ c ∈ cs, c ∈ hexAlphabet) : bufferFromHex cs = fromHexChars cs := by
  fun_induction fromHexChars cs with
  | case1 a b rest ih =>
    obtain ⟨-, ha, hva⟩ := hexAlphabet_digits a (h a (by simp))
    obtain ⟨-, hb, hvb⟩ := hexAlphabet_digits b (h b (by simp))
    rw [bufferFromHex, if_pos (by rw [ha, hb]; rfl), hva, hvb, ih fun c hc => h c (by simp [hc])]
  | case2 cs hcs =>
    rcases cs with _ | ⟨a, _ | ⟨b, rest⟩⟩
    · rfl
    · rfl
    · exact absurd rfl (hcs a b rest)

theorem bufferFromHex_toHex (d : Digest) : bufferFromHex d.toHex.toList = d.bytes := by
  rw [bufferFromHex_lower d.isWireHash.2, d.toHex_toList, fromHexChars_toHexChars]

/-- The bytes of a sibling. -/
def node (step : InclusionStep) : List UInt8 := bufferFromHex step.hash.toList

theorem siblingBytes_node (h : IsSiblingHex step.hash) : siblingBytes step = some (node step) := by
  rw [siblingBytes, if_pos]
  · rfl
  · rw [h.2, decide_eq_true h.1]
    rfl

theorem length_node (h : IsSiblingHex step.hash) : (node step).length = 32 := by
  rw [node, length_bufferFromHex h.2, h.1]

theorem toHex_node {d : Digest} (h : step.hash = d.toHex) : node step = d.bytes := by
  rw [node, h, bufferFromHex_toHex]

/-! ## One walk -/

section Agreement

variable (js : Text) (sha256 : List UInt8 → Digest)

/-- **The walk**: the index lies in the tree, and the siblings lead from the
    leaf at the index to the root. -/
def Walks (leaf root : Digest) (index size : ℤ) (proof : List InclusionStep) : Prop :=
  0 ≤ index ∧ index < size
    ∧ climb (includeLeft (nodeHash sha256)) (includeRight (nodeHash sha256)) index.toNat (size.toNat - 1)
        leaf.bytes (proof.map node) = some root.bytes

/-- A safe integer, as the number a caller passes. -/
def IsSafe (z : ℤ) : Prop := z.natAbs ≤ MAX_SAFE_INTEGER

theorem placed_iff (hindex : IsSafe index) (hsize : IsSafe size) :
    placed index size = true ↔ 0 ≤ index ∧ index < size := by
  simp only [placed, isSafeInteger, Bool.and_eq_true, decide_eq_true_eq, Rat.den_intCast]
  constructor
  · rintro ⟨⟨-, h0⟩, hlt⟩
    exact ⟨by exact_mod_cast h0, by exact_mod_cast hlt⟩
  · rintro ⟨h0, hlt⟩
    exact ⟨⟨⟨⟨trivial, hindex⟩, trivial, hsize⟩, by exact_mod_cast h0⟩, by exact_mod_cast hlt⟩

theorem fold_siblings {leaf : List UInt8} {index : ℚ} (hproof : ∀ step ∈ proof, IsSiblingHex step.hash) :
    fold sha256 leaf index treeSize proof
      = (proofLoop (includeLeft (nodeHash sha256)) (includeRight (nodeHash sha256)) index.num.toNat
          (treeSize.num.toNat - 1) leaf (proof.map node)).map fun r => (r.1, some r.2) := by
  have hjoin : ∀ join : List UInt8 → List UInt8 → List UInt8, ∀ step ∈ proof, ∀ hash,
      joinStep join (id step) (some hash) = some (join (node step) hash) := by
    intro join step hstep hash
    simp only [id, joinStep, siblingBytes_node (hproof step hstep)]
  have hsteps := proofLoop_map (f := id) (g := some) (hjoin (includeLeft (nodeHash sha256)))
    (hjoin (includeRight (nodeHash sha256))) index.num.toNat (treeSize.num.toNat - 1) leaf
  have hnodes : proofLoop (includeLeft (nodeHash sha256)) (includeRight (nodeHash sha256)) index.num.toNat
      (treeSize.num.toNat - 1) (id leaf) (proof.map node)
        = (proofLoop (fun step hash => includeLeft (nodeHash sha256) (node step) hash)
          (fun step hash => includeRight (nodeHash sha256) (node step) hash) index.num.toNat
          (treeSize.num.toNat - 1) leaf proof).map fun r => (r.1, id r.2) := by
    refine proofLoop_map (f := node) (g := id) ?_ ?_ _ _ _
    · intro step _ hash
      rfl
    · intro step _ hash
      rfl
  rw [List.map_id] at hsteps
  rw [fold, hsteps, show leaf = id leaf from rfl, hnodes, Option.map_map]
  rfl

/-- The verify package accepts the walks, and wants the labels right. -/
theorem verifyMerkleInclusion_walks (hindex : IsSafe index) (hsize : IsSafe size)
    (hproof : ∀ step ∈ proof, IsSiblingHex step.hash) :
    verifyMerkleInclusion js sha256 leaf.bytes index size root.toHex proof = true
      ↔ Walks sha256 leaf root index size proof ∧ NamesSides index size proof := by
  have hroot : js.toLowerCase (strip0x root.toHex) = root.toHex := by
    rw [strip0x_hex (isHex64_toHex root), js.lower_hex _ (isHex64_toHex root)]
  have htop : ∀ top : List UInt8, String.ofList (toHexChars top) = root.toHex ↔ top = root.bytes := by
    intro top
    constructor
    · intro h
      rw [← fromHexChars_toHexChars top, ← fromHexChars_toHexChars root.bytes, String.ofList_injective h]
    · rintro rfl
      rfl
  rw [verifyMerkleInclusion_iff, Folds, placed_iff hindex hsize, hroot, fold_siblings sha256 hproof, Rat.num_intCast,
    Rat.num_intCast]
  constructor
  · rintro ⟨⟨h0, hlt⟩, -, hlabels, top, hfold, h⟩
    obtain ⟨⟨k, top'⟩, hloop, hr⟩ := Option.map_eq_some_iff.mp hfold
    cases hr
    rw [show top' = root.bytes from (htop top').1 h] at hloop
    exact ⟨⟨h0, hlt, (proofLoop_iff_climb _ (by omega) _ _).1 hloop⟩, hlabels⟩
  · rintro ⟨⟨h0, hlt, hclimb⟩, hlabels⟩
    refine ⟨⟨h0, hlt⟩, isHex64_toHex root, hlabels, root.bytes, ?_, rfl⟩
    rw [(proofLoop_iff_climb _ (by omega) _ _).2 hclimb]
    rfl

theorem wire_injective : Function.Injective Cs2Merkle.wire := by
  intro a b h
  exact Digest.toHex_injective (Cs2Merkle.JsVal.str.inj h)

/-- Wire siblings are lowercase, and stand for the same nodes. -/
theorem nodes_of_wire {nodes : List Digest}
    (h : (proof.map fun step => Cs2Merkle.JsVal.str step.hash) = nodes.map Cs2Merkle.wire) :
    proof.map node = nodes.map Digest.bytes ∧ ∀ step ∈ proof, IsWireHash step.hash := by
  induction proof generalizing nodes with
  | nil =>
    cases nodes with
    | nil => exact ⟨rfl, fun step hstep => nomatch hstep⟩
    | cons d rest => cases h
  | cons step proof ih =>
    cases nodes with
    | nil => cases h
    | cons d rest =>
      obtain ⟨hstep, hrest⟩ := List.cons.inj h
      have hhash : step.hash = d.toHex := Cs2Merkle.JsVal.str.inj hstep
      obtain ⟨hnodes, hlower⟩ := ih hrest
      refine ⟨?_, List.forall_mem_cons.2 ⟨?_, hlower⟩⟩
      · rw [List.map_cons, List.map_cons, hnodes, toHex_node hhash]
      · rw [hhash]
        exact d.isWireHash

theorem wire_of_lower (h : ∀ step ∈ proof, IsWireHash step.hash) :
    ∃ nodes : List Digest, (proof.map fun step => Cs2Merkle.JsVal.str step.hash) = nodes.map Cs2Merkle.wire := by
  induction proof with
  | nil => exact ⟨[], rfl⟩
  | cons step proof ih =>
    obtain ⟨hstep, hrest⟩ := List.forall_mem_cons.1 h
    obtain ⟨nodes, hnodes⟩ := ih hrest
    refine ⟨Digest.ofWire step.hash hstep.1 :: nodes, ?_⟩
    rw [List.map_cons, List.map_cons, hnodes, Cs2Merkle.wire, Digest.toHex_ofWire hstep]

theorem climb_bytes (nodes : List Digest) (hle : fn ≤ sn) (leaf root : Digest) :
    climb (includeLeft (nodeHash sha256)) (includeRight (nodeHash sha256)) fn sn leaf.bytes (nodes.map Digest.bytes)
        = some root.bytes
      ↔ climb (includeLeft (Cs2Merkle.hashPair sha256)) (includeRight (Cs2Merkle.hashPair sha256)) fn sn leaf nodes
        = some root :=
  climb_map (f := Digest.bytes) (g := Digest.bytes) (fun _ _ _ => rfl) (fun _ _ _ => rfl) hle
    (fun _ _ h => Digest.ext h) leaf root

theorem cs2_placed {leaf root proof : Cs2Merkle.JsVal}
    (h : Cs2Merkle.verifyInclusion sha256 leaf (.int index) (.int size) root proof = .ok ()) :
    0 ≤ index ∧ index < size := by
  rw [Cs2Merkle.verifyInclusion, bind_iff] at h
  obtain ⟨leafH, -, h⟩ := h
  obtain ⟨rootH, -, h⟩ := bind_iff.1 h
  obtain ⟨n, hn, h⟩ := bind_iff.1 h
  obtain ⟨i, hi, h⟩ := bind_iff.1 h
  rw [ite_error_ok_iff] at h
  obtain ⟨hn, -⟩ := (Cs2Merkle.checkSize_ok_iff _ n).1 hn
  obtain ⟨hi, -⟩ := (Cs2Merkle.checkIndex_ok_iff _ i).1 hi
  rw [Cs2Merkle.JsVal.int.inj hn, Cs2Merkle.JsVal.int.inj hi]
  omega

/-- `cs2-core` accepts the walks of lowercase siblings. -/
theorem cs2_walks (hsize : IsSafe size) :
    Cs2Merkle.verifyInclusion sha256 (Cs2Merkle.wire leaf) (.int index) (.int size) (Cs2Merkle.wire root)
        (.arr (proof.map fun step => .str step.hash)) = .ok ()
      ↔ Walks sha256 leaf root index size proof ∧ ∀ step ∈ proof, IsWireHash step.hash := by
  have hmax : Cs2Merkle.maxTreeSize = MAX_SAFE_INTEGER := rfl
  by_cases hplaced : 0 ≤ index ∧ index < size
  · obtain ⟨h0, hlt⟩ := hplaced
    obtain ⟨i, rfl⟩ := Int.eq_ofNat_of_zero_le h0
    obtain ⟨n, rfl⟩ := Int.eq_ofNat_of_zero_le (by omega : 0 ≤ size)
    have hn : n ≤ Cs2Merkle.maxTreeSize := hsize
    have hlt' : i < n := by omega
    rw [Cs2Merkle.verifyInclusion_ok_iff sha256 _ _ root hn hlt']
    constructor
    · rintro ⟨leafH, nodes, hleaf, hnodes, -, hclimb⟩
      obtain rfl := wire_injective hleaf
      obtain ⟨hbytes, hlower⟩ := nodes_of_wire hnodes
      refine ⟨⟨h0, hlt, ?_⟩, hlower⟩
      rw [hbytes, Int.toNat_natCast, Int.toNat_natCast]
      exact (climb_bytes sha256 nodes (by omega) leaf root).2 hclimb
    · rintro ⟨⟨-, -, hclimb⟩, hlower⟩
      obtain ⟨nodes, hnodes⟩ := wire_of_lower hlower
      rw [(nodes_of_wire hnodes).1, Int.toNat_natCast, Int.toNat_natCast] at hclimb
      have hwalk := (climb_bytes sha256 nodes (by omega) leaf root).1 hclimb
      have hshort : n - 1 < 2 ^ 53 := by
        unfold IsSafe MAX_SAFE_INTEGER at hsize
        omega
      have hlength := climb_length_le 53 leaf nodes hwalk hshort
      exact ⟨leaf, nodes, rfl, hnodes, Nat.le_trans hlength (by decide), hwalk⟩
  · constructor
    · intro h
      exact absurd (cs2_placed sha256 h) hplaced
    · rintro ⟨⟨h0, hlt, -⟩, -⟩
      exact absurd ⟨h0, hlt⟩ hplaced

/-- The contract's `sha256`, as a word. -/
def wordHash (bytes : List UInt8) : Word := bytesWord (sha256 bytes).bytes

theorem wordBytes_nodeHash (left right : Word) : nodeHash sha256 (wordBytes left) (wordBytes right)
      = wordBytes (EscrowMerkle.nodeHash (wordHash sha256) left right) :=
  (wordBytes_bytesWord (Digest.size _)).symm

theorem climb_words (words : List Word) (leaf root : Word) (hle : fn ≤ sn) :
    climb (includeLeft (nodeHash sha256)) (includeRight (nodeHash sha256)) fn sn (wordBytes leaf) (words.map wordBytes)
        = some (wordBytes root) ↔ climb (includeLeft (EscrowMerkle.nodeHash (wordHash sha256)))
          (includeRight (EscrowMerkle.nodeHash (wordHash sha256))) fn sn leaf words = some root := by
  refine climb_map (f := wordBytes) (g := wordBytes) ?_ ?_ hle wordBytes_injective leaf root
  · intro sib _ hash
    exact wordBytes_nodeHash sha256 sib hash
  · intro sib _ hash
    exact wordBytes_nodeHash sha256 hash sib

/-- The contract accepts the walks. -/
theorem escrow_walks (hindex : IsSafe index) (hsize : IsSafe size) (h0 : 0 ≤ index) (hs0 : 0 ≤ size)
    (hproof : ∀ step ∈ proof, IsSiblingHex step.hash) :
    EscrowMerkle.verifyInclusion (wordHash sha256) (bytesWord leaf.bytes) (UInt64.ofNat index.toNat)
        (UInt64.ofNat size.toNat) (bytesWord root.bytes) (proof.map fun step => bytesWord (node step)) = true
      ↔ Walks sha256 leaf root index size proof := by
  have hmax : MAX_SAFE_INTEGER = 2 ^ 53 - 1 := rfl
  unfold IsSafe at hindex hsize
  have hi : (UInt64.ofNat index.toNat).toNat = index.toNat := by
    rw [UInt64.toNat_ofNat', Nat.mod_eq_of_lt (by omega)]
  have hn : (UInt64.ofNat size.toNat).toNat = size.toNat := by
    rw [UInt64.toNat_ofNat', Nat.mod_eq_of_lt (by omega)]
  rw [EscrowMerkle.verifyInclusion_iff, UInt64.lt_iff_toNat_lt, hi, hn, Walks]
  have hnodes : (proof.map fun step => bytesWord (node step)).map wordBytes = proof.map node := by
    rw [List.map_map]
    exact List.map_congr_left fun step hstep => wordBytes_bytesWord (length_node (hproof step hstep))
  have hwalk := fun hle : index.toNat ≤ size.toNat - 1 =>
    climb_words sha256 (proof.map fun step => bytesWord (node step)) (bytesWord leaf.bytes) (bytesWord root.bytes) hle
  rw [hnodes, wordBytes_bytesWord leaf.size, wordBytes_bytesWord root.size] at hwalk
  constructor
  · rintro ⟨hlt, -, hclimb⟩
    exact ⟨h0, by omega, (hwalk (by omega)).2 hclimb⟩
  · rintro ⟨-, hlt, hclimb⟩
    have hlt' : index.toNat < size.toNat := by omega
    have hlength := climb_length_le 53 leaf.bytes _ hclimb (by omega)
    rw [List.length_map] at hlength ⊢
    exact ⟨hlt', Nat.le_trans hlength (by decide), (hwalk (by omega)).1 hclimb⟩

end Agreement

/-! ## The agreement -/

section Agreement

variable (js : Text) (sha256 : List UInt8 → Digest)

/-- **THE VERIFIERS AGREE**: on safe integers and hex siblings, take the verify
    package's answer without labels.  `cs2-core` gives it when the siblings are
    lowercase and refuses otherwise; the gateway gives it when the labels are
    right; the contract gives it wherever its arguments exist; and labels only
    ever add that each of them names its side. -/
theorem inclusion_agreement (leaf root : Digest) (index size : ℤ) (proof : List InclusionStep) (hindex : IsSafe index)
    (hsize : IsSafe size) (hproof : ∀ step ∈ proof, IsSiblingHex step.hash) :
    let accepted := verifyMerkleInclusion js sha256 leaf.bytes index size root.toHex (proof.map unlabelled)
    (Cs2Merkle.verifyInclusion sha256 (Cs2Merkle.wire leaf) (.int index) (.int size) (Cs2Merkle.wire root)
        (.arr (proof.map fun step => .str step.hash)) = .ok ()
      ↔ accepted = true ∧ ∀ step ∈ proof, IsWireHash step.hash)
    ∧ (NamesSides index size proof → verifyInclusion js sha256 leaf.bytes index size root.toHex proof = accepted)
    ∧ (0 ≤ index → 0 ≤ size →
      EscrowMerkle.verifyInclusion (wordHash sha256) (bytesWord leaf.bytes) (UInt64.ofNat index.toNat)
        (UInt64.ofNat size.toNat) (bytesWord root.bytes) (proof.map fun step => bytesWord (node step)) = accepted)
    ∧ (verifyMerkleInclusion js sha256 leaf.bytes index size root.toHex proof = true
      ↔ accepted = true ∧ NamesSides index size proof) := by
  intro accepted
  have hlabels := verifyMerkleInclusion_labels js sha256 leaf.bytes index size root.toHex proof
  rw [Rat.num_intCast, Rat.num_intCast] at hlabels
  have haccepted : accepted = true ↔ Walks sha256 leaf root index size proof := by
    have hunlabelled : ∀ step ∈ proof.map unlabelled, IsSiblingHex step.hash := by
      intro step hstep
      obtain ⟨labelled, hmem, rfl⟩ := List.mem_map.mp hstep
      exact hproof labelled hmem
    rw [verifyMerkleInclusion_walks js sha256 hindex hsize hunlabelled, Walks, List.map_map]
    exact and_iff_left (labels_unlabelled _ proof)
  refine ⟨?_, ?_, ?_, hlabels⟩
  · rw [haccepted]
    exact cs2_walks sha256 hsize
  · intro hnames
    rw [verifyInclusion_eq, Bool.eq_iff_iff]
    exact hlabels.trans (and_iff_left hnames)
  · intro h0 hs0
    rw [Bool.eq_iff_iff, haccepted]
    exact escrow_walks sha256 hindex hsize h0 hs0 hproof

end Agreement

/-! ## An upper-case sibling -/

def zeroLeaf : Digest := ⟨List.replicate 32 0, length_zeros⟩

def upperStep : InclusionStep where
  hash := "AAAAAAAAAAAAAAAAAAAAAAAAAAAAAAAAAAAAAAAAAAAAAAAAAAAAAAAAAAAAAAAA"
  position := some "right"

def lowerStep : InclusionStep := { upperStep with
    hash := "aaaaaaaaaaaaaaaaaaaaaaaaaaaaaaaaaaaaaaaaaaaaaaaaaaaaaaaaaaaaaaaa" }

def pairRoot : Digest where
  bytes := [0x92, 0x33, 0x9e, 0x39, 0xee, 0x6a, 0xe2, 0xed, 0xbd, 0x46, 0xc6, 0x0e, 0x27, 0xdb, 0xbf, 0x51,
    0xb7, 0xa8, 0xc1, 0x49, 0x96, 0x50, 0x0c, 0xf6, 0x7b, 0xdc, 0xed, 0xe7, 0x05, 0xb0, 0xba, 0x9b]
  size := rfl

/-- SHA-256 at the one string hashed here. -/
def pairHash (bytes : List UInt8) : Digest :=
  if bytes = 0x01 :: (zeroLeaf.bytes ++ List.replicate 32 0xaa) then pairRoot else zeroLeaf

/-- Three surfaces accept the proof, `cs2-core` refuses it. -/
theorem upper_sibling_refused : IsSiblingHex upperStep.hash
      ∧ verifyMerkleInclusion asciiText pairHash zeroLeaf.bytes 0 2 pairRoot.toHex [unlabelled upperStep] = true
      ∧ verifyInclusion asciiText pairHash zeroLeaf.bytes 0 2 pairRoot.toHex [upperStep] = true
      ∧ EscrowMerkle.verifyInclusion (wordHash pairHash) (bytesWord zeroLeaf.bytes) 0 2 (bytesWord pairRoot.bytes)
        [bytesWord (node upperStep)] = true
      ∧ Cs2Merkle.verifyInclusion pairHash (Cs2Merkle.wire zeroLeaf) (.int 0) (.int 2) (Cs2Merkle.wire pairRoot)
        (.arr [.str upperStep.hash]) = .error .badHex := by
  refine ⟨?_, ?_, ?_, ?_, ?_⟩
  · unfold IsSiblingHex; decide +kernel
  · decide +kernel
  · decide +kernel
  · decide +kernel
  · decide +kernel

theorem inclusion_agreement_lower :
    Cs2Merkle.verifyInclusion pairHash (Cs2Merkle.wire zeroLeaf) (.int 0) (.int 2) (Cs2Merkle.wire pairRoot)
        (.arr [.str lowerStep.hash]) = .ok ()
      ∧ verifyInclusion asciiText pairHash zeroLeaf.bytes ((0 : ℤ) : ℚ) ((2 : ℤ) : ℚ) pairRoot.toHex [lowerStep] = true
      ∧ EscrowMerkle.verifyInclusion (wordHash pairHash) (bytesWord zeroLeaf.bytes) 0 2 (bytesWord pairRoot.bytes)
        [bytesWord (node lowerStep)] = true
      ∧ verifyMerkleInclusion asciiText pairHash zeroLeaf.bytes ((0 : ℤ) : ℚ) ((2 : ℤ) : ℚ) pairRoot.toHex [lowerStep]
        = true := by
  have hhex : ∀ step ∈ [lowerStep], IsSiblingHex step.hash ∧ IsWireHash step.hash := by
    unfold IsSiblingHex
    decide +kernel
  have haccepted : verifyMerkleInclusion asciiText pairHash zeroLeaf.bytes ((0 : ℤ) : ℚ) ((2 : ℤ) : ℚ) pairRoot.toHex
      [unlabelled lowerStep] = true := by
    decide +kernel
  have hnames : NamesSides 0 2 [lowerStep] := by
    have hsides : sides 0 1 = [.right] := by
      rw [sides_even (by decide) (by decide) (by decide), sides_root]
    show Labels (sides 0 1) [lowerStep]
    rw [hsides, labels_cons]
    exact ⟨by decide, Labels.nil []⟩
  obtain ⟨hcs2, hgateway, hescrow, hlabels⟩ := inclusion_agreement asciiText pairHash zeroLeaf pairRoot 0 2 [lowerStep]
    (by unfold IsSafe; decide) (by unfold IsSafe; decide) fun step hstep => (hhex step hstep).1
  exact ⟨hcs2.2 ⟨haccepted, fun step hstep => (hhex step hstep).2⟩, (hgateway hnames).trans haccepted,
    (hescrow (by decide) (by decide)).trans haccepted, hlabels.2 ⟨haccepted, hnames⟩⟩

end InclusionAgreement
