import Chit402.AnchorAnswerProofs
import Chit402.HexDigestProofs
import Chit402.MerkleWalkProofs

/-! # The leaf and the signed head's root

    Before any chain is read, the witness places the receipt's leaf under the
    head's root.  The leaf is computed from the task and its row hash, or is
    the one a public attestation signed; the audit path is the RFC 9162 walk
    over texts, checked element by element.

    `checkInclusion_sound`: an inclusion that is called valid is a walk from
    that leaf to the head's root. -/

namespace AnchorLeaf

open AnchorAnswer HexDigest MerkleWalk
open JsText (isHexDigit truthy)

/-! ## Data -/

structure InclusionStep where
  hash : String
  position : Option String

structure AnchorReceipt where
  task_id : Option String
  row_hash : Option String
  /-- `book_chain.row_hash` -/
  book_row_hash : Option String

structure AnchorInclusion where
  task_id : Option String
  status : Option String
  anchor_status : Option String
  error : Option String
  leaf_index : ℚ
  tree_size : ℚ
  live_tree_size : Option ℚ
  epoch : Option ℚ
  root : String
  leaf : Option String
  row_hash : Option String
  proof : List InclusionStep

/-- Public attestation: the leaf the issuer signed. -/
structure SignedLeaf where
  leaf_hash : String
  leaf_index : ℚ
  epoch : ℚ

structure InclusionReport where
  valid : Bool
  leaf : Option String
  leaf_source : String
  reason : Option String

section Walk

variable (js : Text) (sha256 : List UInt8 → Digest)

/-! ## The audit path -/

def leafHash (bytes : List UInt8) : List UInt8 := (sha256 (0x00 :: bytes)).bytes

def nodeHash (left right : List UInt8) : List UInt8 := (sha256 (0x01 :: (left ++ right))).bytes

/-- `Buffer.from(text, 'hex')`: it stops at the first pair that is none. -/
def bufferFromHex : List Char → List UInt8
  | a :: b :: rest =>
    if isHexDigit a && isHexDigit b then UInt8.ofNat (16 * digitValue a + digitValue b) :: bufferFromHex rest else []
  | _ => []

def siblingBytes (step : InclusionStep) : Option (List UInt8) :=
  if step.hash.toList.length = 64 && step.hash.toList.all isHexDigit then
    some (bufferFromHex step.hash.toList)
  else none

/-- A malformed element ends the fold. -/
def joinStep (join : List UInt8 → List UInt8 → List UInt8) (step : InclusionStep) (hash : Option (List UInt8)) :
    Option (List UInt8) :=
  match siblingBytes step, hash with
  | some sib, some hash => some (join sib hash)
  | _, _ => none

/-- `Number.isSafeInteger` of both, with the index inside the tree. -/
def placed (index treeSize : ℚ) : Bool :=
  isSafeInteger index && isSafeInteger treeSize && 0 ≤ index && index < treeSize

/-- RFC 9162 fold. A `position` label is not read here. -/
def inclusionRoot (leaf : List UInt8) (index treeSize : ℚ) (proof : List InclusionStep) : Option String :=
  if placed index treeSize then
    match proofLoop (joinStep (includeLeft (nodeHash sha256))) (joinStep (includeRight (nodeHash sha256)))
      index.num.toNat (treeSize.num.toNat - 1) (some leaf) proof with
    | some (0, some hash) => some (String.ofList (toHexChars hash))
    | _ => none
  else none

def labelsAgree (fn sn : ℕ) : List InclusionStep → Bool
  | [] => true
  | step :: rest =>
    if sn = 0 then false
    else
      let siblingOnLeft := fn % 2 = 1 || fn = sn
      if (truthy step.position).any (· ≠ if siblingOnLeft then "left" else "right") then false
      else if siblingOnLeft then labelsAgree ((dropEven fn sn).1 / 2) ((dropEven fn sn).2 / 2) rest
      else labelsAgree (fn / 2) (sn / 2) rest

/-- A present `position` label must name the side the index and the size already chose. -/
def positionAgrees (index treeSize : ℚ) (proof : List InclusionStep) : Bool :=
  placed index treeSize && labelsAgree index.num.toNat (treeSize.num.toNat - 1) proof

def verifyMerkleInclusion (leaf : List UInt8) (index treeSize : ℚ) (rootHex : String) (proof : List InclusionStep) :
    Bool :=
  let root := js.toLowerCase (strip0x rootHex)
  isHex64 root.toList && positionAgrees index treeSize proof
    && inclusionRoot sha256 leaf index treeSize proof = some root

/-! ## The report -/

/-- The row hashes present, in the order they are asked. -/
def boundRowHash (receipt : AnchorReceipt) (inclusion : AnchorInclusion) : Except String (Option (String × String)) :=
  let fromReceipt := receipt.row_hash.isSome || receipt.book_row_hash.isSome
  match [receipt.row_hash, receipt.book_row_hash, inclusion.row_hash].filterMap id with
  | [] => .ok none
  | agreed :: others =>
    if others.any (· ≠ agreed) then .error "row_hash_mismatch"
    else if agreed = "" then .ok none
    else .ok (some (agreed, if fromReceipt then "receipt" else "inclusion"))

def pendingGeometryReason (inclusion : AnchorInclusion) : Option String :=
  if ¬ isSafeInteger inclusion.tree_size ∨ ¬ isSafeInteger inclusion.leaf_index ∨ inclusion.tree_size < 1 then
    some "pending_bounds"
  else if inclusion.leaf_index < inclusion.tree_size then some "pending_leaf_in_head"
  else match inclusion.live_tree_size with
    | none => none
    | some live =>
      if ¬ isSafeInteger live ∨ live ≤ inclusion.tree_size ∨ live ≤ inclusion.leaf_index then some "pending_bounds"
      else none

def signedLeafReason (signed : SignedLeaf) (inclusion : AnchorInclusion) (head : AnchorHead) : Option String :=
  if inclusion.epoch = none ∧ head.epoch = none then some "log_epoch_mismatch"
  else if inclusion.epoch.any (· ≠ signed.epoch) then some "log_epoch_mismatch"
  else if head.epoch.any (· ≠ signed.epoch) then some "log_epoch_mismatch"
  else if inclusion.leaf.any (fun leaf => js.toLowerCase leaf ≠ signed.leaf_hash) then some "leaf_not_bound"
  else if inclusion.leaf_index ≠ signed.leaf_index then some "leaf_index_mismatch"
  else none

def taskIdOf (receipt : AnchorReceipt) : String := receipt.task_id.getD ""

def refused (reason : String) : InclusionReport := ⟨false, none, "none", some reason⟩

def walkReport (root : String) (inclusion : AnchorInclusion) (index : ℚ) (leaf : List UInt8) (source : String) :
    InclusionReport :=
  let valid := verifyMerkleInclusion js sha256 leaf index inclusion.tree_size root inclusion.proof
  ⟨valid, some (String.ofList (toHexChars leaf)), source, if valid then none else some "inclusion_failed"⟩

def computedLeaf (taskId rowHash : String) : List UInt8 :=
  leafHash sha256 (taskId ++ "|" ++ rowHash).toUTF8.data.toList

def rowReport (root : String) (receipt : AnchorReceipt) (inclusion : AnchorInclusion) : InclusionReport :=
  match boundRowHash receipt inclusion with
  | .error reason => refused reason
  | .ok none => refused "no_leaf"
  | .ok (some (rowHash, source)) =>
    let leaf := computedLeaf sha256 (taskIdOf receipt) rowHash
    if (truthy inclusion.leaf).any (fun named => js.toLowerCase named ≠ String.ofList (toHexChars leaf)) then
      ⟨false, none, source, some "leaf_mismatch"⟩
    else walkReport js sha256 root inclusion inclusion.leaf_index leaf source

def signedReport (root : String) (signed : SignedLeaf) (inclusion : AnchorInclusion) (head : AnchorHead) :
    InclusionReport :=
  match signedLeafReason js signed inclusion head with
  | some reason => refused reason
  | none =>
    walkReport js sha256 root inclusion signed.leaf_index (bufferFromHex signed.leaf_hash.toList) "public_attestation"

def pendingLeaf (inclusion : AnchorInclusion) : Bool := inclusion.status = some "pending_anchor"

def pendingReason (receipt : AnchorReceipt) (inclusion : AnchorInclusion) (head : AnchorHead)
    (signed : Option SignedLeaf) : String :=
  let taskId := taskIdOf receipt
  if taskId = "" then "missing_task_id"
  else if (truthy inclusion.task_id).any (· ≠ taskId) then "task_mismatch"
  else match normalizeRoot js head.root with
    | none => "bad_root"
    | some root =>
      if (normalizeRoot js inclusion.root).any (· ≠ root) then "root_mismatch"
      else if head.tree_size.any (· ≠ inclusion.tree_size) then "tree_size_mismatch"
      else if signed.any fun s => inclusion.leaf.any fun leaf => js.toLowerCase leaf ≠ s.leaf_hash then "leaf_not_bound"
      else (pendingGeometryReason inclusion).getD "pending_anchor"

/-- The two roots are there. -/
def rootedReport (receipt : AnchorReceipt) (inclusion : AnchorInclusion) (head : AnchorHead)
    (signed : Option SignedLeaf) (root served : String) : InclusionReport :=
  if root ≠ served then refused "root_mismatch"
  else if head.tree_size.any (· ≠ inclusion.tree_size) then refused "tree_size_mismatch"
  else match signed with
    | some signed => signedReport js sha256 root signed inclusion head
    | none => rowReport js sha256 root receipt inclusion

def checkInclusion (receipt : AnchorReceipt) (inclusion : AnchorInclusion) (head : AnchorHead)
    (signed : Option SignedLeaf) : InclusionReport :=
  let taskId := taskIdOf receipt
  if pendingLeaf inclusion then refused (pendingReason js receipt inclusion head signed)
  else if inclusion.error = some "not_in_tree" then refused "not_in_tree"
  else if taskId = "" then refused "missing_task_id"
  else if (truthy inclusion.task_id).any (· ≠ taskId) then refused "task_mismatch"
  else match normalizeRoot js head.root, normalizeRoot js inclusion.root with
    | some root, some served => rootedReport js sha256 receipt inclusion head signed root served
    | _, _ => refused "bad_root"

/-! ## What a valid inclusion is -/

/-- **Included**: an audit path of digests leads from the leaf, at its index in
    a tree of that size, to the root. -/
def IncludedUnder (leaf : List UInt8) (index size : ℕ) (root : String) : Prop :=
  index < size ∧ ∃ (path : List (List UInt8)) (top : List UInt8),
    climb (includeLeft (nodeHash sha256)) (includeRight (nodeHash sha256)) index (size - 1) leaf path = some top
      ∧ toHexChars top = root.toList

end Walk

variable {js : Text} {sha256 : List UInt8 → Digest}

/-- A fold that ends well met no malformed element. -/
theorem proofLoop_joinStep {left right : List UInt8 → List UInt8 → List UInt8}
    (steps : List InclusionStep) {fn sn k : ℕ}
    {acc : Option (List UInt8)} {top : List UInt8}
    (h : proofLoop (joinStep left) (joinStep right) fn sn acc steps = some (k, some top)) :
    ∃ leaf path, acc = some leaf ∧ steps.map siblingBytes = path.map some
      ∧ proofLoop left right fn sn leaf path = some (k, top) := by
  induction steps generalizing fn sn acc with
  | nil =>
    rw [proofLoop, Option.some.injEq, Prod.mk.injEq] at h
    exact ⟨top, [], h.2, rfl, by rw [proofLoop, h.1]⟩
  | cons step rest ih =>
    rw [proofLoop] at h
    have hjoin : ∀ join leaf, joinStep join step acc = some leaf →
        ∃ sib hash, siblingBytes step = some sib ∧ acc = some hash ∧ join sib hash = leaf := by
      intro join leaf hleaf
      unfold joinStep at hleaf
      split at hleaf
      · rename_i sib hash hsib
        exact ⟨sib, hash, hsib, rfl, Option.some.inj hleaf⟩
      · cases hleaf
    split_ifs at h with h0 hleft
    · obtain ⟨leaf, path, hacc, hpath, hloop⟩ := ih h
      obtain ⟨sib, hash, hsib, rfl, rfl⟩ := hjoin left leaf hacc
      refine ⟨hash, sib :: path, rfl, by rw [List.map_cons, List.map_cons, hsib, hpath], ?_⟩
      rw [proofLoop, if_neg h0, if_pos hleft]
      exact hloop
    · obtain ⟨leaf, path, hacc, hpath, hloop⟩ := ih h
      obtain ⟨sib, hash, hsib, rfl, rfl⟩ := hjoin right leaf hacc
      refine ⟨hash, sib :: path, rfl, by rw [List.map_cons, List.map_cons, hsib, hpath], ?_⟩
      rw [proofLoop, if_neg h0, if_neg hleft]
      exact hloop

variable {head : AnchorHead} {inclusion : AnchorInclusion} {receipt : AnchorReceipt} {leaf : List UInt8}
  {signed : Option SignedLeaf} {root : String} {index size : ℚ}

theorem placed_lt (h : placed index size = true) : index.num.toNat < size.num.toNat := by
  simp only [placed, isSafeInteger, Bool.and_eq_true, decide_eq_true_eq] at h
  obtain ⟨⟨⟨⟨hi, -⟩, ⟨hs, -⟩⟩, h0⟩, hlt⟩ := h
  have hi' : index = index.num := (Rat.den_eq_one_iff index).1 hi |>.symm
  have hs' : size = size.num := (Rat.den_eq_one_iff size).1 hs |>.symm
  rw [hi', hs', Rat.intCast_lt_intCast] at hlt
  rw [hi'] at h0
  have h0' : 0 ≤ index.num := by exact_mod_cast h0
  omega

/-- The walk of a proof over a normalized root. -/
theorem verifyMerkleInclusion_sound {proof : List InclusionStep} (hroot : isHex64 root.toList = true)
    (h : verifyMerkleInclusion js sha256 leaf index size root proof = true) :
    IncludedUnder sha256 leaf index.num.toNat size.num.toNat root := by
  simp only [verifyMerkleInclusion, positionAgrees, Bool.and_eq_true, decide_eq_true_eq] at h
  rw [strip0x_hex hroot, js.lower_hex root hroot] at h
  obtain ⟨⟨-, hplaced, -⟩, hfold⟩ := h
  rw [inclusionRoot, if_pos hplaced] at hfold
  split at hfold
  · rename_i top hloop
    obtain ⟨leaf', path, hleaf, -, hwalk⟩ := proofLoop_joinStep proof hloop
    cases hleaf
    have hlt := placed_lt hplaced
    refine ⟨hlt, path, top, (proofLoop_iff_climb path (Nat.le_sub_one_of_lt hlt) leaf top).1 hwalk, ?_⟩
    rw [← Option.some.inj hfold, String.toList_ofList]
  · cases hfold

variable (sha256) in
/-- The leaf a receipt stands for, and its index: the one an attestation
    signed, or the hash of the task and its row. -/
def ReceiptLeaf (receipt : AnchorReceipt) (inclusion : AnchorInclusion) (signed : Option SignedLeaf)
    (leaf : List UInt8) (index : ℚ) : Prop :=
  match signed with
  | some signed => leaf = bufferFromHex signed.leaf_hash.toList ∧ index = signed.leaf_index
  | none => index = inclusion.leaf_index ∧ ∃ rowHash source,
      boundRowHash receipt inclusion = .ok (some (rowHash, source))
        ∧ leaf = computedLeaf sha256 (taskIdOf receipt) rowHash

theorem walkReport_valid {source : String} (hroot : isHex64 root.toList = true)
    (h : (walkReport js sha256 root inclusion index leaf source).valid = true) :
    (walkReport js sha256 root inclusion index leaf source).reason = none
      ∧ IncludedUnder sha256 leaf index.num.toNat inclusion.tree_size.num.toNat root := by
  have hvalid : verifyMerkleInclusion js sha256 leaf index inclusion.tree_size root inclusion.proof = true := h
  refine ⟨?_, verifyMerkleInclusion_sound hroot hvalid⟩
  unfold walkReport
  dsimp only
  rw [if_pos hvalid]

theorem signedReport_valid {signed : SignedLeaf} (hroot : isHex64 root.toList = true)
    (h : (signedReport js sha256 root signed inclusion head).valid = true) :
    (signedReport js sha256 root signed inclusion head).reason = none
      ∧ IncludedUnder sha256 (bufferFromHex signed.leaf_hash.toList) signed.leaf_index.num.toNat
        inclusion.tree_size.num.toNat root := by
  unfold signedReport at h ⊢
  cases hbound : signedLeafReason js signed inclusion head with
  | some reason =>
    rw [hbound] at h
    cases h
  | none =>
    rw [hbound] at h
    exact walkReport_valid hroot h

theorem rowReport_valid (hroot : isHex64 root.toList = true)
    (h : (rowReport js sha256 root receipt inclusion).valid = true) :
    (rowReport js sha256 root receipt inclusion).reason = none
      ∧ ∃ leaf, (∃ rowHash source, boundRowHash receipt inclusion = .ok (some (rowHash, source))
          ∧ leaf = computedLeaf sha256 (taskIdOf receipt) rowHash)
        ∧ IncludedUnder sha256 leaf inclusion.leaf_index.num.toNat inclusion.tree_size.num.toNat root := by
  unfold rowReport at h ⊢
  cases hbound : boundRowHash receipt inclusion with
  | error reason =>
    rw [hbound] at h
    cases h
  | ok bound =>
    cases bound with
    | none =>
      rw [hbound] at h
      cases h
    | some row =>
      obtain ⟨rowHash, source⟩ := row
      rw [hbound] at h
      dsimp only at h ⊢
      split_ifs at h ⊢ with hnamed
      · obtain ⟨hreason, hincluded⟩ := walkReport_valid hroot h
        exact ⟨hreason, _, ⟨rowHash, source, rfl, rfl⟩, hincluded⟩

theorem rootedReport_valid {served : String} (hroot : isHex64 root.toList = true)
    (h : (rootedReport js sha256 receipt inclusion head signed root served).valid = true) :
    (rootedReport js sha256 receipt inclusion head signed root served).reason = none
      ∧ ∃ leaf index, ReceiptLeaf sha256 receipt inclusion signed leaf index
        ∧ IncludedUnder sha256 leaf index.num.toNat inclusion.tree_size.num.toNat root := by
  unfold rootedReport at h ⊢
  split_ifs at h ⊢ with hsame hsize
  · cases h
  · cases h
  · cases signed with
    | some signed =>
      obtain ⟨hreason, hincluded⟩ := signedReport_valid hroot h
      exact ⟨hreason, _, _, ⟨rfl, rfl⟩, hincluded⟩
    | none =>
      obtain ⟨hreason, leaf, hleaf, hincluded⟩ := rowReport_valid hroot h
      exact ⟨hreason, leaf, _, ⟨rfl, hleaf⟩, hincluded⟩

/-- **INCLUSION**: a report that is valid has no reason, and its leaf is the
    receipt's, included under the head's root. -/
theorem checkInclusion_sound (h : (checkInclusion js sha256 receipt inclusion head signed).valid = true) :
    (checkInclusion js sha256 receipt inclusion head signed).reason = none
      ∧ ∃ root leaf index, normalizeRoot js head.root = some root
        ∧ ReceiptLeaf sha256 receipt inclusion signed leaf index
        ∧ IncludedUnder sha256 leaf index.num.toNat inclusion.tree_size.num.toNat root := by
  have hrefused : ∀ reason, (refused reason).valid ≠ true := fun _ => Bool.false_ne_true
  unfold checkInclusion at h ⊢
  dsimp only at h ⊢
  split_ifs at h ⊢ with hpending herror htask hid
  · exact absurd h (hrefused _)
  · exact absurd h (hrefused _)
  · exact absurd h (hrefused _)
  · exact absurd h (hrefused _)
  · cases hroot : normalizeRoot js head.root with
    | none =>
      rw [hroot] at h
      exact absurd h (hrefused _)
    | some root =>
      rw [hroot] at h
      cases hserved : normalizeRoot js inclusion.root with
      | none =>
        rw [hserved] at h
        exact absurd h (hrefused _)
      | some served =>
        rw [hserved] at h
        obtain ⟨hreason, leaf, index, hleaf, hincluded⟩ := rootedReport_valid (normalizeRoot_hex js hroot) h
        exact ⟨hreason, root, leaf, index, rfl, hleaf, hincluded⟩

end AnchorLeaf
