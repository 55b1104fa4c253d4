import Chit402.HexDigestProofs
import Chit402.PaddedTreeProofs

/-! # What a model commitment binds

    Shards are hashed into leaves and the leaves are folded into a root, an odd
    level with its last node twice.  The commitment hashes the root with the
    architecture.  Neither the number of leaves nor the kind of a node is hashed. -/

namespace WeightsRoot

open HexDigest PaddedTree Solidity

section Model

variable (keccak256 : List UInt8 → Digest)

def keccak_concat (a b : Digest) : Digest := keccak256 (a.bytes ++ b.bytes)

/-- `[0u8; 32]` -/
def zeroHash : Digest := ⟨List.replicate 32 0, List.length_replicate⟩

/-- One round of the loop. -/
def next : List Digest → List Digest
  | [] => []
  | [left] => [keccak_concat keccak256 left left]
  | left :: right :: rest => keccak_concat keccak256 left right :: next rest

theorem next_eq_up (level : List Digest) : next keccak256 level = up (keccak_concat keccak256) level := by
  induction level using next.induct with
  | case1 => rfl
  | case2 left => rfl
  | case3 left right rest ih => exact congrArg (keccak_concat keccak256 left right :: ·) ih

/-- The loop, while a level has more than one node. -/
def foldLevels (level : List Digest) : Digest :=
  if 1 < level.length then foldLevels (next keccak256 level) else level.headD zeroHash
termination_by level.length
decreasing_by
  rw [next_eq_up, length_up]
  omega

def merkle_root (level : List Digest) : Digest := if level = [] then zeroHash else foldLevels keccak256 level

def weights_root (shards : List (List UInt8)) : Digest := merkle_root keccak256 (shards.map keccak256)

def poly_weights_root (leaves : List Digest) : Digest := merkle_root keccak256 leaves

def model_commitment (weights_root arch_commitment : Digest) : Digest :=
  keccak_concat keccak256 weights_root arch_commitment

variable {Comm : Type} (commitment_bytes : Comm → List UInt8)

def commitment_leaf (comm : Comm) : Digest := keccak256 (commitment_bytes comm)

def model_weights_root (commitments : List Comm) : Digest :=
  poly_weights_root keccak256 (commitments.map (commitment_leaf keccak256 commitment_bytes))

/-! ## What is hashed -/

/-- The strings hashed between the leaves and the root. -/
def nodeInputs (leaves : List Digest) : List (List UInt8) :=
  (hashed (keccak_concat keccak256) (height leaves) leaves).map fun p => p.1.bytes ++ p.2.bytes

/-- The strings hashed for a commitment. -/
def commitmentInputs (shards : List (List UInt8)) (arch_commitment : Digest) : List (List UInt8) :=
  shards ++ nodeInputs keccak256 (shards.map keccak256)
    ++ [(weights_root keccak256 shards).bytes ++ arch_commitment.bytes]

/-! ## Twins -/

/-- An empty list has the root of a zero leaf. -/
def seed (leaves : List Digest) : List Digest := if leaves = [] then [zeroHash] else leaves

/-- The level of a list at this height. -/
def levelAt (h : ℕ) (leaves : List Digest) : List Digest := level (keccak_concat keccak256) (height leaves - h) leaves

/-- At the height of the shorter tree the two trees have one list of completed nodes. -/
def SameTree (xs ys : List Digest) : Prop :=
  let h := min (height xs) (height ys)
  fill h (levelAt keccak256 h xs) = fill h (levelAt keccak256 h ys)

/-- Different leaves of one tree. -/
def Twins (xs ys : List Digest) : Prop := xs ≠ ys ∧ SameTree keccak256 (seed xs) (seed ys)

end Model

variable {keccak256 : List UInt8 → Digest}

variable {a b : Digest} {p : Digest × Digest} {s t : List (List UInt8)} {leaves xs ys : List Digest} {h : ℕ}

theorem bytes_append_inj {q : Digest × Digest} (h : p.1.bytes ++ p.2.bytes = q.1.bytes ++ q.2.bytes) : p = q := by
  obtain ⟨hfst, hsnd⟩ := List.append_inj h (by rw [p.1.size, q.1.size])
  exact Prod.ext (Digest.ext hfst) (Digest.ext hsnd)

/-! ## The root -/

theorem foldLevels_long {leaves : List Digest} (h : 1 < leaves.length) :
    foldLevels keccak256 leaves = foldLevels keccak256 (up (keccak_concat keccak256) leaves) := by
  rw [foldLevels, if_pos h, next_eq_up]

theorem level_height (h : leaves ≠ []) :
    level (keccak_concat keccak256) (height leaves) leaves = [foldLevels keccak256 leaves] := by
  induction hn : height leaves generalizing leaves with
  | zero =>
    have hshort : ¬1 < leaves.length := by
      intro hlong
      rw [height_up (keccak_concat keccak256) hlong] at hn
      cases hn
    obtain ⟨x, rest, rfl⟩ := List.exists_cons_of_ne_nil h
    rw [foldLevels, if_neg hshort, List.eq_nil_of_length_eq_zero
      (l := rest) (by rw [List.length_cons] at hshort; omega)]
    rfl
  | succ t ih =>
    have hlong : 1 < leaves.length := by
      by_contra hshort
      rw [height_short (by omega)] at hn
      cases hn
    have hup : up (keccak_concat keccak256) leaves ≠ [] := by
      intro hnil
      have hlen := length_up (keccak_concat keccak256) leaves
      rw [hnil, List.length_nil] at hlen
      omega
    rw [foldLevels_long hlong]
    refine ih hup ?_
    rw [height_up (keccak_concat keccak256) hlong] at hn
    exact Nat.succ.inj hn

theorem seed_ne_nil (leaves : List Digest) : seed leaves ≠ [] := by
  rw [seed]
  split
  · exact List.cons_ne_nil _ _
  · assumption

theorem merkle_root_seed (leaves : List Digest) :
    merkle_root keccak256 leaves = foldLevels keccak256 (seed leaves) := by
  rw [merkle_root, seed]
  split
  · rw [foldLevels, if_neg (by decide)]
    rfl
  · rfl

theorem nodeInputs_seed (leaves : List Digest) : nodeInputs keccak256 (seed leaves) = nodeInputs keccak256 leaves := by
  rw [seed]
  split
  · rename_i hnil
    rw [nodeInputs, nodeInputs, hnil, height_short (by decide), height_short (by decide)]
    rfl
  · rfl

theorem level_height_at (hle : h ≤ height leaves) : level (keccak_concat keccak256) (height leaves) leaves
      = level (keccak_concat keccak256) h (levelAt keccak256 h leaves) := by
  rw [levelAt, ← level_add, Nat.add_sub_cancel' hle]

theorem hashed_at (hle : h ≤ height leaves) (hp : p ∈ hashed (keccak_concat keccak256) h (levelAt keccak256 h leaves)) :
    p.1.bytes ++ p.2.bytes ∈ nodeInputs keccak256 leaves := by
  refine List.mem_map_of_mem (f := fun p : Digest × Digest => p.1.bytes ++ p.2.bytes) ?_
  have hsplit := hashed_add (keccak_concat keccak256) h (height leaves - h) leaves
  rw [Nat.add_sub_cancel' hle] at hsplit
  rw [hsplit]
  exact List.mem_append_right _ hp

/-- **ROOTS**: two lists have one root exactly when they are leaves of one tree. -/
theorem merkle_root_eq_iff (hno : NoCollision keccak256 (nodeInputs keccak256 xs ++ nodeInputs keccak256 ys)) :
    merkle_root keccak256 xs = merkle_root keccak256 ys ↔ SameTree keccak256 (seed xs) (seed ys) := by
  have hx : min (height (seed xs)) (height (seed ys)) ≤ height (seed xs) := Nat.min_le_left _ _
  have hy : min (height (seed xs)) (height (seed ys)) ≤ height (seed ys) := Nat.min_le_right _ _
  rw [merkle_root_seed, merkle_root_seed, SameTree]
  generalize min (height (seed xs)) (height (seed ys)) = h at hx hy ⊢
  have hinj : Set.InjOn (fun p : Digest × Digest => keccak_concat keccak256 p.1 p.2)
      {p | p ∈ hashed (keccak_concat keccak256) h (levelAt keccak256 h (seed xs))
        ∨ p ∈ hashed (keccak_concat keccak256) h (levelAt keccak256 h (seed ys))} := by
    have hmem : ∀ p, p ∈ hashed (keccak_concat keccak256) h (levelAt keccak256 h (seed xs))
        ∨ p ∈ hashed (keccak_concat keccak256) h (levelAt keccak256 h (seed ys)) →
        p.1.bytes ++ p.2.bytes ∈ nodeInputs keccak256 xs ++ nodeInputs keccak256 ys := by
      intro p hp
      rw [← nodeInputs_seed xs, ← nodeInputs_seed ys]
      exact List.mem_append.mpr (hp.imp (hashed_at hx) (hashed_at hy))
    intro p hp q hq heq
    exact bytes_append_inj (hno _ (hmem p hp) _ (hmem q hq) heq)
  calc foldLevels keccak256 (seed xs) = foldLevels keccak256 (seed ys)
      ↔ level (keccak_concat keccak256) (height (seed xs)) (seed xs)
          = level (keccak_concat keccak256) (height (seed ys)) (seed ys) := by
        rw [level_height (seed_ne_nil xs), level_height (seed_ne_nil ys), List.cons.injEq, and_iff_left rfl]
    _ ↔ level (keccak_concat keccak256) h (levelAt keccak256 h (seed xs))
          = level (keccak_concat keccak256) h (levelAt keccak256 h (seed ys)) := by
        rw [level_height_at hx, level_height_at hy]
    _ ↔ _ := level_eq_iff hinj

theorem not_twins (hlen : xs.length = ys.length) : ¬Twins keccak256 xs ys := by
  rintro ⟨hne, hsame⟩
  have hxs : xs ≠ [] := by
    rintro rfl
    exact hne (List.eq_nil_of_length_eq_zero hlen.symm).symm
  have hys : ys ≠ [] := by
    rintro rfl
    exact hne (List.eq_nil_of_length_eq_zero hlen)
  have hheight : height xs = height ys := by rw [height, height, hlen]
  rw [seed, seed, if_neg hxs, if_neg hys, SameTree, levelAt, levelAt, hheight, Nat.min_self, Nat.sub_self] at hsame
  exact hne (fill_inj hlen hsame)

/-! ## Binding -/

theorem model_commitment_inj
    (hno : NoCollision keccak256 (commitmentInputs keccak256 s a ++ commitmentInputs keccak256 t b))
    (h : model_commitment keccak256 (weights_root keccak256 s) a
      = model_commitment keccak256 (weights_root keccak256 t) b)
    : weights_root keccak256 s = weights_root keccak256 t ∧ a = b := by
  have hlast : ∀ (s : List (List UInt8)) (a : Digest),
      (weights_root keccak256 s).bytes ++ a.bytes ∈ commitmentInputs keccak256 s a := fun s a =>
    List.mem_append_right _ List.mem_cons_self
  have hbytes := hno _ (List.mem_append_left _ (hlast s a)) _ (List.mem_append_right _ (hlast t b)) h
  have hpair : (weights_root keccak256 s, a) = (weights_root keccak256 t, b) := bytes_append_inj hbytes
  exact Prod.mk.inj hpair

theorem nodeInputs_subset (s t : List (List UInt8)) (a b : Digest) :
    nodeInputs keccak256 (s.map keccak256) ++ nodeInputs keccak256 (t.map keccak256)
      ⊆ commitmentInputs keccak256 s a ++ commitmentInputs keccak256 t b := by
  have hone : ∀ (s : List (List UInt8)) (a : Digest),
      nodeInputs keccak256 (s.map keccak256) ⊆ commitmentInputs keccak256 s a := fun s a m hm =>
    List.mem_append_left _ (List.mem_append_right _ hm)
  intro m hm
  exact List.mem_append.mpr ((List.mem_append.mp hm).imp (fun h => hone s a h) fun h => hone t b h)

theorem shards_inj (hno : NoCollision keccak256 (commitmentInputs keccak256 s a ++ commitmentInputs keccak256 t b))
    (h : s.map keccak256 = t.map keccak256) : s = t := by
  refine eq_of_map_eq (fun m hm n hn => hno m ?_ n ?_) h
  · exact List.mem_append_left _ (List.mem_append_left _ (List.mem_append_left _ hm))
  · exact List.mem_append_right _ (List.mem_append_left _ (List.mem_append_left _ hn))

/-- **SHARDS**: a commitment binds shards and architecture unless the shards have twin leaves. -/
theorem shards_bound_iff
    (hno : NoCollision keccak256 (commitmentInputs keccak256 s a ++ commitmentInputs keccak256 t b)) :
    (model_commitment keccak256 (weights_root keccak256 s) a = model_commitment keccak256 (weights_root keccak256 t) b →
        s = t ∧ a = b) ↔ ¬(a = b ∧ Twins keccak256 (s.map keccak256) (t.map keccak256)) := by
  have hroots := merkle_root_eq_iff (hno.mono (nodeInputs_subset s t a b))
  constructor
  · rintro hbound ⟨rfl, hne, hsame⟩
    have hroot : weights_root keccak256 s = weights_root keccak256 t := hroots.mpr hsame
    refine hne (congrArg (List.map keccak256) (hbound ?_).1)
    rw [hroot]
  · intro hno_twins hcommit
    obtain ⟨hroot, rfl⟩ := model_commitment_inj hno hcommit
    refine ⟨?_, rfl⟩
    by_contra hne
    exact hno_twins ⟨rfl, fun hleaves => hne (shards_inj hno hleaves), hroots.mp hroot⟩

/-- **LEAVES**: a root binds the leaves unless they have a twin. -/
theorem leaves_bound_iff (hno : NoCollision keccak256 (nodeInputs keccak256 xs ++ nodeInputs keccak256 ys)) :
    (poly_weights_root keccak256 xs = poly_weights_root keccak256 ys → xs = ys) ↔ ¬Twins keccak256 xs ys := by
  have hroots := merkle_root_eq_iff hno
  constructor
  · rintro hbound ⟨hne, hsame⟩
    exact hne (hbound (hroots.mpr hsame))
  · intro hno_twins hroot
    by_contra hne
    exact hno_twins ⟨hne, hroots.mp hroot⟩

/-- **WEIGHTS BOUND**: as long as no two hashed strings collide, a commitment and a root bind
    what they are made of exactly when the leaves have no twin, which lists of one length never have. -/
theorem weights_bound (keccak256 : List UInt8 → Digest) :
    (∀ s t a b, NoCollision keccak256 (commitmentInputs keccak256 s a ++ commitmentInputs keccak256 t b) →
      ((model_commitment keccak256 (weights_root keccak256 s) a
          = model_commitment keccak256 (weights_root keccak256 t) b → s = t ∧ a = b)
        ↔ ¬(a = b ∧ Twins keccak256 (s.map keccak256) (t.map keccak256))))
    ∧ (∀ xs ys, NoCollision keccak256 (nodeInputs keccak256 xs ++ nodeInputs keccak256 ys) →
      ((poly_weights_root keccak256 xs = poly_weights_root keccak256 ys → xs = ys) ↔ ¬Twins keccak256 xs ys))
    ∧ ∀ xs ys : List Digest, xs.length = ys.length → ¬Twins keccak256 xs ys :=
  ⟨fun _ _ _ _ hno => shards_bound_iff hno, fun _ _ hno => leaves_bound_iff hno, fun _ _ hlen => not_twins hlen⟩

def shardHash1 : Digest := .ofWord 0x5fe7f977e71dba2ea1a68e21057beebb9be2ac30c6410aa38d4f3fbe41dcffd2

def shardHash2 : Digest := .ofWord 0xf2ee15ea639b73fa3db9b34a245bdfa015c260c598b211bf05a1ecc4b3e3b4f2

def shardHash3 : Digest := .ofWord 0x69c322e3248a5dfc29d73c5b0553b0185a35cd5bb6386747517ef7e53b15e287

def sampleArch : Digest := .ofWord 0x0909090909090909090909090909090909090909090909090909090909090909

/-- Keccak-256 on three shards, on the nodes over two, three and four of them, the third given
    twice, and on the commitments. -/
def sampleKeccak (m : List UInt8) : Digest :=
  let pair : Digest := .ofWord 0x71d8979cbfae9b197a4fbcc7d387b1fae9560e2f284d30b4e90c80f6bc074f57
  let last : Digest := .ofWord 0xdba14bf9d425917ea368bba2654e12bd6a2fbe32cfabe190a1c88e8f39b60df4
  let root : Digest := .ofWord 0x41018595206752552113afefd2e76718ba8a13a420c5d92398dd10a1acb491d5
  (([([1], shardHash1), ([2], shardHash2), ([3], shardHash3), (shardHash1.bytes ++ shardHash2.bytes, pair),
      (shardHash3.bytes ++ shardHash3.bytes, last), (pair.bytes ++ last.bytes, root),
      (root.bytes ++ sampleArch.bytes, .ofWord 0xbbbb8c6e98e5f0d0f1375409917bf0a9d200641bfb83e70443f825b70a29f8a7),
      (pair.bytes ++ sampleArch.bytes, .ofWord 0x69c4cd01bcfc38ab7f575c49d3eed24dfd4bd2c5ac4e40ae71a40ef199b83ebd)] :
    List (List UInt8 × Digest)).lookup m).getD zeroHash

def commitmentOf (shards : List (List UInt8)) : Digest :=
  model_commitment sampleKeccak (weights_root sampleKeccak shards) sampleArch

theorem not_twins_sample : ¬Twins sampleKeccak [shardHash1, shardHash2, shardHash3] [shardHash1, shardHash2] := by
  unfold Twins SameTree
  decide +kernel

/-- The third shard given twice pads the same tree. -/
theorem twins_sample :
    Twins sampleKeccak [shardHash1, shardHash2, shardHash3] [shardHash1, shardHash2, shardHash3, shardHash3] := by
  unfold Twins SameTree
  decide +kernel

theorem weights_bound_sample : (commitmentOf [[1], [2], [3]] = commitmentOf [[1], [2]]
      → ([[1], [2], [3]] : List (List UInt8)) = [[1], [2]] ∧ sampleArch = sampleArch)
    ∧ ¬(commitmentOf [[1], [2], [3]] = commitmentOf [[1], [2], [3], [3]]
      → ([[1], [2], [3]] : List (List UInt8)) = [[1], [2], [3], [3]] ∧ sampleArch = sampleArch)
    ∧ (poly_weights_root sampleKeccak [shardHash1, shardHash2, shardHash3]
        = poly_weights_root sampleKeccak [shardHash1, shardHash2]
      → [shardHash1, shardHash2, shardHash3] = [shardHash1, shardHash2])
    ∧ ¬Twins sampleKeccak [shardHash1, shardHash2] [shardHash2, shardHash1] := by
  obtain ⟨hcommitments, hroots, hlength⟩ := weights_bound sampleKeccak
  refine ⟨(hcommitments _ _ _ _ ?_).mpr fun h => not_twins_sample h.2,
    fun h => (hcommitments _ _ _ _ ?_).mp h ⟨rfl, twins_sample⟩, (hroots _ _ ?_).mpr not_twins_sample, hlength _ _ rfl⟩
  · decide +kernel
  · decide +kernel
  · decide +kernel

theorem merkle_root_pair (x y : Digest) : merkle_root keccak256 [x, y] = keccak_concat keccak256 x y := by
  rw [merkle_root, if_neg (List.cons_ne_nil _ _), foldLevels_long (by simp), foldLevels, if_neg (by simp [length_up])]
  rfl

/-- **UNBOUND**: whatever the hash, a last shard given twice, the children of a node in its
    place, and a zero leaf for no leaf change nothing. -/
theorem weights_unbound : (∀ (keccak256 : List UInt8 → Digest) (a : Digest),
      model_commitment keccak256 (weights_root keccak256 [[1], [2], [3]]) a
        = model_commitment keccak256 (weights_root keccak256 [[1], [2], [3], [3]]) a)
    ∧ (∀ (keccak256 : List UInt8 → Digest) (a : Digest),
      model_commitment keccak256 (weights_root keccak256 [(keccak256 [1]).bytes ++ (keccak256 [2]).bytes]) a
        = model_commitment keccak256 (weights_root keccak256 [[1], [2]]) a) ∧ (∀ keccak256 : List UInt8 → Digest,
      poly_weights_root keccak256 [.filled 1, .filled 2, .filled 3]
        = poly_weights_root keccak256 [.filled 1, .filled 2, .filled 3, .filled 3])
    ∧ ∀ keccak256 : List UInt8 → Digest, poly_weights_root keccak256 [] = poly_weights_root keccak256 [zeroHash] := by
  have hfold : ∀ (keccak256 : List UInt8 → Digest) (xs : List Digest), xs ≠ [] →
      merkle_root keccak256 xs = foldLevels keccak256 xs := fun keccak256 xs h => if_neg h
  have htail : ∀ (keccak256 : List UInt8 → Digest) (x y z : Digest),
      merkle_root keccak256 [x, y, z] = merkle_root keccak256 [x, y, z, z] := by
    intro keccak256 x y z
    rw [hfold _ _ (List.cons_ne_nil _ _), hfold _ _ (List.cons_ne_nil _ _), foldLevels_long (by simp),
      @foldLevels_long _ [x, y, z, z] (by simp)]
    rfl
  have hnode : ∀ (keccak256 : List UInt8 → Digest) (x y : Digest),
      merkle_root keccak256 [keccak_concat keccak256 x y] = merkle_root keccak256 [x, y] := by
    intro keccak256 x y
    rw [merkle_root_pair, hfold _ _ (List.cons_ne_nil _ _), foldLevels, if_neg (by simp)]
    rfl
  refine ⟨fun keccak256 a => ?_, fun keccak256 a => ?_, fun keccak256 => htail keccak256 _ _ _, fun keccak256 => ?_⟩
  · exact congrArg (model_commitment keccak256 · a) (htail keccak256 _ _ _)
  · exact congrArg (model_commitment keccak256 · a) (hnode keccak256 _ _)
  · rw [poly_weights_root, poly_weights_root, merkle_root_seed, merkle_root_seed]
    rfl

end WeightsRoot
