import Chit402.LineHashProofs

/-! # What the root of the state tree binds

    A tree is built by calls: a leaf under a key, the empty subtree of a
    depth, a node over two roots.  Its root fixes what it holds, where an
    empty subtree holds what the tree of empty leaves does. -/

namespace StateTree

open ExceptFlow HexDigest JsValue LineCodec LineField LineHash Solidity

/-- The calls that build a tree. -/
inductive Calls where
  | leaf (key value : Js)
  | empty (depth : ℕ)
  | node (left right : Calls)

inductive Held where
  | leaf (key value : List UInt8)
  | empty
  | node (left right : Held)

def full : ℕ → Held
  | 0 => .empty
  | depth + 1 => .node (full depth) (full depth)

/-- What a tree holds, where its calls are accepted. -/
def Calls.held : Calls → Held
  | .leaf key value => .leaf ((readFixed key 32).toOption.getD []) ((readBytes value).toOption.getD [])
  | .empty depth => full depth
  | .node left right => .node left.held right.held

/-- The first byte that is hashed. -/
def Held.tag : Held → ℕ
  | .leaf _ _ => 0
  | .node _ _ => 1
  | .empty => 2

section Hashing

variable (sha256 : List UInt8 → Digest)

/-- The root, every call made. -/
def Calls.root : Calls → Except Reason Digest
  | .leaf key value => stateLeaf sha256 key value
  | .empty depth => emptyHash sha256 (.number (.int depth))
  | .node left right => do
    let l ← left.root
    let r ← right.root
    stateNode sha256 (.bytes l.bytes) (.bytes r.bytes)

/-- The string hashed last. -/
def Held.top : Held → List UInt8
  | .leaf key value => [STATE_LEAF_PREFIX] ++ ascii DOMAIN_STATE ++ key ++ (sha256 value).bytes
  | .empty => emptyLeafBytes
  | .node left right => nodeBytes (sha256 left.top).bytes (sha256 right.top).bytes

/-- Everything hashed for a tree. -/
def Held.strings : Held → List (List UInt8)
  | .leaf key value => [Held.top sha256 (.leaf key value), value]
  | .empty => [emptyLeafBytes]
  | .node left right => Held.top sha256 (.node left right) :: (left.strings ++ right.strings)

theorem tag_top (a : Held) : ((a.top sha256).headD 0).toNat = a.tag := by
  cases a <;> rfl

end Hashing

variable {sha256 : List UInt8 → Digest} {a b : Held} {c c' : Calls} {d d' : Digest} {strings : List (List UInt8)}

theorem top_mem : a.top sha256 ∈ a.strings sha256 := by
  cases a <;> exact List.mem_cons_self

theorem tag_eq (h : a.top sha256 = b.top sha256) : a.tag = b.tag := by
  rw [← tag_top sha256, h, tag_top]

theorem full_root (depth : ℕ) : sha256 ((full depth).top sha256) = emptyAt sha256 depth := by
  induction depth with
  | zero => rfl
  | succ depth ih => rw [full, Held.top, ih, emptyAt]

/-- The calls hash what the tree holds. -/
theorem root_held (h : c.root sha256 = .ok d) : d = sha256 (c.held.top sha256) := by
  induction c generalizing d with
  | leaf key value =>
    rw [Calls.root, stateLeaf, stateLeafBytes] at h
    cases hk : readFixed key 32 <;> cases hv : readBytes value <;> rw [hk, hv] at h <;> cases h
    rw [Calls.held, hk, hv]
    rfl
  | empty depth =>
    rw [Calls.root, emptyHash] at h
    split_ifs at h
    cases h
    exact (full_root depth).symm
  | node left right ihl ihr =>
    obtain ⟨l, hl, h⟩ := bind_iff.mp h
    obtain ⟨r, hr, h⟩ := bind_iff.mp h
    rw [stateNode, stateNodeBytes, readFixed_bytes l.size, ok_bind, readFixed_bytes r.size] at h
    cases h
    rw [Calls.held, Held.top, ← ihl hl, ← ihr hr]

theorem held_eq (hcf : NoCollision sha256 strings) (ha : a.strings sha256 ⊆ strings) (hb : b.strings sha256 ⊆ strings)
    (h : a.top sha256 = b.top sha256) : a = b := by
  induction a generalizing b with
  | leaf key value =>
    cases b with
    | leaf key' value' =>
      obtain ⟨hkey, hvalue⟩ := List.append_inj' h (by rw [Digest.size, Digest.size])
      rw [List.append_cancel_left_eq] at hkey
      rw [hkey, hcf value (ha (by simp [Held.strings])) value' (hb (by simp [Held.strings])) (Digest.ext hvalue)]
    | empty => cases tag_eq h
    | node left right => cases tag_eq h
  | empty =>
    cases b with
    | leaf key value => cases tag_eq h
    | empty => rfl
    | node left right => cases tag_eq h
  | node left right ihl ihr =>
    cases b with
    | leaf key value => cases tag_eq h
    | empty => cases tag_eq h
    | node left' right' =>
      obtain ⟨hl, hr⟩ := List.append_inj' h (by rw [Digest.size, Digest.size])
      rw [List.append_cancel_left_eq] at hl
      rw [Held.strings, List.cons_subset, List.append_subset] at ha hb
      have htop {t t' : Held} (ht : t.strings sha256 ⊆ strings) (ht' : t'.strings sha256 ⊆ strings)
          (h : (sha256 (t.top sha256)).bytes = (sha256 (t'.top sha256)).bytes) : t.top sha256 = t'.top sha256 :=
        hcf _ (ht top_mem) _ (ht' top_mem) (Digest.ext h)
      rw [ihl ha.2.1 hb.2.1 (htop ha.2.1 hb.2.1 hl), ihr ha.2.2 hb.2.2 (htop ha.2.2 hb.2.2 hr)]

/-- **A ROOT BINDS ITS TREE**: two accepted trees whose strings do not collide have one root
    exactly when they hold the same. -/
theorem root_eq_iff_held (hc : c.root sha256 = .ok d) (hc' : c'.root sha256 = .ok d')
    (hcf : NoCollision sha256 (c.held.strings sha256 ++ c'.held.strings sha256)) : d = d' ↔ c.held = c'.held := by
  obtain rfl := root_held hc
  obtain rfl := root_held hc'
  constructor
  · intro h
    exact held_eq hcf (List.subset_append_left _ _) (List.subset_append_right _ _)
      (hcf _ (List.mem_append_left _ top_mem) _ (List.mem_append_right _ top_mem) h)
  · intro h
    rw [h]

/-! ## A slot paid and a slot owed -/

def sampleKey : List UInt8 := List.replicate 32 1

/-- A slot marked paid, the rest of its tree empty. -/
def paidCalls : Calls := .node (.leaf (.bytes sampleKey) (.bytes (ascii "paid"))) (.empty 1)

/-- The same tree, its key in hex and its empty half built. -/
def spelledCalls : Calls := .node (.leaf (repeated "01" 32) (.bytes (ascii "paid"))) (.node (.empty 0) (.empty 0))

def owedCalls : Calls := .node (.leaf (.bytes sampleKey) (.bytes (ascii "owed"))) (.empty 1)

def paidRoot : Digest := .ofWord 0xebe0f2898b81c2b845ae8121a19f6090a7a5f0b9b6f08d960a8ad7cc007368fa

def owedRoot : Digest := .ofWord 0xcb67924cff0570116f2ea261dc7515389a4ea995eb69d8f2dc2ff1dfa54c63de

/-- SHA-256 on the eight strings hashed for the three trees. -/
def sampleSha256 (message : List UInt8) : Digest :=
  let paid : Digest := .ofWord 0x268ad70eb5bc4737a2ae28162cbca30118cc94520e49ef1ac5f72c85d3f2caa9
  let owed : Digest := .ofWord 0x4fef65587333a1a1a52cb573581360116cd0a0cbab6c14b19afb1f0776d0efb9
  let empty : Digest := .ofWord 0x840850734821db93d0578d224007ed370d3f7e149f1884179cdaa871e154096a
  let empties : Digest := .ofWord 0xcc3c183ca07f1fb9de7287b36bcbc1357b7c41027d94e79341b9c642e35de074
  let paidLeaf : Digest := .ofWord 0x9ad249c4cdb2f9f23aa8a316a75346b0e869bca34c550ca836a0e6bb386c6bd4
  let owedLeaf : Digest := .ofWord 0x91a1a0e263f068894db9b49e29823d8a9aa0f4690db26ca76db1090651e701c2
  if message = ascii "paid" then paid
  else if message = ascii "owed" then owed
  else if message = emptyLeafBytes then empty
  else if message = nodeBytes empty.bytes empty.bytes then empties
  else if message = [0x00] ++ ascii DOMAIN_STATE ++ sampleKey ++ paid.bytes then paidLeaf
  else if message = [0x00] ++ ascii DOMAIN_STATE ++ sampleKey ++ owed.bytes then owedLeaf
  else if message = nodeBytes paidLeaf.bytes empties.bytes then paidRoot
  else if message = nodeBytes owedLeaf.bytes empties.bytes then owedRoot
  else ⟨List.replicate 32 0, length_zeros⟩

theorem sample_roots : paidCalls.root sampleSha256 = .ok paidRoot ∧ spelledCalls.root sampleSha256 = .ok paidRoot
    ∧ owedCalls.root sampleSha256 = .ok owedRoot := by decide +kernel

theorem root_eq_iff_held_sample :
    (paidRoot = paidRoot ↔ paidCalls.held = spelledCalls.held)
    ∧ (paidRoot = owedRoot ↔ paidCalls.held = owedCalls.held) ∧ paidRoot ≠ owedRoot :=
  ⟨root_eq_iff_held sample_roots.1 sample_roots.2.1 (by decide +kernel),
    root_eq_iff_held sample_roots.1 sample_roots.2.2 (by decide +kernel), by decide +kernel⟩

end StateTree
