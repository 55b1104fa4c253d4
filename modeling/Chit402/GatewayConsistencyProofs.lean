import Chit402.InclusionAgreementProofs

/-! # The gateway's consistency check

    `verifyConsistency` of the receipt log rebuilds the old and the new root
    from texts that are decoded as hex and hashed whatever their length, and
    looks at the sizes only through the shape they give.

    Where it accepts sizes in order, every text but the two at the seam of
    the trees is 32 bytes long because its other operand is.  At the seam
    both lengths are free: there, and where the old tree is larger, a root
    that is no prefix root is accepted. -/

namespace GatewayConsistency

open AnchorAnswer AnchorLeaf HexDigest InclusionAgreement MerkleLevel
open JsText (isHexDigit)

abbrev Bytes := List UInt8

section Code

variable (sha256 : Bytes → Digest)

/-- Root of an ordered list of leaf hashes. -/
def rootOf (leaves : List Bytes) : Bytes := levelRoot (nodeHash sha256) (sha256 [0x00]).bytes leaves

def largestPowerOfTwoLessThan (n : ℕ) : ℕ := doubleBelow n 1

theorem largestPowerOfTwoLessThan_eq (n : ℕ) : largestPowerOfTwoLessThan n = split n :=
  doubleBelow_eq_split 0 (Or.inr rfl)

/-- `Buffer.from(proof[i++], 'hex')`; a short proof throws. -/
def take : List String → Option (Bytes × List String)
  | [] => none
  | text :: rest => some (bufferFromHex text.toList, rest)

/-- A rebuilt subtree: its hash, and that of its part in the old tree. -/
structure Rebuilt where
  hash : Bytes
  old : Option Bytes

def joinOld (left right : Option Bytes) (seamPassed : Bool) : Option Bytes :=
  match left, right with
  | some l, some r => some (nodeHash sha256 l r)
  | some l, none => if seamPassed then some l else none
  | none, _ => none

def check (oldEnd start stop : ℤ) (proof : List String) : Option (Rebuilt × List String) :=
  if stop ≤ oldEnd then (take proof).map fun (hash, rest) => (⟨hash, some hash⟩, rest)
  else if oldEnd ≤ start then (take proof).map fun (hash, rest) => (⟨hash, none⟩, rest)
  else
    let k := largestPowerOfTwoLessThan (stop - start).toNat
    match check oldEnd start (start + k) proof with
    | none => none
    | some (left, rest) =>
      match check oldEnd (start + k) stop rest with
      | none => none
      | some (right, rest) =>
        some (⟨nodeHash sha256 left.hash right.hash, joinOld sha256 left.old right.old (oldEnd ≤ start + k)⟩, rest)
termination_by (stop - start).toNat
decreasing_by
  · rw [largestPowerOfTwoLessThan_eq]
    have := split_lt (n := (stop - start).toNat) (by omega)
    omega
  · rw [largestPowerOfTwoLessThan_eq]
    have := split_pos (stop - start).toNat
    omega

/-- `toString('hex')` -/
def hex (bytes : Bytes) : String := String.ofList (toHexChars bytes)

/-- The whole proof is used up, and both roots come out as given. -/
def rebuildsRoots (m n : ℤ) (oldHex newHex : String) (proof : List String) : Bool :=
  match check sha256 m 0 n proof with
  | some (⟨hash, some old⟩, []) => hex hash = newHex && hex old = oldHex
  | _ => false

/-- `none` is a root or a proof that is not given. -/
def verifyConsistency (m n : ℤ) (oldRoot newRoot : Option String) (proof : Option (List String)) : Bool :=
  let oldHex := strip0x (oldRoot.getD "")
  let newHex := strip0x (newRoot.getD "")
  if m = n then oldHex = newHex && (proof.getD []).isEmpty
  else if (proof.getD []).isEmpty then false
  else rebuildsRoots sha256 m n oldHex newHex (proof.getD [])

end Code

variable {sha256 : Bytes → Digest}

/-! ## Trees over slices -/

theorem rootOf_eq (leaves : List Bytes) : rootOf sha256 leaves = mth (nodeHash sha256) (sha256 [0x00]).bytes leaves :=
  levelRoot_eq_mth leaves

/-- The root over the leaves from `start` up to `stop`. -/
def rootIn (sha256 : Bytes → Digest) (leaves : List Bytes) (start stop : ℕ) : Bytes :=
  rootOf sha256 (slice leaves start stop)

/-- Only its own two halves, in a row, hash to the root over a slice. -/
def Binding (sha256 : Bytes → Digest) (leaves : List Bytes) : Prop :=
  ∀ start stop, start + 2 ≤ stop → stop ≤ leaves.length → ∀ text, (sha256 (0x01 :: text)).bytes
    = rootIn sha256 leaves start stop →
    text = rootIn sha256 leaves start (start + split (stop - start))
      ++ rootIn sha256 leaves (start + split (stop - start)) stop

variable {leaves : List Bytes} {proof rest : List String} {r : Rebuilt} {text : String} {start stop : ℕ} {oldEnd : ℤ}

theorem rootIn_split (h2 : start + 2 ≤ stop) (hstop : stop ≤ leaves.length) :
    rootIn sha256 leaves start stop = nodeHash sha256 (rootIn sha256 leaves start (start + split (stop - start)))
      (rootIn sha256 leaves (start + split (stop - start)) stop) := by
  have hlen : (slice leaves start stop).length = stop - start := length_slice hstop
  have hlt := split_lt (n := stop - start) (by omega)
  rw [rootIn, rootOf_eq, mth_split _ (by omega), hlen, slice_take leaves (by omega), slice_drop,
    ← rootOf_eq, ← rootOf_eq]
  rfl

theorem length_nodeHash (left right : Bytes) : (nodeHash sha256 left right).length = 32 :=
  (sha256 (0x01 :: (left ++ right))).size

theorem length_rootIn (hleaves : ∀ leaf ∈ leaves, leaf.length = 32) (hlt : start < stop)
    (hstop : stop ≤ leaves.length) : (rootIn sha256 leaves start stop).length = 32 := by
  by_cases h2 : start + 2 ≤ stop
  · rw [rootIn_split h2 hstop]
    exact length_nodeHash _ _
  · obtain rfl : stop = start + 1 := by omega
    have hget : leaves[start]? = some leaves[start] := List.getElem?_eq_getElem (by omega)
    rw [rootIn, rootOf_eq, slice_singleton hget rfl, mth_singleton]
    exact hleaves _ (List.getElem_mem _)

/-- **TIE**: a pair that hashes to the root over a slice is its halves, if one length is right. -/
theorem binding_pair (hbind : Binding sha256 leaves) (hleaves : ∀ leaf ∈ leaves, leaf.length = 32)
    (h2 : start + 2 ≤ stop) (hstop : stop ≤ leaves.length) {left right : Bytes}
    (h : nodeHash sha256 left right = rootIn sha256 leaves start stop) (hlen : left.length = 32 ∨ right.length = 32) :
    left = rootIn sha256 leaves start (start + split (stop - start))
      ∧ right = rootIn sha256 leaves (start + split (stop - start)) stop := by
  have hlt := split_lt (n := stop - start) (by omega)
  have hpos := split_pos (stop - start)
  have htext := hbind start stop h2 hstop (left ++ right) h
  have hl : (rootIn sha256 leaves start (start + split (stop - start))).length = 32 :=
    length_rootIn hleaves (by omega) (by omega)
  have hr : (rootIn sha256 leaves (start + split (stop - start)) stop).length = 32 :=
    length_rootIn hleaves (by omega) hstop
  have hsum := congrArg List.length htext
  rw [List.length_append, List.length_append, hl, hr] at hsum
  have hleft : left.length = 32 := by
    rcases hlen with hlen | hlen
    · exact hlen
    · omega
  exact List.append_inj htext (hleft.trans hl.symm)

/-! ## Rebuilding -/

theorem check_old {start stop : ℤ} (hstop : stop ≤ oldEnd) (h : check sha256 oldEnd start stop proof = some (r, rest)) :
    ∃ text, proof = text :: rest ∧ r = ⟨bufferFromHex text.toList, some (bufferFromHex text.toList)⟩ := by
  rw [check, if_pos hstop] at h
  cases proof with
  | nil => cases h
  | cons text tail =>
    cases h
    exact ⟨text, rfl, rfl⟩

theorem check_new {start stop : ℤ} (hstop : ¬ stop ≤ oldEnd) (hstart : oldEnd ≤ start)
    (h : check sha256 oldEnd start stop proof = some (r, rest)) :
    ∃ text, proof = text :: rest ∧ r = ⟨bufferFromHex text.toList, none⟩ := by
  rw [check, if_neg hstop, if_pos hstart] at h
  cases proof with
  | nil => cases h
  | cons text tail =>
    cases h
    exact ⟨text, rfl, rfl⟩

theorem check_straddle {start stop : ℤ} (hstop : ¬ stop ≤ oldEnd) (hstart : ¬ oldEnd ≤ start)
    (h : check sha256 oldEnd start stop proof = some (r, rest)) :
    ∃ left right middle, check sha256 oldEnd start (start + split (stop - start).toNat) proof = some (left, middle)
      ∧ check sha256 oldEnd (start + split (stop - start).toNat) stop middle = some (right, rest)
      ∧ r = ⟨nodeHash sha256 left.hash right.hash,
          joinOld sha256 left.old right.old (oldEnd ≤ start + split (stop - start).toNat)⟩ := by
  rw [check, if_neg hstop, if_neg hstart] at h
  dsimp only at h
  rw [largestPowerOfTwoLessThan_eq] at h
  cases hleft : check sha256 oldEnd start (start + split (stop - start).toNat) proof with
  | none =>
    rw [hleft] at h
    cases h
  | some result =>
    obtain ⟨left, middle⟩ := result
    rw [hleft] at h
    dsimp only at h
    cases hright : check sha256 oldEnd (start + split (stop - start).toNat) stop middle with
    | none =>
      rw [hright] at h
      cases h
    | some result =>
      obtain ⟨right, last⟩ := result
      rw [hright] at h
      cases h
      exact ⟨left, right, middle, rfl, hright, rfl⟩

theorem split_prefix {size part : ℕ} (hlt : split size < part) (hle : part ≤ size) : split part = split size := by
  have hbound := le_two_mul_split size
  rw [split] at hlt hbound ⊢
  rw [← Nat.pow_succ'] at hbound
  exact split_eq_of_bounds hlt (Nat.le_trans hle hbound)

/-- Texts that decode to 32 bytes. -/
def Sized (texts : List String) : Prop := ∀ text ∈ texts, (bufferFromHex text.toList).length = 32

theorem sized_append {l r : List String} : Sized (l ++ r) ↔ Sized l ∧ Sized r := List.forall_mem_append

theorem sized_singleton : Sized [text] ↔ (bufferFromHex text.toList).length = 32 := List.forall_mem_singleton

/-- **SEAM**: a subtree across the end of the old tree that has the right hash has the right
    old part exactly when the texts it was rebuilt from are 32 bytes long. -/
theorem check_seam (hbind : Binding sha256 leaves) (hleaves : ∀ leaf ∈ leaves, leaf.length = 32) {m : ℕ} (size : ℕ) :
    ∀ {start stop : ℕ} {proof rest : List String} {r : Rebuilt}, stop - start = size → start < m →
      m < stop → stop ≤ leaves.length → check sha256 m start stop proof = some (r, rest) →
      r.hash = rootIn sha256 leaves start stop →
      ∃ used old, proof = used ++ rest ∧ r.old = some old ∧ (old = rootIn sha256 leaves start m ↔ Sized used) := by
  induction size using Nat.strongRecOn with
  | ind size ih =>
    intro start stop proof rest r hsize hstart hm hstop hcheck hhash
    have h2 : start + 2 ≤ stop := by omega
    have hlt := split_lt (n := stop - start) (by omega)
    have hpos := split_pos (stop - start)
    have hwidth : ((stop : ℤ) - start).toNat = stop - start := by omega
    obtain ⟨left, right, middle, hleft, hright, rfl⟩ := check_straddle (by omega) (by omega) hcheck
    rw [hwidth] at hleft hright hhash ⊢
    obtain ⟨seam, hseam⟩ : ∃ seam, start + split (stop - start) = seam := ⟨_, rfl⟩
    have hcast : (start : ℤ) + (split (stop - start) : ℕ) = (seam : ℤ) := by omega
    rw [hcast] at hleft hright hhash ⊢
    have htie := fun hlen => binding_pair hbind hleaves h2 hstop hhash hlen
    rw [hseam] at htie
    -- where the old tree ends: in the left half, at the seam, or in the right half
    rcases Nat.lt_trichotomy m seam with hinside | rfl | hbeyond
    · obtain ⟨text, rfl, rfl⟩ := check_new (by omega) (by omega) hright
      obtain ⟨inner, innerRight, middle', -, -, hinner⟩ := check_straddle (by omega) (by omega) hleft
      have h32 : left.hash.length = 32 := by
        rw [hinner]
        exact length_nodeHash _ _
      obtain ⟨hlefthash, hrighthash⟩ := htie (.inl h32)
      obtain ⟨used, old, rfl, hold, hiff⟩ := ih (seam - start) (by omega) rfl hstart hinside (by omega) hleft hlefthash
      have htext : (bufferFromHex text.toList).length = 32 := by
        show (Rebuilt.hash ⟨bufferFromHex text.toList, none⟩).length = 32
        rw [hrighthash]
        exact length_rootIn hleaves (by omega) hstop
      refine ⟨used ++ [text], old, by rw [List.append_assoc, List.singleton_append], ?_, ?_⟩
      · have hpast : decide ((m : ℤ) ≤ seam) = true := decide_eq_true (by omega)
        rw [hold, hpast]
        rfl
      · rw [hiff, sized_append, sized_singleton]
        exact ⟨fun h => ⟨h, htext⟩, fun h => h.1⟩
    · obtain ⟨first, rfl, rfl⟩ := check_old (le_refl _) hleft
      obtain ⟨second, rfl, rfl⟩ := check_new (by omega) (le_refl _) hright
      refine ⟨[first, second], bufferFromHex first.toList, rfl, ?_, ?_⟩
      · have hpast : decide ((m : ℤ) ≤ m) = true := decide_eq_true (le_refl _)
        rw [hpast]
        rfl
      · constructor
        · intro hold
          have hfirst : (bufferFromHex first.toList).length = 32 := by
            rw [hold]
            exact length_rootIn hleaves hstart (by omega)
          have hsecond : (bufferFromHex second.toList).length = 32 := by
            have hrighthash := (htie (.inl hfirst)).2
            dsimp only at hrighthash
            rw [hrighthash]
            exact length_rootIn hleaves hm hstop
          rw [show [first, second] = [first] ++ [second] from rfl, sized_append, sized_singleton, sized_singleton]
          exact ⟨hfirst, hsecond⟩
        · intro hsized
          exact (htie (.inl (hsized first List.mem_cons_self))).1
    · obtain ⟨text, rfl, rfl⟩ := check_old (by omega) hleft
      obtain ⟨inner, innerRight, middle', -, -, hinner⟩ := check_straddle (by omega) (by omega) hright
      have h32 : right.hash.length = 32 := by
        rw [hinner]
        exact length_nodeHash _ _
      obtain ⟨hlefthash, hrighthash⟩ := htie (.inr h32)
      obtain ⟨used, old, rfl, hold, hiff⟩ := ih (stop - seam) (by omega) rfl hbeyond hm hstop hright hrighthash
      dsimp only at hlefthash
      have htext : (bufferFromHex text.toList).length = 32 := by
        rw [hlefthash]
        exact length_rootIn hleaves (by omega) (by omega)
      refine ⟨text :: used, nodeHash sha256 (bufferFromHex text.toList) old, rfl, ?_, ?_⟩
      · rw [hold]
        rfl
      · -- the old part splits where the whole slice does
        have hsplit : split (m - start) = split (stop - start) := split_prefix (by omega) (by omega)
        have hroot : rootIn sha256 leaves start m = nodeHash sha256
            (rootIn sha256 leaves start (start + split (m - start)))
              (rootIn sha256 leaves (start + split (m - start)) m) :=
          rootIn_split (by omega) (by omega)
        rw [hsplit, hseam] at hroot
        have hcons : Sized (text :: used) ↔ Sized used := by
          rw [← List.singleton_append, sized_append, sized_singleton]
          exact ⟨fun h => h.2, fun h => ⟨htext, h⟩⟩
        rw [hcons, ← hiff]
        constructor
        · intro hnode
          have hpair : bufferFromHex text.toList = rootIn sha256 leaves start (start + split (m - start))
              ∧ old = rootIn sha256 leaves (start + split (m - start)) m :=
            binding_pair hbind hleaves (by omega) (by omega) hnode (.inl htext)
          rw [hsplit, hseam] at hpair
          exact hpair.2
        · intro hold'
          rw [hroot, hold', hlefthash]

/-! ## What an accepted proof proves -/

/-- Hex text as the log's callers check it: 64 digits in any case. -/
abbrev IsHexRoot (text : String) : Prop := IsSiblingHex text

theorem strip0x_digits (h : ∀ c ∈ text.toList, isHexDigit c = true) : strip0x text = text := by
  unfold strip0x
  split
  · rename_i rest heq
    have hx := h 'x' (by rw [heq]; exact List.mem_cons_of_mem _ List.mem_cons_self)
    exact absurd hx (by decide)
  · rfl

theorem strip0x_root (h : IsHexRoot text) : strip0x text = text :=
  strip0x_digits (List.all_eq_true.mp h.2)

theorem strip0x_hexOf (bytes : Bytes) : strip0x (hex bytes) = hex bytes := by
  apply strip0x_digits
  intro c hc
  rw [hex, String.toList_ofList] at hc
  exact (hexAlphabet_digits c (toHexChars_lower bytes c hc)).2.1

theorem hex_injective {a b : Bytes} (h : hex a = hex b) : a = b := by
  have hchars := congrArg String.toList h
  rw [hex, hex, String.toList_ofList, String.toList_ofList] at hchars
  rw [← fromHexChars_toHexChars a, hchars, fromHexChars_toHexChars]

/-- The hex root over the first `n` leaves. -/
def rootText (sha256 : Bytes → Digest) (leaves : List Digest) (n : ℤ) : String :=
  hex (rootOf sha256 ((leaves.map Digest.bytes).take n.toNat))

/-- The old tree is a part of the new one that holds a leaf, under its own root. -/
def IsPrefix (sha256 : Bytes → Digest) (leaves : List Digest) (m n : ℤ) (oldRoot : String) : Prop :=
  1 ≤ m ∧ m ≤ n ∧ oldRoot = rootText sha256 leaves m

/-- The sizes in order, and every text of a proof that is used 32 bytes long. -/
def InOrder (m n : ℤ) (proof : List String) : Prop := 1 ≤ m ∧ m ≤ n ∧ (m < n → Sized proof)

/-- Where the old tree is smaller, an accepted proof rebuilt both roots. -/
theorem accepted_check {m n : ℤ} {oldRoot newRoot : String} (hne : m ≠ n)
    (h : verifyConsistency sha256 m n (some oldRoot) (some newRoot) (some proof) = true) :
    ∃ hash old, check sha256 m 0 n proof = some (⟨hash, some old⟩, []) ∧ hex hash = strip0x newRoot
      ∧ hex old = strip0x oldRoot := by
  rw [verifyConsistency] at h
  rw [if_neg hne, Option.getD_some, Option.getD_some, Option.getD_some] at h
  split at h
  · cases h
  · rw [rebuildsRoots] at h
    split at h
    · rename_i hash old hcheck
      rw [Bool.and_eq_true, decide_eq_true_eq, decide_eq_true_eq] at h
      exact ⟨hash, old, hcheck, h.1, h.2⟩
    · cases h

/-- **SOUND WHERE SIZED**: an accepted proof shows a prefix exactly when the sizes are in
    order and every text of it is 32 bytes long. -/
theorem verifyConsistency_prefix_iff (sha256 : Bytes → Digest) (leaves : List Digest)
    (hbind : Binding sha256 (leaves.map Digest.bytes)) (m n : ℤ) (hn : n ≤ leaves.length) (oldRoot : String)
    (hold : IsHexRoot oldRoot) (proof : List String)
    (hok : verifyConsistency sha256 m n (some oldRoot) (some (rootText sha256 leaves n)) (some proof) = true) :
    IsPrefix sha256 leaves m n oldRoot ↔ InOrder m n proof := by
  by_cases heq : m = n
  · subst heq
    rw [verifyConsistency] at hok
    rw [if_pos rfl, Bool.and_eq_true, decide_eq_true_eq] at hok
    have hroots : oldRoot = rootText sha256 leaves m := by
      have hsame := hok.1
      rw [Option.getD_some, Option.getD_some, strip0x_root hold, rootText, strip0x_hexOf] at hsame
      exact hsame
    exact ⟨fun h => ⟨h.1, h.2.1, fun hlt => absurd hlt (Int.lt_irrefl m)⟩, fun h => ⟨h.1, h.2.1, hroots⟩⟩
  · by_cases hgt : n < m
    · exact ⟨fun h => absurd h.2.1 (by omega), fun h => absurd h.2.1 (by omega)⟩
    · obtain ⟨hash, old, hcheck, hnew, hroot⟩ := accepted_check heq hok
      rw [rootText, strip0x_hexOf] at hnew
      rw [strip0x_root hold] at hroot
      -- an old tree that ends before the first leaf leaves no old root
      have hm : 1 ≤ m := by
        by_contra hsmall
        obtain ⟨text, -, hr⟩ := check_new (by omega) (by omega) hcheck
        exact nomatch congrArg Rebuilt.old hr
      obtain ⟨m', rfl⟩ : ∃ m' : ℕ, m = m' := ⟨m.toNat, by omega⟩
      obtain ⟨n', rfl⟩ : ∃ n' : ℕ, n = n' := ⟨n.toNat, by omega⟩
      have hleaves : ∀ leaf ∈ leaves.map Digest.bytes, leaf.length = 32 := by
        intro leaf hleaf
        obtain ⟨d, -, rfl⟩ := List.mem_map.mp hleaf
        exact d.size
      have hwhole : hash = rootIn sha256 (leaves.map Digest.bytes) 0 n' := by
        rw [rootIn, slice_prefix]
        exact hex_injective hnew
      have hlength : n' ≤ (leaves.map Digest.bytes).length := by
        rw [List.length_map]
        omega
      obtain ⟨used, old', hused, hold', hiff⟩ := check_seam hbind hleaves n' (Nat.sub_zero n') (show 0 < m' by omega)
        (show m' < n' by omega) hlength hcheck hwhole
      obtain rfl := Option.some.inj hold'
      rw [List.append_nil] at hused
      subst hused
      have hrootIn : rootIn sha256 (leaves.map Digest.bytes) 0 m'
        = rootOf sha256 ((leaves.map Digest.bytes).take m') := by
        rw [rootIn, slice_prefix]
      rw [hrootIn] at hiff
      constructor
      · rintro ⟨h1, hle, htext⟩
        refine ⟨h1, hle, fun _ => hiff.mp (hex_injective ?_)⟩
        rw [hroot, htext, rootText, Int.toNat_natCast]
      · rintro ⟨h1, hle, hsized⟩
        refine ⟨h1, hle, ?_⟩
        rw [← hroot, hiff.mpr (hsized (by omega)), rootText, Int.toNat_natCast]

/-! ## A pair of leaves, and roots that are no prefix roots -/

def pairLeaves : List Digest := [zeroLeaf, ⟨List.replicate 32 0xaa, rfl⟩]

theorem binding_pairHash : Binding pairHash (pairLeaves.map Digest.bytes) := by
  intro start stop h2 hstop text htext
  have hlen : (pairLeaves.map Digest.bytes).length = 2 := rfl
  obtain rfl : start = 0 := by omega
  obtain rfl : stop = 2 := by omega
  have hroot : rootIn pairHash (pairLeaves.map Digest.bytes) 0 2 = pairRoot.bytes := by decide +kernel
  have hhalves : rootIn pairHash (pairLeaves.map Digest.bytes) 0 (0 + split (2 - 0))
      ++ rootIn pairHash (pairLeaves.map Digest.bytes) (0 + split (2 - 0)) 2
      = zeroLeaf.bytes ++ List.replicate 32 0xaa := by decide +kernel
  rw [hroot, pairHash] at htext
  rw [hhalves]
  split at htext
  · rename_i heq
    exact (List.cons.inj heq).2
  · exact absurd htext (by decide)

theorem verifyConsistency_prefix_pair :
    IsPrefix pairHash pairLeaves 1 2 zeroLeaf.toHex ↔ InOrder 1 2 [zeroLeaf.toHex, lowerStep.hash] := by
  refine verifyConsistency_prefix_iff pairHash pairLeaves binding_pairHash 1 2 (by decide) zeroLeaf.toHex ?_
    [zeroLeaf.toHex, lowerStep.hash] ?_
  · unfold IsHexRoot IsSiblingHex
    decide +kernel
  · decide +kernel

def sampleLeaves : List Digest := [.filled 1, .filled 2, .filled 3, .filled 4]

def firstPair : Digest := .ofWire "b331da6ec49d4547d9942a6727e5123f69bed5a0b97ac171cfbfd6201431fcfa" (by decide)

def secondPair : Digest := .ofWire "c673db2a8154b3024bf1bb380e1242f712bb5696d69dfda6b1d3fb2d7fd7f671" (by decide)

/-- SHA-256 at the strings hashed below. -/
def sampleHash (bytes : Bytes) : Digest :=
  if bytes = 0x01 :: (List.replicate 32 1 ++ List.replicate 32 2) then firstPair
  else if bytes = 0x01 :: (List.replicate 32 3 ++ List.replicate 32 4) then secondPair
  else if bytes = 0x01 :: (firstPair.bytes ++ secondPair.bytes) then
    .ofWire "c3e6c58c4802de670cf839d693e04ffc7c0e91c32ea81586e0dcb9433a9a2c30" (by decide)
  else if bytes = 0x01 :: (firstPair.bytes ++ List.replicate 31 3) then
    .ofWire "e6eb865540eff335c4c66ef3aa462b66017e1c506e6badff0ed355ca68e7c1e9" (by decide)
  else if bytes = 0x01 :: (firstPair.bytes ++ List.replicate 32 3) then
    .ofWire "30a02c023aa9f351be86615ceedfd51bc34d9a2a003174b4132ea26e5c2d0417" (by decide)
  else zeroLeaf

/-- The third and the fourth leaf, cut a byte too early. -/
def shiftedProof : List String := [
  "b331da6ec49d4547d9942a6727e5123f69bed5a0b97ac171cfbfd6201431fcfa",
  "03030303030303030303030303030303030303030303030303030303030303",
  "030404040404040404040404040404040404040404040404040404040404040404"]

/-- Three accepted calls: with the old tree larger than the new one, with both empty, and
    with an old root over a leaf cut short. -/
theorem accepted_no_prefix :
    verifyConsistency sampleHash 2 1 (some (rootText sampleHash sampleLeaves 1))
      (some (rootText sampleHash sampleLeaves 1))
        (some [rootText sampleHash sampleLeaves 1]) = true
      ∧ ¬ IsPrefix sampleHash sampleLeaves 2 1 (rootText sampleHash sampleLeaves 1)
      ∧ verifyConsistency sampleHash 0 0 (some (rootText sampleHash sampleLeaves 0))
        (some (rootText sampleHash sampleLeaves 0)) (some []) = true
      ∧ ¬ IsPrefix sampleHash sampleLeaves 0 0 (rootText sampleHash sampleLeaves 0)
      ∧ verifyConsistency sampleHash 3 4 (some "e6eb865540eff335c4c66ef3aa462b66017e1c506e6badff0ed355ca68e7c1e9")
        (some (rootText sampleHash sampleLeaves 4)) (some shiftedProof) = true
      ∧ ¬ IsPrefix sampleHash sampleLeaves 3 4 "e6eb865540eff335c4c66ef3aa462b66017e1c506e6badff0ed355ca68e7c1e9" := by
  refine ⟨by decide +kernel, fun h => absurd h.2.1 (by decide), by decide +kernel, fun h => absurd h.1 (by decide),
    by decide +kernel, fun h => absurd h.2.2 (by decide +kernel)⟩

end GatewayConsistency
