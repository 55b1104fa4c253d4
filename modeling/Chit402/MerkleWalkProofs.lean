import Chit402.MerkleLevelProofs

/-! # The RFC 9162 proof loop is exact

    Inclusion and consistency verifiers run one loop: walk the proof, decide
    the side from the index and the last index of the level, and skip levels
    on which the node is promoted.  `proofLoop` is that loop over any
    accumulator; `climb` is the same walk one level at a time. -/

namespace MerkleWalk

open MerkleLevel

variable {H α : Type}

/-- The inner loop: halve both while the index is even and not zero. -/
def dropEven (fn sn : Nat) : Nat × Nat :=
  if fn % 2 = 0 ∧ fn ≠ 0 then dropEven (fn / 2) (sn / 2) else (fn, sn)

/-- The proof loop.  `none` when an element is left over at the root, otherwise
    the remaining size index and the accumulator. -/
def proofLoop (left right : H → α → α) (fn sn : Nat) (acc : α) : List H → Option (Nat × α)
  | [] => some (sn, acc)
  | p :: ps =>
    if sn = 0 then none
    else if fn % 2 = 1 ∨ fn = sn then
      -- an odd index stops `dropEven` at once
      proofLoop left right ((dropEven fn sn).1 / 2) ((dropEven fn sn).2 / 2) (left p acc) ps
    else proofLoop left right (fn / 2) (sn / 2) (right p acc) ps

/-- The walk one level at a time: a promoted node takes no element. -/
def climb (left right : H → α → α) (fn sn : Nat) (acc : α) (proof : List H) : Option α :=
  if sn = 0 then
    match proof with
    | [] => some acc
    | _ :: _ => none
  else if fn % 2 = 0 ∧ fn = sn then climb left right (fn / 2) (sn / 2) acc proof
  else
    match proof with
    | [] => none
    | p :: ps =>
      climb left right (fn / 2) (sn / 2) (if fn % 2 = 1 then left p acc else right p acc) ps
termination_by sn

variable {left right : H → α → α}

theorem climb_root (fn : Nat) (acc : α) (proof : List H) :
    climb left right fn 0 acc proof = match proof with
      | [] => some acc
      | _ :: _ => none := by
  rw [climb.eq_def, if_pos rfl]

variable {x : H} {proof xs : List H} {fn i sn : Nat}

theorem climb_promoted (acc : α) (proof : List H) (h0 : fn ≠ 0) (heven : fn % 2 = 0) :
    climb left right fn fn acc proof = climb left right (fn / 2) (fn / 2) acc proof := by
  rw [climb.eq_def, if_neg h0, if_pos ⟨heven, rfl⟩]

theorem climb_cons (acc : α) (p : H) (ps : List H) (h0 : sn ≠ 0) (h : ¬ (fn % 2 = 0 ∧ fn = sn)) :
    climb left right fn sn acc (p :: ps) = climb left right (fn / 2) (sn / 2)
      (if fn % 2 = 1 then left p acc else right p acc) ps := by
  rw [climb.eq_def, if_neg h0, if_neg h]

theorem climb_nil (fn sn : Nat) (acc : α) : climb left right fn sn acc [] = if sn = 0 then some acc else none := by
  induction sn using Nat.strongRecOn generalizing fn with
  | ind sn ih =>
    by_cases h0 : sn = 0
    · subst h0
      rw [climb_root, if_pos rfl]
    · rw [climb.eq_def, if_neg h0, if_neg h0]
      by_cases hp : fn % 2 = 0 ∧ fn = sn
      · rw [if_pos hp, ih (sn / 2) (by omega), if_neg (by omega)]
      · rw [if_neg hp]

/-! ## The inner loop -/

theorem dropEven_odd (sn : Nat) (h : fn % 2 = 1) : dropEven fn sn = (fn, sn) := by
  rw [dropEven, if_neg (by omega)]

theorem dropEven_promoted (h0 : fn ≠ 0) : ∃ f, dropEven fn fn = (f, f) ∧ f % 2 = 1 := by
  induction fn using Nat.strongRecOn with
  | ind fn ih =>
    by_cases heven : fn % 2 = 0
    · obtain ⟨f, hf, hodd⟩ := ih (fn / 2) (by omega) (by omega)
      refine ⟨f, ?_, hodd⟩
      rw [dropEven, if_pos ⟨heven, h0⟩, hf]
    · exact ⟨fn, dropEven_odd fn (by omega), by omega⟩

theorem climb_dropEven (acc : α) (proof : List H) : climb left right (dropEven fn fn).1 (dropEven fn fn).2 acc proof
      = climb left right fn fn acc proof := by
  induction fn using Nat.strongRecOn with
  | ind fn ih =>
    rw [dropEven]
    by_cases h : fn % 2 = 0 ∧ fn ≠ 0
    · rw [if_pos h, ih (fn / 2) (by omega), climb_promoted acc proof h.2 h.1]
    · rw [if_neg h]

/-- **THE LOOP IS THE LEVEL WALK**: it ends at the root with `r` exactly when the
    walk does. -/
theorem proofLoop_iff_climb (proof : List H) (hle : fn ≤ sn) (acc r : α) :
    proofLoop left right fn sn acc proof = some (0, r) ↔ climb left right fn sn acc proof = some r := by
  induction proof generalizing fn sn acc with
  | nil =>
    rw [climb_nil]
    by_cases h0 : sn = 0
    · simp [proofLoop, h0]
    · simp [proofLoop, h0]
  | cons p ps ih =>
    rw [proofLoop]
    by_cases h0 : sn = 0
    · subst h0
      simp [climb_root]
    · rw [if_neg h0]
      by_cases hodd : fn % 2 = 1
      · rw [if_pos (Or.inl hodd), dropEven_odd sn hodd, ih (by omega), climb_cons acc p ps h0 (by omega), if_pos hodd]
      · by_cases heq : fn = sn
        · subst heq
          obtain ⟨f, hf, hfodd⟩ := dropEven_promoted h0
          rw [if_pos (Or.inr rfl), ← climb_dropEven acc (p :: ps), hf,
            ih (Nat.le_refl _), climb_cons acc p ps (by omega) (by omega), if_pos hfodd]
        · rw [if_neg (by omega), ih (by omega), climb_cons acc p ps h0 (by omega), if_neg hodd]

/-- A walk that reaches the root uses at most one element per bit of the size index. -/
theorem climb_length_le (t : Nat) (acc : α) (proof : List H) {r : α} (h : climb left right fn sn acc proof = some r)
    (ht : sn < 2 ^ t) : proof.length ≤ t := by
  induction t generalizing fn sn acc proof with
  | zero =>
    obtain rfl : sn = 0 := by simpa using ht
    rw [climb_root] at h
    cases proof with
    | nil => exact Nat.le_refl 0
    | cons p ps => cases h
  | succ t ih =>
    have hhalf : sn / 2 < 2 ^ t := by
      rw [Nat.pow_succ] at ht
      omega
    cases proof with
    | nil => exact Nat.zero_le _
    | cons p ps =>
      by_cases h0 : sn = 0
      · subst h0
        rw [climb_root] at h
        cases h
      · by_cases hp : fn % 2 = 0 ∧ fn = sn
        · obtain ⟨heven, rfl⟩ := hp
          rw [climb_promoted acc _ h0 heven] at h
          exact Nat.le_succ_of_le (ih acc (p :: ps) h hhalf)
        · rw [climb_cons acc p ps h0 hp] at h
          have := ih _ ps h hhalf
          simp only [List.length_cons]
          omega

/-! ## Loops over other accumulators, and the sides they take -/

section Maps

variable {H' α' : Type} {left' right' : H' → α' → α'} {f : H → H'} {g : α → α'}

/-- A loop over the images of the elements, whose joins follow the images, is
    the image of the loop. -/
theorem proofLoop_map (hleft : ∀ p ∈ proof, ∀ a, left' (f p) (g a) = g (left p a))
    (hright : ∀ p ∈ proof, ∀ a, right' (f p) (g a) = g (right p a)) (fn sn : Nat) (acc : α) :
    proofLoop left' right' fn sn (g acc) (proof.map f)
      = (proofLoop left right fn sn acc proof).map fun r => (r.1, g r.2) := by
  induction proof generalizing fn sn acc with
  | nil => rfl
  | cons p ps ih =>
    have htail := ih (fun q hq => hleft q (List.mem_cons_of_mem p hq))
      (fun q hq => hright q (List.mem_cons_of_mem p hq))
    rw [List.map_cons, proofLoop, proofLoop]
    split_ifs with h0 hside
    · rfl
    · rw [hleft p List.mem_cons_self, htail]
    · rw [hright p List.mem_cons_self, htail]

/-- The level walk, likewise. -/
theorem climb_map (hleft : ∀ p ∈ proof, ∀ a, left' (f p) (g a) = g (left p a))
    (hright : ∀ p ∈ proof, ∀ a, right' (f p) (g a) = g (right p a)) (hle : fn ≤ sn) (hinj : Function.Injective g)
    (acc r : α) : climb left' right' fn sn (g acc) (proof.map f) = some (g r)
      ↔ climb left right fn sn acc proof = some r := by
  rw [← proofLoop_iff_climb _ hle, ← proofLoop_iff_climb _ hle, proofLoop_map hleft hright]
  constructor
  · intro h
    obtain ⟨⟨k, r'⟩, hloop, hr⟩ := Option.map_eq_some_iff.mp h
    obtain ⟨rfl, hr⟩ := Prod.mk.inj hr
    rw [hloop, show r' = r from hinj hr]
  · intro h
    rw [h]
    rfl

end Maps

/-- Where a sibling stands. -/
inductive Side where
  | left
  | right
deriving DecidableEq

/-- The sides of the siblings from a node up to the root: a promoted node has
    none, an odd one has its sibling on the left. -/
def sides (fn sn : Nat) : List Side :=
  if sn = 0 then []
  else if fn % 2 = 0 ∧ fn = sn then sides (fn / 2) (sn / 2)
  else (if fn % 2 = 1 then .left else .right) :: sides (fn / 2) (sn / 2)
termination_by sn

theorem sides_root (fn : Nat) : sides fn 0 = [] := by
  rw [sides.eq_def, if_pos rfl]

theorem sides_odd (h0 : sn ≠ 0) (hodd : fn % 2 = 1) : sides fn sn = .left :: sides (fn / 2) (sn / 2) := by
  rw [sides.eq_def, if_neg h0, if_neg (by omega), if_pos hodd]

theorem sides_even (h0 : sn ≠ 0) (heven : fn % 2 = 0) (hne : fn ≠ sn) :
    sides fn sn = .right :: sides (fn / 2) (sn / 2) := by
  rw [sides.eq_def, if_neg h0, if_neg (by omega), if_neg (by omega)]

theorem sides_dropEven (fn : Nat) : sides (dropEven fn fn).1 (dropEven fn fn).2 = sides fn fn := by
  induction fn using Nat.strongRecOn with
  | ind fn ih =>
    rw [dropEven]
    by_cases h : fn % 2 = 0 ∧ fn ≠ 0
    · rw [if_pos h, ih (fn / 2) (by omega), sides.eq_def fn fn, if_neg h.2, if_pos ⟨h.1, rfl⟩]
    · rw [if_neg h]

theorem sides_left (h0 : sn ≠ 0) (h : fn % 2 = 1 ∨ fn = sn) :
    sides fn sn = .left :: sides ((dropEven fn sn).1 / 2) ((dropEven fn sn).2 / 2) := by
  by_cases hodd : fn % 2 = 1
  · rw [dropEven_odd sn hodd, sides_odd h0 hodd]
  · obtain rfl : fn = sn := h.resolve_left hodd
    obtain ⟨f, hf, hfodd⟩ := dropEven_promoted h0
    rw [← sides_dropEven, hf, sides_odd (by omega) hfodd]

theorem sides_right (h0 : sn ≠ 0) (h : ¬ (fn % 2 = 1 ∨ fn = sn)) : sides fn sn = .right :: sides (fn / 2) (sn / 2) :=
  sides_even h0 (by omega) (by omega)

/-- The loop takes at most as many elements as there are sides. -/
theorem proofLoop_isSome_iff (proof : List H) (fn sn : Nat) (acc : α) :
    (proofLoop left right fn sn acc proof).isSome = true ↔ proof.length ≤ (sides fn sn).length := by
  induction proof generalizing fn sn acc with
  | nil => exact ⟨fun _ => Nat.zero_le _, fun _ => rfl⟩
  | cons p ps ih =>
    rw [proofLoop]
    split_ifs with h0 hside
    · rw [h0, sides_root]
      simp
    · rw [ih, sides_left h0 hside]
      simp
    · rw [ih, sides_right h0 hside]
      simp

/-! ## One root: inclusion -/

section Inclusion

variable {node : H → H → H} {empty : H}

/-- The inclusion walk: join a left sibling before, a right sibling after. -/
def includeLeft (node : H → H → H) (p r : H) : H := node p r

/-- See `includeLeft`. -/
def includeRight (node : H → H → H) (p r : H) : H := node r p

/-- What an accepted element must be on a collision-free level, given the node
    reached above. -/
theorem climb_inclusion_step (hcf : CollisionFree node xs) (hx : xs[i]? = some x)
    (hnot : ¬ (i % 2 = 0 ∧ i = xs.length - 1)) (r p : H) : (pairUp node xs)[i / 2]?
        = some (if i % 2 = 1 then includeLeft node p r else includeRight node p r) ↔ x = r ∧ sibling i xs = some p := by
  have hi : i < xs.length := (List.getElem?_eq_some_iff.mp hx).1
  by_cases hodd : i % 2 = 1
  · obtain ⟨q, ha, hb, hsib, htop⟩ := level_odd node hx hodd
    rw [htop, hsib, if_pos hodd, Option.some.injEq, Option.some.injEq]
    constructor
    · intro h
      obtain ⟨rfl, rfl⟩ := hcf 0 (i / 2) _ _ ha hb p r h.symm
      exact ⟨rfl, rfl⟩
    · rintro ⟨rfl, rfl⟩
      rfl
  · obtain ⟨q, ha, hb, hsib, htop⟩ := level_even node hx (by omega) (by omega)
    rw [htop, hsib, if_neg hodd, Option.some.injEq, Option.some.injEq]
    constructor
    · intro h
      obtain ⟨rfl, rfl⟩ := hcf 0 (i / 2) _ _ ha hb r p h.symm
      exact ⟨rfl, rfl⟩
    · rintro ⟨rfl, rfl⟩
      rfl

variable (empty) in
/-- **INCLUSION IS EXACT**: on a collision-free tree the walk from position `i`
    reaches the tree hash from exactly the leaf at `i` along exactly its path. -/
theorem climb_inclusion_iff (hcf : CollisionFree node xs) (hx : xs[i]? = some x) (r : H) (proof : List H) :
    climb (includeLeft node) (includeRight node) i (xs.length - 1) r proof = some (mth node empty xs)
      ↔ x = r ∧ proof = path node empty i xs := by
  induction hn : xs.length using Nat.strongRecOn generalizing xs i x r proof with
  | ind n ih =>
    subst hn
    have hi : i < xs.length := (List.getElem?_eq_some_iff.mp hx).1
    by_cases h1 : xs.length = 1
    · obtain ⟨y, rfl⟩ := List.length_eq_one_iff.mp h1
      obtain rfl : i = 0 := by
        simp only [List.length_singleton] at hi
        omega
      cases hx
      rw [path_short 0 (by simp), List.length_singleton, climb_root]
      cases proof with
      | nil => simp [eq_comm]
      | cons p ps => simp
    · have hlen : (pairUp node xs).length = (xs.length + 1) / 2 := length_pairUp node xs
      have hup : ∀ {y : H} (r : H) (proof : List H), (pairUp node xs)[i / 2]? = some y →
          (climb (includeLeft node) (includeRight node) (i / 2) ((xs.length - 1) / 2) r proof
            = some (mth node empty xs)
          ↔ y = r ∧ proof = path node empty (i / 2) (pairUp node xs)) := by
        intro y r proof hy
        have := ih (pairUp node xs).length (by omega) hcf.pairUp hy r proof rfl
        rw [show (pairUp node xs).length - 1 = (xs.length - 1) / 2 by omega, mth_pairUp] at this
        exact this
      rw [path_pairUp i xs hi]
      by_cases hp : i % 2 = 0 ∧ i = xs.length - 1
      · obtain ⟨hsib, htop⟩ := level_promoted node hx hp.1 (by omega)
        have hstep : climb (includeLeft node) (includeRight node) i i r proof
            = climb (includeLeft node) (includeRight node) (i / 2) (i / 2) r proof :=
          climb_promoted r proof (by omega) hp.1
        rw [← hp.2, hstep, hsib]
        have := hup r proof htop
        rw [← hp.2] at this
        exact this
      · have hstep := climb_inclusion_step hcf hx hp r
        obtain ⟨q, hsib⟩ := exists_sibling hi hp
        rw [hsib]
        cases proof with
        | nil =>
          rw [climb_nil, if_neg (by omega)]
          simp
        | cons p ps =>
          obtain ⟨y, hy⟩ : ∃ y, (pairUp node xs)[i / 2]? = some y :=
            ⟨_, List.getElem?_eq_getElem (by omega)⟩
          have hyr := hstep p
          rw [hy, Option.some.injEq, hsib, Option.some.injEq] at hyr
          rw [climb_cons r p ps (by omega) hp, hup _ ps hy, hyr]
          constructor
          · rintro ⟨⟨rfl, rfl⟩, rfl⟩
            exact ⟨rfl, rfl⟩
          · rintro ⟨rfl, hps⟩
            cases hps
            exact ⟨⟨rfl, rfl⟩, rfl⟩

end Inclusion

end MerkleWalk
