import Chit402.OrderedMapProofs

/-! # Tables that keep the first value of a key

    A table is filled by walking a list whose elements may have several keys,
    and a key that is taken stays with its first element. -/

namespace FirstCome

open OrderedMap

variable {ρ κ α : Type} [DecidableEq κ]

/-- `if (!map.has(key)) map.set(key, value)` -/
def put (m : OrderedMap κ α) (key : κ) (value : α) : OrderedMap κ α :=
  if (m.lookup key).isSome then m else set m key value

def putAll (m : OrderedMap κ α) (keys : List κ) (value : α) : OrderedMap κ α :=
  keys.foldl (fun m key => put m key value) m

/-- Every element under its keys, in order. -/
def collect (keys : ρ → List κ) (value : ρ → α) (rows : List ρ) : OrderedMap κ α :=
  rows.foldl (fun m row => putAll m (keys row) (value row)) ∅

theorem lookup_put (m : OrderedMap κ α) (key k : κ) (value : α) :
    (put m key value).lookup k = (m.lookup k).or (if key = k then some value else none) := by
  rw [put]
  split
  · rename_i htaken
    by_cases hk : key = k
    · rw [← hk, Option.or_of_isSome htaken]
    · rw [if_neg hk, Option.or_none]
  · rename_i hfree
    rw [lookup_set]
    by_cases hk : key = k
    · rw [if_pos hk.symm, if_pos hk, ← hk, Option.not_isSome_iff_eq_none.mp hfree, Option.none_or]
    · rw [if_neg (Ne.symm hk), if_neg hk, Option.or_none]

theorem lookup_putAll (m : OrderedMap κ α) (keys : List κ) (k : κ) (value : α) :
    (putAll m keys value).lookup k = (m.lookup k).or (if k ∈ keys then some value else none) := by
  induction keys generalizing m with
  | nil => rw [if_neg List.not_mem_nil, Option.or_none, putAll, List.foldl_nil]
  | cons key keys ih =>
    show (putAll (put m key value) keys value).lookup k = _
    rw [ih, lookup_put, Option.or_assoc]
    congr 1
    by_cases hk : key = k
    · rw [if_pos hk, if_pos (List.mem_cons.mpr (.inl hk.symm)), Option.some_or]
    · rw [if_neg hk, Option.none_or]
      exact if_congr (List.mem_cons.trans (or_iff_right (Ne.symm hk))).symm rfl rfl

/-- **FIRST COME**: a key has the value of the first element that has it. -/
theorem lookup_collect (keys : ρ → List κ) (value : ρ → α) (rows : List ρ) (k : κ) :
    (collect keys value rows).lookup k = (rows.find? fun row => k ∈ keys row).map value := by
  have hfold : ∀ (rows : List ρ) (m : OrderedMap κ α),
      (rows.foldl (fun m row => putAll m (keys row) (value row)) m).lookup k
        = (m.lookup k).or ((rows.find? fun row => k ∈ keys row).map value) := by
    intro rows
    induction rows with
    | nil => exact fun m => (Option.or_none).symm
    | cons row rows ih =>
      intro m
      rw [List.foldl_cons, ih, lookup_putAll, Option.or_assoc, List.find?_cons]
      congr 1
      by_cases hk : k ∈ keys row
      · rw [if_pos hk, decide_eq_true hk, Option.some_or, Option.map_some]
      · rw [if_neg hk, decide_eq_false hk, Option.none_or]
  rw [collect, hfold, AList.lookup_empty, Option.none_or]

variable {rows : List ρ} {row : ρ} {p : ρ → Bool}

theorem find?_unique (hmem : row ∈ rows) (hp : p row = true) (hunique : ∀ other ∈ rows, p other = true → other = row) :
    rows.find? p = some row := by
  cases hfound : rows.find? p with
  | none => exact absurd hp (List.find?_eq_none.mp hfound row hmem)
  | some other => rw [hunique other (List.mem_of_find?_eq_some hfound) (List.find?_some hfound)]

/-- Elements that agree are found alike in any order. -/
theorem find?_perm {β : Type} {f : ρ → β} {rows' : List ρ} (hperm : rows'.Perm rows)
    (hagree : ∀ row ∈ rows, ∀ other ∈ rows, p row = true → p other = true → f row = f other) :
    (rows'.find? p).map f = (rows.find? p).map f := by
  cases hfound : rows.find? p with
  | none =>
    have hnone : rows'.find? p = none :=
      List.find?_eq_none.mpr fun row hrow => List.find?_eq_none.mp hfound row (hperm.subset hrow)
    rw [hnone]
  | some row =>
    cases hfound' : rows'.find? p with
    | none =>
      have habsent := List.find?_eq_none.mp hfound' row (hperm.symm.subset (List.mem_of_find?_eq_some hfound))
      exact absurd (List.find?_some hfound) habsent
    | some other =>
      exact congrArg some (hagree other (hperm.subset (List.mem_of_find?_eq_some hfound')) row
        (List.mem_of_find?_eq_some hfound) (List.find?_some hfound') (List.find?_some hfound))

theorem exists_perm_first (hmem : row ∈ rows) (hp : p row = true) :
    ∃ rows' : List ρ, rows'.Perm rows ∧ rows'.find? p = some row := by
  obtain ⟨before, behind, rfl⟩ := List.append_of_mem hmem
  exact ⟨row :: (before ++ behind), List.perm_middle.symm, List.find?_cons_of_pos hp⟩

end FirstCome
