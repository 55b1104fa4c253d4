import Mathlib.Data.List.AList
import Mathlib.Algebra.Order.BigOperators.Group.List
import Mathlib.Algebra.Order.Ring.Nat

/-! # Maps that remember insertion order

    A finite map whose entries stay in the order of their first insertion:
    writing a present key replaces its value in place, writing a new one
    appends.  `AList.insert` moves a rewritten key to the front, so only the
    write is new here; lookup and erasure are Mathlib's. -/

abbrev OrderedMap (κ α : Type) := AList fun _ : κ => α

namespace OrderedMap

open List

variable {κ α : Type} [DecidableEq κ]

/-- Write `v` at `k`: in place when `k` is present, at the end otherwise. -/
def set (m : OrderedMap κ α) (k : κ) (v : α) : OrderedMap κ α :=
  if h : k ∈ m then m.replace k v
  else ⟨m.entries ++ [⟨k, v⟩], by
    have hk : k ∉ m.entries.keys := h
    unfold NodupKeys
    rw [keys_append, List.nodup_append]
    exact ⟨m.nodupKeys, by simp [keys], by rintro a ha b hb rfl; simp [keys] at hb; exact hk (hb ▸ ha)⟩⟩

/-- Rewrite every value in place. -/
def mapValues (f : α → α) (m : OrderedMap κ α) : OrderedMap κ α :=
  ⟨m.entries.map fun e => ⟨e.1, f e.2⟩, by
    have h := m.nodupKeys
    unfold NodupKeys keys at h ⊢
    rwa [List.map_map, show (Sigma.fst ∘ fun e : (_ : κ) × α => (⟨e.1, f e.2⟩ : (_ : κ) × α))
      = Sigma.fst from rfl]⟩

/-- Keep the entries whose value passes. -/
def keep (p : α → Bool) (m : OrderedMap κ α) : OrderedMap κ α :=
  ⟨m.entries.filter fun e => p e.2, m.nodupKeys.sublist List.filter_sublist⟩

/-- The values, oldest key first. -/
def values (m : OrderedMap κ α) : List α := m.entries.map Sigma.snd

def size (m : OrderedMap κ α) : ℕ := m.entries.length

/-- The sum of a quantity over the values. -/
def sum (m : OrderedMap κ α) (w : α → ℕ) : ℕ := (m.entries.map fun e => w e.2).sum

/-! ## Lookup -/

variable {l : List ((_ : κ) × α)} {w : α → ℕ} {k k' : κ}

private theorem dlookup_kreplace_self (k : κ) (v : α) (h : k ∈ l.keys) : dlookup k (kreplace k v l) = some v := by
  induction l with
  | nil =>
    simp [keys] at h
  | cons e rest ih =>
    obtain ⟨k', v'⟩ := e
    by_cases hk : k = k'
    · subst hk
      rw [kreplace, lookmap_cons_some (b := ⟨k, v⟩) _ _ (by simp), dlookup_cons_eq]
    · have hrest : k ∈ rest.keys := by
        simpa [keys, hk] using h
      rw [kreplace, lookmap_cons_none _ _ (by simp [hk]), dlookup_cons_ne _ _ hk]
      exact ih hrest

private theorem dlookup_kreplace_ne (v : α) (l : List ((_ : κ) × α)) (hne : k' ≠ k) :
    dlookup k' (kreplace k v l) = dlookup k' l := by
  induction l with
  | nil =>
    rfl
  | cons e rest ih =>
    obtain ⟨j, u⟩ := e
    by_cases hk : k = j
    · subst hk
      rw [kreplace, lookmap_cons_some (b := ⟨k, v⟩) _ _ (by simp), dlookup_cons_ne _ _ hne, dlookup_cons_ne _ _ hne]
    · rw [kreplace, lookmap_cons_none _ _ (by simp [hk])]
      by_cases hj : k' = j
      · subst hj
        rw [dlookup_cons_eq, dlookup_cons_eq]
      · rw [dlookup_cons_ne _ _ hj, dlookup_cons_ne _ _ hj]
        exact ih

@[simp] theorem lookup_set_self (m : OrderedMap κ α) (k : κ) (v : α) : (set m k v).lookup k = some v := by
  unfold set
  by_cases h : k ∈ m
  · rw [dif_pos h]
    exact dlookup_kreplace_self k v h
  · rw [dif_neg h]
    have hk : dlookup k m.entries = none := dlookup_eq_none.2 h
    show dlookup k (m.entries ++ [⟨k, v⟩]) = some v
    rw [dlookup_append, hk]
    simp

theorem lookup_set_ne (m : OrderedMap κ α) (v : α) (hne : k' ≠ k) : (set m k v).lookup k' = m.lookup k' := by
  unfold set
  by_cases h : k ∈ m
  · rw [dif_pos h]
    exact dlookup_kreplace_ne v m.entries hne
  · rw [dif_neg h]
    show dlookup k' (m.entries ++ [⟨k, v⟩]) = dlookup k' m.entries
    rw [dlookup_append]
    simp [hne]

theorem lookup_set (m : OrderedMap κ α) (k k' : κ) (v : α) :
    (set m k v).lookup k' = if k' = k then some v else m.lookup k' := by
  by_cases h : k' = k
  · subst h
    rw [if_pos rfl, lookup_set_self]
  · rw [if_neg h, lookup_set_ne m v h]

theorem forall_lookup_set {m : OrderedMap κ α} {v : α} {P : κ → α → Prop} (hnew : P k v)
    (hold : ∀ k' v', m.lookup k' = some v' → P k' v') (k' : κ) (v' : α) (h : (set m k v).lookup k' = some v') :
    P k' v' := by
  rw [lookup_set] at h
  split_ifs at h with hk
  · rwa [hk, ← Option.some.inj h]
  · exact hold k' v' h

theorem lookup_set_eq_none {m : OrderedMap κ α} {v : α} (h : (set m k v).lookup k' = none) :
    k' ≠ k ∧ m.lookup k' = none := by
  rw [lookup_set] at h
  split_ifs at h with hk
  exact ⟨hk, h⟩

theorem set_of_lookup {m : OrderedMap κ α} {v : α} (h : m.lookup k = some v) : set m k v = m := by
  have hk : k ∈ m := AList.lookup_isSome.1 (by rw [h]; rfl)
  unfold set
  rw [dif_pos hk]
  exact AList.ext (kreplace_self m.nodupKeys (AList.mem_lookup_iff.1 h))

theorem lookup_erase_eq (m : OrderedMap κ α) (k k' : κ) :
    AList.lookup k' (AList.erase k m) = if k' = k then none else m.lookup k' := by
  by_cases h : k' = k
  · subst h
    rw [if_pos rfl, AList.lookup_erase]
  · rw [if_neg h, AList.lookup_erase_ne h]

@[simp] theorem lookup_mapValues (m : OrderedMap κ α) (f : α → α) (k : κ) :
    (mapValues f m).lookup k = (m.lookup k).map f := by
  obtain ⟨l, hl⟩ := m
  show dlookup k (l.map fun e => (⟨e.1, f e.2⟩ : (_ : κ) × α)) = (dlookup k l).map f
  clear hl
  induction l with
  | nil =>
    rfl
  | cons e rest ih =>
    obtain ⟨j, u⟩ := e
    by_cases hj : k = j
    · subst hj
      simp
    · rw [List.map_cons, dlookup_cons_ne _ _ hj, dlookup_cons_ne _ _ hj]
      exact ih

@[simp] theorem lookup_keep (m : OrderedMap κ α) (p : α → Bool) (k : κ) :
    (keep p m).lookup k = (m.lookup k).filter p := by
  apply Option.ext
  intro v
  rw [Option.filter_eq_some_iff, ← Option.mem_def, AList.mem_lookup_iff, ← Option.mem_def, AList.mem_lookup_iff]
  unfold keep
  rw [List.mem_filter]

theorem mem_values_iff (m : OrderedMap κ α) (v : α) : v ∈ values m ↔ ∃ k, m.lookup k = some v := by
  unfold values
  constructor
  · intro h
    obtain ⟨e, he, rfl⟩ := List.mem_map.1 h
    exact ⟨e.1, (AList.mem_lookup_iff).2 he⟩
  · rintro ⟨k, hk⟩
    exact List.mem_map.2 ⟨⟨k, v⟩, (AList.mem_lookup_iff).1 hk, rfl⟩

theorem size_set (m : OrderedMap κ α) (k : κ) (v : α) :
    size (set m k v) = if (m.lookup k).isSome = true then size m else size m + 1 := by
  rw [size, set]
  by_cases h : k ∈ m
  · rw [dif_pos h, if_pos (AList.lookup_isSome.2 h)]
    have hkeys := congrArg List.length (keys_kreplace k v m.entries)
    simp only [keys, List.length_map] at hkeys
    exact hkeys
  · rw [dif_neg h, if_neg (fun hk => h (AList.lookup_isSome.1 hk))]
    exact List.length_append

/-! ## Sums -/

private theorem sum_kreplace (k : κ) (v old : α) (w : α → ℕ) (h : dlookup k l = some old) :
    ((kreplace k v l).map fun e => w e.2).sum + w old = (l.map fun e => w e.2).sum + w v := by
  induction l with
  | nil =>
    simp at h
  | cons e rest ih =>
    obtain ⟨j, u⟩ := e
    by_cases hk : k = j
    · subst hk
      rw [dlookup_cons_eq, Option.some.injEq] at h
      subst h
      rw [kreplace, lookmap_cons_some (b := ⟨k, v⟩) _ _ (by simp)]
      simp only [List.map_cons, List.sum_cons]
      omega
    · rw [dlookup_cons_ne _ _ hk] at h
      rw [kreplace, lookmap_cons_none _ _ (by simp [hk])]
      have hrest := ih h
      simp only [List.map_cons, List.sum_cons]
      unfold kreplace at hrest
      omega

/-- **A write exchanges one value's share for another's.** -/
theorem sum_set (m : OrderedMap κ α) (k : κ) (v : α) (w : α → ℕ) :
    sum (set m k v) w + (m.lookup k).elim 0 w = sum m w + w v := by
  unfold set
  by_cases h : k ∈ m
  · rw [dif_pos h]
    obtain ⟨old, hold⟩ := Option.isSome_iff_exists.1 (AList.lookup_isSome.2 h)
    rw [hold]
    exact sum_kreplace k v old w hold
  · rw [dif_neg h, AList.lookup_eq_none.2 h]
    simp [sum]

private theorem sum_kerase (k : κ) (w : α → ℕ) (l : List ((_ : κ) × α)) :
    ((kerase k l).map fun e => w e.2).sum + (dlookup k l).elim 0 w = (l.map fun e => w e.2).sum := by
  induction l with
  | nil =>
    rfl
  | cons e rest ih =>
    obtain ⟨j, u⟩ := e
    by_cases hk : k = j
    · subst hk
      have hker : kerase k ((⟨k, u⟩ : (_ : κ) × α) :: rest) = rest := kerase_cons_eq rfl
      rw [hker, dlookup_cons_eq]
      simp only [List.map_cons, List.sum_cons, Option.elim_some]
      omega
    · have hker : kerase k ((⟨j, u⟩ : (_ : κ) × α) :: rest) = ⟨j, u⟩ :: kerase k rest := kerase_cons_ne hk
      rw [hker, dlookup_cons_ne _ _ hk]
      simp only [List.map_cons, List.sum_cons]
      omega

theorem sum_erase_eq (m : OrderedMap κ α) (k : κ) (w : α → ℕ) :
    sum (AList.erase k m) w + (m.lookup k).elim 0 w = sum m w :=
  sum_kerase k w m.entries

omit [DecidableEq κ] in
theorem sum_mapValues (m : OrderedMap κ α) (f : α → α) (w : α → ℕ) : sum (mapValues f m) w = sum m (w ∘ f) := by
  unfold sum mapValues
  rw [List.map_map]
  rfl

omit [DecidableEq κ] in
theorem sum_le_sum (m : OrderedMap κ α) {w' : α → ℕ} (h : ∀ v, w v ≤ w' v) : sum m w ≤ sum m w' :=
  List.sum_le_sum fun e _ => h e.2

omit [DecidableEq κ] in
theorem sum_eq_zero (m : OrderedMap κ α) (h : ∀ v, w v = 0) : sum m w = 0 := by
  unfold sum
  rw [List.sum_eq_zero_iff]
  intro n hn
  obtain ⟨e, -, rfl⟩ := List.mem_map.mp hn
  exact h e.2

end OrderedMap
