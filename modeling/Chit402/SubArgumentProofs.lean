import Chit402.IdealArgumentProofs
import Chit402.TensorProofs

/-! # The sub-arguments of the norm and softmax provers

    What `verify_committed_softmax` and the two RMSNorm verifiers call, as
    parameters: the Hadamard, row-sum and lookup arguments and the two fused
    scaling steps, on tables or on commitments to tables.  Each has the
    relation it is an argument for. -/

namespace SubArgument

open ExceptFlow Mle IdealArgument Tensor
open Lookup (IsPowerOfTwo)

variable {p : ℕ} [Fact p.Prime] {α β : Type}

/-- A tensor, as a table of field values. -/
abbrev Table (p : ℕ) := List (ZMod p)

/-! ## Statements -/

/-- `z = a ⊙ b` -/
structure Hadamard (α : Type) where
  len : ℕ
  a : α
  b : α
  z : α

def Hadamard.map (f : α → β) (s : Hadamard α) : Hadamard β := ⟨s.len, f s.a, f s.b, f s.z⟩

def Hadamard.Holds (s : Hadamard (Table p)) : Prop :=
  IsPowerOfTwo s.len ∧ s.a.length = s.len ∧ s.b.length = s.len ∧ s.z = hadamard s.a s.b

structure RowSum (α : Type) where
  rows : ℕ
  cols : ℕ
  wide : α
  narrow : α

def RowSum.map (f : α → β) (s : RowSum α) : RowSum β := ⟨s.rows, s.cols, f s.wide, f s.narrow⟩

def RowSum.Holds (s : RowSum (Table p)) : Prop :=
  IsPowerOfTwo s.rows ∧ IsPowerOfTwo s.cols ∧ s.wide.length = s.rows * s.cols ∧ s.narrow = rowSums s.wide s.rows s.cols

/-- Every row of the query columns is a row of the table columns. -/
structure Lookup (α : Type) where
  n : ℕ
  t : ℕ
  query : List α
  table : List α

def Lookup.map (f : α → β) (s : Lookup α) : Lookup β := ⟨s.n, s.t, s.query.map f, s.table.map f⟩

theorem Lookup.map_inverse {f : α → β} {g : β → α} (h : ∀ a, g (f a) = a) (s : Lookup α) : (s.map f).map g = s := by
  have hlist : ∀ l : List α, (l.map f).map g = l := by
    intro l
    rw [List.map_map]
    exact List.map_id'' h l
  exact congrArg₂ (Lookup.mk s.n s.t) (hlist s.query) (hlist s.table)

def Lookup.Holds (s : Lookup (Table p)) : Prop :=
  IsPowerOfTwo s.n ∧ IsPowerOfTwo s.t ∧ (∀ q ∈ s.query, q.length = s.n) ∧ (∀ u ∈ s.table, u.length = s.t)
    ∧ ∀ i < s.n, ∃ k < s.t, s.query.map (entry · i) = s.table.map (entry · k)

/-- `p[i,j] = e[i,j]·r[i]` -/
structure SoftmaxScale (α : Type) where
  seq : ℕ
  e : α
  r : α
  probs : α

def SoftmaxScale.map (f : α → β) (s : SoftmaxScale α) : SoftmaxScale β := ⟨s.seq, f s.e, f s.r, f s.probs⟩

def SoftmaxScale.Holds (s : SoftmaxScale (Table p)) : Prop :=
  IsPowerOfTwo s.seq ∧ s.e.length = s.seq * s.seq ∧ s.r.length = s.seq
    ∧ s.probs = hadamard s.e (broadcastRows s.r s.seq)

/-- `y[i,j] = x[i,j]·inv[i]·w[j]`, with `w` in the clear. -/
structure NormScale (p : ℕ) (α : Type) where
  seq : ℕ
  d : ℕ
  w : Table p
  x : α
  inv : α
  y : α

def NormScale.map (f : α → β) (s : NormScale p α) : NormScale p β := ⟨s.seq, s.d, s.w, f s.x, f s.inv, f s.y⟩

def NormScale.Holds (s : NormScale p (Table p)) : Prop :=
  IsPowerOfTwo s.seq ∧ IsPowerOfTwo s.d ∧ s.w.length = s.d ∧ s.x.length = s.seq * s.d ∧ s.inv.length = s.seq
    ∧ s.y = hadamard (hadamard s.x (broadcastRows s.inv s.d)) (broadcastCols s.w s.seq)

instance : DecidablePred (Hadamard.Holds (p := p)) := fun _ => inferInstanceAs (Decidable (_ ∧ _))

instance : DecidablePred (RowSum.Holds (p := p)) := fun _ => inferInstanceAs (Decidable (_ ∧ _))

instance : DecidablePred (Lookup.Holds (p := p)) := fun s =>
  inferInstanceAs (Decidable (IsPowerOfTwo s.n ∧ IsPowerOfTwo s.t ∧ (∀ q ∈ s.query, _)
    ∧ (∀ u ∈ s.table, _) ∧ ∀ i < s.n, _))

instance : DecidablePred (SoftmaxScale.Holds (p := p)) := fun _ => inferInstanceAs (Decidable (_ ∧ _))

instance : DecidablePred (NormScale.Holds (p := p)) := fun _ => inferInstanceAs (Decidable (_ ∧ _))

/-! ## Lookups of a code table -/

/-- The lookup of a column of codes and one of values. -/
def tableLookup (table : CodeTable p) (n : ℕ) (codes values : Table p) : Lookup (Table p) :=
  ⟨n, table.domain, [codes, values], [table.inCodes, table.outCodes]⟩

variable {codes values : Table p} {n : ℕ}

/-- It holds when the codes are in the domain and the values are theirs. -/
theorem tableLookup_iff {table : CodeTable p} :
    (tableLookup table n codes values).Holds ↔ IsPowerOfTwo n ∧ codes.length = n ∧ values.length = n
      ∧ ∀ i < n, table.InDomain (entry codes i) ∧ entry values i = table.value (entry codes i) := by
  have hrow : ∀ i, (∃ k < table.domain, [codes, values].map (entry · i)
    = [table.inCodes, table.outCodes].map (entry · k))
      ↔ table.InDomain (entry codes i) ∧ entry values i = table.value (entry codes i) := by
    intro i
    rw [← table.row_iff]
    refine exists_congr fun k => and_congr_right fun _ => ?_
    rw [List.map_cons, List.map_cons, List.map_nil, List.map_cons, List.map_cons, List.map_nil, List.cons.injEq,
      List.cons.injEq]
    exact ⟨fun h => ⟨h.1, h.2.1⟩, fun h => ⟨h.1, h.2, rfl⟩⟩
  constructor
  · rintro ⟨hn, -, hquery, -, hrows⟩
    exact ⟨hn, hquery codes List.mem_cons_self, hquery values (List.mem_cons_of_mem _ List.mem_cons_self),
      fun i hi => (hrow i).mp (hrows i hi)⟩
  · rintro ⟨hn, hcodes, hvalues, hrows⟩
    refine ⟨hn, table.pow2, ?_, ?_, fun i hi => (hrow i).mpr (hrows i hi)⟩
    · intro q hq
      rcases List.mem_pair.mp hq with rfl | rfl
      · exact hcodes
      · exact hvalues
    · intro u hu
      rcases List.mem_pair.mp hu with rfl | rfl
      · exact table.length_inCodes
      · exact table.length_out

theorem tableLookup_map {table : CodeTable p} (h : (tableLookup table n codes values).Holds) :
    values = codes.map table.value := by
  obtain ⟨-, hcodes, hvalues, hrows⟩ := tableLookup_iff.mp h
  refine table_ext (by rw [List.length_map, hcodes, hvalues]) fun i hi => ?_
  rw [hvalues] at hi
  rw [(hrows i hi).2, entry_map_of_lt (by rw [hcodes]; exact hi)]

theorem tableLookup_apply {table : CodeTable p} (hn : IsPowerOfTwo n) (hlen : codes.length = n)
    (hdomain : ∀ i < n, table.InDomain (entry codes i)) :
    table.apply codes = .ok (codes.map table.value) ∧ (tableLookup table n codes (codes.map table.value)).Holds := by
  constructor
  · refine table.apply_eq fun c hc => ?_
    obtain ⟨i, hi, rfl⟩ := List.mem_iff_getElem.mp hc
    rw [← entry_of_lt hi]
    exact hdomain i (by rw [← hlen]; exact hi)
  · refine tableLookup_iff.mpr ⟨hn, hlen, by rw [List.length_map, hlen], fun i hi => ⟨hdomain i hi, ?_⟩⟩
    exact entry_map_of_lt (by rw [hlen]; exact hi)

/-! ## The parts -/

/-- The arguments the verifiers are built from, with the transcript they share. -/
structure Parts (p : ℕ) where
  T : Type
  Comm : Type
  commit : Table p → Comm
  bytes : Comm → List UInt8
  hadamard : Argument Abort T (Hadamard (Table p)) (Hadamard (Table p))
  lookup : Argument Abort T (Lookup (Table p)) (Lookup (Table p))
  hadamardIo : Argument Abort T (Hadamard Comm) (Hadamard (Table p))
  rowSum : Argument Abort T (RowSum Comm) (RowSum (Table p))
  committedLookup : Argument Abort T (Lookup Comm) (Lookup (Table p))
  softmaxScale : Argument Abort T (SoftmaxScale Comm) (SoftmaxScale (Table p))
  normScale : Argument Abort T (NormScale p Comm) (NormScale p (Table p))

/-- **IDEAL PARTS**: a commitment is to one table, and every part is ideal for its relation,
    on tables or on what is behind the commitments. -/
structure Parts.Ideal (P : Parts p) (committed : P.Comm → Table p) : Prop where
  commits : ∀ t : Table p, IsPowerOfTwo t.length → committed (P.commit t) = t
  bytes : Function.Injective P.bytes
  hadamard : P.hadamard.Ideal id id Hadamard.Holds
  lookup : P.lookup.Ideal id id Lookup.Holds
  hadamardIo : P.hadamardIo.Ideal (Hadamard.map P.commit) (Hadamard.map committed) Hadamard.Holds
  rowSum : P.rowSum.Ideal (RowSum.map P.commit) (RowSum.map committed) RowSum.Holds
  committedLookup : P.committedLookup.Ideal (Lookup.map P.commit) (Lookup.map committed) Lookup.Holds
  softmaxScale : P.softmaxScale.Ideal (SoftmaxScale.map P.commit) (SoftmaxScale.map committed) SoftmaxScale.Holds
  normScale : P.normScale.Ideal (NormScale.map P.commit) (NormScale.map committed) NormScale.Holds

structure CommittedLookupProof (P : Parts p) where
  commQuery : List P.Comm
  commTable : List P.Comm
  rest : P.committedLookup.Proof

/-- The commitments of a proof that must have two columns. -/
def twoColumns {C : Type} : List C → Except Abort (C × C)
  | [a, b] => .ok (a, b)
  | _ => .error .reject

theorem twoColumns_ok_iff {C : Type} {l : List C} {ab : C × C} : twoColumns l = .ok ab ↔ l = [ab.1, ab.2] := by
  constructor
  · intro h
    rcases l with _ | ⟨a, _ | ⟨b, _ | ⟨c, l⟩⟩⟩
    · cases h
    · cases h
    · cases h
      rfl
    · cases h
  · rintro rfl
    rfl

section Verify

variable (P : Parts p) (table : CodeTable p)

/-- `prove_committed_lookup` on two columns and a code table. -/
def proveTableLookup (n : ℕ) (codes values : Table p) (tr : P.T) : Except Abort (CommittedLookupProof P × P.T) := do
  let out ← P.committedLookup.prove (tableLookup table n codes values) tr
  .ok (⟨[codes, values].map P.commit, [table.inCodes, table.outCodes].map P.commit, out.1⟩, out.2)

/-- The table of the proof is the canonical one, and the lookup is accepted. -/
def verifyTableLookup (n : ℕ) (proof : CommittedLookupProof P) (tr : P.T) : Except Abort P.T := do
  let columns ← twoColumns proof.commTable
  revertIf (P.bytes columns.1 ≠ P.bytes (P.commit table.inCodes)
    ∨ P.bytes columns.2 ≠ P.bytes (P.commit table.outCodes))
    .reject
  P.committedLookup.verify ⟨n, table.domain, proof.commQuery, proof.commTable⟩ proof.rest tr

end Verify

variable {P : Parts p} {committed : P.Comm → Table p} {table : CodeTable p}

/-- What an accepted table lookup says of the two query columns. -/
theorem verifyTableLookup_sound (h : P.Ideal committed) {proof : CommittedLookupProof P} {tr tr' : P.T}
    {codes values : P.Comm} (hquery : proof.commQuery = [codes, values])
    (hverify : verifyTableLookup P table n proof tr = .ok tr') :
    (tableLookup table n (committed codes) (committed values)).Holds := by
  obtain ⟨columns, htwo, hverify⟩ := bind_iff.mp hverify
  obtain ⟨hbytes, hverify⟩ := guarded_iff.mp hverify
  obtain ⟨hin, hout⟩ := not_or.mp hbytes
  have hcanonical := h.committedLookup.sound _ _ _ _ hverify
  rw [twoColumns_ok_iff.mp htwo, hquery, h.bytes (not_not.mp hin), h.bytes (not_not.mp hout)] at hcanonical
  rw [Lookup.map, List.map_cons, List.map_cons, List.map_nil, List.map_cons, List.map_cons, List.map_nil,
    h.commits _ (by rw [table.length_inCodes]; exact table.pow2),
    h.commits _ (by rw [table.length_out]; exact table.pow2)] at hcanonical
  exact hcanonical

theorem proveTableLookup_complete (h : P.Ideal committed) (tr : P.T)
    (hholds : (tableLookup table n codes values).Holds) : ∃ out, proveTableLookup P table n codes values tr = .ok out
      ∧ out.1.commQuery = [P.commit codes, P.commit values] ∧ verifyTableLookup P table n out.1 tr = .ok out.2 := by
  obtain ⟨out, hprove, hverify⟩ := h.committedLookup.complete _ tr hholds
  refine ⟨_, by rw [proveTableLookup, hprove, ok_bind], rfl, ?_⟩
  rw [verifyTableLookup]
  refine bind_iff.mpr ⟨(P.commit table.inCodes, P.commit table.outCodes), rfl,
    guarded_iff.mpr ⟨?_, hverify⟩⟩
  exact not_or.mpr ⟨not_not.mpr rfl, not_not.mpr rfl⟩

end SubArgument
