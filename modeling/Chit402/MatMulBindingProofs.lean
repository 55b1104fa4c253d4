import Chit402.MatMulSoundProofs

/-! # What the matrix multiplication verifiers bind before they draw

    A verifier draws its row and column point from a transcript that has
    taken in the statement.  The committed forms take in all of it; the form
    in the clear takes in the dimensions and `C` only, so that operands can
    be picked when the point is known. -/

namespace MatMulBinding

open ExceptFlow Multilinear Mle FiatShamir Sumcheck SumcheckSound MatMul MatMulSound Finset

/-! ## Bytes -/

section Bytes

theorem littleEndian_succ (width x : ℕ) :
    littleEndian (width + 1) x = UInt8.ofNat x :: littleEndian width (x / 256) := by
  rw [littleEndian, List.range_succ_eq_map, List.map_cons, List.map_map, pow_zero, Nat.div_one]
  refine congrArg (UInt8.ofNat x :: ·) (List.map_congr_left fun i _ => ?_)
  show UInt8.ofNat (x / 256 ^ (i + 1)) = UInt8.ofNat (x / 256 / 256 ^ i)
  rw [Nat.div_div_eq_div_mul, pow_succ']

theorem length_littleEndian (width x : ℕ) : (littleEndian width x).length = width := by
  rw [littleEndian, List.length_map, List.length_range]

theorem littleEndian_inj {width x y : ℕ} (hx : x < 256 ^ width) (hy : y < 256 ^ width)
    (h : littleEndian width x = littleEndian width y) : x = y := by
  induction width generalizing x y with
  | zero => exact (Nat.lt_one_iff.mp hx).trans (Nat.lt_one_iff.mp hy).symm
  | succ width ih =>
    rw [littleEndian_succ, littleEndian_succ] at h
    obtain ⟨hlow, hhigh⟩ := List.cons.inj h
    have hmod : x % 256 = y % 256 := congrArg UInt8.toNat hlow
    have hdiv : x / 256 = y / 256 :=
      ih (Nat.div_lt_of_lt_mul (lt_of_lt_of_eq hx (pow_succ' 256 width)))
        (Nat.div_lt_of_lt_mul (lt_of_lt_of_eq hy (pow_succ' 256 width))) hhigh
    rw [← Nat.div_add_mod x 256, ← Nat.div_add_mod y 256, hmod, hdiv]

/-- Encodings of one width are read back from what they are joined to. -/
theorem flatMap_inj {α : Type} {encode : α → List UInt8} {width : ℕ} (hwidth : 0 < width)
    (hlen : ∀ a, (encode a).length = width) (hinj : Function.Injective encode) :
    Function.Injective fun t : List α => t.flatMap encode := by
  intro s
  induction s with
  | nil =>
    intro t h
    cases t with
    | nil => rfl
    | cons b t =>
      have hzero := congrArg List.length h
      simp only [List.flatMap_nil, List.flatMap_cons, List.length_nil, List.length_append, hlen] at hzero
      omega
  | cons a s ih =>
    intro t h
    cases t with
    | nil =>
      have hzero := congrArg List.length h
      simp only [List.flatMap_nil, List.flatMap_cons, List.length_nil, List.length_append, hlen] at hzero
      omega
    | cons b t =>
      obtain ⟨hhead, htail⟩ := List.append_inj h ((hlen a).trans (hlen b).symm)
      rw [hinj hhead, ih htail]

variable {p : ℕ}

/-- `into_bigint().to_bytes_le()` of an element of the proving field. -/
def elementBytes (x : ZMod p) : List UInt8 := littleEndian 32 x.val

/-- What `commit_table` hashes. -/
def tableBytes (t : List (ZMod p)) : List UInt8 := t.flatMap elementBytes

def commitTable (keccak256 : List UInt8 → List UInt8) (t : List (ZMod p)) : List UInt8 := keccak256 (tableBytes t)

theorem tableBytes_injective [NeZero p] (hp : p ≤ 256 ^ 32) : Function.Injective (tableBytes (p := p)) := by
  refine flatMap_inj (by omega : 0 < 32) (fun x => length_littleEndian 32 x.val) fun x y h => ?_
  exact ZMod.val_injective p (littleEndian_inj (lt_of_lt_of_le x.val_lt hp) (lt_of_lt_of_le y.val_lt hp) h)

end Bytes

/-! ## Statements -/

section Statements

/-- Dimensions, as machine words. -/
structure Dims where
  m : ℕ
  k : ℕ
  n : ℕ
  fits : m < 256 ^ 8 ∧ k < 256 ^ 8 ∧ n < 256 ^ 8

theorem encodeDims_inj {d e : Dims} (h : encodeDims d.m d.k d.n = encodeDims e.m e.k e.n) : d = e := by
  rcases d with ⟨m, k, n, hm, hk, hn⟩
  rcases e with ⟨m', k', n', hm', hk', hn'⟩
  rw [encodeDims, encodeDims, List.append_assoc, List.append_assoc] at h
  obtain ⟨hrows, h⟩ := List.append_inj h ((length_littleEndian 8 m).trans (length_littleEndian 8 m').symm)
  obtain ⟨hinner, hcolumns⟩ := List.append_inj h ((length_littleEndian 8 k).trans (length_littleEndian 8 k').symm)
  obtain rfl := littleEndian_inj hm hm' hrows
  obtain rfl := littleEndian_inj hk hk' hinner
  obtain rfl := littleEndian_inj hn hn' hcolumns
  rfl

inductive Form where
  | clear
  | committed
  | io
  | ioBt
deriving DecidableEq

/-- What a verifier is asked to believe. -/
inductive Statement (F : Type) (pcs : Pcs F) where
  | clear (d : Dims) (a b c : List F)
  | committed (d : Dims) (commA commB : pcs.Comm) (c : List F)
  | io (d : Dims) (commA commB commC : pcs.Comm)
  | ioBt (d : Dims) (commA commB commC : pcs.Comm)

variable {F : Type} {pcs : Pcs F}

namespace Statement

def form : Statement F pcs → Form
  | clear .. => .clear
  | committed .. => .committed
  | io .. => .io
  | ioBt .. => .ioBt

def dims : Statement F pcs → Dims
  | clear d .. => d
  | committed d .. => d
  | io d .. => d
  | ioBt d .. => d

/-- The result, where the verifier holds it. -/
def result : Statement F pcs → Option (List F)
  | clear _ _ _ c => some c
  | committed _ _ _ c => some c
  | io .. => none
  | ioBt .. => none

/-- The transcript that the point is drawn from. -/
def bound (hashTable : List F → List UInt8) (tr : Transcript F) : Statement F pcs → Transcript F
  | clear d _ _ c => bind hashTable d.m d.k d.n c tr
  | committed d commA commB c => bindCommitted hashTable pcs d.m d.k d.n c commA commB tr
  | io d commA commB commC => bindIo pcs d.m d.k d.n commA commB commC tr
  | ioBt d commA commB commC => bindIo pcs d.m d.k d.n commA commB commC tr

/-- The point that the verifier of the statement draws. -/
def points (hashTable : List F → List UInt8) (tr : Transcript F) :
    Statement F pcs → Except Abort ((List F × List F) × Transcript F)
  | clear d _ _ c => bindAndDraw hashTable d.m d.k d.n c tr
  | committed d commA commB c => bindAndDrawCommitted hashTable pcs d.m d.k d.n c commA commB tr
  | io d commA commB commC => bindAndDrawIo pcs d.m d.k d.n commA commB commC tr
  | ioBt d commA commB commC => bindAndDrawIo pcs d.m d.k d.n commA commB commC tr

theorem points_eq (hashTable : List F → List UInt8) (tr : Transcript F) (X : Statement F pcs) :
    X.points hashTable tr = drawPoints X.dims.m X.dims.n (X.bound hashTable tr) := by
  cases X with
  | clear => rfl
  | committed => rfl
  | io => rfl
  | ioBt => rfl

end Statement

/-- Two statements in the clear with the same dimensions and the same result. -/
def SameResult (X Y : Statement F pcs) : Prop :=
  X.form = .clear ∧ X.dims = Y.dims ∧ X.result = Y.result

end Statements

/-! ## What is bound -/

section Bound

variable {F : Type} {pcs : Pcs F} {hashTable : List F → List UInt8}

theorem bytes_inj {lbl d e : List UInt8} {log log' : List (Entry F)}
    (h : Entry.bytes lbl d :: log = .bytes lbl e :: log') : d = e ∧ log = log' := by
  obtain ⟨hentry, hlog⟩ := List.cons.inj h
  exact ⟨(Entry.bytes.inj hentry).2, hlog⟩

theorem bind_inj {d e : Dims} {c c' : List F} {tr tr' : Transcript F}
    (h : (bind hashTable d.m d.k d.n c tr).log = (bind hashTable e.m e.k e.n c' tr').log) :
    d = e ∧ hashTable c = hashTable c' := by
  obtain ⟨hresult, h⟩ := bytes_inj h
  exact ⟨encodeDims_inj (bytes_inj h).1, hresult⟩

theorem bindIo_inj (hbytes : Function.Injective pcs.bytes) {d e : Dims} {a b c a' b' c' : pcs.Comm}
    {tr tr' : Transcript F}
    (h : (bindIo pcs d.m d.k d.n a b c tr).log = (bindIo pcs e.m e.k e.n a' b' c' tr').log) :
    d = e ∧ a = a' ∧ b = b' ∧ c = c' := by
  obtain ⟨hc, h⟩ := bytes_inj h
  obtain ⟨hb, h⟩ := bytes_inj h
  obtain ⟨ha, h⟩ := bytes_inj h
  exact ⟨encodeDims_inj (bytes_inj h).1, hbytes ha, hbytes hb, hbytes hc⟩

/-- The results of two statements have different hashes, unless they are the same. -/
def Separated (hashTable : List F → List UInt8) (X Y : Statement F pcs) : Prop :=
  ∀ c ∈ X.result, ∀ c' ∈ Y.result, hashTable c = hashTable c' → c = c'

theorem eq_of_bound {X Y : Statement F pcs} (hbytes : Function.Injective pcs.bytes) (hform : X.form = Y.form)
    (hsep : Separated hashTable X Y) {tr : Transcript F} (h : (X.bound hashTable tr).log = (Y.bound hashTable tr).log) :
    X = Y ∨ SameResult X Y := by
  cases X with
  | clear d a b c =>
    cases Y with
    | clear e a' b' c' =>
      obtain ⟨hd, hresult⟩ := bind_inj h
      exact .inr ⟨rfl, hd, congrArg some (hsep c rfl c' rfl hresult)⟩
    | _ => cases hform
  | committed d a b c =>
    cases Y with
    | committed e a' b' c' =>
      obtain ⟨hb, h⟩ := bytes_inj h
      obtain ⟨ha, h⟩ := bytes_inj h
      obtain ⟨rfl, hresult⟩ := bind_inj h
      obtain rfl := hbytes ha
      obtain rfl := hbytes hb
      obtain rfl := hsep c rfl c' rfl hresult
      exact .inl rfl
    | _ => cases hform
  | io d a b c =>
    cases Y with
    | io e a' b' c' =>
      obtain ⟨rfl, rfl, rfl, rfl⟩ := bindIo_inj hbytes h
      exact .inl rfl
    | _ => cases hform
  | ioBt d a b c =>
    cases Y with
    | ioBt e a' b' c' =>
      obtain ⟨rfl, rfl, rfl, rfl⟩ := bindIo_inj hbytes h
      exact .inl rfl
    | _ => cases hform

theorem bound_of_sameResult {X Y : Statement F pcs} (hform : X.form = Y.form) (h : SameResult X Y) (tr : Transcript F) :
    X.bound hashTable tr = Y.bound hashTable tr := by
  obtain ⟨hclear, hdims, hresult⟩ := h
  cases X with
  | clear d a b c =>
    cases Y with
    | clear e a' b' c' =>
      cases hdims
      cases hresult
      rfl
    | _ => cases hform
  | _ => cases hclear

/-- **BINDING**: two statements to one form of the verifier leave different transcripts,
    unless they are in the clear and differ in the operands alone. -/
theorem bound_ne_iff {X Y : Statement F pcs} (hbytes : Function.Injective pcs.bytes) (hform : X.form = Y.form)
    (hsep : Separated hashTable X Y) (hne : X ≠ Y) (tr : Transcript F) :
    (X.bound hashTable tr).log ≠ (Y.bound hashTable tr).log ↔ ¬ SameResult X Y := by
  constructor
  · intro hlog hsame
    exact hlog (congrArg Transcript.log (bound_of_sameResult hform hsame tr))
  · intro hsame hlog
    rcases eq_of_bound hbytes hform hsep hlog with heq | heq
    · exact hne heq
    · exact hsame heq

end Bound

/-! ## Honest proofs of wrong results -/

section Honest

variable {F : Type} [Field F] [DecidableEq F]

theorem claim_unique {es : List (Evals3 F)} {x y : F} {tr : Transcript F} {out out' : (List F × F) × Transcript F}
    (hx : verifyRounds tripleFormat es x tr = .ok out) (hy : verifyRounds tripleFormat es y tr = .ok out')
    (hend : out.1.2 = out'.1.2) : x = y := by
  cases es with
  | nil =>
    cases hx
    cases hy
    exact hend
  | cons e es =>
    rw [verifyRounds_cons, guarded_iff, Bool.not_eq_false] at hx hy
    exact (of_decide_eq_true hx.1).symm.trans (of_decide_eq_true hy.1)

variable {lm lk ln : ℕ} {mm : Instance F} {rx ry : List F} {tr : Transcript F}

/-- A reduction accepts the honest proof only of the value of the product. -/
theorem agrees_of_reduction (hnodes : Nodes F 3) (h : Fits lm lk ln mm) (hrx : rx.length = lm) (hry : ry.length = ln)
    {out : (MatMulProof F × List F) × Transcript F} (hprove : proveCore mm rx ry tr = .ok out)
    {claimed : Except Abort Unit} {done : List F × Transcript F}
    (hverify : verifyReduction rx ry out.1.1 claimed tr = .ok done) :
    mle mm.c (rx ++ ry) = mle (product mm.m mm.k mm.n mm.a mm.b) (rx ++ ry) := by
  obtain ⟨sc, ch, tr', hproduct, -, hcomplete⟩ :=
    product_complete tr hnodes (length_rowFold h rx) (length_columnFold h ry)
  rw [proveCore, h.rows, h.columns, cHat_eq h.result hrx hry, ok_bind, hproduct] at hprove
  cases hprove
  rw [verifyReduction, guarded_iff] at hverify
  obtain ⟨⟨⟩, -, hverify⟩ := bind_iff.mp hverify.2
  obtain ⟨out, hrounds, hverify⟩ := bind_iff.mp hverify
  rw [guarded_iff, not_not] at hverify
  have hclaim : mle mm.c (rx ++ ry) = cubeSum lk [entry (rowFold mm rx), entry (columnFold mm ry)] :=
    claim_unique hrounds hcomplete hverify.1
  exact hclaim.trans (cubeSum_folds h hrx hry)

end Honest

/-! ## Operands for a point -/

section Operands

variable {F : Type} [Field F] {m k n : ℕ}

/-- Values that the point sees as `v`, whatever `s`: the high bit is weighed against itself. -/
def hidden (s v : F) : List F → ℕ → F
  | [], _ => v
  | r :: rest, i => v + s * if i < 2 ^ rest.length then r else r - 1

theorem ext_hidden (s v : F) (r : List F) : Multilinear.ext r (hidden s v r) = v := by
  cases r with
  | nil => rfl
  | cons r rest =>
    rw [Multilinear.ext]
    refine (ext_congr fun i hi => ?_).trans (ext_const rest v)
    have hhigh : ¬ 2 ^ rest.length + i < 2 ^ rest.length := Nat.not_lt.mpr (Nat.le_add_right _ _)
    rw [Multilinear.fold, hidden, hidden, if_pos hi, if_neg hhigh]
    ring

theorem hidden_ne {r : List F} (hr : r ≠ []) (v : F) : ∃ i < 2 ^ r.length, hidden 0 v r i ≠ hidden 1 v r i := by
  cases r with
  | nil => exact absurd rfl hr
  | cons r rest =>
    have hhalf : 2 ^ rest.length < 2 ^ (r :: rest).length := Nat.pow_lt_pow_right Nat.one_lt_two (Nat.lt_succ_self _)
    by_cases h : r = 0
    · refine ⟨2 ^ rest.length, hhalf, fun heq => ?_⟩
      rw [hidden, hidden, if_neg (Nat.lt_irrefl _), zero_mul, one_mul, h, zero_sub] at heq
      exact one_ne_zero (neg_eq_zero.mp (add_left_cancel heq).symm)
    · refine ⟨0, Nat.two_pow_pos _, fun heq => ?_⟩
      rw [hidden, hidden, if_pos (Nat.two_pow_pos _), zero_mul, one_mul] at heq
      exact h (add_left_cancel heq).symm

/-- `A` with the first column `u`, and zero elsewhere. -/
def firstColumn (m k : ℕ) (u : ℕ → F) : List F := (List.range (m * k)).map fun x => if x % k = 0 then u (x / k) else 0

/-- `B` with the first row `w`, and zero elsewhere. -/
def firstRow (k n : ℕ) (w : ℕ → F) : List F := (List.range (k * n)).map fun x => if x / n = 0 then w (x % n) else 0

theorem entry_firstColumn {i l : ℕ} (u : ℕ → F) (hi : i < m) (hl : l < k) :
    entry (firstColumn m k u) (i * k + l) = if l = 0 then u i else 0 := by
  rw [firstColumn, entry_map_range _ (row_major_lt hi hl), row_major_mod hl, row_major_div hl]

theorem entry_firstRow {l j : ℕ} (w : ℕ → F) (hl : l < k) (hj : j < n) :
    entry (firstRow k n w) (l * n + j) = if l = 0 then w j else 0 := by
  rw [firstRow, entry_map_range _ (row_major_lt hl hj), row_major_mod hj, row_major_div hj]

theorem entry_outer {i j : ℕ} (hk : 0 < k) (u w : ℕ → F) (hi : i < m) (hj : j < n) :
    entry (product m k n (firstColumn m k u) (firstRow k n w)) (i * n + j) = u i * w j := by
  rw [entry_product _ _ hi hj, sum_eq_single_of_mem 0 (mem_range.mpr hk)]
  · rw [entry_firstColumn u hi hk, entry_firstRow w hk hj, if_pos rfl, if_pos rfl]
  · intro l hl hne
    rw [entry_firstColumn u hi (mem_range.mp hl), if_neg hne, zero_mul]

theorem mle_outer {rx ry : List F} (hk : 0 < k) (u w : ℕ → F) :
    mle (product (2 ^ rx.length) k (2 ^ ry.length) (firstColumn (2 ^ rx.length) k u)
      (firstRow k (2 ^ ry.length) w)) (rx ++ ry)
      = Multilinear.ext rx u * Multilinear.ext ry w := by
  rw [mle_append _ _ rfl, mul_comm, ← ext_mul]
  refine ext_congr fun i hi => ?_
  rw [mul_comm, ← ext_mul]
  exact ext_congr fun j hj => entry_outer hk u w hi hj

/-- The column of `A`: it hides behind the rows, where there are any. -/
def columnOf (s v : F) : List F → ℕ → F
  | [] => fun _ => 1
  | r :: rest => hidden s v (r :: rest)

/-- The row of `B`: it hides behind the columns, where the rows do not. -/
def rowOf (s v : F) : List F → List F → ℕ → F
  | [], ry => hidden s v ry
  | _ :: _, _ => fun _ => 1

/-- Operands whose product the point sees as `v`, whatever `s`. -/
def operands (k : ℕ) (s v : F) (rx ry : List F) : List F × List F :=
  (firstColumn (2 ^ rx.length) k (columnOf s v rx), firstRow k (2 ^ ry.length) (rowOf s v rx ry))

theorem length_operands (k : ℕ) (s v : F) (rx ry : List F) :
    (operands k s v rx ry).1.length = 2 ^ rx.length * k ∧ (operands k s v rx ry).2.length = k * 2 ^ ry.length := by
  rw [operands, firstColumn, firstRow, List.length_map, List.length_map, List.length_range, List.length_range]
  exact ⟨rfl, rfl⟩

theorem mle_operands {k : ℕ} (hk : 0 < k) (s v : F) (rx ry : List F) :
    mle (product (2 ^ rx.length) k (2 ^ ry.length) (operands k s v rx ry).1 (operands k s v rx ry).2)
      (rx ++ ry) = v := by
  rw [operands, mle_outer hk]
  cases rx with
  | nil => rw [columnOf, rowOf, ext_const, ext_hidden, one_mul]
  | cons r rx => rw [columnOf, rowOf, ext_const, ext_hidden, mul_one]

/-- With a variable to hide behind, there are two outer products. -/
theorem outer_ne (v : F) {rx ry : List F} (h : 0 < rx.length + ry.length) : ∃ i < 2 ^ rx.length, ∃ j < 2 ^ ry.length,
      columnOf 0 v rx i * rowOf 0 v rx ry j ≠ columnOf 1 v rx i * rowOf 1 v rx ry j := by
  cases rx with
  | nil =>
    have hry : ry ≠ [] := by
      rintro rfl
      exact Nat.lt_irrefl 0 h
    obtain ⟨j, hj, hne⟩ := hidden_ne hry v
    refine ⟨0, Nat.two_pow_pos _, j, hj, ?_⟩
    rw [columnOf, columnOf, rowOf, rowOf, one_mul, one_mul]
    exact hne
  | cons r rx =>
    obtain ⟨i, hi, hne⟩ := hidden_ne (List.cons_ne_nil r rx) v
    refine ⟨i, hi, 0, Nat.two_pow_pos _, ?_⟩
    rw [columnOf, columnOf, rowOf, rowOf, mul_one, mul_one]
    exact hne

theorem product_operands_ne {k : ℕ} (hk : 0 < k) (v : F) {rx ry : List F} (h : 0 < rx.length + ry.length) :
    product (2 ^ rx.length) k (2 ^ ry.length) (operands k 0 v rx ry).1 (operands k 0 v rx ry).2
      ≠ product (2 ^ rx.length) k (2 ^ ry.length) (operands k 1 v rx ry).1 (operands k 1 v rx ry).2 := by
  intro heq
  obtain ⟨i, hi, j, hj, hne⟩ := outer_ne v h
  have hentry := congrArg (fun t => entry t (i * 2 ^ ry.length + j)) heq
  refine hne ?_
  rw [← entry_outer hk (columnOf 0 v rx) (rowOf 0 v rx ry) hi hj,
    ← entry_outer hk (columnOf 1 v rx) (rowOf 1 v rx ry) hi hj]
  exact hentry

variable [DecidableEq F]

/-- What an adversary picks for `c` at a point. -/
def forge (k : ℕ) (c rx ry : List F) : List F × List F :=
  let ops := operands k 0 (mle c (rx ++ ry)) rx ry
  if product (2 ^ rx.length) k (2 ^ ry.length) ops.1 ops.2 = c then operands k 1 (mle c (rx ++ ry)) rx ry else ops

theorem forge_eq (k : ℕ) (c rx ry : List F) : ∃ s, forge k c rx ry = operands k s (mle c (rx ++ ry)) rx ry := by
  by_cases h : product (2 ^ rx.length) k (2 ^ ry.length) (operands k 0 (mle c (rx ++ ry)) rx ry).1
      (operands k 0 (mle c (rx ++ ry)) rx ry).2 = c
  · exact ⟨1, if_pos h⟩
  · exact ⟨0, if_neg h⟩

theorem product_forge_ne {k : ℕ} (hk : 0 < k) (c rx ry : List F) (hpos : 0 < rx.length + ry.length) :
    product (2 ^ rx.length) k (2 ^ ry.length) (forge k c rx ry).1 (forge k c rx ry).2 ≠ c := by
  by_cases h : product (2 ^ rx.length) k (2 ^ ry.length) (operands k 0 (mle c (rx ++ ry)) rx ry).1
      (operands k 0 (mle c (rx ++ ry)) rx ry).2 = c
  · have hforge : forge k c rx ry = operands k 1 (mle c (rx ++ ry)) rx ry := if_pos h
    rw [hforge]
    intro hone
    exact product_operands_ne hk (mle c (rx ++ ry)) hpos (h.trans hone.symm)
  · have hforge : forge k c rx ry = operands k 0 (mle c (rx ++ ry)) rx ry := if_neg h
    rw [hforge]
    exact h

end Operands

/-! ## Which dimensions have operands for every point -/

section Forgeable

variable {p : ℕ} [Fact p.Prime] {lm lk ln : ℕ}

/-- **HONEST PROOFS**: `verify` accepts the honest proof for an instance exactly where the
    point does not tell its result from the product. -/
theorem prove_accepted_iff (hp : 2 < p) (hashTable : List (ZMod p) → List UInt8) (mm : Instance (ZMod p))
    (h : Fits lm lk ln mm) (ha : mm.a.length = 2 ^ lm * 2 ^ lk) (hb : mm.b.length = 2 ^ lk * 2 ^ ln)
    {rx ry : List (ZMod p)} {tr tr1 : Transcript (ZMod p)}
    (hpoints : bindAndDraw hashTable (2 ^ lm) (2 ^ lk) (2 ^ ln) mm.c tr = .ok ((rx, ry), tr1)) (hrx : rx.length = lm)
    (hry : ry.length = ln) : (∃ proof tr' done, prove hashTable mm tr = .ok (proof, tr')
      ∧ verify hashTable (2 ^ lm) (2 ^ lk) (2 ^ ln) mm.a mm.b mm.c proof tr = .ok done)
    ↔ mle mm.c (rx ++ ry) = mle (product mm.m mm.k mm.n mm.a mm.b) (rx ++ ry) := by
  constructor
  · intro ⟨proof, tr', done, hprove, hverify⟩
    rw [prove, h.rows, h.inner, h.columns, hpoints, ok_bind] at hprove
    obtain ⟨out, hcore, hout⟩ := bind_iff.mp hprove
    cases hout
    rw [verify, hpoints, ok_bind] at hverify
    obtain ⟨red, hreduction, -⟩ := bind_iff.mp hverify
    exact agrees_of_reduction (nodes_zmod hp) h hrx hry hcore hreduction
  · intro hagrees
    obtain ⟨proof, ch, tr2, hcore⟩ := core_complete (nodes_zmod hp) h hrx hry hagrees tr1
    refine ⟨proof, tr2, tr2, ?_, verify_of_core mm hpoints hrx hry hcore ha hb h.result⟩
    rw [prove, h.rows, h.inner, h.columns, hpoints, ok_bind, hcore.proved]
    rfl

/-- Operands picked when the point for `c` is known: they do not multiply to `c`, and the
    honest proof for them is accepted whatever the transcript answers. -/
def Forges (hashTable : List (ZMod p) → List UInt8) (lm lk ln : ℕ) (c : List (ZMod p))
    (choice : List (ZMod p) → List (ZMod p) → List (ZMod p) × List (ZMod p)) : Prop :=
  ∀ tr rx ry tr1, bindAndDraw hashTable (2 ^ lm) (2 ^ lk) (2 ^ ln) c tr = .ok ((rx, ry), tr1) →
    (choice rx ry).1.length = 2 ^ lm * 2 ^ lk ∧ (choice rx ry).2.length = 2 ^ lk * 2 ^ ln
    ∧ product (2 ^ lm) (2 ^ lk) (2 ^ ln) (choice rx ry).1 (choice rx ry).2 ≠ c
    ∧ ∃ proof tr' done,
      prove hashTable ⟨2 ^ lm, 2 ^ lk, 2 ^ ln, (choice rx ry).1, (choice rx ry).2, c⟩ tr = .ok (proof, tr')
      ∧ verify hashTable (2 ^ lm) (2 ^ lk) (2 ^ ln) (choice rx ry).1 (choice rx ry).2 c proof tr = .ok done

omit [Fact p.Prime] in
theorem points_lengths {hashTable : List (ZMod p) → List UInt8} {k : ℕ} {c rx ry : List (ZMod p)}
    {tr tr1 : Transcript (ZMod p)} (h : bindAndDraw hashTable (2 ^ lm) k (2 ^ ln) c tr = .ok ((rx, ry), tr1)) :
    rx.length = lm ∧ ry.length = ln := by
  obtain ⟨rx', ry', tr', hpoints, hrx, hry⟩ := drawPoints_ok lm ln (bind hashTable (2 ^ lm) k (2 ^ ln) c tr)
  rw [bindAndDraw, hpoints] at h
  obtain ⟨hpair, -⟩ := Prod.mk.inj (Except.ok.inj h)
  cases hpair
  exact ⟨hrx, hry⟩

theorem forge_forges (hp : 2 < p) (hashTable : List (ZMod p) → List UInt8) {c : List (ZMod p)}
    (hc : c.length = 2 ^ lm * 2 ^ ln) (hpos : 0 < lm + ln) : Forges hashTable lm lk ln c (forge (2 ^ lk) c) := by
  intro tr rx ry tr1 hpoints
  obtain ⟨hrx, hry⟩ := points_lengths hpoints
  obtain ⟨s, hforge⟩ := forge_eq (2 ^ lk) c rx ry
  have hlen := length_operands (2 ^ lk) s (mle c (rx ++ ry)) rx ry
  have hagrees := mle_operands (Nat.two_pow_pos lk) s (mle c (rx ++ ry)) rx ry
  have hne := product_forge_ne (Nat.two_pow_pos lk) c rx ry (by rw [hrx, hry]; exact hpos)
  rw [← hforge] at hlen hagrees
  rw [hrx, hry] at hlen hagrees hne
  refine ⟨hlen.1, hlen.2, hne, ?_⟩
  exact (prove_accepted_iff hp hashTable ⟨2 ^ lm, 2 ^ lk, 2 ^ ln, _, _, c⟩ ⟨rfl, rfl, rfl, hc⟩ hlen.1 hlen.2
    hpoints hrx hry).mpr hagrees.symm

/-- A result of one element is its own value at the one point there is. -/
theorem not_forges (hp : 2 < p) (hashTable : List (ZMod p) → List UInt8) {c : List (ZMod p)}
    (hc : c.length = 2 ^ 0 * 2 ^ 0)
    (choice : List (ZMod p) → List (ZMod p) → List (ZMod p) × List (ZMod p)) : ¬ Forges hashTable 0 lk 0 c choice := by
  intro hforges
  obtain ⟨rx, ry, tr1, hpoints, hrx, hry⟩ := drawPoints_ok 0 0 (bind hashTable (2 ^ 0) (2 ^ lk) (2 ^ 0) c (replay []))
  obtain rfl := List.eq_nil_of_length_eq_zero hrx
  obtain rfl := List.eq_nil_of_length_eq_zero hry
  obtain ⟨ha, hb, hne, haccepted⟩ := hforges (replay []) [] [] tr1 hpoints
  refine hne (table_ext ?_ fun x hx => ?_)
  · rw [length_product, hc]
  · have hagrees := (prove_accepted_iff hp hashTable ⟨2 ^ 0, 2 ^ lk, 2 ^ 0, _, _, c⟩ ⟨rfl, rfl, rfl, hc⟩ ha hb
      hpoints rfl rfl).mp haccepted
    rw [length_product, pow_zero, mul_one] at hx
    obtain rfl := Nat.lt_one_iff.mp hx
    exact hagrees.symm

theorem forgeable_iff (hp : 2 < p) (hashTable : List (ZMod p) → List UInt8) {c : List (ZMod p)}
    (hc : c.length = 2 ^ lm * 2 ^ ln) : (∃ choice, Forges hashTable lm lk ln c choice) ↔ 0 < lm + ln := by
  constructor
  · intro ⟨choice, hforges⟩
    by_contra hzero
    obtain ⟨rfl, rfl⟩ : lm = 0 ∧ ln = 0 := by omega
    exact not_forges hp hashTable hc choice hforges
  · intro hpos
    exact ⟨forge (2 ^ lk) c, forge_forges hp hashTable hc hpos⟩

/-- **WHEN THE POINT IS BOUND**: the transcripts of two statements to one verifier differ,
    unless the statements are in the clear with one result; and no operands can be picked
    for the point of a result exactly when the result is a single element. -/
theorem binding_iff (hp : 2 < p) (hfield : p ≤ 256 ^ 32) (keccak256 : List UInt8 → List UInt8) (pcs : Pcs (ZMod p))
    (hbytes : Function.Injective pcs.bytes) :
    (∀ (X Y : Statement (ZMod p) pcs) (tr : Transcript (ZMod p)), X.form = Y.form → X ≠ Y →
      (∀ c ∈ X.result, ∀ c' ∈ Y.result, keccak256 (tableBytes c) = keccak256 (tableBytes c') →
        tableBytes c = tableBytes c') →
      X.points (commitTable keccak256) tr = drawPoints X.dims.m X.dims.n (X.bound (commitTable keccak256) tr)
      ∧ ((X.bound (commitTable keccak256) tr).log ≠ (Y.bound (commitTable keccak256) tr).log ↔ ¬ SameResult X Y))
    ∧ ∀ (lm lk ln : ℕ) (c : List (ZMod p)), c.length = 2 ^ lm * 2 ^ ln →
      ((¬ ∃ choice, Forges (commitTable keccak256) lm lk ln c choice) ↔ lm = 0 ∧ ln = 0) := by
  constructor
  · intro X Y tr hform hne hkeccak
    refine ⟨X.points_eq _ tr, bound_ne_iff hbytes hform ?_ hne tr⟩
    intro c hc c' hc' hhash
    exact tableBytes_injective hfield (hkeccak c hc c' hc' hhash)
  · intro lm lk ln c hc
    rw [forgeable_iff hp _ hc, Nat.pos_iff_ne_zero, not_not]
    exact Nat.add_eq_zero_iff

end Forgeable

/-! ## Two by one over three elements -/

section Samples

/-- The hash of two zeros, and of a one and a zero. -/
def sampleKeccak (bytes : List UInt8) : List UInt8 :=
  if bytes = List.replicate 64 0 then
    (littleEndian 32 0xad3228b676f7d3cd4284a5443f17f1962b36e491b30a40b2405849e597ba5fb5).reverse
  else if bytes = 1 :: List.replicate 63 0 then
    (littleEndian 32 0x82ac279db26a206d9ba5a94c07ff940aea4b3bfde8820ec95f4efa0acfd0d5bc).reverse
  else []

/-- Two rows, one column. -/
def sampleDims : Dims := ⟨2, 1, 1, by decide⟩

theorem clearPcs_bytes : Function.Injective clearPcs.bytes := by
  refine List.map_injective_iff.mpr fun x y => ?_
  revert x y
  decide

/-- The two statements differ, and neither transcript says how. -/
theorem operands_chosen_late :
    (Statement.clear sampleDims [2, 1] [1] [0, 0] : Statement (ZMod 3) clearPcs) ≠ .clear sampleDims [0, 0] [1] [0, 0]
    ∧ ((Statement.clear sampleDims [2, 1] [1] [0, 0] : Statement (ZMod 3) clearPcs).bound (commitTable sampleKeccak)
        (replay [2])).log
      = ((Statement.clear sampleDims [0, 0] [1] [0, 0] : Statement (ZMod 3) clearPcs).bound (commitTable sampleKeccak)
        (replay [2])).log ∧ product 2 1 1 [2, 1] [1] ≠ ([0, 0] : List (ZMod 3))
    ∧ ∃ proof tr' done, prove (commitTable sampleKeccak) ⟨2, 1, 1, [2, 1], [1], ([0, 0] : List (ZMod 3))⟩ (replay [2])
        = .ok (proof, tr')
      ∧ verify (commitTable sampleKeccak) 2 1 1 [2, 1] [1] ([0, 0] : List (ZMod 3)) proof (replay [2]) = .ok done := by
  refine ⟨?_, rfl, by decide, ?_⟩
  · intro h
    exact absurd (Statement.clear.inj h).2.1 (by decide)
  · have hpoints : bindAndDraw (commitTable sampleKeccak) (2 ^ 1) (2 ^ 0) (2 ^ 0) ([0, 0] : List (ZMod 3)) (replay [2])
        = .ok (([2], []), _) := drawPoints_eq 1 0 _
    exact (prove_accepted_iff (by decide) (commitTable sampleKeccak) ⟨2, 1, 1, [2, 1], [1], [0, 0]⟩
      ⟨rfl, rfl, rfl, rfl⟩ rfl rfl hpoints rfl rfl).mpr (by decide)

/-- Different results are told apart, two rows have operands for every point, one has none. -/
theorem binding_iff_three :
    ((Statement.committed sampleDims [1] [1] [0, 0] : Statement (ZMod 3) clearPcs).bound (commitTable sampleKeccak)
        (replay [])).log
      ≠ ((Statement.committed sampleDims [1] [1] [1, 0] : Statement (ZMod 3) clearPcs).bound (commitTable sampleKeccak)
        (replay [])).log ∧ ¬ (¬ ∃ choice, Forges (commitTable sampleKeccak) 1 0 0 ([0, 0] : List (ZMod 3)) choice)
    ∧ ¬ ∃ choice, Forges (commitTable sampleKeccak) 0 1 0 ([0] : List (ZMod 3)) choice := by
  obtain ⟨hbound, hforges⟩ := binding_iff (p := 3) (by decide) (by decide) sampleKeccak clearPcs clearPcs_bytes
  refine ⟨?_, ?_, ?_⟩
  · refine (hbound (.committed sampleDims [1] [1] [0, 0]) (.committed sampleDims [1] [1] [1, 0])
      (replay []) rfl ?_ ?_).2.mpr ?_
    · intro h
      exact absurd (Statement.committed.inj h).2.2.2 (by decide)
    · rintro c ⟨⟩ c' ⟨⟩ h
      revert h
      decide
    · intro h
      exact absurd h.1 (by decide)
  · intro h
    exact absurd ((hforges 1 0 0 [0, 0] rfl).mp h).1 (by decide)
  · exact (hforges 0 1 0 [0] rfl).mpr ⟨rfl, rfl⟩

end Samples

end MatMulBinding
