import Chit402.MultiHeadProofs

/-! # Multi-head attention, entry by entry

    What an accepted output is, without the operations of the code: the head
    and the group that a context reads, the pairs that are rotated, the keys
    that are summed over.  With one head and no rotation it is the
    single-head attention. -/

namespace MhaEntries

open Mle Tensor SubArgument MatMul MatMulSound CausalSoftmax RmsNorm AttentionHead Attention HeadLayout MultiHead Finset
open Lookup (IsPowerOfTwo)

variable {p : ℕ} [Fact p.Prime]

/-! ## The relation -/

section Relation

variable (cfg : MhaConfig) (rope : Option (RopeParams (ZMod p)))

/-- `c = a·b`, for row-major `m × k` and `k × n`. -/
def Multiplied (m k n : ℕ) (a b c : Table p) : Prop :=
  ∀ i < m, ∀ j < n, entry c (i * n + j) = ∑ l ∈ range k, entry a (i * k + l) * entry b (l * n + j)

/-- Entry `e` of head `h` at position `s`, its pair rotated when there is a rotation. -/
def turnedEntry (mat : Table p) (width h s e : ℕ) : ZMod p :=
  match rope with
  | none => entry mat (s * width + (h * cfg.dHead + e))
  | some rp =>
    let a := entry mat (s * width + (h * cfg.dHead + 2 * (e / 2)))
    let b := entry mat (s * width + (h * cfg.dHead + (2 * (e / 2) + 1)))
    let c := entry rp.cos (s * (cfg.dHead / 2) + e / 2)
    let sn := entry rp.sin (s * (cfg.dHead / 2) + e / 2)
    if e % 2 = 0 then a * c - b * sn else a * sn + b * c

/-- The tensors between input and output; the last four by head. -/
structure MhaTensors (p : ℕ) where
  xn : Table p
  q : Table p
  k : Table p
  v : Table p
  concat : Table p
  scores : ℕ → Table p
  exps : ℕ → Table p
  probs : ℕ → Table p
  ctx : ℕ → Table p

/-- `out` is the multi-head attention of `x`, by way of `t`. -/
structure IsMha (W : Weights p) (expTable recipTable : CodeTable p) (np : NormParams p) (x out : Table p)
    (t : MhaTensors p) : Prop where
  normed : IsNorm np.table cfg.seq cfg.dModel x np.weight t.xn
  queries : Multiplied cfg.seq cfg.dModel cfg.qWidth t.xn W.wq t.q
  keys : Multiplied cfg.seq cfg.dModel cfg.kvWidth t.xn W.wk t.k
  values : Multiplied cfg.seq cfg.dModel cfg.kvWidth t.xn W.wv t.v
  scores : ∀ h < cfg.nHeads, ∀ i < cfg.seq, ∀ j < cfg.seq, entry (t.scores h) (i * cfg.seq + j)
    = ∑ e ∈ range cfg.dHead,
      turnedEntry cfg rope t.q cfg.qWidth h i e * turnedEntry cfg rope t.k cfg.kvWidth (cfg.kvOf h) j e
  softmax : ∀ h < cfg.nHeads, IsSoftmax expTable recipTable cfg.seq (t.scores h) (t.probs h) (t.exps h)
  contexts : ∀ h < cfg.nHeads, ∀ i < cfg.seq, ∀ e < cfg.dHead, entry (t.ctx h) (i * cfg.dHead + e)
    = ∑ j ∈ range cfg.seq, entry (t.probs h) (i * cfg.seq + j)
      * entry t.v (j * cfg.kvWidth + (cfg.kvOf h * cfg.dHead + e))
  concat : ∀ h < cfg.nHeads, ∀ i < cfg.seq, ∀ e < cfg.dHead,
    entry t.concat (i * cfg.qWidth + (h * cfg.dHead + e)) = entry (t.ctx h) (i * cfg.dHead + e)
  output : out.length = cfg.seq * cfg.dModel ∧ ∀ i < cfg.seq, ∀ c < cfg.dModel, entry out (i * cfg.dModel + c)
    = entry x (i * cfg.dModel + c)
      + ∑ l ∈ range cfg.qWidth, entry t.concat (i * cfg.qWidth + l) * entry W.wo (l * cfg.dModel + c)

end Relation

variable {cfg : MhaConfig} {W : Weights p} {expTable recipTable : CodeTable p} {np : NormParams p}
  {rope : Option (RopeParams (ZMod p))} {x mat q k v : Table p} {width h s e i j : ℕ}

theorem multiplied_product {m k n : ℕ} (a b : Table p) : Multiplied m k n a b (product m k n a b) :=
  fun _ hi _ hj => entry_product a b hi hj

theorem entry_turned (hrope : ∀ rp ∈ rope, rp.Shaped cfg.seq cfg.dHead) (hs : s < cfg.seq) (he : e < cfg.dHead) :
    entry (turned cfg rope (sliceHead mat cfg.seq width cfg.dHead h)) (s * cfg.dHead + e)
      = turnedEntry cfg rope mat width h s e := by
  cases rope with
  | none =>
    show entry (sliceHead mat cfg.seq width cfg.dHead h) (s * cfg.dHead + e) = _
    rw [entry_sliceHead hs he, Nat.add_assoc]
    rfl
  | some rp =>
    obtain ⟨heven, -, -⟩ := hrope rp rfl
    -- both entries of the pair are in the head
    have hlow : 2 * (e / 2) < cfg.dHead := by omega
    have hhigh : 2 * (e / 2) + 1 < cfg.dHead := by omega
    show entry (rotate rp cfg.seq cfg.dHead (sliceHead mat cfg.seq width cfg.dHead h)) (s * cfg.dHead + e) = _
    rw [entry_rotate hs he, Nat.add_assoc, entry_sliceHead hs hlow, entry_sliceHead hs hhigh,
      Nat.add_assoc, Nat.add_assoc]
    rfl

theorem entry_headScores (hrope : ∀ rp ∈ rope, rp.Shaped cfg.seq cfg.dHead) (hi : i < cfg.seq) (hj : j < cfg.seq) :
    entry (headScores cfg rope q k h) (i * cfg.seq + j) = ∑ e ∈ range cfg.dHead,
      turnedEntry cfg rope q cfg.qWidth h i e * turnedEntry cfg rope k cfg.kvWidth (cfg.kvOf h) j e := by
  rw [headScores, scoresOf, entry_product _ _ hi hj]
  refine sum_congr rfl fun e he => ?_
  have he := mem_range.mp he
  rw [entry_transposeRm _ he hj]
  exact congrArg₂ (· * ·) (entry_turned hrope hi he) (entry_turned hrope hj he)

theorem entry_headContext (hi : i < cfg.seq) (he : e < cfg.dHead) :
    entry (headContext cfg expTable recipTable rope q k v h) (i * cfg.dHead + e) = ∑ j ∈ range cfg.seq,
      entry (probsOf expTable recipTable cfg.seq (headScores cfg rope q k h)) (i * cfg.seq + j)
        * entry v (j * cfg.kvWidth + (cfg.kvOf h * cfg.dHead + e)) := by
  rw [headContext, contextOf, entry_product _ _ hi he]
  refine sum_congr rfl fun j hj => ?_
  have hv : entry (sliceKv cfg v h) (j * cfg.dHead + e) = entry v (j * cfg.kvWidth + (cfg.kvOf h * cfg.dHead + e)) := by
    rw [sliceKv, entry_sliceHead (mem_range.mp hj) he, Nat.add_assoc]
  rw [hv]
  rfl

theorem entry_concatOf (hh : h < cfg.nHeads) (hi : i < cfg.seq) (he : e < cfg.dHead) :
    entry (concatOf cfg expTable recipTable rope q k v) (i * cfg.qWidth + (h * cfg.dHead + e))
      = entry (headContext cfg expTable recipTable rope q k v h) (i * cfg.dHead + e) := by
  have hzeros : (List.replicate (cfg.seq * cfg.qWidth) (0 : ZMod p)).length = cfg.seq * (cfg.nHeads * cfg.dHead) :=
    List.length_replicate
  refine (entry_putHeads hzeros hi hh he).trans (if_pos ⟨Nat.zero_le h, ?_⟩)
  rw [Nat.zero_add]
  exact hh

def tensorsOf (cfg : MhaConfig) (W : Weights p) (expTable recipTable : CodeTable p) (np : NormParams p)
    (rope : Option (RopeParams (ZMod p))) (x : Table p) : MhaTensors p :=
  let q := projection cfg np cfg.qWidth W.wq x
  let k := projection cfg np cfg.kvWidth W.wk x
  let v := projection cfg np cfg.kvWidth W.wv x
  { xn := normOf np.table cfg.seq cfg.dModel x np.weight
    q, k, v
    concat := MultiHead.contexts cfg W expTable recipTable np rope x
    scores := headScores cfg rope q k
    exps := fun h => expsOf expTable cfg.seq (headScores cfg rope q k h)
    probs := fun h => probsOf expTable recipTable cfg.seq (headScores cfg rope q k h)
    ctx := headContext cfg expTable recipTable rope q k v }

/-- **ENTRIES**: on its domain the computed output is related to the input. -/
theorem mhaOf_isMha (hx : MhaDomain cfg W expTable recipTable np rope x) :
    IsMha cfg rope W expTable recipTable np x (mhaOf cfg W expTable recipTable np rope x)
      (tensorsOf cfg W expTable recipTable np rope x) := by
  have hout : (mhaOut cfg W expTable recipTable np rope x).length = cfg.seq * cfg.dModel := length_product ..
  constructor
  case normed => exact (isNorm_iff hx.seq).mpr ⟨hx.input, hx.weight, hx.codes, rfl⟩
  case queries => exact multiplied_product _ _
  case keys => exact multiplied_product _ _
  case values => exact multiplied_product _ _
  case scores =>
    intro h _ i hi j hj
    exact entry_headScores hx.rotation hi hj
  case softmax =>
    intro h hh
    have hlook := hx.scores h hh
    exact isSoftmax_of_steps hx.zero hlook.length (lookable_exps hx.seq hlook).2 rfl (lookable_recips hx.seq hlook).2
      (probsOf_scale hx.seq)
  case contexts =>
    intro h _ i hi e he
    exact entry_headContext hi he
  case concat =>
    intro h hh i hi e he
    exact entry_concatOf hh hi he
  case output =>
    constructor
    · rw [mhaOf, length_add (hx.input.trans hout.symm), hx.input]
    · intro i hi c hc
      rw [mhaOf, entry_add (grid_lt hx.input hi hc) (grid_lt hout hi hc), mhaOut, entry_product _ _ hi hc]
      rfl

/-! ## One head -/

/-- One query head, with its own keys and values. -/
def single (cfg : AttnConfig) : MhaConfig := ⟨cfg.seq, cfg.dModel, 1, 1, cfg.dHead, cfg.normName⟩

variable {one : AttnConfig}

theorem qWidth_single : (single one).qWidth = one.dHead := Nat.one_mul one.dHead

theorem kvWidth_single : (single one).kvWidth = one.dHead := Nat.one_mul one.dHead

theorem sliceQ_single (hmat : mat.length = one.seq * one.dHead) : sliceQ (single one) mat 0 = mat := by
  rw [sliceQ, qWidth_single]
  exact sliceHead_one hmat

theorem sliceKv_single (hmat : mat.length = one.seq * one.dHead) : sliceKv (single one) mat 0 = mat := by
  have hgroup : (single one).kvOf 0 = 0 := Nat.zero_div _
  rw [sliceKv, kvWidth_single, hgroup]
  exact sliceHead_one hmat

theorem projection_single (w : Table p) : projection (single one) np one.dHead w x = projected one np w x := rfl

theorem headScores_single (hq : q.length = one.seq * one.dHead) (hk : k.length = one.seq * one.dHead) :
    headScores (single one) none q k 0 = scoresOf one.seq one.dHead q k := by
  rw [headScores, sliceQ_single hq, sliceKv_single hk]
  rfl

theorem concatOf_single (hq : q.length = one.seq * one.dHead) (hk : k.length = one.seq * one.dHead)
    (hv : v.length = one.seq * one.dHead) :
    concatOf (single one) expTable recipTable none q k v = contextOf expTable recipTable one.seq one.dHead q k v := by
  have hzeros : (List.replicate (one.seq * one.dHead) (0 : ZMod p)).length = one.seq * one.dHead :=
    List.length_replicate
  have hput := putHeads_one (f := headContext (single one) expTable recipTable none q k v) hzeros length_headContext
  rw [concatOf, qWidth_single]
  refine hput.trans ?_
  rw [headContext, sliceQ_single hq, sliceKv_single hk, sliceKv_single hv]
  rfl

theorem mhaOf_single : mhaOf (single one) W expTable recipTable np none x
    = attentionOf one W expTable recipTable np x := by
  have hq : (projected one np W.wq x).length = one.seq * one.dHead := length_projected W.wq
  have hk : (projected one np W.wk x).length = one.seq * one.dHead := length_projected W.wk
  have hv : (projected one np W.wv x).length = one.seq * one.dHead := length_projected W.wv
  rw [mhaOf, mhaOut, MultiHead.contexts, qWidth_single, kvWidth_single, projection_single, projection_single,
    projection_single, concatOf_single hq hk hv]
  rfl

theorem mhaDomain_single : MhaDomain (single one) W expTable recipTable np none x
    ↔ AttnDomain one W expTable recipTable np x := by
  have hscores : headScores (single one) none (projected one np W.wq x) (projected one np W.wk x) 0
      = scoresOf one.seq one.dHead (projected one np W.wq x) (projected one np W.wk x) :=
    headScores_single (length_projected W.wq) (length_projected W.wk)
  constructor
  · intro h
    have hwq := h.wq
    have hwk := h.wk
    have hwv := h.wv
    have hwo := h.wo
    have hlook := h.scores 0 Nat.one_pos
    rw [qWidth_single] at hwq hwo
    rw [kvWidth_single] at hwk hwv
    rw [qWidth_single, kvWidth_single, projection_single, projection_single, hscores] at hlook
    exact ⟨h.seq, h.dModel, h.dHead, h.input, h.weight, hwq, hwk, hwv, hwo, h.zero, h.codes, hlook⟩
  · intro h
    constructor
    case seq => exact h.seq
    case dModel => exact h.dModel
    case dHead => exact h.dHead
    case qWidth => rw [qWidth_single]; exact h.dHead
    case kvWidth => rw [kvWidth_single]; exact h.dHead
    case groups => exact ⟨Nat.one_ne_zero, dvd_refl 1⟩
    case input => exact h.input
    case weight => exact h.weight
    case wq => rw [qWidth_single]; exact h.wq
    case wk => rw [kvWidth_single]; exact h.wk
    case wv => rw [kvWidth_single]; exact h.wv
    case wo => rw [qWidth_single]; exact h.wo
    case rotation => exact fun rp hrp => nomatch hrp
    case zero => exact h.zero
    case codes => exact h.codes
    case scores =>
      intro g hg
      obtain rfl : g = 0 := Nat.lt_one_iff.mp hg
      rw [qWidth_single, kvWidth_single, projection_single, projection_single, hscores]
      exact h.scores

end MhaEntries
