import Mathlib.Data.List.Nodup
import Mathlib.Data.Nat.Bitwise

/-! # HPKE contexts

    A context of the line seal holds a key schedule and a sequence number.
    Sealing and opening take the next number, export takes none, and a
    released context is closed.  `D` is whatever a caller passes and the AEAD
    returns; each call names the AEAD that answers it. -/

namespace HpkeContext

abbrev Bytes := List UInt8

def MAX_SAFE_INTEGER : ℕ := 2 ^ 53 - 1
def NH : ℕ := 32

/-! ## Nonces -/

/-- `n & 0xff`, of the low 32 bits of a number. -/
def lowByte (n : ℕ) : ℕ := n % 2 ^ 32 &&& 0xff

/-- The loop of `computeNonce`, on the bytes from the last to the first, and what it leaves of the number. -/
def xorDigits : Bytes → ℕ → Bytes × ℕ
  | [], n => ([], n)
  | b :: rest, n =>
    let (out, left) := xorDigits rest (n / 256)
    (UInt8.ofNat ((b.toNat ^^^ lowByte n) &&& 0xff) :: out, left)

def computeNonce (baseNonce : Bytes) (seq : ℕ) : Option Bytes :=
  if MAX_SAFE_INTEGER < seq then none
  else
    let (out, n) := xorDigits baseNonce.reverse seq
    if n ≠ 0 then none else some out.reverse

theorem lowByte_eq (n : ℕ) : lowByte n = n % 256 := by
  rw [lowByte, show (0xff : ℕ) = 2 ^ 8 - 1 from rfl, Nat.and_two_pow_sub_one_eq_mod]
  omega

theorem xored_inj {b : UInt8} {x y : ℕ} (hx : x < 256) (hy : y < 256)
    (h : UInt8.ofNat ((b.toNat ^^^ x) &&& 0xff) = UInt8.ofNat ((b.toNat ^^^ y) &&& 0xff)) : x = y := by
  have hbyte : ∀ z < 256, (UInt8.ofNat ((b.toNat ^^^ z) &&& 0xff)).toNat = b.toNat ^^^ z := by
    intro z hz
    have hlt : b.toNat ^^^ z < 2 ^ 8 := Nat.xor_lt_two_pow b.toNat_lt hz
    rw [UInt8.toNat_ofNat', show (0xff : ℕ) = 2 ^ 8 - 1 from rfl, Nat.and_two_pow_sub_one_eq_mod,
      Nat.mod_eq_of_lt hlt, Nat.mod_eq_of_lt hlt]
  have heq := congrArg UInt8.toNat h
  rw [hbyte x hx, hbyte y hy] at heq
  exact Nat.xor_right_injective heq

theorem xorDigits_inj {base : Bytes} : ∀ {m n : ℕ} {out : Bytes},
    xorDigits base m = (out, 0) → xorDigits base n = (out, 0) → m = n := by
  induction base with
  | nil =>
    intro m n out hm hn
    exact (Prod.mk.inj hm).2.trans (Prod.mk.inj hn).2.symm
  | cons b rest ih =>
    intro m n out hm hn
    simp only [xorDigits, Prod.mk.injEq] at hm hn
    obtain ⟨rfl, hm⟩ := hm
    obtain ⟨hout, hn⟩ := hn
    obtain ⟨hbyte, hrest⟩ := List.cons.inj hout
    rw [lowByte_eq, lowByte_eq] at hbyte
    have hlow := xored_inj (Nat.mod_lt n (by decide)) (Nat.mod_lt m (by decide)) hbyte
    have hhigh := ih (Prod.ext rfl hm) (Prod.ext hrest hn)
    omega

theorem xorDigits_of_nonce {base nonce : Bytes} {n : ℕ} (h : computeNonce base n = some nonce) :
    xorDigits base.reverse n = (nonce.reverse, 0) := by
  unfold computeNonce at h
  dsimp only at h
  split_ifs at h with hunsafe hleft
  rw [← Option.some.inj h, List.reverse_reverse]
  exact Prod.ext rfl (not_not.mp hleft)

/-- **NO NUMBER SHARES A NONCE** with another, however large. -/
theorem computeNonce_inj {base nonce : Bytes} {m n : ℕ} (hm : computeNonce base m = some nonce)
    (hn : computeNonce base n = some nonce) : m = n :=
  xorDigits_inj (xorDigits_of_nonce hm) (xorDigits_of_nonce hn)

/-! ## Contexts -/

structure Schedule where
  key : Bytes
  baseNonce : Bytes
  exporterSecret : Bytes
  secret : Bytes
  sharedSecret : Bytes

structure State where
  key : Option Bytes
  baseNonce : Option Bytes
  exporterSecret : Option Bytes
  secret : Option Bytes
  sharedSecret : Option Bytes
  seq : Option ℕ
  dead : Bool

def scheduleRole (sched : Schedule) : State where
  key := some sched.key
  baseNonce := some sched.baseNonce
  exporterSecret := some sched.exporterSecret
  secret := some sched.secret
  sharedSecret := some sched.sharedSecret
  seq := some 0
  dead := false

inductive Reason where
  | bad_type
  | open_failed

/-- How a call ends. -/
inductive Outcome (D : Type) where
  | thrown
  | failed (reason : Reason)
  | sealed (ct : D)
  | opened (pt : D)
  | exported (bytes : Bytes)
  | released

/-- What the AEAD answered, where it did. -/
def Outcome.answer {D : Type} : Outcome D → Option D
  | .sealed ct => some ct
  | .opened pt => some pt
  | _ => none

/-- A call's outcome, and the nonce of the AEAD call it made. -/
structure Event (D : Type) where
  nonce : Option Bytes
  outcome : Outcome D

/-- `aeadSeal` or `aeadOpen`: key, nonce, associated data, data. -/
abbrev Aead (D : Type) := Bytes → Bytes → D → D → Option D

def wipeSchedule (s : State) : State :=
  { s with key := none, baseNonce := none, exporterSecret := none, secret := none, sharedSecret := none }

def releaseContext (s : State) : State :=
  if s.dead then s else { wipeSchedule s with seq := none, dead := true }

/-- The key, the base nonce and the number of a live context. -/
def liveState (s : State) : Option (Bytes × Bytes × ℕ) :=
  if s.dead then none
  else
    match s.key, s.baseNonce, s.seq with
    | some key, some baseNonce, some seq => if MAX_SAFE_INTEGER ≤ seq then none else some (key, baseNonce, seq)
    | _, _, _ => none

variable {D : Type}

/-- The body of `contextSeal` and of `contextOpen`. -/
def next (ok : D → Outcome D) (aead : Aead D) (aad data : D) (s : State) : State × Event D :=
  match liveState s with
  | none => (s, ⟨none, .thrown⟩)
  | some (key, baseNonce, seq) =>
    match computeNonce baseNonce seq with
    | none => (s, ⟨none, .thrown⟩)
    | some nonce =>
      match aead key nonce aad data with
      | none => (s, ⟨some nonce, .failed .open_failed⟩)
      | some result => ({ s with seq := some (seq + 1) }, ⟨some nonce, ok result⟩)

def contextSeal (aeadSeal : Aead D) (aad pt : D) (s : State) : State × Event D := next .sealed aeadSeal aad pt s

def contextOpen (aeadOpen : Aead D) (aad ct : D) (s : State) : State × Event D := next .opened aeadOpen aad ct s

/-- `exporterContext` where it is a `Uint8Array`, `length` where it is a safe integer from zero. -/
def contextExport (labeledExpand : Bytes → Bytes → ℕ → Option Bytes) (exporterContext : Option Bytes)
    (length : Option ℕ) (s : State) : Outcome D :=
  match liveState s with
  | none => .thrown
  | some _ =>
    match exporterContext with
    | none => .failed .bad_type
    | some context =>
      match length.filter (· ≤ 255 * NH) with
      | none => .failed .open_failed
      | some length =>
        match s.exporterSecret.bind (labeledExpand · context length) with
        | none => .failed .open_failed
        | some out => .exported out

inductive Call (D : Type) where
  | contextSeal (aeadSeal : Aead D) (aad pt : D)
  | contextOpen (aeadOpen : Aead D) (aad ct : D)
  | contextExport (labeledExpand : Bytes → Bytes → ℕ → Option Bytes)
      (exporterContext : Option Bytes) (length : Option ℕ)
  | releaseContext

def step (s : State) : Call D → State × Event D
  | .contextSeal aeadSeal aad pt => contextSeal aeadSeal aad pt s
  | .contextOpen aeadOpen aad ct => contextOpen aeadOpen aad ct s
  | .contextExport labeledExpand exporterContext length =>
    (s, ⟨none, contextExport labeledExpand exporterContext length s⟩)
  | .releaseContext => (releaseContext s, ⟨none, .released⟩)

def run (s : State) : List (Call D) → List (Event D)
  | [] => []
  | call :: calls => (step s call).2 :: run (step s call).1 calls

/-- The nonce under which an event returned a ciphertext. -/
def Event.sealedUnder (e : Event D) : Option Bytes :=
  match e.outcome with
  | .sealed _ => e.nonce
  | _ => none

/-- The nonces under which a ciphertext was returned. -/
def sealedNonces (events : List (Event D)) : List Bytes := events.filterMap Event.sealedUnder

/-! ## What one call does -/

variable {s : State} {call : Call D} {base key nonce : Bytes} {seq : ℕ}

/-- **WHAT A CALL CAN DO**: nothing, release the context, or answer under the nonce of its number. -/
inductive Moves (s : State) : Call D → State → Event D → Prop where
  | idle {call : Call D} {nonce : Option Bytes} {outcome : Outcome D} (hanswer : outcome.answer = none) :
      Moves s call s ⟨nonce, outcome⟩
  | released : Moves s .releaseContext (releaseContext s) ⟨none, .released⟩
  | next {call : Call D} {key base nonce : Bytes} {seq : ℕ} {outcome : Outcome D}
      (hlive : liveState s = some (key, base, seq)) (hnonce : computeNonce base seq = some nonce)
      (hanswer : outcome.answer ≠ none) : Moves s call { s with seq := some (seq + 1) } ⟨some nonce, outcome⟩

theorem next_moves {ok : D → Outcome D} {aead : Aead D} {aad data : D} (hok : ∀ d, (ok d).answer ≠ none) :
    Moves s call (next ok aead aad data s).1 (next ok aead aad data s).2 := by
  unfold next
  split
  · exact .idle rfl
  · rename_i hlive
    split
    · exact .idle rfl
    · rename_i hnonce
      split
      · exact .idle rfl
      · exact .next hlive hnonce (hok _)

theorem step_moves (s : State) (call : Call D) : Moves s call (step s call).1 (step s call).2 := by
  cases call with
  | contextSeal aeadSeal aad pt => exact next_moves nofun
  | contextOpen aeadOpen aad ct => exact next_moves nofun
  | contextExport labeledExpand exporterContext length =>
    refine .idle ?_
    unfold contextExport
    split
    · rfl
    split
    · rfl
    split
    · rfl
    split
    · rfl
    · rfl
  | releaseContext => exact .released

theorem liveState_release (s : State) : liveState (releaseContext s) = none := by
  unfold releaseContext
  split
  · rename_i hdead
    exact if_pos hdead
  · rfl

theorem liveState_eq_some_iff : liveState s = some (key, base, seq) ↔ s.dead = false ∧ s.key = some key
    ∧ s.baseNonce = some base ∧ s.seq = some seq ∧ seq < MAX_SAFE_INTEGER := by
  obtain ⟨key', base', exporterSecret, secret, sharedSecret, seq', dead⟩ := s
  cases dead <;> cases key' <;> cases base' <;> cases seq' <;> simp [liveState]
  grind

theorem liveState_next (h : liveState s = some (key, base, seq)) (hsafe : seq + 1 < MAX_SAFE_INTEGER) :
    liveState { s with seq := some (seq + 1) } = some (key, base, seq + 1) := by
  obtain ⟨hdead, hkey, hbase, -, -⟩ := liveState_eq_some_iff.mp h
  exact liveState_eq_some_iff.mpr ⟨hdead, hkey, hbase, rfl, hsafe⟩

theorem liveState_limit (hlimit : ¬ seq + 1 < MAX_SAFE_INTEGER) :
    liveState { s with seq := some (seq + 1) } = none := by
  rw [Option.eq_none_iff_forall_ne_some]
  rintro ⟨key', base', seq'⟩ hlive
  obtain ⟨-, -, -, hseq, hsafe⟩ := liveState_eq_some_iff.mp hlive
  cases hseq
  exact hlimit hsafe

/-! ## Nonces of a run -/

/-- The nonce is that of a number the context has not passed. -/
def Ahead (s : State) (nonce : Bytes) : Prop :=
  ∃ key base seq later, liveState s = some (key, base, seq) ∧ seq ≤ later ∧ computeNonce base later = some nonce

/-- **RUN**: what a context seals under is ahead of it, and never twice the same. -/
theorem run_nonces (calls : List (Call D)) (s : State) :
    (∀ nonce ∈ sealedNonces (run s calls), Ahead s nonce) ∧ (sealedNonces (run s calls)).Nodup := by
  induction calls generalizing s with
  | nil => exact ⟨nofun, List.nodup_nil⟩
  | cons call calls ih =>
    rw [run, sealedNonces, List.filterMap_cons]
    have h := step_moves s call
    generalize (step s call).1 = s', (step s call).2 = e at h ⊢
    obtain ⟨hahead, hnodup⟩ := ih s'
    cases h with
    | @idle _ _ outcome hanswer =>
      cases outcome with
      | sealed => cases hanswer
      | _ => exact ⟨hahead, hnodup⟩
    | released =>
      refine ⟨fun nonce hmem => ?_, hnodup⟩
      obtain ⟨_, _, _, _, hlive, -, -⟩ := hahead nonce hmem
      rw [liveState_release] at hlive
      cases hlive
    | @next _ key base nonce seq outcome hlive hnonce hanswer =>
      have hlater : ∀ n ∈ sealedNonces (run { s with seq := some (seq + 1) } calls), Ahead s n ∧ n ≠ nonce := by
        intro n hmem
        obtain ⟨key', base', seq', later, hlive', hle, hn⟩ := hahead n hmem
        obtain ⟨-, -, hbase, -, -⟩ := liveState_eq_some_iff.mp hlive
        obtain ⟨-, -, hbase', hseq', -⟩ := liveState_eq_some_iff.mp hlive'
        cases hbase.symm.trans hbase'
        cases hseq'
        refine ⟨⟨key, base, seq, later, hlive, by omega, hn⟩, ?_⟩
        rintro rfl
        have hsame := computeNonce_inj hn hnonce
        omega
      cases outcome with
      | sealed ct =>
        refine ⟨List.forall_mem_cons.mpr ⟨⟨key, base, seq, seq, hlive, le_rfl, hnonce⟩,
          fun n hn => (hlater n hn).1⟩, ?_⟩
        exact List.nodup_cons.mpr ⟨fun hmem => (hlater nonce hmem).2 rfl, hnodup⟩
      | _ => exact ⟨fun n hn => (hlater n hn).1, hnodup⟩

/-! ## A closed context -/

/-- A call to a closed context throws without an AEAD call; a release does nothing. -/
def Refused (call : Call D) (e : Event D) : Prop :=
  e.nonce = none ∧ (call ≠ .releaseContext → e.outcome = .thrown)

theorem step_refused (h : liveState s = none) (call : Call D) : Refused call (step s call).2 := by
  cases call with
  | releaseContext => exact ⟨rfl, fun hne => absurd rfl hne⟩
  | contextExport labeledExpand exporterContext length =>
    refine ⟨rfl, fun _ => ?_⟩
    rw [step]
    unfold contextExport
    rw [h]
  | _ =>
    rw [step]
    first | unfold contextSeal | unfold contextOpen
    rw [next, h]
    exact ⟨rfl, fun _ => rfl⟩

theorem step_closed (h : liveState s = none) (call : Call D) : liveState (step s call).1 = none := by
  have hmove := step_moves s call
  generalize (step s call).1 = s', (step s call).2 = e at hmove ⊢
  cases hmove with
  | idle => exact h
  | released => exact liveState_release s
  | next hlive => cases h.symm.trans hlive

theorem run_refused (calls : List (Call D)) (h : liveState s = none) : List.Forall₂ Refused calls (run s calls) := by
  induction calls generalizing s with
  | nil => exact .nil
  | cons call calls ih => exact .cons (step_refused h call) (ih (step_closed h call))

/-! ## Sender and receiver -/

/-- A message sealed under a nonce. -/
structure Sealed (D : Type) where
  nonce : Bytes
  aad : D
  pt : D
  ct : D

/-- The messages that a sender seals, of those it is given. -/
def sealAll (aeadSeal : Aead D) : State → List (D × D) → List (Sealed D)
  | _, [] => []
  | s, (aad, pt) :: rest =>
    match contextSeal aeadSeal aad pt s with
    | (s', ⟨some nonce, .sealed ct⟩) => ⟨nonce, aad, pt, ct⟩ :: sealAll aeadSeal s' rest
    | (s', _) => sealAll aeadSeal s' rest

/-- What a receiver of these messages answers: the right next one opens, and no other. -/
def expected [DecidableEq D] : List (Sealed D) → List (D × D) → List (Option D)
  | _, [] => []
  | [], _ :: rest => none :: expected [] rest
  | m :: log, message :: rest =>
    if message = (m.aad, m.ct) then some m.pt :: expected log rest else none :: expected (m :: log) rest

/-- What a receiver opens, message by message. -/
def openAll (aeadOpen : Aead D) : State → List (D × D) → List (Option D)
  | _, [] => []
  | s, (aad, ct) :: rest =>
    (contextOpen aeadOpen aad ct s).2.outcome.answer :: openAll aeadOpen (contextOpen aeadOpen aad ct s).1 rest

/-- The messages are sealed under consecutive numbers. -/
inductive Numbered (base : Bytes) : ℕ → List (Sealed D) → Prop where
  | nil {k : ℕ} : Numbered base k []
  | cons {k : ℕ} {m : Sealed D} {log : List (Sealed D)} (hsafe : k < MAX_SAFE_INTEGER)
      (hnonce : computeNonce base k = some m.nonce) (hrest : Numbered base (k + 1) log) : Numbered base k (m :: log)

variable {log : List (Sealed D)} {aeadSeal aeadOpen : Aead D} {k : ℕ}

theorem Numbered.mem {m : Sealed D} (h : Numbered base k log) (hm : m ∈ log) :
    ∃ later, k ≤ later ∧ computeNonce base later = some m.nonce := by
  induction h with
  | nil => cases hm
  | cons _ hnonce _ ih =>
    rcases List.mem_cons.mp hm with rfl | hm
    · exact ⟨_, le_rfl, hnonce⟩
    · obtain ⟨later, hle, hlater⟩ := ih hm
      exact ⟨later, by omega, hlater⟩

theorem sealAll_closed (messages : List (D × D)) (h : liveState s = none) : sealAll aeadSeal s messages = [] := by
  induction messages with
  | nil => rfl
  | cons message rest ih =>
    rw [sealAll, contextSeal, next, h]
    exact ih

theorem openAll_closed [DecidableEq D] (messages : List (D × D)) (h : liveState s = none) :
    openAll aeadOpen s messages = expected [] messages := by
  induction messages with
  | nil => rfl
  | cons message rest ih =>
    rw [openAll, contextOpen, next, h, expected]
    exact congrArg (none :: ·) ih

/-- The step of a live context whose AEAD answers. -/
theorem next_live {ok : D → Outcome D} {aead : Aead D} {aad data result : D} (hlive : liveState s = some (key, base, k))
    (hnonce : computeNonce base k = some nonce) (haead : aead key nonce aad data = some result) :
    next ok aead aad data s = ({ s with seq := some (k + 1) }, ⟨some nonce, ok result⟩) := by
  simp only [next, hlive, hnonce, haead]

theorem sealAll_numbered (messages : List (D × D)) (h : liveState s = some (key, base, k)) :
    Numbered base k (sealAll aeadSeal s messages) := by
  induction messages generalizing s k with
  | nil => exact .nil
  | cons message rest ih =>
    obtain ⟨aad, pt⟩ := message
    rw [sealAll]
    cases hnonce : computeNonce base k with
    | none =>
      simp only [contextSeal, next, h, hnonce]
      exact ih h
    | some nonce =>
      cases haead : aeadSeal key nonce aad pt with
      | none =>
        simp only [contextSeal, next, h, hnonce, haead]
        exact ih h
      | some ct =>
        rw [contextSeal, next_live h hnonce haead]
        refine .cons (liveState_eq_some_iff.mp h).2.2.2.2 hnonce ?_
        by_cases hsafe : k + 1 < MAX_SAFE_INTEGER
        · exact ih (liveState_next h hsafe)
        · rw [sealAll_closed rest (liveState_limit hsafe)]
          exact .nil

/-- **IN STEP**: a receiver at the number of the next message opens that message alone, and then the rest. -/
theorem openAll_expected [DecidableEq D] (messages : List (D × D)) (h : liveState s = some (key, base, k))
    (hlog : Numbered base k log)
    (hideal : ∀ later nonce, k ≤ later → computeNonce base later = some nonce → ∀ aad pt ct,
      aeadOpen key nonce aad ct = some pt ↔ ⟨nonce, aad, pt, ct⟩ ∈ log) :
    openAll aeadOpen s messages = expected log messages := by
  induction messages generalizing s k log with
  | nil => cases log <;> rfl
  | cons message rest ih =>
    obtain ⟨aad, ct⟩ := message
    have hrefused : (∀ nonce, computeNonce base k = some nonce → aeadOpen key nonce aad ct = none) →
        openAll aeadOpen s ((aad, ct) :: rest) = none :: expected log rest := by
      intro hnone
      cases hnonce : computeNonce base k with
      | none =>
        simp only [openAll, contextOpen, next, h, hnonce]
        exact congrArg (none :: ·) (ih h hlog hideal)
      | some nonce =>
        simp only [openAll, contextOpen, next, h, hnonce, hnone nonce hnonce]
        exact congrArg (none :: ·) (ih h hlog hideal)
    cases hlog with
    | nil =>
      refine hrefused fun nonce hnonce => ?_
      rw [Option.eq_none_iff_forall_ne_some]
      exact fun pt hpt => nomatch (hideal k nonce le_rfl hnonce aad pt ct).mp hpt
    | @cons _ m log hsafe hnonce hrest =>
      have hlater : ∀ later n, k + 1 ≤ later → computeNonce base later = some n → n ≠ m.nonce := by
        rintro later n hle hn rfl
        have hsame := computeNonce_inj hn hnonce
        omega
      rw [expected]
      split_ifs with hright
      · cases hright
        have haead := (hideal k m.nonce le_rfl hnonce m.aad m.pt m.ct).mpr List.mem_cons_self
        rw [openAll, contextOpen, next_live h hnonce haead]
        refine congrArg (some m.pt :: ·) ?_
        by_cases hnext : k + 1 < MAX_SAFE_INTEGER
        · refine ih (liveState_next h hnext) hrest fun later n hle hn aad pt ct => ?_
          rw [hideal later n (by omega) hn, List.mem_cons, or_iff_right]
          rintro rfl
          exact hlater later _ hle hn rfl
        · cases hrest with
          | nil => exact openAll_closed rest (liveState_limit hnext)
          | cons hsafe' => exact absurd hsafe' hnext
      · refine hrefused fun nonce hn => ?_
        rw [Option.eq_none_iff_forall_ne_some]
        intro pt hpt
        rcases List.mem_cons.mp ((hideal k nonce le_rfl hn aad pt ct).mp hpt) with rfl | hmem
        · exact hright rfl
        · obtain ⟨later, hle, hnum⟩ := hrest.mem hmem
          exact hlater later _ hle hnum (Option.some.inj (hn.symm.trans hnonce))

theorem expected_in_order [DecidableEq D] (log : List (Sealed D)) :
    expected log (log.map fun m => (m.aad, m.ct)) = log.map fun m => some m.pt := by
  induction log with
  | nil => rfl
  | cons m log ih =>
    rw [List.map_cons, expected, if_pos rfl, ih]
    rfl

/-! ## The law of a context -/

/-- **CONTEXTS STAY IN STEP**: no ciphertexts share a nonce, a call without an answer changes nothing, a
    released context is closed, and over an ideal AEAD a receiver opens the right next message and no other. -/
theorem contexts_in_step [DecidableEq D] (aeadSeal aeadOpen : Aead D) (sched : Schedule) (messages : List (D × D))
    (hideal : ∀ nonce aad pt ct, aeadOpen sched.key nonce aad ct = some pt
      ↔ ⟨nonce, aad, pt, ct⟩ ∈ sealAll aeadSeal (scheduleRole sched) messages) :
    (∀ (s : State) (calls : List (Call D)), (sealedNonces (run s calls)).Nodup)
    ∧ (∀ (s : State) (call : Call D), call ≠ .releaseContext → (step s call).2.outcome.answer = none →
        (step s call).1 = s)
    ∧ (∀ (s : State) (calls : List (Call D)), List.Forall₂ Refused calls (run (releaseContext s) calls))
    ∧ openAll aeadOpen (scheduleRole sched)
      ((sealAll aeadSeal (scheduleRole sched) messages).map fun m => (m.aad, m.ct))
        = (sealAll aeadSeal (scheduleRole sched) messages).map (fun m => some m.pt)
    ∧ ∀ received, openAll aeadOpen (scheduleRole sched) received
        = expected (sealAll aeadSeal (scheduleRole sched) messages) received := by
  have hreceived : ∀ received, openAll aeadOpen (scheduleRole sched) received
      = expected (sealAll aeadSeal (scheduleRole sched) messages) received := by
    intro received
    have hlive : liveState (scheduleRole sched) = some (sched.key, sched.baseNonce, 0) := rfl
    exact openAll_expected received hlive (sealAll_numbered messages hlive) fun _ nonce _ _ => hideal nonce
  refine ⟨fun s calls => (run_nonces calls s).2, ?_, fun s calls => run_refused calls (liveState_release s), ?_,
    hreceived⟩
  · intro s call hcall hanswer
    have hmove := step_moves s call
    generalize (step s call).1 = s', (step s call).2 = e at hmove hanswer ⊢
    cases hmove with
    | idle => rfl
    | released => exact absurd rfl hcall
    | next _ _ hsome => exact absurd hanswer hsome
  · rw [hreceived]
    exact expected_in_order _

def sampleSchedule : Schedule where
  key := List.replicate 32 7
  baseNonce := List.replicate 12 0x40
  exporterSecret := [2]
  secret := [3]
  sharedSecret := [4]

/-- Two messages under ChaCha20-Poly1305, one text and one nonce apart. -/
def paidMessage : Sealed Bytes where
  nonce := List.replicate 12 0x40
  aad := [0xc4]
  pt := [0x70, 0x61, 0x69, 0x64]
  ct := [0xe0, 0xd1, 0xd7, 0x9d, 0x98, 0xe5, 0x0a, 0xea, 0x29, 0x8e, 0x94, 0x60, 0x1e, 0x71, 0x64,
    0xc7, 0xf7, 0xcc, 0x3a, 0x2a]

def owedMessage : Sealed Bytes where
  nonce := List.replicate 11 0x40 ++ [0x41]
  aad := [0xc4]
  pt := [0x6f, 0x77, 0x65, 0x64]
  ct := [0xf3, 0x59, 0x0b, 0xfe, 0x03, 0x30, 0x95, 0x24, 0x0a, 0x56, 0xa4, 0x16, 0xf7, 0x5b, 0xe7,
    0xf0, 0x05, 0x42, 0xc5, 0xe1]

def sampleSeal : Aead Bytes := fun _ nonce aad pt =>
  ([paidMessage, owedMessage].find? fun m => (m.nonce, m.aad, m.pt) = (nonce, aad, pt)).map Sealed.ct

def sampleOpen : Aead Bytes := fun _ nonce aad ct =>
  ([paidMessage, owedMessage].find? fun m => (m.nonce, m.aad, m.ct) = (nonce, aad, ct)).map Sealed.pt

theorem sampleOpen_iff (key nonce aad pt ct : Bytes) :
    sampleOpen key nonce aad ct = some pt ↔ ⟨nonce, aad, pt, ct⟩ ∈ [paidMessage, owedMessage] := by
  rw [sampleOpen, Option.map_eq_some_iff]
  constructor
  · rintro ⟨m, hm, rfl⟩
    have hsame := List.find?_some hm
    simp only [Prod.mk.injEq, decide_eq_true_eq] at hsame
    obtain ⟨rfl, rfl, rfl⟩ := hsame
    exact List.mem_of_find?_eq_some hm
  · intro h
    rcases List.mem_pair.mp h with h | h
    · cases h
      exact ⟨paidMessage, by rfl, rfl⟩
    · cases h
      exact ⟨owedMessage, by rfl, rfl⟩

/-- The second message before its turn, the first altered, the first, the first again, and the second. -/
theorem message_opens_once :
    openAll sampleOpen (scheduleRole sampleSchedule) [([0xc4], owedMessage.ct), ([0xc5], paidMessage.ct),
        ([0xc4], paidMessage.ct), ([0xc4], paidMessage.ct), ([0xc4], owedMessage.ct)]
      = [none, none, some paidMessage.pt, none, some owedMessage.pt]
    ∧ (sealedNonces (run (scheduleRole sampleSchedule) [.contextSeal sampleSeal [0xc4] paidMessage.pt,
        .contextSeal sampleSeal [0xc4] owedMessage.pt])).Nodup := by
  have hsealed : sealAll sampleSeal (scheduleRole sampleSchedule) [([0xc4], paidMessage.pt), ([0xc4], owedMessage.pt)]
      = [paidMessage, owedMessage] := by rfl
  obtain ⟨hnonces, -, -, -, hopens⟩ := contexts_in_step sampleSeal sampleOpen sampleSchedule
    [([0xc4], paidMessage.pt), ([0xc4], owedMessage.pt)] fun nonce aad pt ct => by rw [hsealed]; exact sampleOpen_iff ..
  exact ⟨(hopens _).trans (by rw [hsealed]; rfl), hnonces _ _⟩

/-- A released context may be released again, and that call does not throw. -/
theorem release_silent : ¬ ∀ calls : List (Call ℕ),
    ∀ e ∈ run (releaseContext (scheduleRole sampleSchedule)) calls, e.outcome = .thrown := by
  intro h
  exact nomatch h [.releaseContext] _ List.mem_cons_self

end HpkeContext
