import Chit402.ExceptFlowProofs
import Chit402.TraceProofs
import Mathlib.Algebra.Group.Pi.Lemmas

/-! # What a contract holds, and the accounts it calls

    A contract holds amounts of several assets next to its storage.  When
    it calls an account, that account's code runs: it may refuse, and before
    it returns it may call the contract again, through every entry point
    that lets it in. -/

namespace Custody

open Function

/-- A contract's storage, and how much it holds of each asset. -/
structure World (S A : Type) where
  state : S
  holdings : A → Nat

/-- What a called account does: whether the call succeeds, and the calls it makes back. -/
structure Reply (N : Type) where
  ok : Bool
  calls : List N

variable {S A N ε : Type}

def World.write (s : S) (w : World S A) : World S A := { w with state := s }

@[simp] theorem World.write_state (s : S) (w : World S A) : (w.write s).state = s := rfl

@[simp] theorem World.write_holdings (s : S) (w : World S A) : (w.write s).holdings = w.holdings := rfl

variable {a b : A}

section Moves

variable [DecidableEq A]

def World.credit (a : A) (amount : Nat) (w : World S A) : World S A :=
  { w with holdings := update w.holdings a (w.holdings a + amount) }

def World.debit (a : A) (amount : Nat) (w : World S A) : World S A :=
  { w with holdings := update w.holdings a (w.holdings a - amount) }

@[simp] theorem World.credit_state (a : A) (amount : Nat) (w : World S A) : (w.credit a amount).state = w.state := rfl

@[simp] theorem World.debit_state (a : A) (amount : Nat) (w : World S A) : (w.debit a amount).state = w.state := rfl

theorem World.credit_same (a : A) (amount : Nat) (w : World S A) :
    (w.credit a amount).holdings a = w.holdings a + amount := update_self ..

theorem World.credit_ne (h : b ≠ a) (amount : Nat) (w : World S A) :
    (w.credit a amount).holdings b = w.holdings b := update_of_ne h ..

theorem World.debit_same (a : A) (amount : Nat) (w : World S A) :
    (w.debit a amount).holdings a = w.holdings a - amount := update_self ..

theorem World.debit_ne (h : b ≠ a) (amount : Nat) (w : World S A) :
    (w.debit a amount).holdings b = w.holdings b := update_of_ne h ..

end Moves

section Calls

variable [DecidableEq A] (play : World S A → N → World S A)

/-- A call that takes `amount` of `a` along: the success flag and the world after it.
    A call that fails leaves nothing behind. -/
def call (a : A) (r : Reply N) (amount : Nat) (w : World S A) : Bool × World S A :=
  if r.ok ∧ amount ≤ w.holdings a then (true, Trace.run play (w.debit a amount) r.calls) else (false, w)

/-- A payment that has to go through. -/
def send (e : ε) (a : A) (r : Reply N) (amount : Nat) (w : World S A) : Except ε (World S A) :=
  if (call play a r amount w).1 then .ok (call play a r amount w).2 else .error e

/-- A payment, and a plain transfer to the same account where it fails. -/
def forward (e : ε) (a : A) (r plain : Reply N) (amount : Nat) (w : World S A) : Except ε (World S A) :=
  if (call play a r amount w).1 then .ok (call play a r amount w).2 else send play e a plain amount w

end Calls

section Calls

variable (play : World S A → N → World S A)

/-- A call without an asset that has to succeed. -/
def ask (e : ε) (r : Reply N) (w : World S A) : Except ε (World S A) :=
  if r.ok then .ok (Trace.run play w r.calls) else .error e

/-- A call without an asset whose failure is ignored. -/
def notify (r : Reply N) (w : World S A) : World S A := if r.ok then Trace.run play w r.calls else w

/-- A token moves `amount` of `a` to the contract. -/
def pull [DecidableEq A] (e : ε) (a : A) (r : Reply N) (amount : Nat) (w : World S A) : Except ε (World S A) :=
  if r.ok then .ok (Trace.run play (w.credit a amount) r.calls) else .error e

end Calls

variable {play : World S A → N → World S A}

variable {amount : Nat} {plain r : Reply N} {w w' : World S A} {e : ε}

section Calls

variable [DecidableEq A]

theorem call_of_true (h : (call play a r amount w).1 = true) : r.ok = true ∧ amount ≤ w.holdings a
      ∧ (call play a r amount w).2 = Trace.run play (w.debit a amount) r.calls := by
  rw [call] at h ⊢
  split at h
  · rename_i hc
    rw [if_pos hc]
    exact ⟨hc.1, hc.2, rfl⟩
  · cases h

theorem send_ok_iff : send play e a r amount w = .ok w' ↔ r.ok = true ∧ amount ≤ w.holdings a
      ∧ w' = Trace.run play (w.debit a amount) r.calls := by
  rw [send, call]
  by_cases hc : r.ok ∧ amount ≤ w.holdings a
  · rw [if_pos hc, if_pos rfl, Except.ok.injEq]
    exact ⟨fun h => ⟨hc.1, hc.2, h.symm⟩, fun h => h.2.2.symm⟩
  · rw [if_neg hc, if_neg Bool.false_ne_true]
    exact ⟨fun h => (nomatch h), fun h => absurd ⟨h.1, h.2.1⟩ hc⟩

theorem forward_ok (h : forward play e a r plain amount w = .ok w') :
    amount ≤ w.holdings a ∧ ∃ calls, w' = Trace.run play (w.debit a amount) calls := by
  rw [forward] at h
  split_ifs at h with hc
  · obtain ⟨-, hle, hrun⟩ := call_of_true hc
    exact ⟨hle, r.calls, (Except.ok.inj h).symm.trans hrun⟩
  · obtain ⟨-, hle, hrun⟩ := send_ok_iff.mp h
    exact ⟨hle, plain.calls, hrun⟩

end Calls

theorem ask_ok_iff : ask play e r w = .ok w' ↔ r.ok = true ∧ w' = Trace.run play w r.calls := by
  rw [ask]
  by_cases hc : r.ok = true
  · rw [if_pos hc, Except.ok.injEq]
    exact ⟨fun h => ⟨hc, h.symm⟩, fun h => h.2.symm⟩
  · rw [if_neg hc]
    exact ⟨fun h => (nomatch h), fun h => absurd h.1 hc⟩

theorem askIf_ok {c : Prop} [Decidable c] (h : (if c then ask play e r w else .ok w) = .ok w') :
    ∃ calls, w' = Trace.run play w calls := by
  split at h
  · exact ⟨r.calls, (ask_ok_iff.mp h).2⟩
  · exact ⟨[], (Except.ok.inj h).symm⟩

theorem notify_eq (r : Reply N) (w : World S A) : ∃ calls, notify play r w = Trace.run play w calls := by
  rw [notify]
  split
  · exact ⟨r.calls, rfl⟩
  · exact ⟨[], rfl⟩

theorem notifyIf_eq (c : Prop) [Decidable c] (r : Reply N) (w : World S A) :
    ∃ calls, (if c then notify play r w else w) = Trace.run play w calls := by
  split
  · exact notify_eq r w
  · exact ⟨[], rfl⟩

theorem pull_ok_iff [DecidableEq A] :
    pull play e a r amount w = .ok w' ↔ r.ok = true ∧ w' = Trace.run play (w.credit a amount) r.calls := by
  rw [pull]
  by_cases hc : r.ok = true
  · rw [if_pos hc, Except.ok.injEq]
    exact ⟨fun h => ⟨hc, h.symm⟩, fun h => h.2.symm⟩
  · rw [if_neg hc]
    exact ⟨fun h => (nomatch h), fun h => absurd h.1 hc⟩

/-! ## What the holdings cover -/

/-- **COVERED**: the storage is in order, and of each asset the contract holds what it
    owes and what is `pending`, which the running call has still to pay. -/
structure Covers (Books : S → Prop) (owed : S → A → Nat) (pending : A → Nat) (w : World S A) : Prop where
  books : Books w.state
  enough : ∀ a, owed w.state a + pending a ≤ w.holdings a

variable {Books : S → Prop} {owed : S → A → Nat} {pending : A → Nat}

theorem Covers.mono {less : A → Nat} (h : Covers Books owed pending w) (hle : ∀ a, less a ≤ pending a) :
    Covers Books owed less w :=
  ⟨h.books, fun a => Nat.le_trans (Nat.add_le_add_left (hle a) _) (h.enough a)⟩

theorem Covers.drop {more : A → Nat} (h : Covers Books owed (pending + more) w) : Covers Books owed pending w :=
  h.mono fun a => Nat.le_add_right (pending a) (more a)

theorem Covers.write {s : S} {left : A → Nat} (h : Covers Books owed pending w) (hbooks : Books s)
    (howed : ∀ a, owed s a + left a ≤ owed w.state a + pending a) : Covers Books owed left (w.write s) :=
  ⟨hbooks, fun a => Nat.le_trans (howed a) (h.enough a)⟩

section Moves

variable [DecidableEq A]

theorem Covers.credit (h : Covers Books owed pending w) (a : A) (amount : Nat) :
    Covers Books owed (pending + Pi.single a amount) (w.credit a amount) := by
  refine ⟨h.books, fun b => ?_⟩
  have := h.enough b
  by_cases hb : b = a
  · subst hb
    rw [Pi.add_apply, Pi.single_eq_same, World.credit_same, World.credit_state]
    omega
  · rw [Pi.add_apply, Pi.single_eq_of_ne hb, World.credit_ne hb]
    exact this

theorem Covers.debit (h : Covers Books owed (pending + Pi.single a amount) w) :
    Covers Books owed pending (w.debit a amount) := by
  refine ⟨h.books, fun b => ?_⟩
  have henough := h.enough b
  by_cases hb : b = a
  · subst hb
    rw [Pi.add_apply, Pi.single_eq_same] at henough
    rw [World.debit_same, World.debit_state]
    omega
  · rw [Pi.add_apply, Pi.single_eq_of_ne hb] at henough
    rw [World.debit_ne hb]
    exact henough

theorem Covers.send_ok (h : Covers Books owed (pending + Pi.single a amount) w) (hok : r.ok = true) :
    ∃ w', Custody.send play e a r amount w = .ok w' := by
  have := h.enough a
  rw [Pi.add_apply, Pi.single_eq_same] at this
  exact ⟨_, send_ok_iff.mpr ⟨hok, by omega, rfl⟩⟩

end Moves

section Rules

variable (hplay : ∀ pending w n, Covers Books owed pending w → Covers Books owed pending (play w n))

include hplay

theorem Covers.run (calls : List N) (h : Covers Books owed pending w) :
    Covers Books owed pending (Trace.run play w calls) :=
  Trace.run_invariant _ calls h fun w n => hplay pending w n

/-- **PAYMENT RULE**: a payment uses up its part of what was pending. -/
theorem Covers.send [DecidableEq A] (h : Covers Books owed (pending + Pi.single a amount) w)
    (hsend : Custody.send play e a r amount w = .ok w') : Covers Books owed pending w' := by
  obtain ⟨-, -, rfl⟩ := send_ok_iff.mp hsend
  exact h.debit.run hplay r.calls

theorem Covers.forward [DecidableEq A] (h : Covers Books owed (pending + Pi.single a amount) w)
    (hforward : Custody.forward play e a r plain amount w = .ok w') : Covers Books owed pending w' := by
  obtain ⟨-, calls, rfl⟩ := forward_ok hforward
  exact h.debit.run hplay calls

theorem Covers.ask (h : Covers Books owed pending w) (hask : Custody.ask play e r w = .ok w') :
    Covers Books owed pending w' := by
  obtain ⟨-, rfl⟩ := ask_ok_iff.mp hask
  exact h.run hplay r.calls

theorem Covers.notify (r : Reply N) (h : Covers Books owed pending w) :
    Covers Books owed pending (Custody.notify play r w) := by
  obtain ⟨calls, hrun⟩ : ∃ calls, Custody.notify play r w = Trace.run play w calls := notify_eq r w
  rw [hrun]
  exact h.run hplay calls

theorem Covers.pull [DecidableEq A] (h : Covers Books owed pending w)
    (hpull : Custody.pull play e a r amount w = .ok w') : Covers Books owed (pending + Pi.single a amount) w' := by
  obtain ⟨-, rfl⟩ := pull_ok_iff.mp hpull
  exact (h.credit a amount).run hplay r.calls

end Rules

/-! ## What calls back leave standing -/

theorem run_leaves {P : S → Prop} {R : S → S → Prop} (hrefl : ∀ s, R s s) (htrans : ∀ {s t u}, R s t → R t u → R s u)
    (hplay : ∀ w n, P w.state → P (play w n).state ∧ R w.state (play w n).state) (calls : List N) (h : P w.state) :
    P (Trace.run play w calls).state ∧ R w.state (Trace.run play w calls).state :=
  Trace.run_invariant (fun w' => P w'.state ∧ R w.state w'.state) calls ⟨h, hrefl w.state⟩
    fun w' n h' => ⟨(hplay w' n h'.1).1, htrans h'.2 (hplay w' n h'.1).2⟩

end Custody
