import Chit402.TraceProofs

/-! # Interleaved runs of several programs

    A program is a tree of operations on a shared state.  Each operation is
    atomic, takes an answer from outside, and may throw.  A pool holds one
    program for each thread, and a schedule says who goes next.

    `Judge` is a logic for one program that mentions no other: what a thread
    knows before an operation, and what the answer adds.  `pool_keeps` turns
    a judgement of every program into an invariant of every schedule, when
    what one thread does leaves standing what the others know. -/

namespace Interleaving

open Trace

variable {Op : Type} {Res : Op → Type} {α β : Type}

/-! ## Programs -/

/-- A program: its result, an exception, or an operation and what follows it.
    The answer `none` is an operation that threw. -/
inductive Prog (Op : Type) (Res : Op → Type) (α : Type) where
  | done (a : α)
  | thrown
  | op (o : Op) (next : Option (Res o) → Prog Op Res α)

namespace Prog

def bind (p : Prog Op Res α) (f : α → Prog Op Res β) : Prog Op Res β :=
  match p with
  | .done a => f a
  | .thrown => .thrown
  | .op o next => .op o fun r => (next r).bind f

instance : Monad (Prog Op Res) where
  pure := .done
  bind := bind

/-- One operation; a throw is passed on. -/
def call (o : Op) : Prog Op Res (Res o) :=
  .op o fun r => match r with
    | some a => .done a
    | none => .thrown

/-- `try p catch handler` -/
def orElse (p handler : Prog Op Res α) : Prog Op Res α :=
  match p with
  | .done a => .done a
  | .thrown => handler
  | .op o next => .op o fun r => (next r).orElse handler

/-- `try p finally after`, for an `after` that throws nothing of its own. -/
def andFinally (p : Prog Op Res α) (after : Prog Op Res Unit) : Prog Op Res α :=
  match p with
  | .done a => after.bind fun _ => .done a
  | .thrown => after.bind fun _ => .thrown
  | .op o next => .op o fun r => (next r).andFinally after

end Prog

/-! ## What a thread knows -/

section Judge

variable {K : Type} (pre : K → Op → Prop) (post : K → (o : Op) → Option (Res o) → K)

/-- Every operation is allowed by what is known before it, and every end by
    what is known then.  `none` is an exception. -/
def Judge (fin : K → Option α → Prop) : K → Prog Op Res α → Prop
  | k, .done a => fin k (some a)
  | k, .thrown => fin k none
  | k, .op o next => pre k o ∧ ∀ r, Judge fin (post k o r) (next r)

variable {pre post}

theorem Judge.mono {fin fin' : K → Option α → Prop} (h : ∀ k r, fin k r → fin' k r) :
    ∀ {p : Prog Op Res α} {k : K}, Judge pre post fin k p → Judge pre post fin' k p := by
  intro p
  induction p with
  | done a => exact fun hp => h _ _ hp
  | thrown => exact fun hp => h _ _ hp
  | op o next ih => exact fun hp => ⟨hp.1, fun r => ih r (hp.2 r)⟩

theorem Judge.transfer {K' : Type} {pre' : K' → Op → Prop} {post' : K' → (o : Op) → Option (Res o) → K'}
    {fin : K → Option α → Prop} {fin' : K' → Option α → Prop} (rel : K → K' → Prop)
    (hpre : ∀ k k' o, rel k k' → pre k o → pre' k' o) (hpost : ∀ k k' o r, rel k k' → rel (post k o r) (post' k' o r))
    (hfin : ∀ k k' r, rel k k' → fin k r → fin' k' r) :
    ∀ {p : Prog Op Res α} {k : K} {k' : K'}, rel k k' → Judge pre post fin k p → Judge pre' post' fin' k' p := by
  intro p
  induction p with
  | done | thrown => exact fun hrel hp => hfin _ _ _ hrel hp
  | op o next ih => exact fun hrel hp => ⟨hpre _ _ _ hrel hp.1, fun r => ih r (hpost _ _ _ r hrel) (hp.2 r)⟩

/-- **SEQUENCE**: the second program starts with what the first one ends with. -/
theorem judge_bind {fin : K → Option β → Prop} {f : α → Prog Op Res β} : ∀ {p : Prog Op Res α} {k : K},
      Judge pre post (fun k r => match r with
        | some a => Judge pre post fin k (f a)
        | none => fin k none) k p → Judge pre post fin k (p >>= f) := by
  intro p
  induction p with
  | done a => exact fun hp => hp
  | thrown => exact fun hp => hp
  | op o next ih => exact fun hp => ⟨hp.1, fun r => ih r (hp.2 r)⟩

theorem judge_call {fin : K → Option (Res o) → Prop} {k : K} (hpre : pre k o)
    (hdone : ∀ r, fin (post k o (some r)) (some r)) (hthrown : fin (post k o none) none) :
    Judge pre post fin k (Prog.call o) := by
  refine ⟨hpre, ?_⟩
  intro r
  cases r with
  | some a => exact hdone a
  | none => exact hthrown

theorem judge_call_bind {fin : K → Option β → Prop} {f : Res o → Prog Op Res β} {k : K} (hpre : pre k o)
    (hdone : ∀ r, Judge pre post fin (post k o (some r)) (f r)) (hthrown : fin (post k o none) none) :
    Judge pre post fin k (Prog.call o >>= f) :=
  judge_bind (judge_call hpre hdone hthrown)

theorem judge_orElse {fin : K → Option α → Prop} {handler : Prog Op Res α} : ∀ {p : Prog Op Res α} {k : K},
      Judge pre post (fun k r => match r with
        | some a => fin k (some a)
        | none => Judge pre post fin k handler) k p → Judge pre post fin k (p.orElse handler) := by
  intro p
  induction p with
  | done a => exact fun hp => hp
  | thrown => exact fun hp => hp
  | op o next ih => exact fun hp => ⟨hp.1, fun r => ih r (hp.2 r)⟩

theorem judge_andFinally {fin : K → Option α → Prop} {after : Prog Op Res Unit} : ∀ {p : Prog Op Res α} {k : K},
      Judge pre post (fun k r => Judge pre post (fun k r' => match r' with
        | some _ => fin k r
        | none => fin k none) k after) k p → Judge pre post fin k (p.andFinally after) := by
  intro p
  induction p with
  | done | thrown =>
    intro k hp
    refine judge_bind (Judge.mono ?_ (show Judge pre post _ k after from hp))
    intro k r h
    cases r with
    | some _ => exact h
    | none => exact h
  | op o next ih => exact fun hp => ⟨hp.1, fun r => ih r (hp.2 r)⟩

end Judge

/-! ## Pools -/

section Pool

variable {S E : Type} (exec : S → ℕ → (o : Op) → E → S × Option (Res o))

/-- The shared state and what each thread has still to do. -/
structure Config (Op : Type) (Res : Op → Type) (α S : Type) where
  state : S
  pool : ℕ → Prog Op Res α

/-- One thread takes its next operation with the answer of the event.  A
    thread that is not scheduled again has crashed. -/
def step (c : Config Op Res α S) (ev : ℕ × E) : Config Op Res α S :=
  match c.pool ev.1 with
  | .op o next =>
    let (state, r) := exec c.state ev.1 o ev.2
    ⟨state, Function.update c.pool ev.1 (next r)⟩
  | _ => c

variable {exec} {c : Config Op Res α S} {ev : ℕ × E}

theorem step_done {a : α} (h : c.pool ev.1 = .done a) : step exec c ev = c := by
  rw [step, h]

theorem step_thrown (h : c.pool ev.1 = .thrown) : step exec c ev = c := by
  rw [step, h]

theorem step_op {o : Op} {next : Option (Res o) → Prog Op Res α} (h : c.pool ev.1 = .op o next) :
    step exec c ev = ⟨(exec c.state ev.1 o ev.2).1,
      Function.update c.pool ev.1 (next (exec c.state ev.1 o ev.2).2)⟩ := by
  rw [step, h]

variable (exec)

/-- A condition on the state before the operation an event would run. -/
def Meets (cond : S → ℕ → Op → E → Prop) (c : Config Op Res α S) (ev : ℕ × E) : Prop :=
  match c.pool ev.1 with
  | .op o _ => cond c.state ev.1 o ev.2
  | _ => True

/-- Every event of the schedule meets the condition where it falls. -/
def MeetsRun (cond : S → ℕ → Op → E → Prop) (c : Config Op Res α S) : List (ℕ × E) → Prop
  | [] => True
  | ev :: rest => Meets cond c ev ∧ MeetsRun cond (step exec c ev) rest

instance decidableMeets (cond : S → ℕ → Op → E → Prop) [∀ s n o e, Decidable (cond s n o e)] (c : Config Op Res α S)
    (ev : ℕ × E) : Decidable (Meets cond c ev) :=
  match h : c.pool ev.1 with
  | .op o _ => decidable_of_iff (cond c.state ev.1 o ev.2) (by rw [Meets, h])
  | .done _ => isTrue (by rw [Meets, h]; trivial)
  | .thrown => isTrue (by rw [Meets, h]; trivial)

instance decidableMeetsRun (cond : S → ℕ → Op → E → Prop) [∀ s n o e, Decidable (cond s n o e)] :
    (c : Config Op Res α S) → (events : List (ℕ × E)) → Decidable (MeetsRun exec cond c events)
  | _, [] => isTrue trivial
  | c, ev :: rest =>
    have := decidableMeetsRun cond (step exec c ev) rest
    inferInstanceAs (Decidable (Meets cond c ev ∧ MeetsRun exec cond (step exec c ev) rest))

variable {exec}

theorem MeetsRun.append {cond : S → ℕ → Op → E → Prop} {before after : List (ℕ × E)} :
    ∀ {c : Config Op Res α S}, MeetsRun exec cond c (before ++ after) →
      MeetsRun exec cond c before ∧ MeetsRun exec cond (run (step exec) c before) after := by
  induction before with
  | nil => exact fun h => ⟨trivial, h⟩
  | cons ev before ih => exact fun h => ⟨⟨h.1, (ih h.2).1⟩, (ih h.2).2⟩

variable {K : Type} {pre : ℕ → K → Op → Prop} {post : ℕ → K → (o : Op) → Option (Res o) → K}
  {fin : ℕ → K → Option α → Prop} {Inv : S → Prop} {Holds : ℕ → K → S → Prop} {cond : S → ℕ → Op → E → Prop}

/-- What every thread knows holds, and its program is allowed by it. -/
def Judged (pre : ℕ → K → Op → Prop) (post : ℕ → K → (o : Op) → Option (Res o) → K)
    (fin : ℕ → K → Option α → Prop) (Inv : S → Prop) (Holds : ℕ → K → S → Prop) (c : Config Op Res α S) : Prop :=
  Inv c.state ∧ ∀ n, ∃ k, Holds n k c.state ∧ Judge (pre n) (post n) (fin n) k (c.pool n)

theorem step_judged (hown : ∀ s n o e k, Inv s → Holds n k s → pre n k o → cond s n o e →
      Inv (exec s n o e).1 ∧ Holds n (post n k o (exec s n o e).2) (exec s n o e).1)
    (hother : ∀ s n m o e k k', Inv s → Holds n k s → pre n k o → cond s n o e → m ≠ n → Holds m k' s →
      Holds m k' (exec s n o e).1) (h : Judged pre post fin Inv Holds c) (hmeets : Meets cond c ev) :
    Judged pre post fin Inv Holds (step exec c ev) := by
  obtain ⟨hinv, hthreads⟩ := h
  cases hprog : c.pool ev.1 with
  | done a =>
    rw [step_done hprog]
    exact ⟨hinv, hthreads⟩
  | thrown =>
    rw [step_thrown hprog]
    exact ⟨hinv, hthreads⟩
  | op o next =>
    unfold Meets at hmeets
    rw [hprog] at hmeets
    obtain ⟨k, hholds, hjudge⟩ := hthreads ev.1
    rw [hprog] at hjudge
    obtain ⟨hinv', hholds'⟩ := hown _ _ _ _ _ hinv hholds hjudge.1 hmeets
    rw [step_op hprog]
    refine ⟨hinv', ?_⟩
    intro m
    by_cases hm : m = ev.1
    · subst hm
      refine ⟨_, hholds', ?_⟩
      dsimp only
      rw [Function.update_self]
      exact hjudge.2 _
    · obtain ⟨k', hk', hj'⟩ := hthreads m
      refine ⟨k', hother _ _ _ _ _ _ _ hinv hholds hjudge.1 hmeets hm hk', ?_⟩
      dsimp only
      rw [Function.update_of_ne hm]
      exact hj'

/-- **INTERLEAVING RULE**: judged programs stay judged under every schedule
    whose steps meet the condition. -/
theorem pool_keeps (hown : ∀ s n o e k, Inv s → Holds n k s → pre n k o → cond s n o e →
      Inv (exec s n o e).1 ∧ Holds n (post n k o (exec s n o e).2) (exec s n o e).1)
    (hother : ∀ s n m o e k k', Inv s → Holds n k s → pre n k o → cond s n o e → m ≠ n → Holds m k' s →
      Holds m k' (exec s n o e).1) {events : List (ℕ × E)} (h : Judged pre post fin Inv Holds c)
    (hmeets : MeetsRun exec cond c events) : Judged pre post fin Inv Holds (run (step exec) c events) := by
  refine run_keeps _ h ?_
  intro l ev r hl hP
  rw [hl] at hmeets
  exact step_judged hown hother hP hmeets.append.2.1

/-- **LOCKSTEP**: the same programs over a related state.  What the judgement and
    the condition say of one state is a condition met by the runs over the other. -/
theorem MeetsRun.lockstep {S' : Type} {exec' : S' → ℕ → (o : Op) → E → S' × Option (Res o)}
    {cond' : S' → ℕ → Op → E → Prop} {R : S → S' → Prop}
    (hR : ∀ s s' n o e, R s s' → R (exec s n o e).1 (exec' s' n o e).1 ∧ (exec s n o e).2 = (exec' s' n o e).2)
    (hcond : ∀ s s' n o e k, R s s' → Inv s → Holds n k s → pre n k o → cond s n o e → cond' s' n o e)
    (hown : ∀ s n o e k, Inv s → Holds n k s → pre n k o → cond s n o e →
      Inv (exec s n o e).1 ∧ Holds n (post n k o (exec s n o e).2) (exec s n o e).1)
    (hother : ∀ s n m o e k k', Inv s → Holds n k s → pre n k o → cond s n o e → m ≠ n → Holds m k' s →
      Holds m k' (exec s n o e).1) {events : List (ℕ × E)} :
    ∀ {c : Config Op Res α S} {s' : S'}, R c.state s' → Judged pre post fin Inv Holds c → MeetsRun exec cond c events →
      MeetsRun exec' cond' ⟨s', c.pool⟩ events := by
  induction events with
  | nil => exact fun _ _ _ => trivial
  | cons ev rest ih =>
    intro c s' hrel hjudged hmeets
    have hnext := step_judged hown hother hjudged hmeets.1
    cases hprog : c.pool ev.1 with
    | done a =>
      rw [step_done hprog] at hnext
      have hrest := hmeets.2
      rw [step_done hprog] at hrest
      refine ⟨?_, ?_⟩
      · unfold Meets
        rw [hprog]
        trivial
      · rw [step_done (show (Config.mk s' c.pool).pool ev.1 = .done a from hprog)]
        exact ih hrel hnext hrest
    | thrown =>
      rw [step_thrown hprog] at hnext
      have hrest := hmeets.2
      rw [step_thrown hprog] at hrest
      refine ⟨?_, ?_⟩
      · unfold Meets
        rw [hprog]
        trivial
      · rw [step_thrown (show (Config.mk s' c.pool).pool ev.1 = .thrown from hprog)]
        exact ih hrel hnext hrest
    | op o next =>
      obtain ⟨hmeets, hrest⟩ := hmeets
      obtain ⟨k, hholds, hjudge⟩ := hjudged.2 ev.1
      unfold Meets at hmeets
      rw [hprog] at hjudge hmeets
      obtain ⟨hrel', hanswer⟩ := hR c.state s' ev.1 o ev.2 hrel
      rw [step_op hprog] at hnext hrest
      refine ⟨?_, ?_⟩
      · unfold Meets
        rw [hprog]
        exact hcond _ _ _ _ _ _ hrel hjudged.1 hholds hjudge.1 hmeets
      · rw [step_op (show (Config.mk s' c.pool).pool ev.1 = .op o next from hprog)]
        dsimp only
        rw [← hanswer]
        exact ih hrel' hnext hrest

end Pool

/-! ## Runs that keep their answers -/

section Recorded

variable {S E : Type}

abbrev Answer (Op : Type) (Res : Op → Type) : Type := Σ o : Op, Option (Res o)

/-- The same operations, with a history of what each thread was answered. -/
def recorded (exec : S → ℕ → (o : Op) → E → S × Option (Res o)) (s : S × (ℕ → Set (Answer Op Res))) (n : ℕ) (o : Op)
    (e : E) : (S × (ℕ → Set (Answer Op Res))) × Option (Res o) :=
  (((exec s.1 n o e).1, Function.update s.2 n (insert ⟨o, (exec s.1 n o e).2⟩ (s.2 n))), (exec s.1 n o e).2)

variable {exec : S → ℕ → (o : Op) → E → S × Option (Res o)} {s : S × (ℕ → Set (Answer Op Res))} {n : ℕ} {o : Op} {e : E}

theorem recorded_own : (recorded exec s n o e).1.2 n = insert ⟨o, (exec s.1 n o e).2⟩ (s.2 n) :=
  Function.update_self ..

theorem recorded_other {m : ℕ} (h : m ≠ n) : (recorded exec s n o e).1.2 m = s.2 m :=
  Function.update_of_ne h ..

end Recorded

end Interleaving
