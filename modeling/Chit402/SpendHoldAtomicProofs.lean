import Chit402.ExceptFlowProofs
import Chit402.SpendHoldCeilingProofs
import Chit402.TraceProofs

/-! # Failed saves of the spend-hold store

    A call saves up to twice: after the sweep of the holds that are due,
    and after its own write.  Each save that throws is undone by hand, so
    that memory keeps what the last save wrote.  The undo of `_commit`
    deletes the request id it wrote, whatever stood under it before; and a
    clock without a date throws between the write and the save, where
    nothing is undone.  Away from those two, every failure is atomic. -/

namespace SpendHoldAtomic

open SpendHold

variable {τ : Type} (host : Host τ)

/-- The live store, and the holds the last `_save` that returned wrote. -/
structure World (τ : Type) where
  store : Store τ
  saved : Store τ

/-- A hold's lease is over and the sweep has to date it. -/
def anyDue (s : Store τ) (now : τ) : Bool := s.byRequest.entries.any fun e => e.2.isDue host now

/-- The call settles or drops a hold that is still open. -/
def findsOpen (s : Store τ) : Call → Bool
  | .consume requestId _ | .release requestId => (s.byRequest.lookup requestId).any (·.state = .OPEN)
  | _ => false

/-- On the swept store, the call gets as far as its own `_save`. -/
def saves (m : Store τ) (now : τ) : Call → Bool
  | .reserve requestId amount ceilings =>
    requestId ≠ "" && (existingLive m requestId).isNone &&
      (parseAtomic amount).any fun requested =>
        requested ≠ 0 && !(normalizeCeilings host ceilings).isEmpty &&
          (verdict host m requested now (normalizeCeilings host ceilings)).isNone
  | call => findsOpen m call && host.dated now

/-- One call of the live store, and what its saves leave behind. -/
def step (w : World τ) (c : Call × Outside τ) : World τ :=
  let after := (exec host w.store c.2 c.1).1
  match expire host w.store c.2.now c.2.sweepSaved with
  | (m, .ok swept) =>
    { store := after
      saved := if saves host m c.2.now c.1 ∧ c.2.saved then after else if swept then m else w.saved }
  | (_, .error _) => { store := after, saved := w.saved }

/-! ## When a failure is atomic -/

/-- The call has a date to write. -/
def needsDate (s : Store τ) (now : τ) (call : Call) : Bool := anyDue host s now || findsOpen s call

/-- The call's own `_save` is reached and throws. -/
def ownSaveThrows (s : Store τ) (o : Outside τ) (call : Call) : Bool :=
  match expire host s o.now o.sweepSaved with
  | (m, .ok _) => saves host m o.now call && !o.saved
  | (_, .error _) => false

/-- A reserve of a request id that the map already has. -/
def reuses (s : Store τ) : Call → Bool
  | .reserve requestId _ _ => (s.byRequest.lookup requestId).isSome
  | _ => false

/-- Dates are in range where one is written, and no reserve of a known id meets a failing save. -/
structure Restores (w : World τ) (c : Call × Outside τ) : Prop where
  dated : needsDate host w.store c.2.now c.1 = true → host.dated c.2.now = true
  fresh : ownSaveThrows host w.store c.2 c.1 = true → reuses w.store c.1 = false

instance (w : World τ) (c : Call × Outside τ) : Decidable (Restores host w c) :=
  decidable_of_iff ((needsDate host w.store c.2.now c.1 = true → host.dated c.2.now = true)
      ∧ (ownSaveThrows host w.store c.2 c.1 = true → reuses w.store c.1 = false))
    ⟨fun h => ⟨h.1, h.2⟩, fun h => ⟨h.dated, h.fresh⟩⟩

/-! ## The sweep -/

/-- **What a sweep does**, by what it meets. -/
inductive Sweep (s : Store τ) (now : τ) (saved : Bool) : Outcome τ Bool → Prop
  | nothing (due : anyDue host s now = false) : Sweep s now saved (s, .ok false)
  | swept (due : anyDue host s now = true) (dated : host.dated now = true) :
      Sweep s now saved (⟨s.byRequest.mapValues (Hold.expire host now)⟩, .ok true)
  | failed (due : anyDue host s now = true) (dated : host.dated now = true) :
      Sweep s now saved (s, .error .persistFailed)
  | undated (m : Store τ) (due : anyDue host s now = true) (dated : host.dated now = false) :
      Sweep s now saved (m, .error .rangeError)

theorem sweep_expire (s : Store τ) (now : τ) (saved : Bool) : Sweep host s now saved (expire host s now saved) := by
  unfold expire
  cases hfind : s.byRequest.entries.find? fun e => e.2.isDue host now with
  | none =>
    have hdue : anyDue host s now = false := by
      rw [anyDue, List.any_eq_false]
      exact List.find?_eq_none.1 hfind
    exact .nothing hdue
  | some first =>
    have hdue : anyDue host s now = true := by
      rw [anyDue, List.any_eq_true]
      have hpass := List.find?_some hfind
      exact ⟨first, List.mem_of_find?_eq_some hfind, hpass⟩
    dsimp only
    cases hdated : host.dated now with
    | false =>
      rw [if_neg (by simp)]
      exact .undated _ hdue hdated
    | true =>
      rw [if_pos rfl]
      cases saved with
      | true => exact .swept hdue hdated
      | false => exact .failed hdue hdated

variable {b saved : Bool} {c : Call × Outside τ} {fault : Fault} {m s : Store τ} {w : World τ} {now : τ}

theorem exec_of_sweep_error {o : Outside τ} (h : expire host s o.now o.sweepSaved = (m, .error fault)) (call : Call) :
    exec host s o call = (m, .error fault) := by
  cases call with
  | reserve requestId amount ceilings => rw [exec, reserve, afterSweep, h]
  | consume requestId actual => rw [exec, consume, afterSweep, h]
  | release requestId => rw [exec, release, afterSweep, h]
  | expireDue => rw [exec, expireDue, afterSweep, h]
  | preview ceilings amount => rw [exec, preview, afterSweep, h]
  | snapshot =>
    rw [exec, snapshot, afterSweep, h]
    rfl
  | openReserved scope key => rw [exec, openReserved, afterSweep, h]

/-! ## The call's own write -/

/-- **How a call ends** once its sweep returned `m`. -/
inductive Ends (m : Store τ) (o : Outside τ) (call : Call) : Outcome τ (Reply τ) → Prop
  | wrote {out : Outcome τ (Reply τ)} (reached : saves host m o.now call = true) (kept : o.saved = true)
      (returned : out.2 ≠ .error .persistFailed) : Ends m o call out
  | undone {m' : Store τ} (reached : saves host m o.now call = true) (threw : o.saved = false)
      (restored : m' = m ↔ reuses m call = false) : Ends m o call (m', .error .persistFailed)
  | read {r : Except Fault (Reply τ)} (unreached : saves host m o.now call = false)
      (returned : r ≠ .error .persistFailed) : Ends m o call (m, r)
  | undated (m' : Store τ) (found : findsOpen m call = true) (dated : host.dated o.now = false) :
      Ends m o call (m', .error .rangeError)

theorem public_ne (hold : Hold τ) : hold.public host ≠ .error .persistFailed := by
  unfold Hold.public
  split_ifs <;> simp

theorem public_map_ne {ρ : Type} (hold : Hold τ) (f : PublicHold τ → ρ) :
    (hold.public host).map f ≠ .error .persistFailed :=
  ExceptFlow.map_ne_error f (public_ne host hold)

/-- The undo of `_commit` gives the map back exactly when the id was new. -/
theorem erase_set_iff (m : OrderedMap String (Hold τ)) (k : String) (v : Hold τ) :
    AList.erase k (m.set k v) = m ↔ m.lookup k = none := by
  constructor
  · intro h
    rw [← h, AList.lookup_erase]
  · intro h
    have hk : k ∉ m := by
      rwa [AList.lookup_eq_none] at h
    apply AList.ext
    rw [OrderedMap.set, dif_neg hk]
    show List.kerase k (m.entries ++ [⟨k, v⟩]) = m.entries
    have hlast : List.kerase k [(⟨k, v⟩ : (_ : String) × Hold τ)] = [] := List.kerase_cons_eq rfl
    rw [List.kerase_append_right hk, hlast, List.append_nil]

theorem ends_reserve (m : Store τ) (o : Outside τ) (requestId : String) (amount : Amount) (ceilings : List Ceiling)
    (h : expire host s o.now o.sweepSaved = (m, .ok b)) :
    Ends host m o (.reserve requestId amount ceilings) (exec host s o (.reserve requestId amount ceilings)) := by
  rw [exec, reserve, afterSweep, h]
  dsimp only
  by_cases hid : requestId = ""
  · rw [if_pos hid]
    exact .read (by simp [saves, hid]) (by simp)
  rw [if_neg hid]
  cases hlive : existingLive m requestId with
  | some live => exact .read (by simp [saves, hlive]) (public_map_ne host live _)
  | none =>
    dsimp only
    cases hamount : parseAtomic amount with
    | none => exact .read (by simp [saves, hamount]) (by simp)
    | some requested =>
      dsimp only
      by_cases hzero : requested = 0
      · rw [if_pos hzero]
        exact .read (by simp [saves, hamount, hzero]) (by simp)
      rw [if_neg hzero]
      by_cases hlegs : (normalizeCeilings host ceilings).isEmpty
      · rw [if_pos hlegs]
        exact .read (by simp [saves, hamount, List.isEmpty_iff.1 hlegs]) (by simp)
      rw [if_neg hlegs]
      cases hfits : verdict host m requested o.now (normalizeCeilings host ceilings) with
      | some refusal => exact .read (by simp [saves, hamount, hfits]) (by simp)
      | none =>
        have hreached : saves host m o.now (.reserve requestId amount ceilings) = true := by
          simp only [Bool.not_eq_true] at hlegs
          simp [saves, hid, hlive, hamount, hzero, hlegs, hfits]
        dsimp only
        rw [commit]
        cases hsaved : o.saved with
        | true => exact .wrote hreached hsaved (public_map_ne host _ _)
        | false =>
          refine .undone hreached hsaved ?_
          rw [Store.mk.injEq]
          show AList.erase requestId (m.byRequest.set requestId _) = m.byRequest ↔ _
          rw [erase_set_iff, reuses, Option.isSome_eq_false_iff, Option.isNone_iff_eq_none]

/-- The two calls that close an open hold. -/
theorem ends_close (m : Store τ) (o : Outside τ) (requestId : String) {call : Call}
    (hcall : call = .release requestId ∨ ∃ actual, call = .consume requestId actual)
    (h : expire host s o.now o.sweepSaved = (m, .ok b)) : Ends host m o call (exec host s o call) := by
  obtain rfl | ⟨actual, rfl⟩ := hcall
  all_goals
    first | rw [exec, consume, afterSweep, h] | rw [exec, release, afterSweep, h]
    dsimp only
    cases hfound : m.byRequest.lookup requestId with
    | none => exact .read (by simp [saves, findsOpen, hfound]) (by simp)
    | some hold =>
      dsimp only
      cases hstate : hold.state with
      | CONSUMED | RELEASED | EXPIRED =>
        exact .read (by simp [saves, findsOpen, hfound, hstate]) (public_map_ne host _ _)
      | OPEN =>
        dsimp only
        cases hdated : host.dated o.now with
        | false => exact .undated _ (by simp [findsOpen, hfound, hstate]) hdated
        | true =>
          rw [if_pos rfl]
          cases hsaved : o.saved with
          | true => exact .wrote (by simp [saves, findsOpen, hfound, hstate, hdated]) hsaved (public_map_ne host _ _)
          | false => exact .undone (by simp [saves, findsOpen, hfound, hstate, hdated]) hsaved (by simp [reuses])

theorem exec_ends (m : Store τ) (o : Outside τ) (call : Call) (h : expire host s o.now o.sweepSaved = (m, .ok b)) :
    Ends host m o call (exec host s o call) := by
  cases call with
  | reserve requestId amount ceilings => exact ends_reserve host m o requestId amount ceilings h
  | consume requestId actual => exact ends_close host m o requestId (.inr ⟨actual, rfl⟩) h
  | release requestId => exact ends_close host m o requestId (.inl rfl) h
  | expireDue =>
    rw [exec, expireDue, afterSweep, h]
    exact .read rfl (by simp)
  | preview ceilings amount =>
    rw [exec, preview, afterSweep, h]
    dsimp only
    cases parseAtomic amount with
    | none => exact .read rfl (by simp)
    | some requested =>
      dsimp only
      split_ifs
      · exact .read rfl (by simp)
      · exact .read rfl (by simp)
      · cases verdict host m requested o.now (normalizeCeilings host ceilings) with
        | none => exact .read rfl (by simp)
        | some refusal => exact .read rfl (by simp)
  | snapshot =>
    rw [exec, snapshot, afterSweep, h]
    dsimp only
    exact .read rfl (ExceptFlow.map_ne_error _ (ExceptFlow.mapM_ne_error (public_ne host) _))
  | openReserved scope key =>
    rw [exec, openReserved, afterSweep, h]
    exact .read rfl (by simp)

/-! ## One call -/

/-- Memory holds what the last save wrote. -/
def Agrees (w : World τ) : Prop := w.store = w.saved

variable {host}

theorem lookup_of_sweep (h : expire host s now saved = (m, .ok b)) (requestId : String) :
    Option.Rel Lapse (s.byRequest.lookup requestId) (m.byRequest.lookup requestId) := by
  have hswept := (swept_expire host s now saved).lookup requestId
  rwa [h] at hswept

theorem reuses_of_sweep (h : expire host s now saved = (m, .ok b)) (call : Call) : reuses m call = reuses s call := by
  cases call with
  | reserve requestId amount ceilings =>
    have hrel := lookup_of_sweep h requestId
    show (m.byRequest.lookup requestId).isSome = (s.byRequest.lookup requestId).isSome
    generalize s.byRequest.lookup requestId = before at hrel ⊢
    generalize m.byRequest.lookup requestId = after at hrel ⊢
    cases hrel with
    | none => rfl
    | some hlapse => rfl
  | _ => rfl

theorem findsOpen_of_sweep (h : expire host s now saved = (m, .ok b)) {call : Call} (hopen : findsOpen m call = true) :
    findsOpen s call = true := by
  have hback : ∀ requestId, (m.byRequest.lookup requestId).any (·.state = .OPEN) = true →
      (s.byRequest.lookup requestId).any (·.state = .OPEN) = true := by
    intro requestId hany
    have hrel := lookup_of_sweep h requestId
    generalize s.byRequest.lookup requestId = before at hrel ⊢
    generalize m.byRequest.lookup requestId = after at hrel hany
    cases hrel with
    | none => exact hany
    | some hlapse =>
      rcases hlapse with rfl | ⟨hstate, -⟩
      · exact hany
      · simp [hstate]
  cases call with
  | consume requestId actual => exact hback requestId hopen
  | release requestId => exact hback requestId hopen
  | _ => cases hopen

theorem step_of_sweep_ok (h : expire host w.store c.2.now c.2.sweepSaved = (m, .ok b)) :
    step host w c = { store := (exec host w.store c.2 c.1).1
                      saved := if saves host m c.2.now c.1 ∧ c.2.saved then (exec host w.store c.2 c.1).1
                        else if b then m else w.saved } := by
  rw [step, h]

theorem step_of_sweep_error (h : expire host w.store c.2.now c.2.sweepSaved = (m, .error fault)) :
    step host w c = { store := m, saved := w.saved } := by
  rw [step, h, exec_of_sweep_error host h]

/-- A save that threw in the call's own write: what it left, and when that is what was saved. -/
theorem restored_iff (h : expire host w.store c.2.now c.2.sweepSaved = (m, .ok b))
    (hbase : (if b then m else w.saved) = m) (hdated : anyDue host w.store c.2.now = true → host.dated c.2.now = true)
    (hfault : (exec host w.store c.2 c.1).2 = .error .persistFailed) : Agrees (step host w c) ↔ Restores host w c := by
  rw [step_of_sweep_ok h, Agrees]
  dsimp only
  have hends := exec_ends host m c.2 c.1 h
  generalize exec host w.store c.2 c.1 = out at hends hfault
  cases hends with
  | wrote _ _ returned => exact absurd hfault returned
  | read _ returned => exact absurd hfault returned
  | undated m' found undated => simp at hfault
  | undone reached threw restored =>
    have hthrows : ownSaveThrows host w.store c.2 c.1 = true := by
      rw [ownSaveThrows, h]
      simp [reached, threw]
    rw [if_neg (by simp [threw]), hbase, restored, reuses_of_sweep h]
    constructor
    · intro hfresh
      refine ⟨fun hneeds => ?_, fun _ => hfresh⟩
      rcases Bool.or_eq_true_iff.1 hneeds with hdue | hopen
      · exact hdated hdue
      · cases hcall : c.1 with
        | consume | release =>
          rw [hcall] at reached
          exact (Bool.and_eq_true_iff.1 reached).2
        | _ =>
          rw [hcall] at hopen
          cases hopen
    · intro hrestores
      exact hrestores.fresh hthrows

/-- A call whose sweep returned keeps the agreement. -/
theorem agrees_of_sweep_ok (h : expire host w.store c.2.now c.2.sweepSaved = (m, .ok b))
    (hbase : (if b then m else w.saved) = m) (hrestores : Restores host w c) : Agrees (step host w c) := by
  have hdated : anyDue host w.store c.2.now = true → host.dated c.2.now = true := by
    intro hdue
    exact hrestores.dated (by rw [needsDate, hdue, Bool.true_or])
  by_cases hfault : (exec host w.store c.2 c.1).2 = .error .persistFailed
  · exact (restored_iff h hbase hdated hfault).2 hrestores
  rw [step_of_sweep_ok h, Agrees]
  dsimp only
  have hends := exec_ends host m c.2 c.1 h
  generalize exec host w.store c.2 c.1 = out at hends hfault
  cases hends with
  | wrote reached kept _ => rw [if_pos ⟨reached, kept⟩]
  | read unreached _ => rw [if_neg (by simp [unreached]), hbase]
  | undone _ _ _ => exact absurd rfl hfault
  | undated m' found undated =>
    have hnow := hrestores.dated (by rw [needsDate, findsOpen_of_sweep h found, Bool.or_true])
    rw [undated] at hnow
    cases hnow

/-- **STEP**: a call that meets the condition leaves memory and the last save equal. -/
theorem step_agrees (hrestores : Restores host w c) (h : Agrees w) : Agrees (step host w c) := by
  have hsweep := sweep_expire host w.store c.2.now c.2.sweepSaved
  rcases hexp : expire host w.store c.2.now c.2.sweepSaved with ⟨m, r⟩
  rw [hexp] at hsweep
  cases hsweep with
  | nothing due => exact agrees_of_sweep_ok hexp h.symm hrestores
  | swept due dated => exact agrees_of_sweep_ok hexp rfl hrestores
  | failed due dated =>
    rw [step_of_sweep_error hexp]
    exact h
  | undated m due dated =>
    have hnow := hrestores.dated (by rw [needsDate, due, Bool.true_or])
    rw [dated] at hnow
    cases hnow

/-- The last call of a run, when a save of it threw. -/
theorem agrees_step_iff (h : Agrees w) (hfault : (exec host w.store c.2 c.1).2 = .error .persistFailed) :
    Agrees (step host w c) ↔ Restores host w c := by
  have hsweep := sweep_expire host w.store c.2.now c.2.sweepSaved
  rcases hexp : expire host w.store c.2.now c.2.sweepSaved with ⟨m, r⟩
  rw [hexp] at hsweep
  cases hsweep with
  | nothing due => exact restored_iff hexp h.symm (by simp [due]) hfault
  | swept due dated => exact restored_iff hexp rfl (fun _ => dated) hfault
  | failed due dated =>
    -- the sweep's own save threw: its undo is complete, and nothing else ran
    constructor
    · intro _
      exact ⟨fun _ => dated, fun hthrows => by simp [ownSaveThrows, hexp] at hthrows⟩
    · intro _
      rw [step_of_sweep_error hexp]
      exact h
  | undated m due dated =>
    rw [exec_of_sweep_error host hexp] at hfault
    cases hfault

/-! ## Runs -/

/-- **Failures are atomic exactly off the two defects.**  After any run of calls that meet the
    condition, a call during which a save throws leaves memory as the last save wrote it if
    and only if it meets the condition too. -/
theorem failure_atomic_iff (host : Host τ) (loaded : Store τ) (calls : List (Call × Outside τ))
    (hrun : Trace.Along (step host) (Restores host) ⟨loaded, loaded⟩ calls) (c : Call × Outside τ)
    (hthrew : (exec host (Trace.run (step host) ⟨loaded, loaded⟩ calls).store c.2 c.1).2 = .error .persistFailed) :
    (step host (Trace.run (step host) ⟨loaded, loaded⟩ calls) c).store
        = (step host (Trace.run (step host) ⟨loaded, loaded⟩ calls) c).saved
      ↔ Restores host (Trace.run (step host) ⟨loaded, loaded⟩ calls) c :=
  agrees_step_iff (hrun.keeps Agrees rfl fun _ _ hrestores h => step_agrees hrestores h) hthrew

/-! ## A released id reserved again -/

/-- A minute's lease; ids are already lowercase. -/
def minute : Host ℤ := millisHost 60000 id

/-- The calls of one client: `a` reserved and released. -/
def reservedThenReleased : List (Call × Outside ℤ) :=
  [(.reserve "a" (.bigint 5) [⟨some "agent", some "1", .bigint 10, none⟩], ⟨1000, true, true, "u1"⟩),
   (.release "a", ⟨2000, true, true, "u2"⟩)]

/-- `a` once more, and this save throws. -/
def reservedAgain : Call × Outside ℤ :=
  (.reserve "a" (.bigint 5) [⟨some "agent", some "1", .bigint 10, none⟩], ⟨3000, true, false, "u3"⟩)

/-- The released row is gone from memory, and the last save still has it. -/
theorem released_row_lost :
    let w := Trace.run (step minute) ⟨emptyStore, emptyStore⟩ reservedThenReleased
    (exec minute w.store reservedAgain.2 reservedAgain.1).2 = .error .persistFailed
      ∧ (step minute w reservedAgain).store.byRequest.lookup "a" = none
      ∧ ((step minute w reservedAgain).saved.byRequest.lookup "a").map (·.state) = some .RELEASED
      ∧ (step minute w reservedAgain).store ≠ (step minute w reservedAgain).saved := by
  intro w
  have hmemory : (step minute w reservedAgain).store.byRequest.lookup "a" = none := by decide
  have hsaved : ((step minute w reservedAgain).saved.byRequest.lookup "a").map (·.state) = some .RELEASED := by decide
  refine ⟨rfl, hmemory, hsaved, ?_⟩
  intro heq
  rw [← heq, hmemory] at hsaved
  cases hsaved

/-- A second id whose save throws: nothing stood under it, and the failure is atomic. -/
def reservedOther : Call × Outside ℤ :=
  (.reserve "b" (.bigint 5) [⟨some "agent", some "1", .bigint 10, none⟩], ⟨3000, true, false, "u3"⟩)

theorem failure_atomic_otherId :
    (step minute (Trace.run (step minute) ⟨emptyStore, emptyStore⟩ reservedThenReleased) reservedOther).store
      = (step minute (Trace.run (step minute) ⟨emptyStore, emptyStore⟩ reservedThenReleased) reservedOther).saved :=
  (failure_atomic_iff minute emptyStore reservedThenReleased (by decide) reservedOther rfl).2 (by decide)

end SpendHoldAtomic
