import PolyCortex.Execution.Effects

/-!
# Live placements that fail

The ids of the chunks that were posted are on the entry only once all chunks are posted. When a
post fails before that, the entry is cancelled locally and the ids are dropped
(`placeOrder_of_postFailed`), so a failed placement is clean exactly when the exchange has not yet
acknowledged any chunk.
-/

namespace PolyCortex

open Coroutine

variable {cfg : Config} {env : Ambient} {req : PlaceRequest}

/-- Nothing of the entry `e` is orphaned by an operation with the given trace: what the exchange
has acknowledged is on the entry, and a final entry has had all of it cancelled. -/
def NoOrphans (e : OrderId) (trace : Trace) (s : Executor) : Prop :=
  ∃ o, s.orders.get? e = some o ∧ (∀ x ∈ ackedIds e trace, x ∈ o.exchangeOrderIds) ∧
    (o.status.isFinal = true → ∀ x ∈ ackedIds e trace, x ∈ confirmedIds e trace)

lemma nextId_preflight (cfg : Config) (env : Ambient) (req : PlaceRequest) (s : Executor) :
    (preflight cfg env req s).2.nextId = s.nextId := by
  unfold preflight
  by_cases hvalid : (validateOrder cfg env req).isSome = true
  · rw [if_pos hvalid]
  rw [if_neg hvalid]
  by_cases hslip : ¬ passesSlippage cfg req = true
  · rw [if_pos hslip]
  rw [if_neg hslip]
  exact nextId_cleanupRecentPlacements cfg env.now s

/-- A submission leaves nothing behind but a new order in the state it starts from: either no post
failed, or the entry is cancelled without exchange ids. -/
lemma submitEntry_of_postFailed {s : Executor} {e : OrderId}
    (hget : s.orders.get? e = some (buildEntryOrder cfg env req e)) (ω : Oracle Request Reply)
    (hfail : postFailed e ((submitEntry cfg env req e).run ω s).trace = true) :
    (∃ o, ((submitEntry cfg env req e).run ω s).state.orders.get? e = some o ∧
        o.exchangeOrderIds = [] ∧ o.status = .cancelled) ∧
      confirmedIds e ((submitEntry cfg env req e).run ω s).trace = [] := by
  set s₁ := (persistOrderIntent env s.nextId req s.takeId).2 with hs₁
  have hget₁ : s₁.orders.get? e = some (buildEntryOrder cfg env req e) := by
    rw [hs₁, orders_persistOrderIntent, Executor.orders_takeId, hget]
  by_cases hpersisted : (persistOrderIntent env s.nextId req s.takeId).1 = true
  · have hrun : (submitEntry cfg env req e).run ω s =
        ((submitChunks cfg req e).bind (concludeEntry cfg req e)).run ω s₁ := by
      simp [submitEntry, hpersisted, hs₁]
    obtain ⟨r, t, ω', ⟨hsubmits, hok⟩, hbind⟩ :=
      (submitChunks_inquires cfg req e).run_bind (concludeEntry cfg req e) ω s₁
    rw [hrun, hbind] at hfail ⊢
    match r with
    | .ok exchangeIds =>
      have hnone := (hok exchangeIds rfl).2
      simp [concludeEntry, hnone] at hfail
    | .error err =>
      simp only [concludeEntry, bind_def, run_modify_bind, pure_def, run_pure, List.append_nil]
      refine ⟨⟨{ buildEntryOrder cfg env req e with status := .cancelled }, ?_, ?_, rfl⟩,
        hsubmits.confirmedIds_eq_nil⟩
      · rw [Executor.setStatus, Executor.get?_modifyOrder_self, hget₁, Option.map_some]
      · rw [buildEntryOrder_eq]
  · have htrace : ((submitEntry cfg env req e).run ω s).trace = [] := by
      simp [submitEntry, hpersisted]
    rw [htrace] at hfail
    cases hfail

/-- After a failed placement the entry is cancelled, without exchange ids and without any
cancellation on the exchange. -/
lemma placeOrder_of_postFailed (hlive : cfg.isPaper = false) (s : Executor)
    (ω : Oracle Request Reply)
    (hfail : postFailed s.nextId ((placeOrder cfg env req).run ω s).trace = true) :
    (∃ o, ((placeOrder cfg env req).run ω s).state.orders.get? s.nextId = some o ∧
        o.exchangeOrderIds = [] ∧ o.status = .cancelled) ∧
      confirmedIds s.nextId ((placeOrder cfg env req).run ω s).trace = [] := by
  set s₁ := (preflight cfg env req s).2 with hs₁
  have hid : s₁.nextId = s.nextId := nextId_preflight cfg env req s
  by_cases haccepted : (preflight cfg env req s).1 = true
  · have hrun : (placeOrder cfg env req).run ω s =
        (submitEntry cfg env req s.nextId).run ω (openEntry cfg env req s₁).2 := by
      simp [placeOrder, haccepted, hlive, hs₁, openEntry, nextId_preflight]
    rw [hrun] at hfail ⊢
    refine submitEntry_of_postFailed ?_ ω hfail
    rw [← hid]
    exact get?_openEntry cfg env req s₁
  · have htrace : ((placeOrder cfg env req).run ω s).trace = [] := by
      simp [placeOrder, haccepted]
    rw [htrace] at hfail
    cases hfail

/-- A failed live placement orphans nothing if and only if no chunk had been acknowledged. -/
theorem placeOrder_noOrphans_iff (cfg : Config) (hlive : cfg.isPaper = false) (env : Ambient)
    (req : PlaceRequest) (s : Executor) (ω : Oracle Request Reply)
    (hfail : postFailed s.nextId ((placeOrder cfg env req).run ω s).trace = true) :
    NoOrphans s.nextId ((placeOrder cfg env req).run ω s).trace
        ((placeOrder cfg env req).run ω s).state ↔
      ackedIds s.nextId ((placeOrder cfg env req).run ω s).trace = [] := by
  obtain ⟨⟨o, ho, hids, hstatus⟩, _⟩ := placeOrder_of_postFailed hlive s ω hfail
  constructor
  · rintro ⟨o', ho', hpresent, _⟩
    rw [ho, Option.some.injEq] at ho'
    subst ho'
    rw [List.eq_nil_iff_forall_not_mem]
    intro x hx
    have hmem := hpresent x hx
    rw [hids] at hmem
    cases hmem
  · intro hnone
    rw [NoOrphans, hnone]
    exact ⟨o, ho, by simp, by simp⟩

/-- A live executor, and a placement in three chunks. -/
def liveConfig : Config := { dryRun := false, clobConnected := true }

def threeChunks : PlaceRequest :=
  { marketId := "m", direction := .yes, sizeUsdc := 60, price := 1 / 2, tokenId := "t" }

/-- An acknowledgement of a posted order. -/
def acknowledged (exchangeId : ExchangeId) : Except CallError Response :=
  .ok (.dict [("orderID", .text exchangeId)])

/-- The exchange accepts the first post of a placement and times out on all others. -/
def secondPostTimesOut : Oracle Request Reply :=
  scripted (fun n => if n = 2 then acknowledged "x" else .error .timeout)
    (fun _ => .error .network) fun _ => .failed

/-- The theorem where it is the first post that fails. -/
theorem placeOrder_noOrphans_unreachable :
    NoOrphans 0 ((placeOrder liveConfig { now := 0 } threeChunks).run unreachable .init).trace
      ((placeOrder liveConfig { now := 0 } threeChunks).run unreachable .init).state :=
  (placeOrder_noOrphans_iff liveConfig rfl { now := 0 } threeChunks .init unreachable
    (by decide +kernel)).mpr (by decide +kernel)

/-- The second of three posts times out, and the id of the first is lost. -/
theorem placeOrder_orphans_first_chunk :
    postFailed 0
        ((placeOrder liveConfig { now := 0 } threeChunks).run secondPostTimesOut .init).trace = true ∧
      ¬ NoOrphans 0
        ((placeOrder liveConfig { now := 0 } threeChunks).run secondPostTimesOut .init).trace
        ((placeOrder liveConfig { now := 0 } threeChunks).run secondPostTimesOut .init).state := by
  refine ⟨by decide +kernel, ?_⟩
  rintro ⟨o, ho, hpresent, _⟩
  have hacked : "x" ∈ ackedIds 0
      ((placeOrder liveConfig { now := 0 } threeChunks).run secondPostTimesOut .init).trace := by
    decide +kernel
  have hids : (((placeOrder liveConfig { now := 0 } threeChunks).run secondPostTimesOut
      .init).state.orders.get? 0).map (·.exchangeOrderIds) = some [] := by
    decide +kernel
  rw [ho, Option.map_some, Option.some.injEq] at hids
  have hmem := hpresent "x" hacked
  rw [hids] at hmem
  cases hmem

end PolyCortex
