import PolyCortex.Tracking.Rows

/-!
# Realized records

The operations of the ledger find a row by its id or by its order and do not look at its status, so
that a second close rewrites what the first has booked (`close_rewrites_record`). Only the callers can
keep them to rows that are open; as long as they do, a realized record stays (`run_keepsRecords`).
-/

namespace PolyCortex

/-- A call of an operation of the ledger. -/
inductive TrackerOp where
  | closePosition (tradeId : TradeId) (exitPrice : ℚ) (status : TradeStatus) (exitReason : String)
    (closedAt : Time)
  | closeTradeForOrder (order : Order) (exitPrice : Option ℚ) (exitReason : String)
    (status : TradeStatus) (now : Time)
  | updatePosition (tradeId : TradeId) (currentPrice : ℚ)
  | syncEntryOrder (order : Order) (tradeId : Option TradeId)
  | syncBracketState (order : Order)

/-- The operation closes a trade. -/
def TrackerOp.IsClose : TrackerOp → Prop
  | .closePosition .. | .closeTradeForOrder .. => True
  | .updatePosition .. | .syncEntryOrder .. | .syncBracketState _ => False

namespace Tracker

variable {t : Tracker} {op : TrackerOp} {k : TradeId} {trade : Trade}

def perform (t : Tracker) : TrackerOp → Tracker
  | .closePosition tradeId exitPrice status exitReason closedAt =>
    (t.closePosition tradeId exitPrice status exitReason closedAt).2
  | .closeTradeForOrder order exitPrice exitReason status now =>
    (t.closeTradeForOrder order exitPrice exitReason status now).2
  | .updatePosition tradeId currentPrice => t.updatePosition tradeId currentPrice
  | .syncEntryOrder order (some tradeId) => t.modifyTrade tradeId (·.syncEntry order)
  | .syncEntryOrder order none => t.syncEntryOrder order
  | .syncBracketState order => t.syncBracketState order

def runOps (t : Tracker) (ops : List TrackerOp) : Tracker := ops.foldl perform t

/-- The row that an operation closes or marks. -/
def target (t : Tracker) : TrackerOp → Option TradeId
  | .closePosition tradeId .. => some tradeId
  | .closeTradeForOrder order .. => t.getTradeIdForOrder (order.parentOrderId.getD order.orderId)
  | .updatePosition tradeId _ => some tradeId
  | .syncEntryOrder .. | .syncBracketState _ => none

/-- The row that an operation closes or marks is open, if there is one. -/
def TargetsOpen (t : Tracker) (op : TrackerOp) : Prop :=
  ∀ k trade, t.target op = some k → t.getTrade k = some trade → trade.isOpen = true

/-- Every record that is realized before `later` still is what it was, and no close in `ops` of a trade
that is not open changes anything. -/
structure KeepsRecords (t : Tracker) (ops : List TrackerOp) : Prop where
  frozen : ∀ before later, ops = before ++ later → ∀ k trade,
    (t.runOps before).getTrade k = some trade → trade.isOpen = false →
      ∃ trade', (t.runOps ops).getTrade k = some trade' ∧ trade.SameOutcome trade'
  closed_once : ∀ before op later, ops = before ++ op :: later → op.IsClose → ∀ k trade,
    (t.runOps before).target op = some k → (t.runOps before).getTrade k = some trade →
      trade.isOpen = false → (t.runOps before).perform op = t.runOps before

/-! ### One operation -/

lemma syncBracketState_outcome (order : Order) (hrow : t.getTrade k = some trade) :
    ∃ trade', (t.syncBracketState order).getTrade k = some trade' ∧ trade.SameOutcome trade' := by
  rw [getTrade_syncBracketState, hrow, Option.map_some]
  split_ifs
  · exact ⟨_, rfl, trade.syncBracket_outcome order⟩
  · exact ⟨_, rfl, .refl trade⟩

lemma modifyTrade_outcome {f : Trade → Trade} {j : TradeId}
    (hf : j = k → trade.SameOutcome (f trade)) (hrow : t.getTrade k = some trade) :
    ∃ trade', (t.modifyTrade j f).getTrade k = some trade' ∧ trade.SameOutcome trade' := by
  rw [getTrade_modifyTrade]
  split_ifs with hk
  · subst hk
    exact ⟨f trade, by rw [hrow, Option.map_some], hf rfl⟩
  · exact ⟨trade, hrow, .refl trade⟩

/-- The outcome of a trade is written by the operations that close or mark it only. -/
lemma perform_outcome (hrow : t.getTrade k = some trade) (hother : t.target op ≠ some k) :
    ∃ trade', (t.perform op).getTrade k = some trade' ∧ trade.SameOutcome trade' := by
  cases op with
  | closePosition tradeId exitPrice status exitReason closedAt =>
    rw [perform, closePosition]
    cases t.getTrade tradeId with
    | none => exact ⟨trade, hrow, .refl trade⟩
    | some _ => exact modifyTrade_outcome (fun h => absurd (congrArg some h) hother) hrow
  | closeTradeForOrder order exitPrice exitReason status now =>
    rw [perform, closeTradeForOrder]
    rw [target] at hother
    cases hfound : t.getTradeIdForOrder (order.parentOrderId.getD order.orderId) with
    | none => exact ⟨trade, hrow, .refl trade⟩
    | some tradeId =>
      rw [hfound] at hother
      obtain ⟨trade', hrow', hsame⟩ := syncBracketState_outcome order hrow
      dsimp only
      rw [closePosition]
      cases (t.syncBracketState order).getTrade tradeId with
      | none => exact ⟨trade', hrow', hsame⟩
      | some _ =>
        obtain ⟨trade'', hrow'', hsame'⟩ :=
          modifyTrade_outcome (fun h => absurd (congrArg some h) hother) hrow'
        exact ⟨trade'', hrow'', hsame.trans hsame'⟩
  | updatePosition tradeId currentPrice =>
    exact modifyTrade_outcome (fun h => absurd (congrArg some h) hother) hrow
  | syncEntryOrder order tradeId =>
    cases tradeId with
    | some tradeId => exact modifyTrade_outcome (fun _ => trade.syncEntry_outcome order) hrow
    | none =>
      rw [perform, syncEntryOrder]
      cases t.getTradeIdForOrder order.orderId with
      | none => exact ⟨trade, hrow, .refl trade⟩
      | some tradeId => exact modifyTrade_outcome (fun _ => trade.syncEntry_outcome order) hrow
  | syncBracketState order => exact syncBracketState_outcome order hrow

/-! ### Runs -/

lemma runOps_append (before later : List TrackerOp) :
    t.runOps (before ++ later) = (t.runOps before).runOps later :=
  List.foldl_append

/-- While only open rows are closed and marked, a realized record stays. -/
lemma runOps_frozen {ops : List TrackerOp}
    (hops : ∀ before op later, ops = before ++ op :: later → (t.runOps before).TargetsOpen op)
    (hrow : t.getTrade k = some trade) (hclosed : trade.isOpen = false) :
    ∃ trade', (t.runOps ops).getTrade k = some trade' ∧ trade.SameOutcome trade' := by
  induction ops generalizing t trade with
  | nil => exact ⟨trade, hrow, .refl trade⟩
  | cons op ops ih =>
    have hother : t.target op ≠ some k := by
      intro htarget
      have hopen : trade.isOpen = true := hops [] op ops rfl k trade htarget hrow
      rw [hclosed] at hopen
      contradiction
    obtain ⟨trade', hrow', hsame⟩ := perform_outcome hrow hother
    have hclosed' : trade'.isOpen = false := by rw [← hclosed, Trade.isOpen, Trade.isOpen, hsame.status]
    have hlater : ∀ before op' later, ops = before ++ op' :: later →
        ((t.perform op).runOps before).TargetsOpen op' := fun before op' later heq =>
      hops (op :: before) op' later (by rw [heq, List.cons_append])
    obtain ⟨trade'', hrow'', hsame'⟩ := ih hlater hrow' hclosed'
    exact ⟨trade'', hrow'', hsame.trans hsame'⟩

end Tracker

/-- Realized records are kept in every run whose operations close and mark open rows only. -/
theorem run_keepsRecords (t : Tracker) (ops : List TrackerOp)
    (hops : ∀ before op later, ops = before ++ op :: later → (t.runOps before).TargetsOpen op) :
    t.KeepsRecords ops := by
  constructor
  · rintro before later rfl k trade hrow hclosed
    rw [Tracker.runOps_append]
    refine Tracker.runOps_frozen (fun before' op later' heq => ?_) hrow hclosed
    rw [← Tracker.runOps_append]
    exact hops (before ++ before') op later' (by rw [heq, List.append_assoc])
  · intro before op later heq _ k trade htarget hrow hclosed
    have hopen : trade.isOpen = true := hops before op later heq k trade htarget hrow
    rw [hclosed] at hopen
    contradiction

/-- A ledger with one position. -/
def onePosition : Tracker :=
  ⟨[{ marketId := "coin", direction := .yes, entryPrice := some (1 / 2), sizeUsdc := 20,
      timestamp := 0, isPaper := true, localOrderId := some 0, filledSizeUsdc := some 20,
      averageFillPrice := some (1 / 2) }]⟩

def closeAt (exitPrice : ℚ) : TrackerOp := .closePosition 0 exitPrice .closed "manual_close" 0

/-- The theorem for a position that is marked and closed. -/
theorem run_keepsRecords_onePosition :
    onePosition.KeepsRecords [.updatePosition 0 (6 / 10), closeAt (7 / 10)] := by
  apply run_keepsRecords
  rintro before op later heq k trade htarget hrow
  match before with
  | [] =>
    obtain ⟨rfl, -⟩ := List.cons.inj heq
    obtain rfl : 0 = k := Option.some.inj htarget
    obtain rfl := Option.some.inj hrow
    rfl
  | [_] =>
    obtain ⟨hfirst, heq⟩ := List.cons.inj heq
    obtain ⟨rfl, -⟩ := List.cons.inj heq
    subst hfirst
    obtain rfl : 0 = k := Option.some.inj htarget
    obtain rfl := Option.some.inj hrow
    rfl
  | _ :: _ :: before =>
    obtain ⟨-, heq⟩ := List.cons.inj heq
    obtain ⟨-, heq⟩ := List.cons.inj heq
    cases before <;> cases heq

/-- A second close rewrites the PnL. -/
theorem close_rewrites_record : ¬ onePosition.KeepsRecords [closeAt (7 / 10), closeAt (6 / 10)] := by
  intro h
  have hfirst : ((onePosition.runOps [closeAt (7 / 10)]).getTrade 0).any
      (fun trade => trade.isOpen = false ∧ trade.pnl = some 8) = true := by decide +kernel
  have hsecond : ((onePosition.runOps [closeAt (7 / 10), closeAt (6 / 10)]).getTrade 0).any
      (fun trade => trade.pnl = some 4) = true := by decide +kernel
  obtain ⟨trade, hrow, hfacts⟩ := (Option.any_eq_true _ _).mp hfirst
  obtain ⟨hclosed, hpnl⟩ := of_decide_eq_true hfacts
  obtain ⟨trade', hrow', hpnl'⟩ := (Option.any_eq_true _ _).mp hsecond
  obtain ⟨trade'', hrow'', hsame⟩ :=
    h.frozen [closeAt (7 / 10)] [closeAt (6 / 10)] rfl 0 trade hrow hclosed
  obtain rfl := Option.some.inj (hrow'.symm.trans hrow'')
  rw [hsame.pnl, hpnl] at hpnl'
  exact absurd (of_decide_eq_true hpnl') (by norm_num)

end PolyCortex
