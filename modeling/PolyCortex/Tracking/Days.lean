import Mathlib.Algebra.BigOperators.Group.List.Basic
import PolyCortex.Risk.Drawdown
import PolyCortex.Tracking.Rows

/-!
# The PnL of a day

What the trades that were closed on a day have earned. Of the updates of the ledger only the closing of
a trade changes it.
-/

namespace PolyCortex

/-- What the trade adds to the PnL of the day. -/
def Trade.pnlClosedOn (day : Day) (t : Trade) : ℚ :=
  if t.closedAt.map utcDay = some day then t.realizedPnl else 0

/-- The PnL of the trades that were closed on the day. -/
def Tracker.pnlClosedOn (day : Day) (t : Tracker) : ℚ :=
  (t.trades.map (·.pnlClosedOn day)).sum

namespace Trade

variable {x y : Trade}

lemma SameOutcome.pnlClosedOn (h : x.SameOutcome y) (day : Day) :
    y.pnlClosedOn day = x.pnlClosedOn day := by
  rw [Trade.pnlClosedOn, Trade.pnlClosedOn, realizedPnl, realizedPnl, isOpen, isOpen, h.closedAt,
    h.status, h.pnl]

@[simp] lemma pnlClosedOn_of_open (h : x.isOpen = true) (day : Day) : x.pnlClosedOn day = 0 := by
  simp [Trade.pnlClosedOn, realizedPnl, h]

@[simp] lemma pnlClosedOn_close (exitPrice : ℚ) (reason : String) (closedAt : Time) (day : Day)
    (x : Trade) : (x.close exitPrice .closed reason closedAt).pnlClosedOn day =
      if utcDay closedAt = day then x.closingPnl exitPrice else 0 := by
  simp [Trade.pnlClosedOn, realizedPnl, close, isOpen]

end Trade

namespace Tracker

variable {t : Tracker} {k : TradeId} {trade : Trade} {f : Trade → Trade}

/-- An update of one row changes what the row adds. -/
lemma pnlClosedOn_modifyTrade (hrow : t.getTrade k = some trade) (day : Day) :
    (t.modifyTrade k f).pnlClosedOn day =
      t.pnlClosedOn day - trade.pnlClosedOn day + (f trade).pnlClosedOn day := by
  obtain ⟨trades⟩ := t
  simp only [getTrade, modifyTrade, pnlClosedOn] at hrow ⊢
  induction trades generalizing k with
  | nil => simp at hrow
  | cons x xs ih =>
    cases k with
    | zero =>
      obtain rfl : x = trade := by simpa using hrow
      simp only [List.modify_zero_cons, List.map_cons, List.sum_cons]
      ring
    | succ k =>
      rw [List.modify_succ_cons, List.map_cons, List.map_cons, List.sum_cons, List.sum_cons,
        ih (by simpa using hrow)]
      ring

lemma pnlClosedOn_modifyTrade_of_outcome (hf : ∀ x : Trade, x.SameOutcome (f x)) (t : Tracker)
    (k : TradeId) (day : Day) : (t.modifyTrade k f).pnlClosedOn day = t.pnlClosedOn day := by
  cases hrow : t.getTrade k with
  | none =>
    have hlength : t.trades.length ≤ k := List.getElem?_eq_none_iff.mp hrow
    rw [modifyTrade, List.modify_eq_self hlength]
  | some trade =>
    rw [pnlClosedOn_modifyTrade hrow, (hf trade).pnlClosedOn]
    ring

@[simp] lemma pnlClosedOn_syncEntryOrder (order : Order) (day : Day) :
    (t.syncEntryOrder order).pnlClosedOn day = t.pnlClosedOn day := by
  rw [syncEntryOrder]
  cases t.getTradeIdForOrder order.orderId with
  | none => rfl
  | some k => exact pnlClosedOn_modifyTrade_of_outcome (Trade.syncEntry_outcome order) t k day

@[simp] lemma pnlClosedOn_syncBracketState (order : Order) (day : Day) :
    (t.syncBracketState order).pnlClosedOn day = t.pnlClosedOn day := by
  rw [syncBracketState]
  cases order.parentOrderId with
  | none => rfl
  | some parentId =>
    rw [pnlClosedOn, pnlClosedOn, List.map_map]
    congr 1
    apply List.map_congr_left
    intro trade _
    rw [Function.comp_apply]
    split_ifs
    · exact (trade.syncBracket_outcome order).pnlClosedOn day
    · rfl

@[simp] lemma pnlClosedOn_recordFee (fee gas : ℚ) (day : Day) :
    (t.recordFee k fee gas).pnlClosedOn day = t.pnlClosedOn day :=
  pnlClosedOn_modifyTrade_of_outcome (Trade.chargeFee_outcome fee gas) t k day

@[simp] lemma pnlClosedOn_insertTrade (edge : EdgeResult) (size : ℚ) (order : Order) (now : Time)
    (day : Day) : (t.insertTrade edge size order now).pnlClosedOn day = t.pnlClosedOn day := by
  simp [pnlClosedOn, insertTrade, Trade.pnlClosedOn]

/-- Closing an open trade for an exit. -/
lemma pnlClosedOn_closeTradeForOrder {order : Order} (hrow : t.getTrade k = some trade)
    (hfound : t.getTradeIdForOrder (order.parentOrderId.getD order.orderId) = some k)
    (hopen : trade.isOpen = true) (exitPrice : Option ℚ) (reason : String) (now : Time) (day : Day) :
    (t.closeTradeForOrder order exitPrice reason .closed now).2.pnlClosedOn day =
      t.pnlClosedOn day + if utcDay (order.lastFillAt.getD now) = day then
        trade.closingPnl (exitPriceOf exitPrice order) else 0 := by
  have hsync : ∃ row, (t.syncBracketState order).getTrade k = some row ∧ row.isOpen = true ∧
      ∀ price, row.closingPnl price = trade.closingPnl price := by
    rw [getTrade_syncBracketState, hrow, Option.map_some]
    split_ifs
    · exact ⟨_, rfl, hopen, fun _ => rfl⟩
    · exact ⟨_, rfl, hopen, fun _ => rfl⟩
  obtain ⟨row, hget, hopen', hpnl⟩ := hsync
  rw [closeTradeForOrder, hfound]
  dsimp only
  rw [closePosition, hget]
  dsimp only
  rw [pnlClosedOn_modifyTrade hget, pnlClosedOn_syncBracketState, Trade.pnlClosedOn_of_open hopen',
    Trade.pnlClosedOn_close, hpnl, sub_zero]

/-- Closing phantoms that have earned nothing. -/
lemma pnlClosedOn_reconcilePositions (autoClosePhantoms : Bool) (now : Time) (s : Executor)
    (t : Tracker) (day : Day) (h : autoClosePhantoms = true → ∀ k trade, t.getTrade k = some trade →
      isPhantom s trade = true → trade.closingPnl (trade.entryPrice.getD 0) = 0) :
    (reconcilePositions autoClosePhantoms now s t).pnlClosedOn day = t.pnlClosedOn day := by
  refine reconcilePositions_induction (P := (·.pnlClosedOn day = t.pnlClosedOn day)) rfl ?_
  intro hauto t' k trade ht' hrow hrow' hphantom
  have hopen : trade.isOpen = true := by
    rw [isPhantom, Bool.and_eq_true, Bool.and_eq_true] at hphantom
    exact hphantom.1.1
  rw [closePhantom, hrow']
  dsimp only
  rw [closePosition, hrow']
  dsimp only
  rw [pnlClosedOn_modifyTrade hrow', Trade.pnlClosedOn_of_open hopen, Trade.pnlClosedOn_close,
    h hauto k trade hrow hphantom, ite_self, sub_zero, add_zero, ht']

end Tracker
end PolyCortex
