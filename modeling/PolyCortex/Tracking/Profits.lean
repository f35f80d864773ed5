import PolyCortex.Backtest.Simulator
import PolyCortex.Execution.Mirror
import PolyCortex.Tracking.Rows

/-!
# Profits

A contract that was bought at the price `a` and is worth `x` has gained `(x - a) / a` for each dollar.
The ledger and the backtester compute in prices of the YES side; `sidePnl` is the formula they share,
and in contract terms it is the same for both directions.
-/

namespace PolyCortex

/-! ### The formula -/

/-- The price of the YES side, from the price of the contract; the conversion is its own inverse. -/
def yesTerms (direction : Direction) (price : ℚ) : ℚ := if direction = .no then 1 - price else price

/-- The PnL of a stake, from the prices of the YES side at the entry and now. -/
def sidePnl (direction : Direction) (stake entry price : ℚ) : ℚ :=
  if direction = .yes then
    if entry = 0 then 0 else (price - entry) * stake / entry
  else
    if 1 - entry = 0 then 0 else (entry - price) * stake / (1 - entry)

section Formula

variable {direction : Direction} {stake entry a x : ℚ}

/-- In contract terms the direction does not matter. -/
lemma sidePnl_yesTerms (hside : direction.IsSide) (ha : 0 < a) :
    sidePnl direction stake (yesTerms direction a) (yesTerms direction x) = stake * (x - a) / a := by
  rcases hside with rfl | rfl
  · simp [sidePnl, yesTerms, ha.ne', mul_comm]
  · simp [sidePnl, yesTerms, ha.ne', mul_comm]

/-- The PnL is the stake times the PnL of a dollar. -/
lemma sidePnl_eq_mul (direction : Direction) (stake entry price : ℚ) :
    sidePnl direction stake entry price = stake * sidePnl direction 1 entry price := by
  unfold sidePnl
  split_ifs <;> ring

/-- A stake is all there is to lose. -/
lemma neg_le_stakePnl (hstake : 0 ≤ stake) (ha : 0 < a) (hx : 0 ≤ x) : -stake ≤ stake * (x - a) / a := by
  rw [le_div_iff₀ ha]
  have := mul_nonneg hstake hx
  linarith

/-- At a half of the entry contract the two directions part, and nowhere else. -/
lemma sidePnl_no_eq_iff (x y : ℚ) :
    sidePnl .no stake entry x = sidePnl .no stake entry y ↔ x = y ∨ stake = 0 ∨ entry = 1 := by
  by_cases hentry : 1 - entry = 0
  · simp [sidePnl, (sub_eq_zero.mp hentry).symm]
  · have hne : entry ≠ 1 := fun h => hentry (by rw [h, sub_self])
    simp [sidePnl, hentry, hne, div_left_inj' hentry]

end Formula

/-! ### The columns of a row -/

namespace Trade

variable {trade : Trade} {a f x : ℚ}

lemma grossPnl_eq_sidePnl (yesPrice : ℚ) (t : Trade) :
    t.grossPnl yesPrice = sidePnl t.direction t.pnlSizeUsdc t.entryYesPrice yesPrice := rfl

lemma clamp_unit {q : ℚ} (h : 0 ≤ q) (h' : q ≤ 1) : max 0 (min 1 q) = q := by
  rw [min_eq_right h', max_eq_right h]

/-- The entry price is the average fill price, when there is one. -/
lemma entryYesPrice_eq (haverage : trade.averageFillPrice = some a) (ha : 0 ≤ a) (ha' : a ≤ 1) :
    trade.entryYesPrice = yesTerms trade.direction a := by
  rw [entryYesPrice, haverage]
  dsimp only
  rw [yesTerms, clamp_unit (sub_nonneg.mpr ha') (sub_le_self 1 ha)]

lemma exitYesPrice_eq (hx : 0 ≤ x) (hx' : x ≤ 1) (t : Trade) :
    t.exitYesPrice x = yesTerms t.direction x := by
  rw [exitYesPrice, yesTerms, clamp_unit (sub_nonneg.mpr hx') (sub_le_self 1 hx)]

lemma pnlSizeUsdc_of_filled (hfilled : trade.filledSizeUsdc = some f) (hf : f ≠ 0) :
    trade.pnlSizeUsdc = f := by
  simp [pnlSizeUsdc, pyOr?, pyOr, hfilled, hf]

/-- The PnL of a trade that is closed is that of the contract, less its costs. -/
lemma closingPnl_eq (hside : trade.direction.IsSide) (haverage : trade.averageFillPrice = some a)
    (ha : 0 < a) (ha' : a < 1) (hx : 0 ≤ x) (hx' : x ≤ 1) (hfilled : trade.filledSizeUsdc = some f)
    (hf : 0 < f) :
    trade.closingPnl x = f * (x - a) / a - trade.feeUsdc - trade.gasCostUsdc := by
  rw [closingPnl, netPnl, grossPnl_eq_sidePnl, exitYesPrice_eq hx hx',
    entryYesPrice_eq haverage ha.le ha'.le, pnlSizeUsdc_of_filled hfilled hf.ne',
    sidePnl_yesTerms hside ha]

end Trade

/-! ### What is stored -/

namespace Tracker

variable {t : Tracker} {k : TradeId} {trade : Trade}

/-- The PnL in the row of a trade. -/
def storedPnl (t : Tracker) (k : TradeId) : Option ℚ := (t.getTrade k).bind (·.pnl)

lemma storedPnl_updatePosition (hrow : t.getTrade k = some trade) (price : ℚ) :
    (t.updatePosition k price).storedPnl k = some (trade.netPnl (trade.grossPnl price)) := by
  rw [storedPnl, updatePosition, getTrade_modifyTrade_self, hrow]
  rfl

lemma closePosition_stores (hrow : t.getTrade k = some trade) (price : ℚ) (status : TradeStatus)
    (reason : String) (closedAt : Time) :
    (t.closePosition k price status reason closedAt).1 = trade.closingPnl price ∧
      (t.closePosition k price status reason closedAt).2.storedPnl k = some (trade.closingPnl price) := by
  rw [closePosition, hrow]
  refine ⟨rfl, ?_⟩
  dsimp only
  rw [storedPnl, getTrade_modifyTrade_self, hrow]
  rfl

lemma closeTradeForOrder_stores {order : Order} (hrow : t.getTrade k = some trade)
    (hfound : t.getTradeIdForOrder (order.parentOrderId.getD order.orderId) = some k)
    (exitPrice : Option ℚ) (reason : String) (status : TradeStatus) (now : Time) :
    (t.closeTradeForOrder order exitPrice reason status now).1 =
        trade.closingPnl (exitPriceOf exitPrice order) ∧
      (t.closeTradeForOrder order exitPrice reason status now).2.storedPnl k =
        some (trade.closingPnl (exitPriceOf exitPrice order)) := by
  obtain ⟨hvalue, trade', hrow', -, hpnl, -⟩ :=
    closeTradeForOrder_row hrow hfound exitPrice reason status now
  exact ⟨hvalue, by rw [storedPnl, hrow', Option.bind_some, hpnl]⟩

end Tracker

/-! ### One law for the ledger and the backtester -/

namespace Backtest

lemma resolutionPnl_eq_sidePnl (resolution : ℚ) (position : Position) :
    resolutionPnl resolution position =
      sidePnl position.direction position.size position.entryPrice resolution - position.tradeCost :=
  rfl

end Backtest

section Law

open Tracker

variable {t : Tracker} {k : TradeId} {trade : Trade} {a f x : ℚ}

/-- A trade that was filled for `f` at the contract price `a` and ends at the contract price `x` has
gained `f * (x - a) / a` less its costs. Both ways of closing it store that, for both directions, the
backtester computes the same from the prices of the YES side, and it is never less than the loss of the
stake and the costs. -/
theorem profit_law (hrow : t.getTrade k = some trade) (hside : trade.direction.IsSide)
    (haverage : trade.averageFillPrice = some a) (ha : 0 < a) (ha' : a < 1)
    (hfilled : trade.filledSizeUsdc = some f) (hf : 0 < f) (hx : 0 ≤ x) (hx' : x ≤ 1) :
    let pnl := f * (x - a) / a - trade.feeUsdc - trade.gasCostUsdc
    (∀ status reason closedAt,
      (t.closePosition k x status reason closedAt).1 = pnl ∧
        (t.closePosition k x status reason closedAt).2.storedPnl k = some pnl) ∧
    (∀ order exitPrice reason status now,
      t.getTradeIdForOrder (order.parentOrderId.getD order.orderId) = some k →
      exitPriceOf exitPrice order = x →
      (t.closeTradeForOrder order exitPrice reason status now).1 = pnl ∧
        (t.closeTradeForOrder order exitPrice reason status now).2.storedPnl k = some pnl) ∧
    (∀ position : Backtest.Position, position.direction = trade.direction → position.size = f →
      position.entryPrice = yesTerms trade.direction a →
      (position.resolve (yesTerms trade.direction x)).pnl = f * (x - a) / a - position.tradeCost) ∧
    -f - trade.feeUsdc - trade.gasCostUsdc ≤ pnl := by
  intro pnl
  have hpnl : trade.closingPnl x = pnl := Trade.closingPnl_eq hside haverage ha ha' hx hx' hfilled hf
  refine ⟨?_, ?_, ?_, ?_⟩
  · intro status reason closedAt
    rw [← hpnl]
    exact closePosition_stores hrow x status reason closedAt
  · intro order exitPrice reason status now hfound hprice
    rw [← hpnl, ← hprice]
    exact closeTradeForOrder_stores hrow hfound exitPrice reason status now
  · intro position hdirection hsize hentry
    change Backtest.resolutionPnl _ position = _
    rw [Backtest.resolutionPnl_eq_sidePnl, hdirection, hsize, hentry, sidePnl_yesTerms hside ha]
  · have := neg_le_stakePnl hf.le ha hx
    linarith

/-- Heads were bought for 10 at 0.4, of the 12 that were asked for. -/
def heldHeads : Trade where
  marketId := "m"
  direction := .no
  entryPrice := some (1 / 2)
  sizeUsdc := 12
  timestamp := 0
  isPaper := true
  localOrderId := some 0
  filledSizeUsdc := some 10
  averageFillPrice := some (2 / 5)
  feeUsdc := 1 / 10

lemma getTrade_heldHeads : (⟨[heldHeads]⟩ : Tracker).getTrade 0 = some heldHeads := rfl

theorem profit_law_heldHeads :
    ((⟨[heldHeads]⟩ : Tracker).closePosition 0 (7 / 10) .closed "manual_close" 5).1 =
      10 * (7 / 10 - 2 / 5) / (2 / 5) - 1 / 10 - 0 :=
  ((profit_law getTrade_heldHeads (Or.inr rfl) rfl (by norm_num) (by norm_num) rfl (by norm_num)
    (by norm_num) (by norm_num)).1 .closed "manual_close" 5).1

end Law

/-! ### Marking and closing -/

section Marking

open Tracker

variable {t : Tracker} {k : TradeId} {trade : Trade} {p : ℚ}

/-- `update_position` takes the price of the YES side and `close_position` that of the contract: at one
and the same price they agree unless it matters for a NO trade which of the two it is. -/
theorem updatePosition_agrees_iff (hrow : t.getTrade k = some trade) (hp : 0 ≤ p) (hp' : p ≤ 1)
    (status : TradeStatus) (reason : String) (closedAt : Time) :
    ((t.updatePosition k p).storedPnl k = some (t.closePosition k p status reason closedAt).1 ∧
      (t.updatePosition k p).storedPnl k =
        (t.closePosition k p status reason closedAt).2.storedPnl k) ↔
      trade.direction ≠ .no ∨ p = 1 / 2 ∨ trade.pnlSizeUsdc = 0 ∨ trade.entryYesPrice = 1 := by
  obtain ⟨hreturned, hstored⟩ := closePosition_stores hrow p status reason closedAt
  rw [hreturned, hstored, and_self, storedPnl_updatePosition hrow, Option.some_inj, Trade.closingPnl,
    Trade.netPnl, Trade.netPnl, sub_left_inj, sub_left_inj, Trade.exitYesPrice_eq hp hp',
    Trade.grossPnl_eq_sidePnl, Trade.grossPnl_eq_sidePnl]
  by_cases hno : trade.direction = .no
  · have hhalf : p = 1 - p ↔ p = 1 / 2 := by
      constructor <;> intro h <;> linarith
    rw [hno, yesTerms, if_pos rfl, sidePnl_no_eq_iff, hhalf]
    simp
  · simp [yesTerms, hno]

theorem updatePosition_agrees_iff_heldHeads :
    ((⟨[heldHeads]⟩ : Tracker).updatePosition 0 (1 / 2)).storedPnl 0 =
      some ((⟨[heldHeads]⟩ : Tracker).closePosition 0 (1 / 2) .closed "manual_close" 5).1 :=
  ((updatePosition_agrees_iff getTrade_heldHeads (by norm_num) (by norm_num) .closed "manual_close"
    5).mpr (Or.inr (Or.inl rfl))).1

/-- At 0.7 the mark of heads is a loss, and the close a gain. -/
theorem updatePosition_disagrees :
    ((⟨[heldHeads]⟩ : Tracker).updatePosition 0 (7 / 10)).storedPnl 0 = some (-13 / 5) ∧
      ((⟨[heldHeads]⟩ : Tracker).closePosition 0 (7 / 10) .closed "manual_close" 5).1 = 37 / 5 := by
  decide +kernel

end Marking

/-! ### Profits and fills -/

namespace Trade

/-- The PnL of a dollar at a price of the YES side. -/
def pnlPerDollar (yesPrice : ℚ) (t : Trade) : ℚ := sidePnl t.direction 1 t.entryYesPrice yesPrice

/-- A row at other entry prices. -/
def priced (entryPrice averageFillPrice : Option ℚ) (t : Trade) : Trade :=
  { t with entryPrice, averageFillPrice }

lemma grossPnl_eq_mul (yesPrice : ℚ) (t : Trade) :
    t.grossPnl yesPrice = t.pnlSizeUsdc * t.pnlPerDollar yesPrice :=
  sidePnl_eq_mul _ _ _ _

/-- A dollar of the contract that was bought at a half has doubled when the contract wins. -/
lemma pnlPerDollar_half (t : Trade) :
    (t.priced (some (1 / 2)) none).pnlPerDollar (if t.direction = .yes then 1 else 0) = 1 := by
  by_cases hyes : t.direction = .yes
  · norm_num [pnlPerDollar, priced, sidePnl, entryYesPrice, hyes]
  · norm_num [pnlPerDollar, priced, sidePnl, entryYesPrice, hyes]

/-- Nothing filled counts as not known: what was asked for takes its place. -/
lemma pnlSizeUsdc_eq_iff {trade : Trade} {f : ℚ} (hfilled : trade.filledSizeUsdc = some f) :
    trade.pnlSizeUsdc = f ↔ f ≠ 0 ∨ trade.sizeUsdc = 0 := by
  rw [pnlSizeUsdc, hfilled, pyOr?, pyOr, Option.getD_some]
  split_ifs with hf
  · simp [hf]
  · simp [hf]

lemma effectiveSizeUsdc_of_zero {trade : Trade} (hfilled : trade.filledSizeUsdc = some 0) :
    trade.effectiveSizeUsdc = trade.sizeUsdc := by
  simp [effectiveSizeUsdc, hfilled]

end Trade

namespace Tracker

/-- Whatever the price, the PnL before costs that is stored for a row is `f` times that of a dollar. -/
structure GrossScales (t : Tracker) (k : TradeId) (row : Trade) (f : ℚ) : Prop where
  marked : ∀ price, ∃ pnl, (t.updatePosition k price).storedPnl k = some pnl ∧
    pnl + row.feeUsdc + row.gasCostUsdc = f * row.pnlPerDollar price
  closed : ∀ price status reason closedAt, ∃ pnl,
    (t.closePosition k price status reason closedAt).2.storedPnl k = some pnl ∧
      (t.closePosition k price status reason closedAt).1 = pnl ∧
      pnl + row.feeUsdc + row.gasCostUsdc = f * row.pnlPerDollar (row.exitYesPrice price)
  closedForOrder : ∀ order exitPrice reason status now,
    t.getTradeIdForOrder (order.parentOrderId.getD order.orderId) = some k → ∃ pnl,
      (t.closeTradeForOrder order exitPrice reason status now).2.storedPnl k = some pnl ∧
        (t.closeTradeForOrder order exitPrice reason status now).1 = pnl ∧
        pnl + row.feeUsdc + row.gasCostUsdc =
          f * row.pnlPerDollar (row.exitYesPrice (exitPriceOf exitPrice order))

variable {t : Tracker} {k : TradeId} {row : Trade} {f : ℚ}

/-- All three of them compute with `pnlSizeUsdc`. -/
lemma grossScales_iff (hrow : t.getTrade k = some row) :
    t.GrossScales k row f ↔
      ∀ price, row.pnlSizeUsdc * row.pnlPerDollar price = f * row.pnlPerDollar price := by
  have hgross : ∀ price, row.netPnl (row.grossPnl price) + row.feeUsdc + row.gasCostUsdc =
      row.pnlSizeUsdc * row.pnlPerDollar price := by
    intro price
    rw [← Trade.grossPnl_eq_mul, Trade.netPnl]
    ring
  constructor
  · intro h price
    obtain ⟨pnl, hstored, hpnl⟩ := h.marked price
    obtain rfl := Option.some.inj ((storedPnl_updatePosition hrow price).symm.trans hstored)
    rw [← hgross, hpnl]
  · intro h
    refine ⟨?_, ?_, ?_⟩
    · intro price
      exact ⟨_, storedPnl_updatePosition hrow price, (hgross price).trans (h price)⟩
    · intro price status reason closedAt
      obtain ⟨hreturned, hstored⟩ := closePosition_stores hrow price status reason closedAt
      exact ⟨_, hstored, hreturned, (hgross _).trans (h _)⟩
    · intro order exitPrice reason status now hfound
      obtain ⟨hreturned, hstored⟩ := closeTradeForOrder_stores hrow hfound exitPrice reason status now
      exact ⟨_, hstored, hreturned, (hgross _).trans (h _)⟩

end Tracker

section Fills

open Tracker

variable {before after : List Trade} {trade : Trade} {f : ℚ}

/-- For a trade with the fill `f`, the PnL before costs scales with `f` at all prices, and a trade without
a fill adds nothing to the exposure, exactly when the fill is not zero or nothing was asked for. -/
theorem scales_with_fill_iff (hfilled : trade.filledSizeUsdc = some f) :
    ((∀ entry average, GrossScales ⟨before ++ trade.priced entry average :: after⟩ before.length
        (trade.priced entry average) f) ∧
      (f = 0 → currentExposure ⟨before ++ trade :: after⟩ = currentExposure ⟨before ++ after⟩)) ↔
      f ≠ 0 ∨ trade.sizeUsdc = 0 := by
  have hrow : ∀ row : Trade, (⟨before ++ row :: after⟩ : Tracker).getTrade before.length = some row := by
    simp [getTrade]
  have hsize : ∀ entry average, (trade.priced entry average).pnlSizeUsdc = trade.pnlSizeUsdc :=
    fun _ _ => rfl
  simp only [grossScales_iff (hrow _), hsize]
  rw [← Trade.pnlSizeUsdc_eq_iff hfilled]
  constructor
  · rintro ⟨hscales, -⟩
    have hhalf := hscales (some (1 / 2)) none (if trade.direction = .yes then 1 else 0)
    rwa [Trade.pnlPerDollar_half, mul_one, mul_one] at hhalf
  · intro h
    refine ⟨fun _ _ _ => by rw [h], ?_⟩
    rintro rfl
    have hnone : trade.effectiveSizeUsdc = 0 := by
      rw [Trade.effectiveSizeUsdc_of_zero hfilled]
      simpa using (Trade.pnlSizeUsdc_eq_iff hfilled).mp h
    by_cases hopen : trade.isOpen = true
    · simp [currentExposure, getOpenPositions, hopen, hnone]
    · simp [currentExposure, getOpenPositions, hopen]

/-- An entry for 12 of which nothing was filled. -/
def unfilledHeads : Trade := { heldHeads with filledSizeUsdc := some 0, averageFillPrice := none }

theorem scales_with_fill_iff_heldHeads :
    GrossScales ⟨[heldHeads]⟩ 0 heldHeads 10 :=
  ((@scales_with_fill_iff [] [] heldHeads 10 rfl).mpr (Or.inl (by norm_num))).1 heldHeads.entryPrice
    heldHeads.averageFillPrice

/-- Without a fill the trade wins 12 all the same, and 12 count as exposed. -/
theorem unfilledHeads_scales_not :
    unfilledHeads.filledSizeUsdc = some 0 ∧
      ((⟨[unfilledHeads]⟩ : Tracker).updatePosition 0 0).storedPnl 0 = some (12 - 1 / 10) ∧
      ((⟨[unfilledHeads]⟩ : Tracker).closePosition 0 1 .closed "manual_close" 5).1 = 12 - 1 / 10 ∧
      (⟨[unfilledHeads]⟩ : Tracker).currentExposure = 12 := by
  decide +kernel

end Fills
end PolyCortex
