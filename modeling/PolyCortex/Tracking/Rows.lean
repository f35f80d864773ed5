import Mathlib.Data.List.Sigma
import PolyCortex.Tracking.Reconciler

/-!
# The rows of the ledger

Every update goes to the rows of one order: `Touches e t t'` says that only rows of the order `e`
changed. What an update does to a row is read off `getTrade`.
-/

namespace PolyCortex

namespace Tracker

variable {t t' t'' : Tracker} {e : OrderId} {k : TradeId} {trade : Trade}

@[simp] lemma getTrade_modifyTrade_self (t : Tracker) (k : TradeId) (f : Trade → Trade) :
    (t.modifyTrade k f).getTrade k = (t.getTrade k).map f := by
  simp [getTrade, modifyTrade]

lemma getTrade_modifyTrade_of_ne (t : Tracker) {j k : TradeId} (h : j ≠ k) (f : Trade → Trade) :
    (t.modifyTrade k f).getTrade j = t.getTrade j := by
  simp [getTrade, modifyTrade, h.symm]

lemma getTrade_modifyTrade (t : Tracker) (j k : TradeId) (f : Trade → Trade) :
    (t.modifyTrade k f).getTrade j = if j = k then (t.getTrade k).map f else t.getTrade j := by
  split_ifs with h
  · rw [h, getTrade_modifyTrade_self]
  · exact t.getTrade_modifyTrade_of_ne h f

lemma getTrade_syncBracketState (t : Tracker) (order : Order) (k : TradeId) :
    (t.syncBracketState order).getTrade k = (t.getTrade k).map fun trade =>
      if order.parentOrderId.isSome ∧ trade.localOrderId = order.parentOrderId then
        trade.syncBracket order
      else trade := by
  cases hparent : order.parentOrderId with
  | none => simp [syncBracketState, hparent]
  | some parentId => simp [syncBracketState, hparent, getTrade]

/-- Where the row of an order is depends on the recorded order ids only. -/
lemma getTradeIdForOrder_congr
    (h : ∀ k, (t'.getTrade k).map (·.localOrderId) = (t.getTrade k).map (·.localOrderId)) :
    t'.getTradeIdForOrder e = t.getTradeIdForOrder e := by
  have hids : t'.trades.map (·.localOrderId) = t.trades.map (·.localOrderId) :=
    List.ext_getElem? fun k => by simpa [getTrade] using h k
  have hfind : ∀ x : Tracker, x.getTradeIdForOrder e =
      (x.trades.map (·.localOrderId)).findIdx? (· = some e) := by
    intro x
    rw [List.findIdx?_map]
    rfl
  rw [hfind, hfind, hids]

lemma getTradeIdForOrder_modifyTrade (t : Tracker) (k : TradeId) {f : Trade → Trade}
    (hf : ∀ x, (f x).localOrderId = x.localOrderId) (e : OrderId) :
    (t.modifyTrade k f).getTradeIdForOrder e = t.getTradeIdForOrder e := by
  apply getTradeIdForOrder_congr
  intro j
  rw [getTrade_modifyTrade]
  split_ifs with hj
  · rw [hj, Option.map_map]
    exact congrArg (Option.map · _) (funext hf)
  · rfl

/-- The row an order is found by is a row of the order. -/
lemma getTrade_of_getTradeIdForOrder (h : t.getTradeIdForOrder e = some k) :
    ∃ trade, t.getTrade k = some trade ∧ trade.localOrderId = some e := by
  obtain ⟨hlt, htrade, -⟩ := List.findIdx?_eq_some_iff_getElem.mp h
  exact ⟨t.trades[k], List.getElem?_eq_getElem hlt, by simpa using htrade⟩

end Tracker

/-- What is recorded of a trade when it is opened. -/
structure Trade.SameTerms (x y : Trade) : Prop where
  marketId : y.marketId = x.marketId
  direction : y.direction = x.direction
  entryPrice : y.entryPrice = x.entryPrice
  sizeUsdc : y.sizeUsdc = x.sizeUsdc
  category : y.category = x.category
  isPaper : y.isPaper = x.isPaper
  localOrderId : y.localOrderId = x.localOrderId

/-- What is recorded of a trade when it is closed. -/
structure Trade.SameOutcome (x y : Trade) : Prop where
  status : y.status = x.status
  exitPrice : y.exitPrice = x.exitPrice
  pnl : y.pnl = x.pnl
  closedAt : y.closedAt = x.closedAt

namespace Trade

variable {x y z : Trade}

lemma SameTerms.refl (x : Trade) : x.SameTerms x := by constructor <;> rfl

lemma SameTerms.trans (h : x.SameTerms y) (h' : y.SameTerms z) : x.SameTerms z := by
  obtain ⟨h₁, h₂, h₃, h₄, h₅, h₆, h₇⟩ := h
  obtain ⟨h₁', h₂', h₃', h₄', h₅', h₆', h₇'⟩ := h'
  exact ⟨h₁'.trans h₁, h₂'.trans h₂, h₃'.trans h₃, h₄'.trans h₄, h₅'.trans h₅, h₆'.trans h₆,
    h₇'.trans h₇⟩

lemma SameOutcome.refl (x : Trade) : x.SameOutcome x := by constructor <;> rfl

lemma SameOutcome.trans (h : x.SameOutcome y) (h' : y.SameOutcome z) : x.SameOutcome z :=
  ⟨h'.status.trans h.status, h'.exitPrice.trans h.exitPrice, h'.pnl.trans h.pnl,
    h'.closedAt.trans h.closedAt⟩

lemma syncEntry_terms (order : Order) (x : Trade) : x.SameTerms (x.syncEntry order) := by
  constructor <;> rfl

lemma syncEntry_outcome (order : Order) (x : Trade) : x.SameOutcome (x.syncEntry order) := by
  constructor <;> rfl

lemma syncBracket_terms (order : Order) (x : Trade) : x.SameTerms (x.syncBracket order) := by
  constructor <;> rfl

lemma syncBracket_outcome (order : Order) (x : Trade) : x.SameOutcome (x.syncBracket order) := by
  constructor <;> rfl

lemma chargeFee_terms (fee gas : ℚ) (x : Trade) : x.SameTerms (x.chargeFee fee gas) := by
  constructor <;> rfl

lemma chargeFee_outcome (fee gas : ℚ) (x : Trade) : x.SameOutcome (x.chargeFee fee gas) := by
  constructor <;> rfl

lemma close_terms (exitPrice : ℚ) (status : TradeStatus) (reason : String) (closedAt : Time)
    (x : Trade) : x.SameTerms (x.close exitPrice status reason closedAt) := by
  constructor <;> rfl

end Trade

namespace Tracker

variable {t t' t'' : Tracker} {e : OrderId} {k : TradeId} {trade : Trade}

/-! ### Updates of the rows of one order -/

/-- Only rows of the order `e` changed. -/
structure Touches (e : OrderId) (t t' : Tracker) : Prop where
  length : t'.trades.length = t.trades.length
  rows : ∀ k trade, t.getTrade k = some trade → ∃ trade', t'.getTrade k = some trade' ∧
    trade.SameTerms trade' ∧ (trade.localOrderId ≠ some e → trade' = trade)

namespace Touches

lemma refl (e : OrderId) (t : Tracker) : t.Touches e t :=
  ⟨rfl, fun _ trade h => ⟨trade, h, .refl trade, fun _ => rfl⟩⟩

lemma trans (h : t.Touches e t') (h' : t'.Touches e t'') : t.Touches e t'' := by
  refine ⟨h'.length.trans h.length, fun k trade htrade => ?_⟩
  obtain ⟨trade', htrade', hterms, hother⟩ := h.rows k trade htrade
  obtain ⟨trade'', htrade'', hterms', hother'⟩ := h'.rows k trade' htrade'
  refine ⟨trade'', htrade'', hterms.trans hterms', fun hne => ?_⟩
  rw [hother' (hterms.localOrderId ▸ hne), hother hne]

/-- An update of a row of `e`. -/
lemma modifyTrade {f : Trade → Trade} (hrow : t.getTrade k = some trade)
    (horder : trade.localOrderId = some e) (hf : ∀ x : Trade, x.SameTerms (f x)) :
    t.Touches e (t.modifyTrade k f) := by
  refine ⟨by simp [Tracker.modifyTrade], fun j x hx => ?_⟩
  rw [getTrade_modifyTrade]
  split_ifs with hj
  · subst hj
    obtain rfl := Option.some.inj (hx.symm.trans hrow)
    exact ⟨f x, by rw [hx, Option.map_some], hf x, fun hne => absurd horder hne⟩
  · exact ⟨x, hx, .refl x, fun _ => rfl⟩

/-- Where the rows come from. -/
lemma row_before (h : t.Touches e t') {trade' : Trade} (hrow : t'.getTrade k = some trade') :
    ∃ trade, t.getTrade k = some trade ∧ trade.SameTerms trade' ∧
      (trade.localOrderId ≠ some e → trade' = trade) := by
  have hlt : k < t.trades.length := by
    rw [← h.length]
    exact (List.getElem?_eq_some_iff.mp hrow).1
  have hbefore : t.getTrade k = some t.trades[k] := List.getElem?_eq_getElem hlt
  obtain ⟨trade'', hrow', hterms, hother⟩ := h.rows k _ hbefore
  obtain rfl := Option.some.inj (hrow.symm.trans hrow')
  exact ⟨_, hbefore, hterms, hother⟩

/-- The row an order was found by is still a row of the order. -/
lemma row_of_found (h : t.Touches e t') (hfound : t.getTradeIdForOrder e = some k) :
    ∃ trade, t'.getTrade k = some trade ∧ trade.localOrderId = some e := by
  obtain ⟨trade, htrade, horder⟩ := getTrade_of_getTradeIdForOrder hfound
  obtain ⟨trade', htrade', hterms, -⟩ := h.rows k trade htrade
  exact ⟨trade', htrade', hterms.localOrderId.trans horder⟩

/-- Updates leave the rows of every order where they are. -/
lemma getTradeIdForOrder (h : t.Touches e t') (e' : OrderId) :
    t'.getTradeIdForOrder e' = t.getTradeIdForOrder e' := by
  apply getTradeIdForOrder_congr
  intro k
  cases hrow : t.getTrade k with
  | none =>
    have hnone : t'.getTrade k = none := by
      rw [getTrade, List.getElem?_eq_none_iff] at hrow ⊢
      exact h.length ▸ hrow
    rw [hnone]
  | some trade =>
    obtain ⟨trade', hrow', hterms, -⟩ := h.rows k trade hrow
    rw [hrow', Option.map_some, Option.map_some, hterms.localOrderId]

end Touches

lemma syncEntryOrder_touches (order : Order) (t : Tracker) :
    t.Touches order.orderId (t.syncEntryOrder order) := by
  rw [syncEntryOrder]
  cases hfound : t.getTradeIdForOrder order.orderId with
  | none => exact .refl _ t
  | some k =>
    obtain ⟨trade, htrade, horder⟩ := getTrade_of_getTradeIdForOrder hfound
    exact .modifyTrade htrade horder (Trade.syncEntry_terms order)

lemma syncBracketState_touches (order : Order) (t : Tracker) :
    t.Touches (order.parentOrderId.getD order.orderId) (t.syncBracketState order) := by
  constructor
  · rw [syncBracketState]
    cases order.parentOrderId <;> simp
  · intro k trade htrade
    rw [getTrade_syncBracketState, htrade, Option.map_some]
    split_ifs with hrow
    · refine ⟨_, rfl, trade.syncBracket_terms order, fun hne => absurd ?_ hne⟩
      obtain ⟨parentId, hparent⟩ := Option.isSome_iff_exists.mp hrow.1
      rw [hrow.2, hparent, Option.getD_some]
    · exact ⟨trade, rfl, .refl trade, fun _ => rfl⟩

lemma recordFee_touches (h : t.Touches e t') (hfound : t.getTradeIdForOrder e = some k)
    (fee gas : ℚ) : t.Touches e (t'.recordFee k fee gas) := by
  obtain ⟨trade, htrade, horder⟩ := h.row_of_found hfound
  exact h.trans (.modifyTrade htrade horder (Trade.chargeFee_terms fee gas))

lemma closeTradeForOrder_touches (order : Order) (exitPrice : Option ℚ) (reason : String)
    (status : TradeStatus) (now : Time) (t : Tracker) :
    t.Touches (order.parentOrderId.getD order.orderId)
      (t.closeTradeForOrder order exitPrice reason status now).2 := by
  rw [closeTradeForOrder]
  cases hfound : t.getTradeIdForOrder (order.parentOrderId.getD order.orderId) with
  | none => exact .refl _ t
  | some k =>
    have hsync := t.syncBracketState_touches order
    obtain ⟨trade, htrade, horder⟩ := hsync.row_of_found hfound
    dsimp only
    rw [closePosition, htrade]
    exact hsync.trans (.modifyTrade htrade horder (Trade.close_terms _ _ _ _))

/-- What `close_trade_for_order` books for the row it finds. -/
lemma closeTradeForOrder_row {order : Order} (hrow : t.getTrade k = some trade)
    (hfound : t.getTradeIdForOrder (order.parentOrderId.getD order.orderId) = some k)
    (exitPrice : Option ℚ) (reason : String) (status : TradeStatus) (now : Time) :
    let pnl := trade.closingPnl (exitPriceOf exitPrice order)
    (t.closeTradeForOrder order exitPrice reason status now).1 = pnl ∧
      ∃ trade', (t.closeTradeForOrder order exitPrice reason status now).2.getTrade k = some trade' ∧
        trade'.status = status ∧ trade'.pnl = some pnl ∧ trade'.feeUsdc = trade.feeUsdc ∧
        trade'.closedAt = some (order.lastFillAt.getD now) := by
  have hsync : ∃ row, (t.syncBracketState order).getTrade k = some row ∧
      row.feeUsdc = trade.feeUsdc ∧ ∀ price, row.closingPnl price = trade.closingPnl price := by
    rw [getTrade_syncBracketState, hrow, Option.map_some]
    split_ifs
    · exact ⟨_, rfl, rfl, fun _ => rfl⟩
    · exact ⟨_, rfl, rfl, fun _ => rfl⟩
  obtain ⟨row, hget, hfee, hpnl⟩ := hsync
  rw [closeTradeForOrder, hfound]
  dsimp only
  rw [closePosition, hget]
  refine ⟨hpnl _, row.close _ status reason _, ?_, rfl, congrArg some (hpnl _), hfee, rfl⟩
  rw [getTrade_modifyTrade_self, hget, Option.map_some]

/-! ### New rows and phantoms -/

/-- The row of a trade that is recorded. -/
lemma getTrade_insertTrade (edge : EdgeResult) (size : ℚ) (order : Order) (now : Time) (t : Tracker) :
    (∀ k trade, t.getTrade k = some trade →
      (t.insertTrade edge size order now).getTrade k = some trade) ∧
    ∀ k trade, (t.insertTrade edge size order now).getTrade k = some trade →
      t.getTrade k = some trade ∨
        k = t.trades.length ∧ trade.localOrderId = some order.orderId ∧ trade.status = .opened := by
  constructor
  · intro k trade hrow
    have hlt : k < t.trades.length := (List.getElem?_eq_some_iff.mp hrow).1
    rw [getTrade, insertTrade, List.getElem?_append_left hlt]
    exact hrow
  · intro k trade hrow
    rcases lt_trichotomy k t.trades.length with hlt | rfl | hgt
    · rw [getTrade, insertTrade, List.getElem?_append_left hlt] at hrow
      exact Or.inl hrow
    · rw [getTrade, insertTrade, List.getElem?_append_right le_rfl] at hrow
      simp only [Nat.sub_self, List.getElem?_cons_zero, Option.some.injEq] at hrow
      subst hrow
      exact Or.inr ⟨rfl, rfl, rfl⟩
    · rw [getTrade, insertTrade, List.getElem?_eq_none (by simpa using hgt)] at hrow
      cases hrow

/-- The row of a trade that is recorded is found last. -/
lemma getTradeIdForOrder_insertTrade (edge : EdgeResult) (size : ℚ) (order : Order) (now : Time)
    (t : Tracker) (e : OrderId) :
    (t.insertTrade edge size order now).getTradeIdForOrder e =
      (t.getTradeIdForOrder e).or (if order.orderId = e then some t.trades.length else none) := by
  rw [Tracker.getTradeIdForOrder, insertTrade, List.findIdx?_append]
  by_cases he : order.orderId = e <;> simp [Tracker.getTradeIdForOrder, he]

/-- What closing a phantom does to its row. -/
lemma getTrade_closePhantom (now : Time) (hrow : t.getTrade k = some trade) (j : TradeId) :
    (closePhantom now t k).getTrade j = if j = k then
      some (trade.close (trade.entryPrice.getD 0) .closed "phantom_reconciliation" now)
      else t.getTrade j := by
  rw [closePhantom, hrow]
  dsimp only
  rw [closePosition, hrow]
  dsimp only
  rw [getTrade_modifyTrade, hrow, Option.map_some]

lemma getTradeIdForOrder_closePhantom (now : Time) (hrow : t.getTrade k = some trade) (e : OrderId) :
    (closePhantom now t k).getTradeIdForOrder e = t.getTradeIdForOrder e := by
  apply getTradeIdForOrder_congr
  intro j
  rw [getTrade_closePhantom now hrow]
  split_ifs with hj
  · rw [hj, hrow]
    rfl
  · rfl

lemma mem_phantomTrades {s : Executor} (h : k ∈ phantomTrades s t) :
    ∃ trade, t.getTrade k = some trade ∧ isPhantom s trade = true := by
  obtain ⟨⟨trade, id⟩, hmem, hsome⟩ := List.mem_filterMap.mp h
  dsimp only at hsome
  split_ifs at hsome with hphantom
  obtain rfl := Option.some.inj hsome
  exact ⟨trade, List.mem_zipIdx_iff_getElem?.mp hmem, hphantom⟩

lemma phantomTrades_nodup (s : Executor) (t : Tracker) : (phantomTrades s t).Nodup := by
  rw [phantomTrades, List.Nodup, List.pairwise_filterMap]
  refine (List.pairwise_map.mp (List.nodup_zipIdx_map_snd t.trades)).imp ?_
  rintro ⟨x, j⟩ ⟨y, k⟩ hne j' hj k' hk
  dsimp only at hj hk hne
  split_ifs at hj hk
  rw [Option.some.inj hj, Option.some.inj hk] at hne
  exact hne

lemma getTrade_closePhantom_of_ne (now : Time) (t : Tracker) {j : TradeId} (h : j ≠ k) :
    (closePhantom now t k).getTrade j = t.getTrade j := by
  rw [closePhantom]
  cases hget : t.getTrade k with
  | none => rfl
  | some trade =>
    dsimp only
    rw [Tracker.closePosition, hget]
    exact t.getTrade_modifyTrade_of_ne h _

/-- What the closing of one phantom keeps, the reconciliation keeps. -/
lemma reconcilePositions_induction {P : Tracker → Prop} {autoClosePhantoms : Bool} {now : Time}
    {s : Executor} (ht : P t) (hclose : autoClosePhantoms = true → ∀ t' k trade, P t' →
      t.getTrade k = some trade → t'.getTrade k = some trade → isPhantom s trade = true →
        P (closePhantom now t' k)) :
    P (reconcilePositions autoClosePhantoms now s t) := by
  have hloop : autoClosePhantoms = true → ∀ (ks : List TradeId) (t' : Tracker), P t' → ks.Nodup →
      (∀ k ∈ ks, ∃ trade, t.getTrade k = some trade ∧ t'.getTrade k = some trade ∧
        isPhantom s trade = true) → P (ks.foldl (closePhantom now) t') := by
    intro hauto ks
    induction ks with
    | nil => exact fun _ ht' _ _ => ht'
    | cons k ks ih =>
      intro t' ht' hnodup hphantoms
      obtain ⟨hnew, hnodup⟩ := List.nodup_cons.mp hnodup
      obtain ⟨trade, hrow, hrow', hphantom⟩ := hphantoms k List.mem_cons_self
      refine ih _ (hclose hauto t' k trade ht' hrow hrow' hphantom) hnodup fun j hj => ?_
      have hne : j ≠ k := fun heq => hnew (heq ▸ hj)
      rw [getTrade_closePhantom_of_ne now t' hne]
      exact hphantoms j (List.mem_cons_of_mem _ hj)
  rw [reconcilePositions]
  split_ifs with hauto
  · refine hloop hauto _ t ht (phantomTrades_nodup s t) fun k hk => ?_
    obtain ⟨trade, hrow, hphantom⟩ := mem_phantomTrades hk
    exact ⟨trade, hrow, hrow, hphantom⟩
  · exact ht

end Tracker
end PolyCortex
