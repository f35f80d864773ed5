import PolyCortex.Agent.ExitBooking
import PolyCortex.Execution.Reports

/-!
# What is charged for an entry

On paper the fee of an entry is charged when the entry is placed, on the size that was asked for. Live
it is charged when the ledger is told that the entry is complete. So what has been charged for the entry
of an open trade can be read off its row, as long as no database call fails (`session_billed`).
-/

namespace PolyCortex

open Coroutine (World)
open Relation

variable {st : Settings} {input : CycleInput} {order entry : Order} {id e : OrderId} {k : TradeId}
  {trade : Trade} {s s' : Executor} {t t' : Tracker} {a b : AgentState} {event : OrderLifecycleEvent}

/-! ### What has been charged -/

/-- What has been charged for the entry of an open trade. -/
def entryFee (st : Settings) (entry : Order) (trade : Trade) : ℚ :=
  if entry.isPaper then trade.sizeUsdc * st.takerFeeRate
  else if trade.entryOrderStatus = some .filled then takerFee st entry
  else 0

/-- The fee of an open trade is that of its entry. -/
structure Trade.Charged (st : Settings) (entry : Order) (trade : Trade) : Prop where
  size_pos : 0 < trade.sizeUsdc
  told : trade.entryOrderStatus = some .filled → entry.status = .filled
  fee : trade.feeUsdc = entryFee st entry trade

/-- The open trades have been charged for their entries. -/
def FeesCharged (st : Settings) (s : Executor) (t : Tracker) : Prop :=
  ∀ e entry k trade, s.orders.get? e = some entry → entry.orderKind = .entry →
    t.getTradeIdForOrder e = some k → t.getTrade k = some trade → trade.isOpen = true →
      trade.Charged st entry

lemma takerFee_of_pos (st : Settings) (hpos : 0 < order.filledSizeUsdc) :
    takerFee st order = order.filledSizeUsdc * |st.takerFeeRate| := by
  rw [takerFee, pyOr, if_neg hpos.ne', abs_mul, abs_of_pos hpos]

namespace Trade.Charged

/-- A paper trade is charged for the size that was asked for. -/
lemma fee_of_paper (h : trade.Charged st entry) (hpaper : entry.isPaper = true) :
    trade.feeUsdc = trade.sizeUsdc * st.takerFeeRate := by
  rw [h.fee, entryFee, if_pos hpaper]

/-- The row says the same of an entry that keeps its fill when it is complete. -/
lemma congr (h : trade.Charged st entry) {entry' : Order} (hpaper : entry'.isPaper = entry.isPaper)
    (hkept : entry.status = .filled →
      entry'.status = .filled ∧ takerFee st entry' = takerFee st entry) :
    trade.Charged st entry' := by
  refine ⟨h.size_pos, fun htold => (hkept (h.told htold)).1, ?_⟩
  rw [h.fee, entryFee, entryFee, hpaper]
  split_ifs with _ htold
  · rfl
  · exact (hkept (h.told htold)).2.symm
  · rfl

lemma syncBracket (h : trade.Charged st entry) (order : Order) :
    (trade.syncBracket order).Charged st entry :=
  ⟨h.size_pos, h.told, h.fee⟩

end Trade.Charged

/-- The row after the event of its entry was booked. -/
def Trade.bookEntry (st : Settings) (entry : Order) (trade : Trade) : Trade :=
  if entry.isPaper = false ∧ entry.status = .filled ∧ trade.feeUsdc = 0 then
    (trade.syncEntry entry).chargeFee (takerFee st entry) 0
  else trade.syncEntry entry

lemma Trade.bookEntry_isOpen (st : Settings) (entry : Order) (trade : Trade) :
    (trade.bookEntry st entry).isOpen = trade.isOpen := by
  rw [Trade.bookEntry]
  split_ifs <;> rfl

/-- The event of an entry charges what is owed and was not charged before. -/
lemma Trade.Charged.bookEntry (h : trade.Charged st entry) :
    (trade.bookEntry st entry).Charged st entry := by
  have htold : ∀ x : Trade, x.entryOrderStatus = some entry.status →
      x.entryOrderStatus = some .filled → entry.status = .filled := by
    intro x hx hfilled
    rw [hx] at hfilled
    exact Option.some.inj hfilled
  rw [Trade.bookEntry]
  split_ifs with hcharge
  · obtain ⟨hlive, hfilled, hzero⟩ := hcharge
    refine ⟨h.size_pos, htold _ rfl, ?_⟩
    have hsync : (trade.syncEntry entry).entryOrderStatus = some .filled := congrArg some hfilled
    simp [entryFee, hlive, Trade.chargeFee, hsync, show (trade.syncEntry entry).feeUsdc = 0 from hzero]
  · refine ⟨h.size_pos, htold _ rfl, ?_⟩
    show trade.feeUsdc = entryFee st entry (trade.syncEntry entry)
    have hfee := h.fee
    rw [entryFee] at hfee ⊢
    cases hlive : entry.isPaper with
    | true => simpa [hlive, Trade.syncEntry] using hfee
    | false =>
      simp only [hlive, Bool.false_eq_true, if_false] at hfee ⊢
      by_cases hfilled : entry.status = .filled
      · -- complete and charged before, so that the ledger was told before
        have hcharged : trade.feeUsdc ≠ 0 := fun hzero => hcharge ⟨hlive, hfilled, hzero⟩
        rw [if_pos (show (trade.syncEntry entry).entryOrderStatus = some .filled from
          congrArg some hfilled)]
        split_ifs at hfee
        · exact hfee
        · exact absurd hfee hcharged
      · rw [if_neg (fun hx => hfilled (htold (trade.syncEntry entry) rfl hx))]
        rwa [if_neg (fun hx => hfilled (h.told hx))] at hfee

/-! ### The steps of the ledger -/

/-- What only touches the rows of one order. -/
lemma FeesCharged.touches (hs : FeesCharged st s t) (ht : t.Touches e t')
    (hrows : ∀ entry k trade trade', s.orders.get? e = some entry → entry.orderKind = .entry →
      t.getTradeIdForOrder e = some k → t.getTrade k = some trade → t'.getTrade k = some trade' →
        trade'.isOpen = true → trade'.Charged st entry) : FeesCharged st s t' := by
  intro e' entry k trade' hget hkind hfound hrow hopen
  rw [ht.getTradeIdForOrder] at hfound
  obtain ⟨trade, hbefore, -, hother⟩ := ht.row_before hrow
  by_cases he : e' = e
  · subst he
    exact hrows entry k trade trade' hget hkind hfound hbefore hrow hopen
  · obtain ⟨x, hx, horder⟩ := Tracker.getTrade_of_getTradeIdForOrder hfound
    obtain rfl := Option.some.inj (hbefore.symm.trans hx)
    obtain rfl := hother (by rw [horder]; exact fun h => he (Option.some.inj h))
    exact hs e' entry k trade' hget hkind hfound hbefore hopen

/-- What happens to the executor. -/
lemma FeesCharged.changes (hs : FeesCharged st s t) (hx : Recorded (s, t))
    (h : Changes st.cfg s s') : FeesCharged st s' t := by
  intro e entry' k trade hget' hkind hfound hrow hopen
  obtain ⟨x, hx', horder⟩ := Tracker.getTrade_of_getTradeIdForOrder hfound
  obtain rfl := Option.some.inj (hrow.symm.trans hx')
  have hacc := hx.related.accounted
  obtain ⟨entry, hget⟩ := (h.old_or_new hacc hget').resolve_right (hx.drawn k trade e hrow horder).not_ge
  obtain ⟨o, ho, hterms, -⟩ := h.follows hacc e entry hget
  obtain rfl := Option.some.inj (hget'.symm.trans ho)
  have hkind' : entry.orderKind = .entry := hterms.orderKind ▸ hkind
  refine (hs e entry k trade hget hkind' hfound hrow hopen).congr hterms.isPaper fun hfilled => ?_
  have hpos := (hacc e entry hget).filled_pos hkind' hfilled
  obtain ⟨o, ho, hstatus, hsize⟩ := h.keepsFinal hacc e entry hget (by rw [hfilled]; rfl)
  obtain rfl := Option.some.inj (hget'.symm.trans ho)
  exact ⟨hstatus.trans hfilled, by rw [takerFee_of_pos st (hsize ▸ hpos), takerFee_of_pos st hpos, hsize]⟩

/-- What booking the event of an entry does to its row. -/
lemma bookEntry_row (st : Settings) (order : Order) (a : AgentState) :
    a.tracker.Touches order.orderId (bookEntry st none order a).2.tracker ∧
      ∀ k trade, a.tracker.getTradeIdForOrder order.orderId = some k → a.tracker.getTrade k = some trade →
        (bookEntry st none order a).2.tracker.getTrade k = some (trade.bookEntry st order) := by
  have hsync := a.tracker.syncEntryOrder_touches order
  have hfound' := hsync.getTradeIdForOrder order.orderId
  have hrow' : ∀ k trade, a.tracker.getTradeIdForOrder order.orderId = some k →
      a.tracker.getTrade k = some trade →
      (a.tracker.syncEntryOrder order).getTrade k = some (trade.syncEntry order) := by
    intro k trade hfound hrow
    rw [Tracker.syncEntryOrder, hfound]
    simp [hrow]
  rw [bookEntry, if_neg (by simp)]
  dsimp only
  rw [hfound']
  by_cases hcomplete : ¬ order.isPaper = true ∧ order.status = .filled
  · rw [if_pos hcomplete, if_neg (by simp)]
    have hlive : order.isPaper = false := by simpa using hcomplete.1
    cases hfound : a.tracker.getTradeIdForOrder order.orderId with
    | none => exact ⟨hsync, fun k trade h => by cases h⟩
    | some j =>
      obtain ⟨row, hrow, -⟩ := Tracker.getTrade_of_getTradeIdForOrder hfound
      have hfee : (row.syncEntry order).feeUsdc = row.feeUsdc := rfl
      dsimp only
      rw [hrow' j row hfound hrow, Option.any_some, hfee]
      by_cases hzero : row.feeUsdc = 0
      · rw [if_pos (by simpa using hzero), if_neg (by simp)]
        refine ⟨Tracker.recordFee_touches hsync hfound _ _, fun k trade hk hget => ?_⟩
        obtain rfl := Option.some.inj hk
        obtain rfl := Option.some.inj (hrow.symm.trans hget)
        dsimp only
        rw [Tracker.recordFee, Tracker.getTrade_modifyTrade_self, hrow' j row hfound hrow, Option.map_some,
          Trade.bookEntry, if_pos ⟨hlive, hcomplete.2, hzero⟩]
      · rw [if_neg (by simpa using hzero)]
        refine ⟨hsync, fun k trade hk hget => ?_⟩
        obtain rfl := Option.some.inj hk
        obtain rfl := Option.some.inj (hrow.symm.trans hget)
        rw [hrow' j row hfound hrow, Trade.bookEntry, if_neg fun h => hzero h.2.2]
  · rw [if_neg hcomplete]
    refine ⟨hsync, fun k trade hfound hrow => ?_⟩
    rw [hrow' k trade hfound hrow, Trade.bookEntry, if_neg fun h => hcomplete ⟨by simp [h.1], h.2.1⟩]

lemma FeesCharged.bookEntry (hs : FeesCharged st a.executor a.tracker)
    (hget : a.executor.orders.get? order.orderId = some order) :
    FeesCharged st a.executor (bookEntry st none order a).2.tracker := by
  obtain ⟨htouches, hbooked⟩ := bookEntry_row st order a
  refine hs.touches htouches fun entry k trade trade' hget' hkind hfound hrow hrow' hopen => ?_
  obtain rfl := Option.some.inj (hget.symm.trans hget')
  obtain rfl := Option.some.inj (hrow'.symm.trans (hbooked k trade hfound hrow))
  rw [Trade.bookEntry_isOpen] at hopen
  exact (hs _ order k trade hget hkind hfound hrow hopen).bookEntry

lemma FeesCharged.syncBracketState (hs : FeesCharged st s t) (order : Order) :
    FeesCharged st s (t.syncBracketState order) := by
  refine hs.touches (t.syncBracketState_touches order)
    fun entry k trade trade' hget hkind hfound hrow hrow' hopen => ?_
  rw [Tracker.getTrade_syncBracketState, hrow, Option.map_some, Option.some.injEq] at hrow'
  subst hrow'
  split_ifs at hopen ⊢
  · exact (hs _ entry k trade hget hkind hfound hrow hopen).syncBracket order
  · exact hs _ entry k trade hget hkind hfound hrow hopen

/-- Booking an exit goes to the rows of its entry, and closes the one that is found. -/
lemma bookExit_touches (st : Settings) (input : CycleInput) (event : OrderLifecycleEvent)
    (order : Order) (a : AgentState) :
    a.tracker.Touches (order.parentOrderId.getD order.orderId)
      (bookExit st input none event order a).2.tracker := by
  have hsync := a.tracker.syncBracketState_touches order
  by_cases hexit : event.eventType = .exitFilled
  · have hfee : a.tracker.Touches (order.parentOrderId.getD order.orderId)
        (chargeExitFee st order (a.tracker.syncBracketState order)) := by
      rw [chargeExitFee, hsync.getTradeIdForOrder]
      cases hfound : a.tracker.getTradeIdForOrder (order.parentOrderId.getD order.orderId) with
      | none => exact hsync
      | some k => exact Tracker.recordFee_touches hsync hfound _ _
    rw [bookExit_of_exit st input hexit, closeForExit, if_neg (by simp)]
    dsimp only
    split_ifs <;> exact hfee.trans (Tracker.closeTradeForOrder_touches ..)
  · rw [bookExit, if_neg (by simp), if_neg hexit]
    exact hsync

lemma FeesCharged.bookExit (hs : FeesCharged st a.executor a.tracker) (input : CycleInput)
    (event : OrderLifecycleEvent) (order : Order) :
    FeesCharged st a.executor (bookExit st input none event order a).2.tracker := by
  by_cases hexit : event.eventType = .exitFilled
  · refine hs.touches (bookExit_touches st input event order a)
      fun entry k trade trade' _ _ hfound hrow hrow' hopen => ?_
    obtain ⟨x, hx, hclosed, -⟩ := (bookExit_recorded st input hexit hrow hfound).closed
    obtain rfl := Option.some.inj (hrow'.symm.trans hx)
    rw [hclosed] at hopen
    contradiction
  · rw [PolyCortex.bookExit, if_neg (by simp), if_neg hexit]
    exact hs.syncBracketState order

/-- Booking an event keeps the accounts, if no database call fails. -/
lemma FeesCharged.bookEvent (hs : FeesCharged st a.executor a.tracker) (hkeyed : a.executor.Keyed)
    (input : CycleInput) (event : OrderLifecycleEvent) :
    FeesCharged st a.executor (bookEvent st input none event a).2.tracker := by
  rw [PolyCortex.bookEvent]
  cases hget : a.executor.orders.get? event.orderSnapshot with
  | none => exact hs
  | some order =>
    dsimp only
    split_ifs with hkind
    · exact hs.bookEntry (by rw [hkeyed _ order hget, hget])
    · exact hs.bookExit input event order

lemma FeesCharged.bookEvents (hinput : ∀ n, input.failure n = none) (hkeyed : a.executor.Keyed)
    (hs : FeesCharged st a.executor a.tracker) (n : ℕ) (events : List OrderLifecycleEvent) :
    FeesCharged st a.executor (bookEvents st input n events a).2.tracker := by
  induction events generalizing n a with
  | nil => exact hs
  | cons event events ih =>
    have hfirst := hs.bookEvent hkeyed input event
    have hexecutor := (bookEvent_booksOnly st input none event a).executor
    rw [PolyCortex.bookEvents, hinput]
    rcases hbook : PolyCortex.bookEvent st input none event a with ⟨booked, a'⟩
    rw [hbook] at hfirst hexecutor
    dsimp only at hfirst hexecutor
    rw [← hexecutor] at hfirst hkeyed ⊢
    cases booked with
    | true => exact ih hkeyed hfirst (n + 1)
    | false => exact hfirst

/-- What recording a placement does to the ledger, when the order is a new one. -/
lemma recordPlacement_tracker (st : Settings) (now : Time) (edge : EdgeResult) (size : ℚ)
    (hget : a.executor.orders.get? id = some order) (hid : order.orderId = id)
    (hnone : a.tracker.getTradeIdForOrder id = none) :
    (recordPlacement st now edge size id a).tracker =
      (a.tracker.insertTrade edge size order now).modifyTrade a.tracker.trades.length fun trade =>
        if order.isPaper = true ∨ order.status = .filled then trade.chargeFee (size * st.takerFeeRate) 0
        else trade := by
  have hfound : (a.tracker.insertTrade edge size order now).getTradeIdForOrder id =
      some a.tracker.trades.length := by
    rw [Tracker.getTradeIdForOrder_insertTrade, hnone, hid, if_pos rfl, Option.none_or]
  have hsame : ∀ t : Tracker, t.modifyTrade a.tracker.trades.length (fun trade => trade) = t :=
    fun t => congrArg Tracker.mk (List.modify_id ..)
  rw [recordPlacement, hget]
  dsimp only
  rw [hfound]
  by_cases hcharge : order.isPaper = true ∨ order.status = .filled
  · simp only [hcharge, if_true]
    split_ifs <;> rfl
  · simp only [hcharge, if_false, hsame]
    split_ifs <;> rfl

/-- The trade of a new order is charged as its order is. -/
lemma FeesCharged.recordPlacement (hs : FeesCharged st a.executor a.tracker)
    (hkeyed : a.executor.Keyed) (hdrawn : a.tracker.Drawn id) (hunfilled : a.executor.Unfilled id)
    {size : ℚ} (hsize : 0 < size) (now : Time) (edge : EdgeResult) :
    FeesCharged st a.executor (recordPlacement st now edge size id a).tracker := by
  obtain ⟨order, hget, hlive⟩ := hunfilled
  have hid : order.orderId = id := hkeyed id order hget
  have hnone : a.tracker.getTradeIdForOrder id = none := by
    by_contra hsome
    obtain ⟨j, hj⟩ := Option.ne_none_iff_exists'.mp hsome
    obtain ⟨x, hx, horder⟩ := Tracker.getTrade_of_getTradeIdForOrder hj
    exact (hdrawn j x id hx horder).ne rfl
  rw [recordPlacement_tracker st now edge size hget hid hnone]
  intro e entry k trade hget' hkind hfound hrow hopen
  rw [Tracker.getTradeIdForOrder_modifyTrade _ _ (fun x => by split_ifs <;> rfl),
    Tracker.getTradeIdForOrder_insertTrade, hid] at hfound
  rw [Tracker.getTrade_modifyTrade] at hrow
  by_cases he : id = e
  · subst he
    rw [hnone, Option.none_or, if_pos rfl] at hfound
    obtain rfl := Option.some.inj hfound
    obtain rfl := Option.some.inj (hget.symm.trans hget')
    rw [if_pos rfl, Tracker.getTrade, Tracker.insertTrade, List.getElem?_concat_length,
      Option.map_some, Option.some.injEq] at hrow
    subst hrow
    cases hpaper : order.isPaper with
    | true => exact ⟨by simpa [Trade.chargeFee] using hsize, by simp [Trade.chargeFee],
        by simp [entryFee, hpaper, Trade.chargeFee]⟩
    | false =>
      have hwaits := hlive hpaper
      exact ⟨by simpa [hwaits] using hsize, by simp [hwaits], by simp [entryFee, hpaper, hwaits]⟩
  · rw [if_neg he, Option.or_none] at hfound
    obtain ⟨x, hx, horder⟩ := Tracker.getTrade_of_getTradeIdForOrder hfound
    have hlt : k < a.tracker.trades.length := (List.getElem?_eq_some_iff.mp hx).1
    rw [if_neg hlt.ne, (Tracker.getTrade_insertTrade edge size order now a.tracker).1 k x hx] at hrow
    exact hs e entry k trade hget' hkind hfound (hx.trans hrow) hopen

/-- Orders that are withdrawn are told to the ledger, but nothing is charged for them. -/
lemma FeesCharged.syncExpired (hkeyed : a.executor.Keyed) (hs : FeesCharged st a.executor a.tracker)
    {ids : List OrderId} (hids : ∀ id ∈ ids, a.executor.HasWithdrawn id) :
    FeesCharged st a.executor (ids.foldl syncExpired a).tracker := by
  induction ids generalizing a with
  | nil => exact hs
  | cons id ids ih =>
    obtain ⟨order, hget, hstatus⟩ := hids id List.mem_cons_self
    have hfilled : order.status ≠ .filled := by rcases hstatus with h | h <;> simp [h]
    have hfirst : (PolyCortex.syncExpired a id).executor = a.executor ∧
        FeesCharged st a.executor (PolyCortex.syncExpired a id).tracker := by
      rw [PolyCortex.syncExpired, hget]
      dsimp only
      refine ⟨rfl, ?_⟩
      split_ifs with hkind
      · have hid : order.orderId = id := hkeyed id order hget
        have hbook : (PolyCortex.bookEntry st none order a).2.tracker = a.tracker.syncEntryOrder order := by
          rw [PolyCortex.bookEntry, if_neg (by simp), if_neg (by simp [hfilled])]
        exact hbook ▸ hs.bookEntry (hid ▸ hget)
      · exact hs.syncBracketState order
    obtain ⟨hexecutor, hcharged⟩ := hfirst
    rw [← hexecutor] at hcharged hkeyed hids ⊢
    exact ih hkeyed hcharged fun j hj => hids j (List.mem_cons_of_mem _ hj)

/-- The phantoms have no order. -/
lemma FeesCharged.reconcilePositions (hs : FeesCharged st s t) (autoClosePhantoms : Bool) (now : Time) :
    FeesCharged st s (reconcilePositions autoClosePhantoms now s t) := by
  refine Tracker.reconcilePositions_induction (P := FeesCharged st s) hs ?_
  intro _ t' j phantom ht' _ hrow' hphantom e entry k trade hget hkind hfound hrow hopen
  rw [Tracker.getTradeIdForOrder_closePhantom now hrow'] at hfound
  rw [Tracker.getTrade_closePhantom now hrow'] at hrow
  split_ifs at hrow with hj
  · obtain rfl := Option.some.inj hrow
    contradiction
  · exact ht' e entry k trade hget hkind hfound hrow hopen

/-! ### Runs -/

/-- In the cycle no database call fails. -/
def AgentMove.Unfailing : AgentMove → Prop
  | .cycle input _ => ∀ n, input.failure n = none
  | .pause | .changeFile .. => True

/-- What relates the orders and the trades of an agent in which no database call has failed. -/
structure Billed (st : Settings) (a : AgentState) : Prop where
  recorded : Recorded (a.executor, a.tracker)
  charged : FeesCharged st a.executor a.tracker

lemma Reconciles.billed {books : Dict MarketId BookData} {booked : Bool}
    (hinput : ∀ n, input.failure n = none) (h : Reconciles st input books a b booked)
    (ha : Billed st a) : Billed st b := by
  refine ⟨ha.recorded.evolves h.evolves, ?_⟩
  obtain ⟨events, s, hreturns, hbook⟩ := h
  have hchanges : Changes st.cfg a.executor s :=
    changes_of_returns ⟨.reconcileOrders _, { now := _ }⟩ (hreturns.map OpResult.events)
  have hexecutor := (bookEvents_booksOnly st input 0 events { a with executor := s }).executor
  have hcharged := FeesCharged.bookEvents (a := { a with executor := s }) hinput
    (hchanges.related ha.recorded.related).keyed (ha.charged.changes ha.recorded hchanges) 0 events
  rw [hbook] at hexecutor hcharged
  exact hexecutor ▸ hcharged

lemma Places.billed {books : Dict MarketId BookData} {multiplier : ℚ} {n : ℕ} {edge : EdgeResult}
    {positions positions' : List Trade}
    (h : Places st input books multiplier n edge positions a positions' b) (ha : Billed st a) :
    Billed st b := by
  refine ⟨ha.recorded.evolves h.evolves, ?_⟩
  cases h with
  | passed => exact ha.charged
  | @refused s hasked horder =>
    exact ha.charged.changes ha.recorded
      (changes_of_returns ⟨.placeOrder _, _⟩ (horder.map OpResult.order))
  | @placed orderId s b hasked horder hrecord =>
    have hchanges : Changes st.cfg a.executor s :=
      changes_of_returns ⟨.placeOrder _, _⟩ (horder.map OpResult.order)
    obtain ⟨t, -, hreports⟩ := horder.meets (t := []) (placeOrder_reports _ _ _)
      (fun _ => trivial) fun _ _ => trivial
    obtain ⟨rfl, hunfilled⟩ := hreports orderId rfl
    have hsize : 0 < sizeFor edge positions multiplier a := not_le.mp fun h => hasked (Or.inl h)
    subst hrecord
    rw [executor_recordPlacement]
    exact FeesCharged.recordPlacement (a := { a with executor := s })
      (ha.charged.changes ha.recorded hchanges) (hchanges.related ha.recorded.related).keyed
      ha.recorded.drawn hunfilled hsize _ _

lemma PlacesAll.billed {books : Dict MarketId BookData} {multiplier : ℚ} {n : ℕ}
    {edges : List EdgeResult} {positions positions' : List Trade}
    (h : PlacesAll st input books multiplier n edges positions a positions' b) (ha : Billed st a) :
    Billed st b := by
  induction h with
  | nil => exact ha
  | cons hplaces _ ih => exact ih (hplaces.billed ha)

lemma Tidies.billed (h : Tidies st input a b) (ha : Billed st a) : Billed st b := by
  refine ⟨ha.recorded.evolves h.evolves, ?_⟩
  obtain ⟨expired, s, hreturns, rfl⟩ := h
  have hchanges : Changes st.cfg a.executor s :=
    changes_of_returns ⟨.cancelExpiredOrders, { now := _ }⟩ (hreturns.map OpResult.ids)
  obtain ⟨t, -, hreports⟩ := hreturns.meets (t := [])
    (cancelExpiredOrders_reports _ ha.recorded.related.accounted) (fun _ => trivial) fun _ _ => trivial
  have hexpired := FeesCharged.syncExpired (a := { a with executor := s })
    (hchanges.related ha.recorded.related).keyed (ha.charged.changes ha.recorded hchanges) hreports
  obtain ⟨tracker, htracker⟩ := syncExpired_frame expired { a with executor := s }
  rw [htracker] at hexpired ⊢
  exact hexpired.reconcilePositions _ _

/-- A cycle keeps the accounts. -/
theorem CycleRun.billed {report : CycleReport} (hinput : ∀ n, input.failure n = none)
    (h : CycleRun st input a report b) (ha : Billed st a) : Billed st b := by
  cases h with
  | halted => exact ha
  | unscanned => exact ⟨ha.recorded, ha.charged⟩
  | failed hrunning hreconciles =>
    obtain ⟨hrecorded, hcharged⟩ := hreconciles.billed hinput ha
    exact ⟨hrecorded, hcharged⟩
  | @emergency _ c _ s hrunning hreconciles hclose hcancels =>
    obtain ⟨hrecorded, hcharged⟩ := hreconciles.billed hinput ha
    have hchanges : Changes st.cfg c.executor s :=
      changes_of_returns ⟨.cancelAllOpenOrders, { now := 0 }⟩ (hcancels.map OpResult.count)
    exact ⟨hrecorded.evolves (hchanges.evolves _), hcharged.changes hrecorded hchanges⟩
  | traded hrunning hreconciles hclose htrades htidies =>
    obtain ⟨hrecorded, hcharged⟩ := hreconciles.billed hinput ha
    obtain ⟨positions, d, hplaces, rfl⟩ := htrades
    obtain ⟨hrecorded', hcharged'⟩ := hplaces.billed ⟨hrecorded, hcharged⟩
    exact htidies.billed ⟨hrecorded', hcharged'⟩

/-- In a session without database failures the open trades are charged for their entries. -/
theorem session_billed (st : Settings) (files : Files) (sessions : List Session) (now : Time)
    {moves : List AgentMove} (hmoves : ∀ move ∈ moves, move.Unfailing) :
    Billed st ((lifetime st files sessions).session st (now, moves)) := by
  refine AgentRun.run_induction (P := fun r => Billed st r.state) (C := AgentMove.Unfailing)
    ⟨⟨Executor.restart_related _, (lifetime_recorded st files sessions).drawn⟩, ?_⟩ hmoves ?_
  · rintro e entry k trade ⟨⟩
  · intro r move report a hr hmove hmoved
    cases hmoved with
    | cycle hrun =>
      obtain ⟨hrecorded, hcharged⟩ := hrun.billed hmove hr
      exact ⟨hrecorded, hcharged⟩
    | pause => exact ⟨hr.recorded, hr.charged⟩
    | changeFile => exact ⟨hr.recorded, hr.charged⟩

end PolyCortex
