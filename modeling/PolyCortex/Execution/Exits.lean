import PolyCortex.Execution.Brackets

/-!
# The price of simulated exits

A pass prices the exit of a bracket child by the book: a take-profit at the bid, a stop-loss at
the ask, and then in terms of the held token. An exit sells, so it should earn the bid of the held
token at most. Of the four combinations of kind and direction two read the other side of the book.
-/

namespace PolyCortex

open Coroutine Relation

variable {cfg : Config} {s s' : Executor} {books : MarketBooks} {now : Time} {id c : OrderId}

/-! ### An order that is not filled here -/

/-- The order `c` keeps its terms, and if it is filled it was filled before at the same price. -/
def Executor.NotFilling (c : OrderId) (s s' : Executor) : Prop :=
  ∀ o, s.orders.get? c = some o → ∃ o', s'.orders.get? c = some o' ∧ Order.SameTerms o o' ∧
    (o'.status = .filled → o.status = .filled ∧ o'.averageFillPrice = o.averageFillPrice)

namespace Executor.NotFilling

lemma refl (c : OrderId) (s : Executor) : NotFilling c s s :=
  fun o ho => ⟨o, ho, .refl o, fun h => ⟨h, rfl⟩⟩

lemma trans {s'' : Executor} (h : NotFilling c s s') (h' : NotFilling c s' s'') :
    NotFilling c s s'' := by
  intro o ho
  obtain ⟨o', ho', hterms, hfilled⟩ := h o ho
  obtain ⟨o'', ho'', hterms', hfilled'⟩ := h' o' ho'
  refine ⟨o'', ho'', hterms.trans hterms', fun hst => ?_⟩
  obtain ⟨hst', hprice'⟩ := hfilled' hst
  obtain ⟨hst'', hprice⟩ := hfilled hst'
  exact ⟨hst'', hprice'.trans hprice⟩

/-- An order that is assigned no fill. -/
lemma modifyOrder {f : Order → Order}
    (hf : ∀ o, s.orders.get? c = some o → Order.SameTerms o (f o) ∧
      ((f o).status = .filled → o.status = .filled ∧ (f o).averageFillPrice = o.averageFillPrice)) :
    NotFilling c s (s.modifyOrder id f) := by
  intro o ho
  rw [get?_modifyOrder]
  split_ifs with hc
  · subst hc
    rw [ho]
    exact ⟨f o, rfl, hf o ho⟩
  · exact ⟨o, ho, .refl o, fun h => ⟨h, rfl⟩⟩

/-- Another order is assigned whatever it is. -/
lemma modifyOrder_of_ne {f : Order → Order} (hne : c ≠ id) :
    NotFilling c s (s.modifyOrder id f) := by
  intro o ho
  rw [get?_modifyOrder_of_ne s hne]
  exact ⟨o, ho, .refl o, fun h => ⟨h, rfl⟩⟩

end Executor.NotFilling

open Executor (NotFilling)

lemma setBracketState_notFilling (state : BracketState) :
    NotFilling c s (s.setBracketState id state) := by
  apply NotFilling.modifyOrder
  intro o _
  exact ⟨by constructor <;> rfl, fun h => ⟨h, rfl⟩⟩

lemma setStatus_notFilling {status : OrderStatus} (hstatus : status ≠ .filled) :
    NotFilling c s (s.setStatus id status) := by
  apply NotFilling.modifyOrder
  intro o _
  exact ⟨by constructor <;> rfl, fun h => absurd h hstatus⟩

lemma setParentBracketState_notFilling (o : Order) (state : BracketState) :
    NotFilling c s (setParentBracketState o state s) := by
  rw [setParentBracketState]
  cases o.parentOrderId with
  | none => exact .refl c s
  | some parentId => exact setBracketState_notFilling state

lemma Arming.notFilling (h : Arming id s s') : NotFilling c s s' := by
  cases h with
  | levels takeProfit stopLoss =>
    apply NotFilling.modifyOrder
    intro o _
    exact ⟨by constructor <;> rfl, fun h => ⟨h, rfl⟩⟩
  | state state => exact setBracketState_notFilling state
  | refresh parent hget hkind =>
    intro o ho
    refine ⟨_, by rw [get?_syncChildSizes, ho, Option.map_some], ?_⟩
    split_ifs
    · refine ⟨Order.resized_terms _ _, fun h => ?_⟩
      rw [Order.resized_status] at h
      simp [Order.resized, h]
    · exact ⟨.refl o, fun h => ⟨h, rfl⟩⟩
  | create spec now parent hget hkind hnone =>
    intro o ho
    rw [get?_createBrackets_of_some spec now hget ho]
    split_ifs with hc
    · subst hc
      rw [hget, Option.some.injEq] at ho
      subst ho
      exact ⟨_, rfl, by constructor <;> rfl, fun h => ⟨h, rfl⟩⟩
    · exact ⟨o, rfl, .refl o, fun h => ⟨h, rfl⟩⟩

lemma Armings.notFilling (h : Armings id s s') : NotFilling c s s' := by
  induction h with
  | refl => exact .refl c s
  | tail _ hstep ih => exact ih.trans hstep.notFilling

/-! ### A child in a pass -/

/-- The child `c`, `child` at the start of the pass, has not been filled at another price than
`price`. -/
def Executor.FillsAt (c : OrderId) (child : Order) (price : ℚ) (s : Executor) : Prop :=
  ∃ o, s.orders.get? c = some o ∧ Order.SameTerms child o ∧
    (o.status = .filled → o.averageFillPrice = some price)

lemma Executor.FillsAt.of_notFilling {child : Order} {price : ℚ} (hs : s.FillsAt c child price)
    (h : NotFilling c s s') : s'.FillsAt c child price := by
  obtain ⟨o, ho, hterms, hprice⟩ := hs
  obtain ⟨o', ho', hterms', hfilled⟩ := h o ho
  refine ⟨o', ho', hterms.trans hterms', fun hst => ?_⟩
  obtain ⟨hst', hsame⟩ := hfilled hst
  exact hsame.trans (hprice hst')

/-- A round of a child leaves the others unfilled and fills its own at its exit price. -/
lemma reconcileChild_fillsAt {child o : Order} {data : MarketData} (hacc : s.Accounted)
    (hs : s.FillsAt c child (exitPrice data child)) {data' : MarketData}
    (hget : s.orders.get? id = some o) (hown : id = c → data' = data) :
    (reconcileChild data' now id o s).2.FillsAt c child (exitPrice data child) := by
  rw [reconcileChild]
  split_ifs with harmed hexpired htrigger
  · exact hs
  · exact hs.of_notFilling
      ((setStatus_notFilling (by decide)).trans (setParentBracketState_notFilling o .expired))
  · rw [not_not] at harmed
    obtain ⟨x, hx, hterms, hprice⟩ := hs
    rw [Executor.FillsAt, get?_triggerChild hget]
    split_ifs with hc
    · -- the child itself fires
      subst hc
      rw [hget, Option.some.injEq] at hx
      subst hx
      obtain rfl := hown rfl
      have hfill : Order.SameTerms o (o.exitFill data' now) := o.applyFill_sameTerms _ _ _
      refine ⟨_, rfl, (hterms.trans hfill).trans (besideTriggered_terms _ _ _), fun hst => ?_⟩
      rw [besideTriggered_status] at hst
      split_ifs at hst
      rw [(besideTriggered_fill _ _ _).averageFillPrice,
        Order.exitFill_filled (hacc c o hget) harmed hst, hterms.exitPrice]
    · refine ⟨_, by rw [hx, Option.map_some], hterms.trans (besideTriggered_terms _ _ _), ?_⟩
      intro hst
      rw [besideTriggered_status] at hst
      split_ifs at hst
      rw [(besideTriggered_fill _ _ _).averageFillPrice]
      exact hprice hst
  · exact hs

lemma Round.fillsAt {child : Order} {data : MarketData} (h : Round cfg books now s s')
    (hkind : child.orderKind.isBracket = true) (hdata : books child.marketId = some data)
    (hacc : s.Accounted) (hs : s.FillsAt c child (exitPrice data child)) :
    s'.FillsAt c child (exitPrice data child) := by
  -- an entry is not the child
  have hentry : ∀ {id o}, s.orders.get? id = some o → o.orderKind = .entry → c ≠ id := by
    rintro id o hget hentry rfl
    obtain ⟨x, hx, hterms, _⟩ := hs
    rw [hget, Option.some.injEq] at hx
    subst hx
    rw [← hterms.orderKind, hentry] at hkind
    cases hkind
  cases h with
  | paperEntry data' id o hget hentryKind hstatus hpaper hdata' =>
    have hfill : NotFilling c s (s.modifyOrder id fun _ => o.paperFill cfg data' now) :=
      .modifyOrder_of_ne (hentry hget hentryKind)
    apply hs.of_notFilling
    simp only [reconcilePaperEntry]
    split_ifs
    · exact hfill.trans (armDefaultBrackets_armings ..).notFilling
    · exact hfill
    · exact .refl c s
  | deferred id => exact hs.of_notFilling (armDeferred_armings ..).notFilling
  | child data' id o hget hchild hdata' =>
    refine reconcileChild_fillsAt hacc hs hget ?_
    rintro rfl
    obtain ⟨x, hx, hterms, _⟩ := hs
    rw [hget, Option.some.injEq] at hx
    subst hx
    rwa [hterms.marketId, hdata, Option.some.injEq, eq_comm] at hdata'
  | statusRows id rows o hget hentryKind hopen hlive =>
    have hfill : NotFilling c s
        (s.modifyOrder id fun _ => (o.liveFill rows now).liveStatus rows) :=
      .modifyOrder_of_ne (hentry hget hentryKind)
    apply hs.of_notFilling
    simp only [applyStatusRows, hget]
    split_ifs
    · exact .refl c s
    · exact hfill.trans (armDefaultBrackets_armings ..).notFilling
    · exact hfill

/-- A child that a pass fills is filled at its exit price. -/
lemma Rounds.fillsAt {child : Order} {data : MarketData} (h : Rounds cfg books now s s')
    (hget : s.orders.get? c = some child) (hkind : child.orderKind.isBracket = true)
    (harmed : child.status = .armed) (hdata : books child.marketId = some data)
    (hacc : s.Accounted) : s'.FillsAt c child (exitPrice data child) := by
  have hboth : s'.Accounted ∧ s'.FillsAt c child (exitPrice data child) := by
    induction h with
    | refl =>
      refine ⟨hacc, child, hget, .refl child, fun hst => ?_⟩
      rw [harmed] at hst
      cases hst
    | tail _ hstep ih =>
      obtain ⟨hacc', hs'⟩ := ih
      exact ⟨(Changes.conserves (.single hstep.change) hacc').accounted,
        hstep.fillsAt hkind hdata hacc' hs'⟩
  exact hboth.2

/-! ### The side of the book -/

/-- The best bid of the held token: a NO token is bid for what YES is not asked for. -/
def heldBid (direction : Direction) (bestBid bestAsk : ℚ) : ℚ :=
  if direction = .yes then bestBid else 1 - bestAsk

/-- The kind of exit whose side of the book is the bid of the held token. -/
def OrderKind.readsHeldBid (kind : OrderKind) (direction : Direction) : Prop :=
  (direction = .yes ∧ kind = .takeProfit) ∨ (direction ≠ .yes ∧ kind = .stopLoss)

instance (kind : OrderKind) (direction : Direction) : Decidable (kind.readsHeldBid direction) :=
  inferInstanceAs (Decidable (_ ∨ _))

lemma exitPrice_le_heldBid_iff {data : MarketData} {bestBid bestAsk : ℚ} {o : Order}
    (hkind : o.orderKind.isBracket = true) (hbid : data.bestBid = some bestBid)
    (hask : data.bestAsk = some bestAsk) (hspread : bestBid ≤ bestAsk) :
    exitPrice data o ≤ heldBid o.direction bestBid bestAsk ↔
      o.orderKind.readsHeldBid o.direction ∨ bestBid = bestAsk := by
  have hask_le : bestAsk ≤ bestBid ↔ bestBid = bestAsk :=
    ⟨fun h => le_antisymm hspread h, fun h => h.ge⟩
  cases hk : o.orderKind with
  | entry => simp [hk, OrderKind.isBracket] at hkind
  | exit => simp [hk, OrderKind.isBracket] at hkind
  | takeProfit =>
    by_cases hyes : o.direction = .yes
    · simp [exitPrice, triggerEvalPrice, contractPrice, heldBid, OrderKind.readsHeldBid, hk, hbid, hyes]
    · have hcomplement : 1 - bestBid ≤ 1 - bestAsk ↔ bestAsk ≤ bestBid := sub_le_sub_iff_left 1
      simpa [exitPrice, triggerEvalPrice, contractPrice, heldBid, OrderKind.readsHeldBid, hk, hbid,
        hyes, ← hask_le] using hcomplement
  | stopLoss =>
    by_cases hyes : o.direction = .yes
    · simp [exitPrice, triggerEvalPrice, contractPrice, heldBid, OrderKind.readsHeldBid, hk, hask,
        hyes, hask_le]
    · simp [exitPrice, triggerEvalPrice, contractPrice, heldBid, OrderKind.readsHeldBid, hk, hask,
        hyes]

/-- The fill of a child that was armed before the pass earns the bid of the held token at most if
and only if the child reads that side of the book, or the two sides are one price. -/
theorem runAll_exit_executable_iff (cfg : Config) (run : List Invocation) (books : MarketBooks)
    (env : Ambient) (answers : Oracle Request Reply) {c : OrderId} {o o' : Order}
    {data : MarketData} {bestBid bestAsk : ℚ}
    (hget : (runAll cfg run).state.orders.get? c = some o)
    (hkind : o.orderKind.isBracket = true) (harmed : o.status = .armed)
    (hdata : books o.marketId = some data) (hbid : data.bestBid = some bestBid)
    (hask : data.bestAsk = some bestAsk) (hspread : bestBid ≤ bestAsk)
    (hget' : (runAll cfg (run ++ [⟨⟨.reconcileOrders books, env⟩, answers⟩])).state.orders.get? c =
      some o') (hfilled : o'.status = .filled) :
    (∃ price, o'.averageFillPrice = some price ∧ price ≤ heldBid o.direction bestBid bestAsk) ↔
      o.orderKind.readsHeldBid o.direction ∨ bestBid = bestAsk := by
  rw [runAll_concat] at hget'
  obtain ⟨x, hx, _, hprice⟩ := (Invocation.perform_rounds cfg (runAll cfg run) books env answers).fillsAt
    hget hkind harmed hdata (runAll_accounted cfg run)
  rw [hget', Option.some.injEq] at hx
  subst hx
  rw [hprice hfilled, ← exitPrice_le_heldBid_iff hkind hbid hask hspread]
  simp

/-! #### An exit at the bid, and one above it -/

/-- A paper entry at 0.499, filled on placement. -/
def heldPosition : List Invocation :=
  [offline (.placeOrder { marketId := "m", direction := .yes, sizeUsdc := 10, price := 1 / 2 }) 0]

/-- A pass over a two-sided book. -/
def bookPass (bestBid bestAsk : ℚ) : Invocation :=
  offline (.reconcileOrders fun _ => some { bestBid := some bestBid, bestAsk := some bestAsk }) 1

/-- The theorem at a take-profit that fires. -/
theorem runAll_exit_executable_takeProfit :
    ∃ takeProfit, (runAll {} (heldPosition ++ [bookPass (3 / 5) (7 / 10)])).state.orders.get? 2 =
        some takeProfit ∧
      ∃ price, takeProfit.averageFillPrice = some price ∧ price ≤ heldBid .yes (3 / 5) (7 / 10) := by
  have harmed : ((runAll {} heldPosition).state.orders.get? 2).any (fun o =>
      o.status = .armed ∧ o.orderKind = .takeProfit ∧ o.direction = .yes) = true := by
    decide +kernel
  have hafter : ((runAll {} (heldPosition ++ [bookPass (3 / 5) (7 / 10)])).state.orders.get? 2).any
      (fun o => o.status = .filled) = true := by decide +kernel
  obtain ⟨o, hget, hfacts⟩ := (Option.any_eq_true _ _).mp harmed
  obtain ⟨o', hget', hfilled⟩ := (Option.any_eq_true _ _).mp hafter
  obtain ⟨hstatus, hkind, hyes⟩ := of_decide_eq_true hfacts
  refine ⟨o', hget', hyes ▸ ?_⟩
  refine (runAll_exit_executable_iff {} heldPosition
    (fun _ => some { bestBid := some (3 / 5), bestAsk := some (7 / 10) }) { now := 1 } unreachable
    hget (by rw [hkind]; rfl) hstatus rfl rfl rfl (by norm_num) hget' (of_decide_eq_true hfilled)).mpr ?_
  exact Or.inl (Or.inl ⟨hyes, hkind⟩)

/-- A stop-loss of a YES position is filled at the ask, above the bid. -/
theorem runAll_exit_above_bid :
    ∃ stopLoss, (runAll {} heldPosition).state.orders.get? 3 = some stopLoss ∧
      stopLoss.status = .armed ∧ stopLoss.direction = .yes ∧
    ∃ stopLoss', (runAll {} (heldPosition ++ [bookPass (2 / 5) (9 / 20)])).state.orders.get? 3 =
        some stopLoss' ∧ stopLoss'.status = .filled ∧
      ¬ ∃ price, stopLoss'.averageFillPrice = some price ∧ price ≤ heldBid .yes (2 / 5) (9 / 20) := by
  have harmed : ((runAll {} heldPosition).state.orders.get? 3).any (fun o =>
      o.status = .armed ∧ o.direction = .yes) = true := by decide +kernel
  have hafter : ((runAll {} (heldPosition ++ [bookPass (2 / 5) (9 / 20)])).state.orders.get? 3).any
      (fun o => o.status = .filled ∧ o.averageFillPrice = some (9 / 20)) = true := by decide +kernel
  obtain ⟨o, hget, hfacts⟩ := (Option.any_eq_true _ _).mp harmed
  obtain ⟨o', hget', hfacts'⟩ := (Option.any_eq_true _ _).mp hafter
  obtain ⟨hstatus, hyes⟩ := of_decide_eq_true hfacts
  obtain ⟨hfilled, hprice⟩ := of_decide_eq_true hfacts'
  refine ⟨o, hget, hstatus, hyes, o', hget', hfilled, ?_⟩
  rintro ⟨price, hprice', hle⟩
  rw [hprice, Option.some.injEq] at hprice'
  subst hprice'
  norm_num [heldBid] at hle

end PolyCortex
