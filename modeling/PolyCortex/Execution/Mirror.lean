import PolyCortex.Coroutine.Lockstep
import PolyCortex.Execution.Arming
import PolyCortex.Execution.Runs

/-!
# The mirror of a run

A YES order at the market price `p` and a NO order at `1 - p` are the same bet. `mirror` exchanges
the two directions in orders, requests, books and states: market prices become their complements,
bids become asks, and contract prices stay. The synchronous parts of the executor commute with it,
except where they read the book for a direction.
-/

namespace PolyCortex

open Rounding

/-! ### Directions and prices -/

/-- The other side of the market. -/
def Direction.opposite : Direction → Direction
  | .yes => .no
  | .no => .yes
  | .other text => .other text

/-- One of the two sides, as validation asks for. -/
def Direction.IsSide (direction : Direction) : Prop := direction = .yes ∨ direction = .no

lemma Direction.opposite_involutive : Function.Involutive opposite := by
  intro direction
  cases direction <;> rfl

lemma contractPrice_opposite {direction : Direction} (h : direction.IsSide) (price : ℚ) :
    contractPrice direction.opposite (1 - price) = contractPrice direction price := by
  rcases h with rfl | rfl <;> simp [contractPrice, Direction.opposite]

lemma limitPrice_opposite {direction : Direction} (h : direction.IsSide) (price : ℚ) :
    limitPrice direction.opposite (1 - price) = limitPrice direction price := by
  rcases h with rfl | rfl <;> simp [limitPrice, Direction.opposite]

/-! ### Orders, requests, books and states -/

def Order.mirror (o : Order) : Order := { o with direction := o.direction.opposite }

@[simp] lemma Order.mirror_orderKind (o : Order) : o.mirror.orderKind = o.orderKind := rfl

@[simp] lemma Order.mirror_marketId (o : Order) : o.mirror.marketId = o.marketId := rfl

def MarketData.mirror (data : MarketData) : MarketData where
  midpoint := data.midpoint.map (1 - ·)
  bestBid := data.bestAsk.map (1 - ·)
  bestAsk := data.bestBid.map (1 - ·)

def Level.mirror (level : Level) : Level := (1 - level.1, level.2)

def PlaceRequest.mirror (req : PlaceRequest) : PlaceRequest :=
  { req with
    direction := req.direction.opposite
    price := 1 - req.price
    marketBook := req.marketBook.map fun book =>
      (book.2.map Level.mirror, book.1.map Level.mirror) }

/-- The price of an exit is already that of the held contract. -/
def CloseRequest.mirror (req : CloseRequest) : CloseRequest :=
  { req with direction := req.direction.opposite }

def Op.mirror : Op → Op
  | .placeOrder req => .placeOrder req.mirror
  | .closePosition req => .closePosition req.mirror
  | .reconcileOrders books => .reconcileOrders fun marketId => (books marketId).map (·.mirror)
  | .cancelOrder orderId => .cancelOrder orderId
  | .cancelAllOpenOrders => .cancelAllOpenOrders
  | .cancelExpiredOrders => .cancelExpiredOrders

def Invocation.mirror (i : Invocation) : Invocation := ⟨⟨i.call.op.mirror, i.call.env⟩, i.answers⟩

def PlacementKey.mirror : Equiv.Perm PlacementKey :=
  (Equiv.refl MarketId).prodCongr
    (Direction.opposite_involutive.toPerm.prodCongr (Equiv.refl OrderKind))

def Executor.mirror (s : Executor) : Executor where
  orders := s.orders.mapValues fun _ => Order.mirror
  recentPlacements := s.recentPlacements.mapKeys PlacementKey.mirror
  submittedOrders := s.submittedOrders.map fun row => { row with side := row.side.opposite }
  nextId := s.nextId
  fresh := s.fresh

variable {cfg : Config} {env : Ambient} {req : PlaceRequest}

/-- The admitted market prices are symmetric around one half. -/
lemma isSome_validateOrder_mirror :
    (validateOrder cfg env req.mirror).isSome = (validateOrder cfg env req).isSome := by
  have hrange : (1 / 100 ≤ req.mirror.price ∧ req.mirror.price ≤ 99 / 100) ↔
      (1 / 100 ≤ req.price ∧ req.price ≤ 99 / 100) := by
    simp only [PlaceRequest.mirror]
    constructor <;> rintro ⟨hlow, hhigh⟩ <;> constructor <;> linarith
  unfold validateOrder
  cases env.killSwitch with
  | some reason => rfl
  | none =>
    by_cases hinside : 1 / 100 ≤ req.price ∧ req.price ≤ 99 / 100
    · simp only [if_neg (not_not.mpr (hrange.mpr hinside)), if_neg (not_not.mpr hinside)]
      cases hdirection : req.direction <;>
        simp only [PlaceRequest.mirror, hdirection, Direction.opposite]
    · simp only [if_pos (mt hrange.mp hinside), if_pos hinside, Option.isSome_some]

lemma isSide_of_valid (hvalid : validateOrder cfg env req = none) : req.direction.IsSide := by
  unfold validateOrder at hvalid
  cases hdirection : req.direction with
  | yes => exact Or.inl rfl
  | no => exact Or.inr rfl
  | other text =>
    cases hkill : env.killSwitch with
    | some reason => simp [hkill] at hvalid
    | none =>
      simp only [hkill, hdirection] at hvalid
      split_ifs at hvalid

namespace Executor

@[simp] lemma mirror_init : Executor.init.mirror = .init := by
  refine Executor.ext (Dict.ext rfl rfl) (Dict.ext rfl rfl) rfl rfl

@[simp] lemma mirror_nextId (s : Executor) : s.mirror.nextId = s.nextId := rfl

@[simp] lemma mirror_keys (s : Executor) : s.mirror.orders.keys = s.orders.keys := rfl

@[simp] lemma mirror_get? (s : Executor) (id : OrderId) :
    s.mirror.orders.get? id = (s.orders.get? id).map Order.mirror := rfl

lemma mirror_takeId (s : Executor) : s.mirror.takeId = s.takeId.mirror := rfl

lemma mirror_insertOrder (s : Executor) {mk mk' : OrderId → Order}
    (h : ∀ id, mk' id = (mk id).mirror) :
    s.mirror.insertOrder mk' = (s.insertOrder mk).mirror := by
  obtain rfl : mk' = fun id => (mk id).mirror := funext h
  exact Executor.ext (s.orders.mapValues_set Order.mirror s.nextId (mk s.nextId)).symm rfl rfl rfl

lemma mirror_modifyOrder (s : Executor) (id : OrderId) {f f' : Order → Order}
    (h : ∀ o, f' o.mirror = (f o).mirror) :
    s.mirror.modifyOrder id f' = (s.modifyOrder id f).mirror :=
  Executor.ext (s.orders.mapValues_modify id fun o => (h o).symm).symm rfl rfl rfl

lemma mirror_replaceOrder (s : Executor) (id : OrderId) (o : Order) :
    (s.mirror.modifyOrder id fun _ => o.mirror) = (s.modifyOrder id fun _ => o).mirror :=
  s.mirror_modifyOrder id fun _ => rfl

lemma mirror_mapOrders (s : Executor) {f f' : Order → Order}
    (h : ∀ o, f' o.mirror = (f o).mirror) : s.mirror.mapOrders f' = (s.mapOrders f).mirror := by
  refine Executor.ext (Dict.ext rfl (funext fun id => ?_)) rfl rfl rfl
  simp [Option.map_map, Function.comp_def, h]

lemma mirror_setStatus (s : Executor) (id : OrderId) (status : OrderStatus) :
    s.mirror.setStatus id status = (s.setStatus id status).mirror :=
  s.mirror_modifyOrder id fun _ => rfl

lemma mirror_setBracketState (s : Executor) (id : OrderId) (state : BracketState) :
    s.mirror.setBracketState id state = (s.setBracketState id state).mirror :=
  s.mirror_modifyOrder id fun _ => rfl

end Executor

lemma Order.mirror_applyFill (o : Order) (x p : ℚ) (now : Time) :
    o.mirror.applyFill x p now = (o.applyFill x p now).mirror := by
  by_cases haccepted : 0 < o.acceptedFill x
  · rw [applyFill_of_pos haccepted, applyFill_of_pos (o := o.mirror) haccepted]
    rfl
  · rw [applyFill_of_nonpos (not_lt.mp haccepted),
      applyFill_of_nonpos (o := o.mirror) (not_lt.mp haccepted)]

/-! ### Brackets -/

/-- What the mirror of an update returns and leaves behind. -/
def mirrored {β : Type} (r : β × Executor) : β × Executor := (r.1, r.2.mirror)

lemma ite_mirrored {β : Type} {c c' : Prop} [Decidable c] [Decidable c'] {a a' b b' : β × Executor}
    (hc : c' ↔ c) (ha : c → a' = mirrored a) (hb : ¬ c → b' = mirrored b) :
    (if c' then a' else b') = mirrored (if c then a else b) := by
  by_cases h : c
  · rw [if_pos (hc.mpr h), if_pos h, ha h]
  · rw [if_neg (mt hc.mp h), if_neg h, hb h]

lemma mirror_foldl_modifyOrder {f f' : Order → Order} (h : ∀ o, f' o.mirror = (f o).mirror)
    (ids : List OrderId) (s : Executor) :
    ids.foldl (fun s id => s.modifyOrder id f') s.mirror =
      (ids.foldl (fun s id => s.modifyOrder id f) s).mirror := by
  induction ids generalizing s with
  | nil => rfl
  | cons id ids ih => rw [List.foldl_cons, List.foldl_cons, s.mirror_modifyOrder id h, ih]

lemma mirror_syncChildSizes (parent : Order) (s : Executor) :
    syncChildSizes parent.mirror s.mirror = (syncChildSizes parent s).mirror := by
  refine mirror_foldl_modifyOrder (fun o => ?_) parent.bracketOrderIds s
  rw [apply_ite Order.mirror]
  rfl

lemma mirror_bracketChild (parent : Order) (spec : BracketSpec) (now : Time) (g : ℕ)
    (kind : OrderKind) (trigger : TriggerCondition) (price : ℚ) (id : OrderId) :
    bracketChild parent.mirror spec now g kind trigger price id =
      (bracketChild parent spec now g kind trigger price id).mirror := by
  rw [bracketChild_eq, bracketChild_eq]
  rfl

lemma mirror_createBrackets (spec : BracketSpec) (now : Time) (id : OrderId) (parent : Order)
    (s : Executor) : createBrackets spec now id parent.mirror s.mirror =
      mirrored (createBrackets spec now id parent s) := by
  refine Prod.ext rfl ?_
  have htakeProfit : ∀ j, takeProfitOrder parent.mirror spec now s.nextId j =
      (takeProfitOrder parent spec now s.nextId j).mirror := fun _ => mirror_bracketChild ..
  have hstopLoss : ∀ j, stopLossOrder parent.mirror spec now s.nextId j =
      (stopLossOrder parent spec now s.nextId j).mirror := fun _ => mirror_bracketChild ..
  simp only [createBrackets, Executor.mirror_nextId, Executor.mirror_takeId]
  rw [Executor.mirror_insertOrder _ htakeProfit, Executor.mirror_insertOrder _ hstopLoss]
  exact Executor.mirror_modifyOrder _ id fun _ => rfl

lemma mirror_refreshBrackets (id : OrderId) (parent : Order) (s : Executor) :
    refreshBrackets id parent.mirror s.mirror = mirrored (refreshBrackets id parent s) := by
  rw [refreshBrackets, Executor.mirror_setBracketState, mirror_syncChildSizes]
  rfl

lemma mirror_armBracketOrders (spec : BracketSpec) (now : Time) (id : OrderId) (s : Executor) :
    armBracketOrders spec now id s.mirror = mirrored (armBracketOrders spec now id s) := by
  simp only [armBracketOrders, Executor.mirror_get?]
  cases s.orders.get? id with
  | none => rfl
  | some parent =>
    let levels := buildBracketLevels parent.activePrice spec
    let setLevels : Order → Order := fun o =>
      { o with takeProfitPrice := some levels.1, stopLossPrice := some levels.2 }
    have hlevels : s.mirror.modifyOrder id setLevels = (s.modifyOrder id setLevels).mirror :=
      s.mirror_modifyOrder id fun _ => rfl
    refine ite_mirrored Iff.rfl (fun _ => rfl) fun _ => ?_
    refine ite_mirrored Iff.rfl (fun _ => ?_) fun _ => ?_
    · exact (congrArg (refreshBrackets id parent.mirror) hlevels).trans
        (mirror_refreshBrackets id parent _)
    · exact (congrArg (createBrackets spec now id parent.mirror) hlevels).trans
        (mirror_createBrackets spec now id parent _)

lemma mirror_armDefaultBrackets (cfg : Config) (now : Time) (id : OrderId) (s : Executor) :
    armDefaultBrackets cfg now id s.mirror = mirrored (armDefaultBrackets cfg now id s) := by
  unfold armDefaultBrackets
  cases cfg.defaultBracketSpec with
  | none => rfl
  | some spec => exact mirror_armBracketOrders spec now id s

lemma mirror_armDeferred (cfg : Config) (now : Time) (id : OrderId) (s : Executor) :
    armDeferred cfg now id s.mirror = mirrored (armDeferred cfg now id s) := by
  simp only [armDeferred, Executor.mirror_get?]
  cases s.orders.get? id with
  | none => rfl
  | some o =>
    exact ite_mirrored Iff.rfl (fun _ => mirror_armDefaultBrackets cfg now id s) fun _ => rfl

/-! ### Placing and cancelling -/

lemma mirror_cleanupRecentPlacements (cfg : Config) (now : Time) (s : Executor) :
    cleanupRecentPlacements cfg now s.mirror = (cleanupRecentPlacements cfg now s).mirror := by
  set kept := s.recentPlacements.filter fun _ timestamp =>
    ¬ timestamp < now - seconds cfg.dedupWindowSeconds with hkept
  have hmirror : (s.mirror.recentPlacements.filter fun _ timestamp =>
      ¬ timestamp < now - seconds cfg.dedupWindowSeconds) = kept.mapKeys PlacementKey.mirror :=
    Dict.mapKeys_filter ..
  simp only [cleanupRecentPlacements, hmirror, ← hkept, Dict.keys_mapKeys, List.length_map]
  split_ifs
  · refine Executor.ext rfl ?_ rfl rfl
    -- the oldest keys of the mirror are the mirrors of the oldest keys
    have hsort : (kept.keys.map PlacementKey.mirror).insertionSort (fun j k =>
        ((kept.mapKeys PlacementKey.mirror).get? j).getD 0 ≤
          ((kept.mapKeys PlacementKey.mirror).get? k).getD 0) =
        (kept.keys.insertionSort fun j k => (kept.get? j).getD 0 ≤ (kept.get? k).getD 0).map
          PlacementKey.mirror :=
      (List.map_insertionSort _ _ _ _ fun j _ k _ => by simp only [Dict.get?_mapKeys]).symm
    simp only [hsort, ← List.map_take, Dict.mapKeys_filter,
      List.mem_map_of_injective PlacementKey.mirror.injective]
    rfl
  · rfl

lemma mirror_preflight (s : Executor) (hslippage : validateOrder cfg env req = none →
    passesSlippage cfg req.mirror = passesSlippage cfg req) :
    preflight cfg env req.mirror s.mirror = mirrored (preflight cfg env req s) := by
  unfold preflight
  refine ite_mirrored (by rw [isSome_validateOrder_mirror]) (fun _ => rfl) fun hvalid => ?_
  have hslip := hslippage (Option.not_isSome_iff_eq_none.mp hvalid)
  refine ite_mirrored (by rw [hslip]) (fun _ => rfl) fun _ => ?_
  simp only [isDuplicate, mirror_cleanupRecentPlacements]
  refine Prod.ext ?_ rfl
  exact congrArg (fun seen : Option Time => !seen.isSome)
    (Dict.get?_mapKeys _ PlacementKey.mirror (req.marketId, req.direction, .entry))

lemma mirror_openEntry (s : Executor) (hside : req.direction.IsSide) :
    openEntry cfg env req.mirror s.mirror = mirrored (openEntry cfg env req s) := by
  have hentry : ∀ id, buildEntryOrder cfg env req.mirror id =
      (buildEntryOrder cfg env req id).mirror := by
    intro id
    rw [buildEntryOrder_eq, buildEntryOrder_eq]
    simp only [Order.mirror, PlaceRequest.mirror, limitPrice_opposite hside]
  refine Prod.ext rfl (Executor.ext ?_ ?_ rfl rfl)
  · show (s.mirror.insertOrder _).orders = (s.insertOrder _).mirror.orders
    rw [s.mirror_insertOrder hentry]
  · exact (s.recentPlacements.mapKeys_set PlacementKey.mirror
      (req.marketId, req.direction, .entry) env.now).symm

lemma mirror_fillOnPlace (s : Executor) (id : OrderId) (hside : req.direction.IsSide) :
    fillOnPlace cfg env req.mirror id s.mirror = (fillOnPlace cfg env req id s).mirror := by
  unfold fillOnPlace
  by_cases hfill : cfg.paperFillOnPlace = true
  · rw [if_pos hfill, if_pos hfill]
    have hprice : limitPrice req.mirror.direction req.mirror.price =
        limitPrice req.direction req.price := limitPrice_opposite hside req.price
    have hbracket : req.mirror.bracket cfg = req.bracket cfg := rfl
    have hsize : req.mirror.sizeUsdc = req.sizeUsdc := rfl
    rw [hprice, hbracket, hsize, s.mirror_modifyOrder id fun o => o.mirror_applyFill ..]
    cases req.bracket cfg with
    | none => rfl
    | some spec => exact congrArg Prod.snd (mirror_armBracketOrders spec env.now id _)
  · rw [if_neg hfill, if_neg hfill]

lemma mirror_cancelLocally (id : OrderId) (o : Order) (s : Executor) :
    cancelLocally id o.mirror s.mirror = (cancelLocally id o s).mirror := by
  unfold cancelLocally
  rw [s.mirror_setStatus]
  by_cases hkind : o.orderKind = .entry
  · rw [if_pos (show o.mirror.orderKind = .entry from hkind), if_pos hkind,
      Executor.mirror_setBracketState]
    refine mirror_foldl_modifyOrder (fun child => ?_) o.bracketOrderIds _
    rw [apply_ite Order.mirror]
    rfl
  · rw [if_neg (show ¬ o.mirror.orderKind = .entry from hkind), if_neg hkind]

/-! ### The book, read from both sides -/

/-- What the mirrored order reads from the mirrored book, as a price of the book itself: the side
that `triggerEvalPrice` does not read. -/
def oppositeEvalPrice (data : MarketData) (order : Order) : ℚ :=
  let fallback := data.midpoint.getD (1 - order.price)
  match order.orderKind with
  | .takeProfit => data.bestAsk.getD fallback
  | .stopLoss => data.bestBid.getD fallback
  | .entry | .exit => fallback

variable {data : MarketData} {now : Time} {id : OrderId} {o : Order} {s : Executor}

lemma triggerEvalPrice_mirror (data : MarketData) (o : Order) :
    triggerEvalPrice data.mirror o.mirror = 1 - oppositeEvalPrice data o := by
  obtain ⟨midpoint, bestBid, bestAsk⟩ := data
  simp only [triggerEvalPrice, oppositeEvalPrice, MarketData.mirror, Order.mirror]
  cases o.orderKind <;> cases midpoint <;> cases bestBid <;> cases bestAsk <;> simp

lemma exitPrice_mirror (data : MarketData) (hside : o.direction.IsSide) :
    exitPrice data.mirror o.mirror = contractPrice o.direction (oppositeEvalPrice data o) := by
  rw [exitPrice, triggerEvalPrice_mirror]
  exact contractPrice_opposite hside _

lemma entryFillPrice_mirror (data : MarketData) (hside : o.direction.IsSide) :
    entryFillPrice data.mirror o.mirror =
      contractPrice o.direction (data.midpoint.getD (1 - o.price)) := by
  rw [← contractPrice_opposite hside]
  cases hmid : data.midpoint <;> simp [entryFillPrice, MarketData.mirror, Order.mirror, hmid]

/-- The midpoint gives the entry and its mirror one price, or neither fills. -/
def FillsAlike (cfg : Config) (data : MarketData) (o : Order) : Prop :=
  data.midpoint.getD o.price = data.midpoint.getD (1 - o.price) ∨
    (isMarketable cfg data o = false ∧ isMarketable cfg data.mirror o.mirror = false)

/-- The two sides of the book give the child and its mirror one price, or neither fires. -/
def FiresAlike (data : MarketData) (o : Order) : Prop :=
  triggerEvalPrice data o = oppositeEvalPrice data o ∨
    (shouldTrigger data o = false ∧ shouldTrigger data.mirror o.mirror = false)

lemma mirror_reconcilePaperEntry (hside : o.direction.IsSide) (halike : FillsAlike cfg data o) :
    reconcilePaperEntry cfg data.mirror now id o.mirror s.mirror =
      mirrored (reconcilePaperEntry cfg data now id o s) := by
  unfold reconcilePaperEntry
  rcases halike with hprice | ⟨hquiet, hquiet'⟩
  · have hfillPrice : entryFillPrice data.mirror o.mirror = entryFillPrice data o := by
      rw [entryFillPrice_mirror data hside, ← hprice, entryFillPrice]
    have hmarketable : isMarketable cfg data.mirror o.mirror = isMarketable cfg data o := by
      rw [isMarketable, isMarketable, hfillPrice]
      rfl
    have hfilled : o.mirror.paperFill cfg data.mirror now = (o.paperFill cfg data now).mirror := by
      rw [Order.paperFill, hfillPrice]
      exact o.mirror_applyFill ..
    refine ite_mirrored (by rw [hmarketable]) (fun _ => ?_) fun _ => rfl
    dsimp only
    rw [hfilled, hfillPrice, s.mirror_replaceOrder]
    refine ite_mirrored Iff.rfl (fun _ => ?_) fun _ => rfl
    rw [mirror_armDefaultBrackets]
    rfl
  · simp [hquiet, hquiet', mirrored]

lemma mirror_setParentBracketState (o : Order) (state : BracketState) (s : Executor) :
    setParentBracketState o.mirror state s.mirror = (setParentBracketState o state s).mirror := by
  have hparent : o.mirror.parentOrderId = o.parentOrderId := rfl
  rw [setParentBracketState, setParentBracketState, hparent]
  cases o.parentOrderId with
  | none => rfl
  | some parentId => exact s.mirror_setBracketState parentId state

lemma mirror_cancelSiblings (o : Order) (s : Executor) :
    cancelSiblings o.mirror s.mirror = mirrored (cancelSiblings o s) := by
  refine Prod.ext ?_ ?_
  · show ((s.mirror.orders.values).filter _).map _ = _
    rw [show s.mirror.orders.values = s.orders.values.map Order.mirror from
      s.orders.values_mapValues Order.mirror, List.filter_map, List.map_map]
    rfl
  · refine s.mirror_mapOrders fun candidate => ?_
    rw [apply_ite Order.mirror]
    rfl

lemma mirror_reconcileChild (hside : o.direction.IsSide)
    (halike : o.status = .armed → o.isPastExpiry now = false → FiresAlike data o) :
    reconcileChild data.mirror now id o.mirror s.mirror =
      mirrored (reconcileChild data now id o s) := by
  unfold reconcileChild
  refine ite_mirrored Iff.rfl (fun _ => rfl) fun harmed => ?_
  refine ite_mirrored Iff.rfl (fun _ => ?_) fun hexpiry => ?_
  · rw [expireChild, s.mirror_setStatus, mirror_setParentBracketState]
    rfl
  rcases halike (not_not.mp harmed) (by simpa using hexpiry) with hprice | ⟨hquiet, hquiet'⟩
  · have hexit : exitPrice data.mirror o.mirror = exitPrice data o := by
      rw [exitPrice_mirror data hside, ← hprice, exitPrice]
    have hfilled : o.mirror.exitFill data.mirror now = (o.exitFill data now).mirror := by
      rw [Order.exitFill, hexit]
      exact o.mirror_applyFill ..
    refine ite_mirrored ?_ (fun _ => ?_) fun _ => rfl
    · simp only [shouldTrigger, hexit]
      rfl
    · simp only [triggerChild, hexit, hfilled]
      rw [s.mirror_replaceOrder, mirror_setParentBracketState, mirror_cancelSiblings]
      rfl
  · simp [hquiet, hquiet', mirrored]

end PolyCortex
