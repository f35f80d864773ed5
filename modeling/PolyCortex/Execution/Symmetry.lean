import PolyCortex.Execution.Deduplication
import PolyCortex.Execution.Mirror

/-!
# Runs and their mirrors

The mirror of a paper run keeps pace with it, call by call, as long as every order that a pass
reaches finds the same price on both sides of the book, or does not move on either
(`runAll_mirror`). A child reads the bid or the ask by its kind alone, so on a book with a spread
the run and its mirror part (`runAll_mirror_parts`).
-/

namespace PolyCortex

open Coroutine (alone_refl forEach Lockstep Silent)
open Relation

variable {cfg : Config} {s s' : Executor}

/-! ### Every order that is evaluated has a side -/

/-- Entries and their children bet on YES or on NO. -/
def Executor.Sided (s : Executor) : Prop :=
  ∀ id o, s.orders.get? id = some o → o.orderKind ≠ .exit → o.direction.IsSide

def Executor.EntriesSided (s : Executor) : Prop :=
  ∀ id o, s.orders.get? id = some o → o.orderKind = .entry → o.direction.IsSide

lemma Executor.Sided.entries (hs : s.Sided) : s.EntriesSided :=
  fun id o hget hkind => hs id o hget (by simp [hkind])

lemma Executor.NoPlacement.entriesSided (h : s.NoPlacement s') (hs : s.EntriesSided) :
    s'.EntriesSided := by
  intro id o' ho' hkind
  obtain ⟨o, ho, hterms⟩ := h.entries id o' ho' hkind
  rw [hterms.direction]
  exact hs id o ho (hterms.orderKind.symm.trans hkind)

lemma Command.entriesSided (h : Command cfg s s') (hs : s.EntriesSided) : s'.EntriesSided := by
  have hroutine : ∀ {s'}, Routine cfg s s' → s'.EntriesSided :=
    fun h => h.noPlacement.entriesSided hs
  cases h with
  | cleanup now =>
    intro id o ho
    rw [orders_cleanupRecentPlacements] at ho
    exact hs id o ho
  | openEntry env req hvalid =>
    intro id o ho hkind
    have hopened := Executor.get?_insertOrder s (buildEntryOrder cfg env req) id
    rw [show (PolyCortex.openEntry cfg env req s).2.orders.get? id = _ from hopened] at ho
    split_ifs at ho
    · rw [← Option.some.inj ho, buildEntryOrder_eq]
      exact isSide_of_valid hvalid
    · exact hs id o ho hkind
  | fillOnPlace env req id hvalid hget hpaper =>
    exact hroutine (.fillOnPlace env req id hvalid hget hpaper)
  | persist env req => exact hroutine (.persist env req)
  | abandon id o hget hkind hstatus => exact hroutine (.abandon id o hget hkind hstatus)
  | acknowledgeEntry req exchangeIds id o hget hkind =>
    exact hroutine (.acknowledgeEntry req exchangeIds id o hget hkind)
  | cancelLocally id o hget hopen => exact hroutine (.cancelLocally id o hget hopen)
  | cancelConfirmed id o hget hkind hopen => exact hroutine (.cancelConfirmed id o hget hkind hopen)
  | expire id o hget harmed => exact hroutine (.expire id o hget harmed)
  | openExit env req hsize => exact hroutine (.openExit env req hsize)
  | fillExit env req id hsize hget hpaper => exact hroutine (.fillExit env req id hsize hget hpaper)
  | acknowledgeExit id exchangeId o hget hkind =>
    exact hroutine (.acknowledgeExit id exchangeId o hget hkind)

lemma Change.entriesSided (h : Change cfg s s') (hs : s.EntriesSided) : s'.EntriesSided := by
  cases h with
  | command h => exact h.entriesSided hs
  | paperEntry data now id o hget hkind hstatus hpaper =>
    exact (reconcilePaperEntry_noPlacement hget data now).entriesSided hs
  | deferred now id => exact (armDeferred_armings ..).noPlacement.entriesSided hs
  | child data now id o hget hkind => exact (reconcileChild_noPlacement hget data now).entriesSided hs
  | statusRows now id rows o hget hkind hopen hlive =>
    exact (applyStatusRows_noPlacement id rows now s).entriesSided hs

/-- Children take the side of their parent. -/
lemma Effects.sided (h : Effects cfg s s') (hs : s.Sided) (hentries : s'.EntriesSided) :
    s'.Sided := by
  induction h with
  | refl => exact hs
  | tail hpre hstep ih =>
    have hbefore := ih fun id o ho hkind => by
      obtain ⟨o', ho', hterms, _⟩ := hstep.follows id o ho
      rw [← hterms.direction]
      exact hentries id o' ho' (hterms.orderKind.trans hkind)
    intro id o' ho' hkind
    rcases hstep.source ho' with ⟨o, ho, hterms⟩ | ⟨hnew, _⟩ |
      ⟨e, parent, g, hparent, hentry, _, hdirection⟩
    · rw [hterms.direction]
      exact hbefore id o ho (hterms.orderKind ▸ hkind)
    · refine hentries id o' ho' ?_
      have hplain := hnew.kind
      cases hk : o'.orderKind <;> simp_all [OrderKind.isBracket]
    · rw [hdirection]
      exact hbefore e parent hparent (by simp [hentry])

lemma Changes.sided (h : Changes cfg s s') (hacc : s.Accounted) (hs : s.Sided) : s'.Sided := by
  induction h with
  | refl => exact hs
  | tail hpre hstep ih =>
    exact (hstep.effects (Changes.conserves hpre hacc).accounted).sided ih
      (hstep.entriesSided ih.entries)

/-- What the mirror of an operation relies on: paper orders that have a side. -/
structure Executor.Paper (cfg : Config) (s : Executor) : Prop where
  accounted : s.Accounted
  paper : s.PaperIs cfg.isPaper
  sided : s.Sided

lemma Executor.Paper.changes (hs : s.Paper cfg) (h : Changes cfg s s') : s'.Paper cfg :=
  ⟨(Changes.conserves h hs.accounted).accounted, h.paperIs hs.accounted hs.paper,
    h.sided hs.accounted hs.sided⟩

theorem runAll_paper (cfg : Config) (run : List Invocation) : (runAll cfg run).state.Paper cfg :=
  Executor.Paper.changes
    ⟨Executor.accounted_init, by rintro id o ⟨⟩, by rintro id o ⟨⟩⟩
    (runFrom_changes cfg ⟨.init, []⟩ run)

/-- So do the states on the way through an operation. -/
lemma Executor.Paper.silent {α : Type} {p : Program α} {a : α} (hs : s.Paper cfg)
    (hp : ByChanges cfg (fun _ _ => True) p ⟨s, []⟩) (h : p.Silent s a s') : s'.Paper cfg := by
  have hchanges := (hp.run alone_refl (fun _ => .refl) .trans unreachable).1
  rw [h unreachable] at hchanges
  exact hs.changes hchanges

/-! ### The operations in lockstep -/

section Lockstep

variable {env : Ambient} {now : Time} {id : OrderId} (hpaper : cfg.isPaper = true)

include hpaper

lemma placeOrder_lockstep {req : PlaceRequest} (hslippage : validateOrder cfg env req = none →
    passesSlippage cfg req.mirror = passesSlippage cfg req) :
    Lockstep Executor.mirror (placeOrder cfg env req) (placeOrder cfg env req.mirror) s := by
  refine .modifyGet_bind (mirror_preflight s hslippage) ?_
  by_cases haccepted : (preflight cfg env req s).1 = true
  · have hside : req.direction.IsSide := by
      refine isSide_of_valid (?_ : validateOrder cfg env req = none)
      by_contra hinvalid
      rw [preflight, if_pos (Option.isSome_iff_ne_none.mpr hinvalid)] at haccepted
      cases haccepted
    simp only [haccepted, not_true_eq_false, if_false]
    refine .modifyGet_bind (mirror_openEntry _ hside) ?_
    simp only [hpaper, if_true]
    exact .modify_bind (mirror_fillOnPlace _ _ hside) (.pure _ _ _)
  · rw [Bool.not_eq_true] at haccepted
    simp only [haccepted]
    exact .pure _ _ _

lemma closePosition_lockstep (req : CloseRequest) :
    Lockstep Executor.mirror (closePosition cfg env req) (closePosition cfg env req.mirror) s := by
  have hexit : ∀ id, buildExitOrder cfg env req.mirror id = (buildExitOrder cfg env req id).mirror := by
    intro id
    rw [buildExitOrder_eq, buildExitOrder_eq]
    rfl
  refine .ite Iff.rfl (fun _ => .pure _ _ _) fun _ => ?_
  refine .modifyGet_bind (Prod.ext rfl (s.mirror_insertOrder hexit)) ?_
  simp only [hpaper, if_true]
  exact .modify_bind (Executor.mirror_modifyOrder _ _ fun o => o.mirror_applyFill ..) (.pure _ _ _)

lemma cancelOrder_lockstep (hs : s.Paper cfg) :
    Lockstep Executor.mirror (cancelOrder cfg id) (cancelOrder cfg id) s := by
  refine .get_bind ?_
  rw [s.mirror_get?]
  cases hget : s.orders.get? id with
  | none => exact .pure _ _ _
  | some o =>
    have hlocal : o.isPaper = true ∨ ¬ cfg.clobConnected = true ∨ o.orderKind ≠ .entry :=
      Or.inl ((hs.paper id o hget).trans hpaper)
    refine .ite Iff.rfl (fun _ => .pure _ _ _) fun _ => ?_
    refine .ite Iff.rfl (fun _ => ?_) fun hlive => absurd hlocal hlive
    exact .modify_bind (mirror_cancelLocally id o s) (.pure _ _ _)

lemma cancelIfOpen_lockstep (hs : s.Paper cfg) :
    Lockstep Executor.mirror (cancelIfOpen cfg id) (cancelIfOpen cfg id) s := by
  refine .get_bind ?_
  rw [s.mirror_get?]
  cases s.orders.get? id with
  | none => exact .pure _ _ _
  | some o =>
    refine .ite Iff.rfl (fun _ => ?_) fun _ => .pure _ _ _
    refine (cancelOrder_lockstep hpaper hs).bind fun cancelled s' _ => ?_
    cases cancelled <;> exact .pure _ _ _

lemma cancelIfExpired_lockstep (hs : s.Paper cfg) :
    Lockstep Executor.mirror (cancelIfExpired cfg now id) (cancelIfExpired cfg now id) s := by
  refine .get_bind ?_
  rw [s.mirror_get?]
  cases s.orders.get? id with
  | none => exact .pure _ _ _
  | some o =>
    refine .ite Iff.rfl (fun _ => .pure _ _ _) fun _ => ?_
    refine .ite Iff.rfl (fun _ => ?_) fun _ => ?_
    · refine .ite Iff.rfl (fun _ => ?_) fun _ => .pure _ _ _
      exact .modify_bind (s.mirror_setStatus id .expired) (.pure _ _ _)
    · refine .ite Iff.rfl (fun _ => ?_) fun _ => .pure _ _ _
      refine (cancelOrder_lockstep hpaper hs).bind fun cancelled s' _ => ?_
      cases cancelled <;> exact .pure _ _ _

lemma cancelAllOpenOrders_lockstep (hs : s.Paper cfg) :
    Lockstep Executor.mirror (cancelAllOpenOrders cfg) (cancelAllOpenOrders cfg) s := by
  refine .get_bind ?_
  refine (Lockstep.forEach fun pre id post _ ids s' hpre => ?_).bind fun _ _ _ => .pure _ _ _
  refine cancelIfOpen_lockstep hpaper (hs.silent ?_ hpre)
  exact bySteps_forEach fun id w' =>
    (byRoutines_of_byCancels (cancelIfOpen_byCancels id)).byCommands.byChanges

lemma cancelExpiredOrders_lockstep (hs : s.Paper cfg) :
    Lockstep Executor.mirror (cancelExpiredOrders cfg now) (cancelExpiredOrders cfg now) s := by
  refine .get_bind ?_
  refine Lockstep.forEach fun pre id post _ ids s' hpre => ?_
  refine cancelIfExpired_lockstep hpaper (hs.silent ?_ hpre)
  exact bySteps_forEach fun id w' =>
    (byRoutines_of_byCancels (cancelIfExpired_byCancels now id)).byCommands.byChanges

end Lockstep

/-! ### The condition -/

/-- What the pass reaches under `id` finds one price on both sides of its book, or stays put. -/
def RoundAlike (cfg : Config) (books : MarketBooks) (now : Time) (s : Executor) (id : OrderId) :
    Prop :=
  ∀ o data, s.orders.get? id = some o → books o.marketId = some data →
    (o.orderKind = .entry → o.status = .placed ∨ o.status = .partiallyFilled →
      FillsAlike cfg data o) ∧
    (o.orderKind.isBracket = true → o.status = .armed → o.isPastExpiry now = false →
      FiresAlike data o)

/-- The state in which a pass over paper orders reaches the order after `ids`; it asks nothing on
the way, whatever the oracle. -/
def passState (cfg : Config) (books : MarketBooks) (now : Time) (ids : List OrderId)
    (s : Executor) : Executor :=
  ((forEach (reconcileOrder cfg books now) ids).run unreachable s).state

/-- The call sees the same from both sides of the market. -/
def SeesAlike (cfg : Config) (w : ExecWorld) (call : Call) : Prop :=
  match call.op with
  | .placeOrder req => validateOrder cfg call.env req = none →
      passesSlippage cfg req.mirror = passesSlippage cfg req
  | .reconcileOrders books => ∀ pre id post, w.state.orders.keys = pre ++ id :: post →
      RoundAlike cfg books call.env.now (passState cfg books call.env.now pre w.state) id
  | .cancelOrder _ | .cancelAllOpenOrders | .cancelExpiredOrders | .closePosition _ => True

section Passes

variable {books : MarketBooks} {now : Time} {id : OrderId}

lemma reconcileOrder_lockstep (hpaper : cfg.isPaper = true) (hs : s.Paper cfg)
    (halike : RoundAlike cfg books now s id) :
    Lockstep Executor.mirror (reconcileOrder cfg books now id)
      (reconcileOrder cfg (fun marketId => (books marketId).map (·.mirror)) now id) s := by
  refine .get_bind ?_
  rw [s.mirror_get?]
  cases hget : s.orders.get? id with
  | none => exact .pure _ _ _
  | some o =>
    have hlocal : o.isPaper = true := (hs.paper id o hget).trans hpaper
    have hchild : o.orderKind.isBracket = true → ∀ data, books o.marketId = some data →
        Lockstep Executor.mirror (Coroutine.modifyGet (reconcileChild data now id o) : Program _)
          (Coroutine.modifyGet (reconcileChild data.mirror now id o.mirror)) s := by
      intro hbracket data hdata
      refine .modifyGet (mirror_reconcileChild ?_ ((halike o data hget hdata).2 hbracket))
      exact hs.sided id o hget fun hexit => by simp [hexit, OrderKind.isBracket] at hbracket
    simp only [Option.map_some, Order.mirror_orderKind, Order.mirror_marketId]
    cases hkind : o.orderKind with
    | entry =>
      refine .ite Iff.rfl (fun _ => .pure _ _ _) fun _ => ?_
      refine .ite Iff.rfl (fun hlive => absurd hlocal hlive.1) fun _ => ?_
      refine .ite Iff.rfl (fun hopen => ?_) fun _ => .modifyGet (mirror_armDeferred cfg now id s)
      simp only [Order.mirror_marketId]
      cases hdata : books o.marketId with
      | none => exact .pure _ _ _
      | some data =>
        refine .modifyGet_bind (mirror_reconcilePaperEntry ?_
          ((halike o data hget hdata).1 hkind hopen.2)) ?_
        · exact hs.sided id o hget (by simp [hkind])
        · exact .modifyGet_bind (mirror_armDeferred ..) (.pure _ _ _)
    | takeProfit =>
      dsimp only
      cases hdata : books o.marketId with
      | none => exact .pure _ _ _
      | some data => exact hchild (by rw [hkind]; rfl) data hdata
    | stopLoss =>
      dsimp only
      cases hdata : books o.marketId with
      | none => exact .pure _ _ _
      | some data => exact hchild (by rw [hkind]; rfl) data hdata
    | exit => exact .pure _ _ _

lemma reconcileOrders_lockstep (hpaper : cfg.isPaper = true) (hs : s.Paper cfg)
    (halike : ∀ pre id post, s.orders.keys = pre ++ id :: post →
      RoundAlike cfg books now (passState cfg books now pre s) id) :
    Lockstep Executor.mirror (reconcileOrders cfg books now)
      (reconcileOrders cfg (fun marketId => (books marketId).map (·.mirror)) now) s := by
  refine .get_bind ?_
  refine Lockstep.forEach fun pre id post hkeys events s' hpre => ?_
  have hreached : passState cfg books now pre s = s' := by rw [passState, hpre unreachable]
  refine reconcileOrder_lockstep hpaper (hs.silent ?_ hpre) (hreached ▸ halike pre id post hkeys)
  exact bySteps_forEach fun id w' => reconcileOrder_byChanges books now id

end Passes

lemma Invocation.lockstep (hpaper : cfg.isPaper = true) {w : ExecWorld} {i : Invocation}
    (hs : w.state.Paper cfg) (halike : SeesAlike cfg w i.call) :
    Lockstep Executor.mirror (i.call.program cfg) (i.mirror.call.program cfg) w.state := by
  obtain ⟨⟨op, env⟩, answers⟩ := i
  cases op with
  | placeOrder req => exact (placeOrder_lockstep hpaper halike).map _
  | cancelOrder orderId => exact (cancelOrder_lockstep hpaper hs).map _
  | cancelAllOpenOrders => exact (cancelAllOpenOrders_lockstep hpaper hs).map _
  | cancelExpiredOrders => exact (cancelExpiredOrders_lockstep hpaper hs).map _
  | closePosition req => exact (closePosition_lockstep hpaper req).map _
  | reconcileOrders books => exact (reconcileOrders_lockstep hpaper hs halike).map _

/-! ### Runs -/

/-- The run and its mirror are in mirrored states. -/
lemma runAll_mirror_state (hpaper : cfg.isPaper = true) {run : List Invocation}
    (h : StepsMeet cfg (SeesAlike cfg) run) :
    (runAll cfg (run.map Invocation.mirror)).state = (runAll cfg run).state.mirror := by
  induction run using List.reverseRecOn with
  | nil => exact Executor.mirror_init.symm
  | append_singleton run i ih =>
    obtain ⟨hrun, hi⟩ := stepsMeet_concat h
    rw [List.map_append, List.map_singleton, runAll_concat, runAll_concat]
    have hstep := (Invocation.lockstep hpaper (runAll_paper cfg run) hi).run i.answers i.answers
    rw [← ih hrun] at hstep
    exact hstep.1

lemma StepsMeet.take {P : ExecWorld → Call → Prop} {run : List Invocation}
    (h : StepsMeet cfg P run) (n : ℕ) : StepsMeet cfg P (run.take n) := by
  intro m hm i hi
  rw [List.length_take] at hm
  rw [List.getElem?_take_of_lt (by omega)] at hi
  rw [List.take_take, min_eq_left (by omega)]
  exact h m (by omega) i hi

/-- Two orders that differ in their direction alone, as far as sizes, statuses, triggers and
contract prices go. -/
structure Order.Matches (o o' : Order) : Prop where
  direction : o'.direction = o.direction.opposite
  orderKind : o'.orderKind = o.orderKind
  status : o'.status = o.status
  sizeUsdc : o'.sizeUsdc = o.sizeUsdc
  filledSizeUsdc : o'.filledSizeUsdc = o.filledSizeUsdc
  remainingSizeUsdc : o'.remainingSizeUsdc = o.remainingSizeUsdc
  price : o'.price = o.price
  averageFillPrice : o'.averageFillPrice = o.averageFillPrice
  triggerPrice : o'.triggerPrice = o.triggerPrice
  takeProfitPrice : o'.takeProfitPrice = o.takeProfitPrice
  stopLossPrice : o'.stopLossPrice = o.stopLossPrice

/-- The same orders, in the same places, that match one by one. -/
def Executor.Matches (s s' : Executor) : Prop :=
  s'.orders.keys = s.orders.keys ∧
    ∀ id o, s.orders.get? id = some o → ∃ o', s'.orders.get? id = some o' ∧ o.Matches o'

lemma Executor.mirror_matches (s : Executor) : s.Matches s.mirror := by
  refine ⟨rfl, fun id o hget => ⟨o.mirror, by rw [s.mirror_get?, hget]; rfl, ?_⟩⟩
  constructor <;> rfl

/-- After every number of calls the orders match, and the next call reports the same fills. -/
def KeepsPace (cfg : Config) (run : List Invocation) : Prop :=
  ∀ n, (runAll cfg (run.take n)).state.Matches
      (runAll cfg ((run.take n).map Invocation.mirror)).state ∧
    ∀ i ∈ run[n]?,
      (i.mirror.outcome cfg
        (runAll cfg ((run.take n).map Invocation.mirror)).state).result.lifecycleEvents =
      (i.outcome cfg (runAll cfg (run.take n)).state).result.lifecycleEvents

/-- The mirror of a paper run keeps pace with it when every call sees the same from both sides. -/
theorem runAll_mirror (cfg : Config) (hpaper : cfg.isPaper = true) (run : List Invocation)
    (h : StepsMeet cfg (SeesAlike cfg) run) : KeepsPace cfg run := by
  intro n
  rw [runAll_mirror_state hpaper (h.take n)]
  refine ⟨(runAll cfg (run.take n)).state.mirror_matches, fun i hi => ?_⟩
  have hn : n < run.length := (List.getElem?_eq_some_iff.mp hi).1
  have hstep := (Invocation.lockstep hpaper (runAll_paper cfg (run.take n)) (h n hn i hi)).run
    i.answers i.answers
  exact congrArg OpResult.lifecycleEvents hstep.2

/-! #### With and without a spread -/

/-- A pass sees the same from both sides when its books have a midpoint and no spread. -/
lemma seesAlike_of_noSpread {w : ExecWorld} {books : MarketBooks} {env : Ambient}
    (h : ∀ marketId data, books marketId = some data → ∃ midpoint price,
      data = { midpoint := some midpoint, bestBid := some price, bestAsk := some price }) :
    SeesAlike cfg w ⟨.reconcileOrders books, env⟩ := by
  intro pre id post _ o data _ hdata
  obtain ⟨midpoint, price, rfl⟩ := h _ _ hdata
  refine ⟨fun _ _ => Or.inl rfl, fun hbracket _ _ => Or.inl ?_⟩
  cases hkind : o.orderKind with
  | entry | exit => simp [hkind, OrderKind.isBracket] at hbracket
  | takeProfit | stopLoss => simp [triggerEvalPrice, oppositeEvalPrice, hkind]

/-- A YES entry that is filled on placement, and a pass over a book. -/
def yesPosition (data : MarketData) : List Invocation :=
  [offline (.placeOrder { marketId := "m", direction := .yes, sizeUsdc := 10, price := 1 / 2 }) 0,
    offline (.reconcileOrders fun _ => some data) 1]

/-- The theorem where the take-profit fires on a book without a spread. -/
theorem runAll_mirror_noSpread : KeepsPace {} (yesPosition
    { midpoint := some (3 / 5), bestBid := some (3 / 5), bestAsk := some (3 / 5) }) := by
  refine runAll_mirror {} rfl _ fun n hn i hi => ?_
  match n, hn with
  | 0, _ =>
    obtain rfl := Option.some.inj hi
    exact fun _ => rfl
  | 1, _ =>
    obtain rfl := Option.some.inj hi
    exact seesAlike_of_noSpread fun _ data hdata => ⟨3 / 5, 3 / 5, (Option.some.inj hdata).symm⟩

/-- With a spread the take-profit of a YES entry earns the bid, and that of its mirror the ask. -/
theorem runAll_mirror_parts : ¬ KeepsPace {} (yesPosition
    { midpoint := some (13 / 20), bestBid := some (3 / 5), bestAsk := some (7 / 10) }) := by
  set run := yesPosition
    { midpoint := some (13 / 20), bestBid := some (3 / 5), bestAsk := some (7 / 10) } with hrun
  intro h
  obtain ⟨⟨_, hmatch⟩, _⟩ := h 2
  have hyes : ((runAll {} (run.take 2)).state.orders.get? 2).any
      (fun o => o.averageFillPrice = some (3 / 5)) = true := by decide +kernel
  have hno : ((runAll {} ((run.take 2).map Invocation.mirror)).state.orders.get? 2).map
      (·.averageFillPrice) = some (some (7 / 10)) := by decide +kernel
  obtain ⟨o, hget, hprice⟩ := (Option.any_eq_true _ _).mp hyes
  obtain ⟨o', hget', hmatches⟩ := hmatch 2 o hget
  rw [hget', Option.map_some, Option.some.injEq, hmatches.averageFillPrice,
    of_decide_eq_true hprice] at hno
  norm_num at hno

end PolyCortex
