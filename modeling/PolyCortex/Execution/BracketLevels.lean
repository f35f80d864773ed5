import PolyCortex.Execution.BracketStates

/-!
# Bracket levels

The children of a bracket trigger at the levels around the average price of their entry. The levels
of the children are fixed when they are created, those that the entry remembers are renewed when
its bracket is armed again, and the average price moves with every fill. The three stay the same as
long as the fills that come after the first one do not move the levels, and as long as the bracket
that a pass arms is the one that was asked for.
-/

namespace PolyCortex

open Coroutine Relation

variable {cfg : Config} {s s' : Executor} {w : ExecWorld} {e id : OrderId} {g : ℕ} {f f' : Family}
  {o : Order} {books : MarketBooks} {now : Time} {spec : BracketSpec}

/-! ### Filled orders have an average price -/

/-- What is filled has a price. -/
def Order.Priced (o : Order) : Prop := 0 < o.filledSizeUsdc → ∃ avg, o.averageFillPrice = some avg

def Executor.Priced (s : Executor) : Prop := ∀ id o, s.orders.get? id = some o → o.Priced

lemma Order.applyFill_averageFillPrice (o : Order) (x p : ℚ) (now : Time) :
    (o.applyFill x p now).averageFillPrice =
      if 0 < o.acceptedFill x then some (o.averageWith (o.acceptedFill x) p)
      else o.averageFillPrice := by
  split_ifs with hpos
  · rw [applyFill_of_pos hpos]
  · rw [applyFill_of_nonpos (not_lt.mp hpos)]

lemma Order.Priced.applyFill (h : o.Priced) (x p : ℚ) (now : Time) :
    (o.applyFill x p now).Priced := by
  by_cases hpos : 0 < o.acceptedFill x
  · rw [applyFill_of_pos hpos]
    exact fun _ => ⟨_, rfl⟩
  · rwa [applyFill_of_nonpos (not_lt.mp hpos)]

lemma Order.Priced.of_sameFill {o' : Order} (h : o.Priced) (hfill : Order.SameFill o o') :
    o'.Priced := by
  rw [Priced, hfill.filledSizeUsdc, hfill.averageFillPrice]
  exact h

lemma Order.priced_of_unfilled (h : o.filledSizeUsdc = 0) : o.Priced :=
  fun hpos => absurd h hpos.ne'

lemma Executor.Priced.modifyOrder {F : Order → Order} (hs : s.Priced)
    (hF : ∀ o, s.orders.get? id = some o → o.Priced → (F o).Priced) :
    (s.modifyOrder id F).Priced := by
  intro j o' ho'
  rw [Executor.get?_modifyOrder] at ho'
  split_ifs at ho' with hj
  · obtain ⟨o, ho, rfl⟩ := Option.map_eq_some_iff.mp ho'
    exact hF o ho (hs id o ho)
  · exact hs j o' ho'

lemma Effect.priced (h : Effect cfg s s') (hs : s.Priced) : s'.Priced := by
  cases h with
  | bookkeeping _ horders hid =>
    intro j o ho
    rw [horders] at ho
    exact hs j o ho
  | insert mk hnew hpaper =>
    intro j o' ho'
    rw [Executor.get?_insertOrder] at ho'
    split_ifs at ho' with hj
    · rw [← Option.some.inj ho']
      exact Order.priced_of_unfilled (hnew _).filled
    · exact hs j o' ho'
  | touch j F htouch => exact hs.modifyOrder fun o ho hpriced => hpriced.of_sameFill (htouch o ho).fill
  | withdraw j o status hget hopen hstatus => exact hs.modifyOrder fun o _ hpriced => hpriced
  | fill j o x p now hget hkind hopen =>
    exact hs.modifyOrder fun o _ hpriced => hpriced.applyFill x p now
  | refresh parentId o hget hkind =>
    intro j child' hchild'
    rw [get?_syncChildSizes] at hchild'
    obtain ⟨child, hchild, rfl⟩ := Option.map_eq_some_iff.mp hchild'
    have hpriced := hs j child hchild
    split_ifs
    · rw [Order.resized]
      split_ifs
      · exact hpriced
      · exact hpriced
    · exact hpriced
  | create parentId o spec now hget hkind hnone hfill =>
    intro j o' ho'
    rcases createBrackets_cases spec now hget ho' with ⟨_, hnew⟩ | ⟨rfl, rfl⟩ | ⟨_, hold⟩
    · exact Order.priced_of_unfilled hnew.filledSizeUsdc
    · exact hs _ o hget
    · exact hs j o' hold
  | trigger data now j o hget hkind harmed =>
    intro c o' ho'
    rw [get?_triggerChild hget] at ho'
    obtain ⟨x, hx, rfl⟩ := Option.map_eq_some_iff.mp ho'
    apply Order.Priced.of_sameFill ?_ (besideTriggered_fill _ c x)
    split_ifs at hx
    · rw [← Option.some.inj hx]
      exact (hs j o hget).applyFill _ _ _
    · exact hs c x hx

lemma Changes.priced (h : Changes cfg s s') (hacc : s.Accounted) (hs : s.Priced) : s'.Priced := by
  have heffects : ∀ {s s'}, Effects cfg s s' → s.Priced → s'.Priced := by
    intro s s' h hs
    induction h with
    | refl => exact hs
    | tail _ hstep ih => exact hstep.priced ih
  induction h with
  | refl => exact hs
  | tail hpre hstep ih =>
    exact heffects (hstep.effects (Changes.conserves hpre hacc).accounted) ih

theorem runAll_priced (cfg : Config) (run : List Invocation) : (runAll cfg run).state.Priced :=
  Changes.priced (runFrom_changes cfg ⟨.init, []⟩ run) Executor.accounted_init (by rintro c o ⟨⟩)

/-! ### The fill of a pass -/

/-- The fill that a pass offers to the entry `o`: its size and its price. -/
def Order.offer (cfg : Config) (books : MarketBooks) (rows : List StatusRow) (o : Order) :
    Option (ℚ × ℚ) :=
  if o.status.isFinal then none
  else if ¬ o.isPaper ∧ cfg.liveReconcileEnabled ∧ cfg.clobConnected then
    if rows ≠ [] ∧ 0 < deltaFilled o rows then some (deltaFilled o rows, lastPrice o rows) else none
  else if o.isPaper ∧ (o.status = .placed ∨ o.status = .partiallyFilled) then
    match books o.marketId with
    | none => none
    | some data =>
      if isMarketable cfg data o then some (paperFillSize cfg o, entryFillPrice data o) else none
  else none

/-- The average price of the entry `o` with the fill that a pass offers. -/
def Order.averageAfter (cfg : Config) (books : MarketBooks) (rows : List StatusRow) (o : Order) :
    Option ℚ :=
  match o.offer cfg books rows with
  | none => o.averageFillPrice
  | some (x, p) =>
    if 0 < o.acceptedFill x then some (o.averageWith (o.acceptedFill x) p) else o.averageFillPrice

lemma Order.afterRows_averageFillPrice (rows : List StatusRow) (o : Order) :
    (o.afterRows rows now).averageFillPrice =
      if rows ≠ [] ∧ 0 < deltaFilled o rows then
        (o.applyFill (deltaFilled o rows) (lastPrice o rows) now).averageFillPrice
      else o.averageFillPrice := by
  have hstatus : ∀ o' : Order, (o'.liveStatus rows).averageFillPrice = o'.averageFillPrice := by
    intro o'
    rcases liveStatus_cases rows o' with h | ⟨_, _, h | h⟩ <;> rw [h]
  rw [afterRows, liveFill]
  by_cases hrows : rows = []
  · simp [hrows]
  · rw [if_neg hrows, hstatus]
    split_ifs <;> simp_all

lemma Order.afterFills_averageFillPrice (now : Time) (rows : List StatusRow) (o : Order) :
    (o.afterFills cfg books now rows).averageFillPrice = o.averageAfter cfg books rows := by
  rw [afterFills, averageAfter, offer]
  split_ifs with hfinal hlive hfill
  · rfl
  · rw [afterRows_averageFillPrice, if_pos hfill]
    exact o.applyFill_averageFillPrice _ _ _
  · rw [afterRows_averageFillPrice, if_neg hfill]
  · cases books o.marketId with
    | none => rfl
    | some data =>
      dsimp only
      split_ifs
      · exact o.applyFill_averageFillPrice _ _ _
      · rfl
  · rfl

/-- The fills of a pass leave the terms of the entry. -/
lemma Order.afterFills_sameTerms (rows : List StatusRow) (o : Order) :
    Order.SameTerms o (o.afterFills cfg books now rows) := by
  rw [afterFills]
  split_ifs
  · exact .refl o
  · exact (o.afterRows_terms rows now).1
  · cases books o.marketId with
    | none => exact .refl o
    | some data =>
      dsimp only
      split_ifs
      · exact o.applyFill_sameTerms _ _ _
      · exact .refl o
  · exact .refl o

/-! ### Levels -/

namespace Family

/-- The entry and the children have the levels `levels`. -/
structure HasLevels (levels : ℚ × ℚ) (f : Family) : Prop where
  takeProfitPrice : f.entry.takeProfitPrice = some levels.1
  stopLossPrice : f.entry.stopLossPrice = some levels.2
  takeProfit : f.takeProfit.triggerPrice = some levels.1
  stopLoss : f.stopLoss.triggerPrice = some levels.2

/-- The levels are those of `spec` around the average price of the entry. -/
def FollowsLevels (spec : BracketSpec) (f : Family) : Prop :=
  ∃ avg, f.entry.averageFillPrice = some avg ∧ f.HasLevels (buildBracketLevels avg spec)

/-- Nothing of the levels has changed. -/
structure SameLevels (f f' : Family) : Prop where
  average : f'.entry.averageFillPrice = f.entry.averageFillPrice
  takeProfitPrice : f'.entry.takeProfitPrice = f.entry.takeProfitPrice
  stopLossPrice : f'.entry.stopLossPrice = f.entry.stopLossPrice
  takeProfit : f'.takeProfit.triggerPrice = f.takeProfit.triggerPrice
  stopLoss : f'.stopLoss.triggerPrice = f.stopLoss.triggerPrice

lemma FollowsLevels.of_same (h : f.FollowsLevels spec) (hsame : f.SameLevels f') :
    f'.FollowsLevels spec := by
  obtain ⟨avg, havg, hlevels⟩ := h
  refine ⟨avg, hsame.average.trans havg, ?_, ?_, ?_, ?_⟩
  · exact hsame.takeProfitPrice.trans hlevels.takeProfitPrice
  · exact hsame.stopLossPrice.trans hlevels.stopLossPrice
  · exact hsame.takeProfit.trans hlevels.takeProfit
  · exact hsame.stopLoss.trans hlevels.stopLoss

@[simp] lemma withdrawn_triggerPrice (o : Order) : o.withdrawn.triggerPrice = o.triggerPrice := by
  rw [Order.withdrawn]
  split_ifs <;> rfl

@[simp] lemma lapsed_triggerPrice (o : Order) (now : Time) :
    (o.lapsed now).triggerPrice = o.triggerPrice := by
  rw [Order.lapsed]
  split_ifs <;> rfl

lemma cancelled_sameLevels (cfg : Config) (failed : Bool) (f : Family) :
    f.SameLevels (f.cancelled cfg failed) := by
  rcases cancelled_cases cfg failed f with ⟨_, h⟩ | ⟨_, _, h⟩ | ⟨_, _, h⟩ <;> rw [h] <;>
    constructor <;> simp

/-- A call other than a pass leaves the levels, and arms no child. -/
lemma after_sameLevels (hpaired : f.Paired) (e : OrderId) (g : ℕ) (call : Call) (trace : Trace)
    (hop : ∀ books, call.op ≠ .reconcileOrders books) :
    f.SameLevels (f.after cfg e g call trace) ∧
      ((f.after cfg e g call trace).HasArmed → f.HasArmed) := by
  have hrefl : f.SameLevels f := by constructor <;> rfl
  obtain ⟨op, env⟩ := call
  cases op with
  | placeOrder req => exact ⟨hrefl, id⟩
  | closePosition req => exact ⟨hrefl, id⟩
  | reconcileOrders books => exact absurd rfl (hop books)
  | cancelOrder id =>
    simp only [Family.after]
    split_ifs
    · exact ⟨cancelled_sameLevels cfg _ f, (cancelled_le cfg _ f).2⟩
    · refine ⟨by constructor <;> simp, fun harmed => Or.inr ?_⟩
      simpa [HasArmed] using harmed
    · refine ⟨by constructor <;> simp, fun harmed => Or.inl ?_⟩
      simpa [HasArmed] using harmed
    · exact ⟨hrefl, fun harmed => harmed⟩
  | cancelAllOpenOrders =>
    obtain ⟨havg, htp, hsl, htp', hsl'⟩ := cancelled_sameLevels cfg (cancelFailed e trace) f
    refine ⟨⟨havg, htp, hsl, ?_, ?_⟩, fun harmed => ?_⟩
    · simpa [Family.after, Family.allCancelled] using htp'
    · simpa [Family.after, Family.allCancelled] using hsl'
    · simp [Family.after, Family.allCancelled, HasArmed] at harmed
  | cancelExpiredOrders =>
    have haged : f.SameLevels (f.aged cfg env.now (cancelFailed e trace)) := by
      rcases aged_cases cfg env.now (cancelFailed e trace) f with ⟨_, h⟩ | ⟨_, _, h⟩
      · rwa [h]
      · rw [h]
        exact cancelled_sameLevels cfg _ f
    obtain ⟨havg, htp, hsl, htp', hsl'⟩ := haged
    refine ⟨⟨havg, htp, hsl, ?_, ?_⟩, fun harmed => ?_⟩
    · simpa [Family.after, Family.expired] using htp'
    · simpa [Family.after, Family.expired] using hsl'
    · exact (aged_le cfg env.now _ f).2 ((hpaired.expired_armed _).mp harmed).1

lemma Quiet.of_entryRound (hacc : f.entry.Accounted) (hkind : f.entry.orderKind = .entry)
    {rows : List StatusRow} (h : (f.entryRound cfg books now rows).Quiet books now) :
    f.Quiet books now := by
  rcases entryRound_cases cfg books now hacc hkind rows with
    hround | ⟨_, _, _, _, hround⟩
  · rw [hround] at h
    exact h
  · rw [hround] at h
    set size := (f.entry.afterFills cfg books now rows).activeSize
    have hresized : ∀ own : Order, (own.resized size).status = .armed →
        (∀ data, books (own.resized size).marketId = some data →
          (own.resized size).isPastExpiry now = false ∧
            shouldTrigger data (own.resized size) = false) →
        ∀ data, books own.marketId = some data →
          own.isPastExpiry now = false ∧ shouldTrigger data own = false := by
      intro own _ hown data hdata
      have hterms := Order.resized_terms size own
      obtain ⟨hpast, htrigger⟩ := hown data (hterms.marketId.symm ▸ hdata)
      rw [Order.isPastExpiry, hterms.gttExpiryAt] at hpast
      rw [hterms.shouldTrigger data] at htrigger
      exact ⟨hpast, htrigger⟩
    rintro own (rfl | rfl) harmed
    · have harmed' : (f.takeProfit.resized size).status = .armed := by simpa using harmed
      exact hresized _ harmed' (h _ (Or.inl rfl) harmed')
    · have harmed' : (f.stopLoss.resized size).status = .armed := by simpa using harmed
      exact hresized _ harmed' (h _ (Or.inr rfl) harmed')

/-- A pass keeps the levels if the fill it brings does not move them, and the bracket it arms again
is the one that was asked for. -/
lemma FollowsLevels.reconciled (h : f.FollowsLevels spec) (hpaired : f.Paired)
    (hacc : f.entry.Accounted) (hkind : f.entry.orderKind = .entry) {rows : List StatusRow}
    (hkeeps : f.HasArmed → f.Quiet books now → ∀ avg old,
      f.entry.averageAfter cfg books rows = some avg → f.entry.averageFillPrice = some old →
      buildBracketLevels avg spec = buildBracketLevels old spec ∧
        (f.entry.Rearms cfg books rows → ∀ default ∈ cfg.defaultBracketSpec,
          buildBracketLevels (pyOr? (some avg) f.entry.price) default =
            buildBracketLevels avg spec))
    (harmed : (f.reconciled cfg books now rows).HasArmed) :
    (f.reconciled cfg books now rows).FollowsLevels spec := by
  obtain ⟨hpaired', harmed', _⟩ :=
    entryRound_spec cfg books now hpaired hacc hkind rows
  rw [reconciled_eq] at harmed ⊢
  rcases hpaired'.childRounds_cases books now with
    ⟨hsame, hquiet⟩ | ⟨hnone, _⟩
  swap
  · exact absurd harmed hnone
  rw [hsame] at harmed ⊢
  obtain ⟨old, hold, hlevels⟩ := h
  obtain ⟨avg, havg⟩ : ∃ avg, f.entry.averageAfter cfg books rows = some avg := by
    rw [Order.averageAfter]
    cases f.entry.offer cfg books rows with
    | none => exact ⟨old, hold⟩
    | some fill =>
      dsimp only
      split_ifs
      · exact ⟨_, rfl⟩
      · exact ⟨old, hold⟩
  obtain ⟨hspec, hdefault⟩ :=
    hkeeps (harmed'.mp harmed) (hquiet.of_entryRound hacc hkind) avg old havg hold
  have hfills := f.entry.afterFills_sameBracket cfg books now rows
  have haverage : (f.entry.afterFills cfg books now rows).averageFillPrice = some avg :=
    (f.entry.afterFills_averageFillPrice now rows).trans havg
  rw [← hspec] at hlevels
  rcases entryRound_cases cfg books now hacc hkind rows with
    hround | ⟨hrearms, default, hdef, _, hround⟩
  · rw [hround]
    refine ⟨avg, haverage, ?_, ?_, hlevels.takeProfit, hlevels.stopLoss⟩
    · exact hfills.takeProfitPrice.trans hlevels.takeProfitPrice
    · exact hfills.stopLossPrice.trans hlevels.stopLossPrice
  · have hprice : buildBracketLevels (f.entry.afterFills cfg books now rows).activePrice default =
        buildBracketLevels avg spec := by
      rw [Order.activePrice, haverage, (f.entry.afterFills_sameTerms rows).price]
      exact hdefault hrearms default hdef
    rw [hround]
    refine ⟨avg, haverage, ?_, ?_, ?_, ?_⟩
    · rw [← hprice]
      rfl
    · rw [← hprice]
      rfl
    · exact (Order.resized_terms _ f.takeProfit).triggerPrice.trans hlevels.takeProfit
    · exact (Order.resized_terms _ f.stopLoss).triggerPrice.trans hlevels.stopLoss

/-- A new bracket has the levels of `spec'` around the price of its entry. -/
lemma created_followsLevels {spec' : BracketSpec} {avg : ℚ} (g : ℕ)
    (havg : o.averageFillPrice = some avg)
    (hspec : buildBracketLevels (pyOr? (some avg) o.price) spec' = buildBracketLevels avg spec) :
    (created spec' now g o).FollowsLevels spec := by
  have hprice : buildBracketLevels o.activePrice spec' = buildBracketLevels avg spec := by
    rw [Order.activePrice, havg, hspec]
  refine ⟨avg, havg, ?_, ?_, ?_, ?_⟩
  · rw [← hprice]
    rfl
  · rw [← hprice]
    rfl
  · rw [created, takeProfitOrder, bracketChild_eq, ← hprice]
  · rw [created, stopLossOrder, bracketChild_eq, ← hprice]

end Family

/-! ### Runs -/

/-- Some child that `o` lists is armed, and none of them expires or fires in a pass over `books`. -/
def Executor.StaysArmed (s : Executor) (books : MarketBooks) (now : Time) (o : Order) : Prop :=
  s.ListsArmed o ∧ ∀ c ∈ o.bracketOrderIds, ∀ x ∈ s.orders.get? c, x.status = .armed →
    ∀ data ∈ books x.marketId, x.isPastExpiry now = false ∧ shouldTrigger data x = false

lemma Executor.FamilyAt.staysArmed (h : s.FamilyAt e g f) (harmed : f.HasArmed)
    (hquiet : f.Quiet books now) : s.StaysArmed books now f.entry := by
  refine ⟨h.listsArmed.mpr harmed, ?_⟩
  intro c hc x hx
  rw [h.family.ids] at hc
  simp only [List.mem_cons, List.not_mem_nil, or_false] at hc
  rcases hc with rfl | rfl
  · exact hquiet x (Or.inl (Option.some.inj (hx.symm.trans h.family.get_takeProfit)))
  · exact hquiet x (Or.inr (Option.some.inj (hx.symm.trans h.family.get_stopLoss)))

/-- The call keeps the levels of the entry `e`, placed with `spec`. A pass in which the children
stay armed does not move the levels by its fill. A pass that arms the bracket, for the first time or
again, does so by default, and the levels of the default are those of `spec` there. -/
def KeepsLevels (cfg : Config) (spec : BracketSpec) (e : OrderId) (w : ExecWorld) (i : Invocation) :
    Prop :=
  ∀ books o avg, i.call.op = .reconcileOrders books → w.state.orders.get? e = some o →
    o.averageAfter cfg books (reportedRows e (i.outcome cfg w.state).trace) = some avg →
    (w.state.StaysArmed books i.call.env.now o → ∀ old ∈ o.averageFillPrice,
      buildBracketLevels avg spec = buildBracketLevels old spec) ∧
    (o.bracketOrderIds = [] ∨ w.state.StaysArmed books i.call.env.now o ∧
        o.Rearms cfg books (reportedRows e (i.outcome cfg w.state).trace) →
      ∀ default ∈ cfg.defaultBracketSpec,
        buildBracketLevels (pyOr? (some avg) o.price) default = buildBracketLevels avg spec)

/-- The entry `o` and its children have the levels of `spec` around the average price of `o`. -/
def Executor.LevelsFollow (s : Executor) (spec : BracketSpec) (o : Order) : Prop :=
  ∃ avg, o.averageFillPrice = some avg ∧
    o.takeProfitPrice = some (clampPrice (avg * (1 + spec.takeProfitPct))) ∧
    o.stopLossPrice = some (clampPrice (avg * (1 - spec.stopLossPct))) ∧
    ∀ c ∈ o.bracketOrderIds, ∀ x ∈ s.orders.get? c,
      (x.orderKind = .takeProfit → x.triggerPrice = o.takeProfitPrice) ∧
      (x.orderKind = .stopLoss → x.triggerPrice = o.stopLossPrice)

lemma Executor.FamilyAt.levelsFollow (h : s.FamilyAt e g f) (hlevels : f.FollowsLevels spec) :
    s.LevelsFollow spec f.entry := by
  obtain ⟨avg, havg, htpPrice, hslPrice, htp, hsl⟩ := hlevels
  refine ⟨avg, havg, htpPrice, hslPrice, ?_⟩
  intro c hc x hx
  rw [h.family.ids] at hc
  simp only [List.mem_cons, List.not_mem_nil, or_false] at hc
  rcases hc with rfl | rfl
  · obtain rfl := Option.some.inj (hx.symm.trans h.family.get_takeProfit)
    exact ⟨fun _ => htp.trans htpPrice.symm, by simp [h.family.takeProfit.orderKind]⟩
  · obtain rfl := Option.some.inj (hx.symm.trans h.family.get_stopLoss)
    exact ⟨by simp [h.family.stopLoss.orderKind], fun _ => hsl.trans hslPrice.symm⟩

lemma Order.afterRows_priced (h : o.Priced) (rows : List StatusRow) (now : Time) :
    (o.afterRows rows now).Priced := by
  have hstatus : ∀ o' : Order, o'.Priced → (o'.liveStatus rows).Priced := by
    intro o' ho'
    rcases liveStatus_cases rows o' with h | ⟨_, _, h | h⟩ <;> rw [h] <;> exact ho'
  rw [afterRows, liveFill]
  split_ifs
  · exact h
  · exact hstatus _ (h.applyFill _ _ _)
  · exact hstatus _ h

/-- An entry whose bracket a pass arms has an average price. -/
lemma Order.loneRound_average (h : o.Priced) {rows : List StatusRow}
    (harmed : (o.loneRound cfg books now rows).2 = true) :
    ∃ avg, o.averageAfter cfg books rows = some avg := by
  rw [← afterFills_averageFillPrice now, ← loneRound_fst]
  have hdue : ∀ o' : Order, o'.Priced → o'.isDue = true → ∃ avg, o'.averageFillPrice = some avg := by
    intro o' ho' hdue
    simp only [isDue, decide_eq_true_eq] at hdue
    exact ho' hdue.2
  rw [loneRound] at harmed ⊢
  split_ifs at harmed ⊢ with hfinal hlive hpaper
  · have hpriced := afterRows_priced h rows now
    dsimp only at harmed ⊢
    rw [Bool.or_eq_true, decide_eq_true_eq] at harmed
    rcases harmed with ⟨_, hpos⟩ | hdue'
    · exact hpriced hpos
    · exact hdue _ hpriced hdue'
  · cases hdata : books o.marketId with
    | none => simp [hdata] at harmed
    | some data =>
      simp only [hdata, bookRound] at harmed ⊢
      split_ifs at harmed ⊢ with hmarket
      · dsimp only at harmed ⊢
        rw [Bool.or_eq_true, decide_eq_true_eq] at harmed
        rcases harmed with hmoved | hdue'
        · have hmoves := fillMoves_of_status hpaper.2 hmoved
          exact ⟨_, (o.applyFill_averageFillPrice _ _ now).trans (if_pos hmoves.1)⟩
        · exact hdue _ (h.applyFill _ _ _) hdue'
      · exact hdue o h (by simpa using harmed)
  · exact hdue o h harmed

/-- The entry `e`, placed with `spec`, in a state of a run whose calls keep its levels. -/
structure Executor.Levelled (s : Executor) (spec : BracketSpec) (e : OrderId) : Prop where
  regular : s.Regular
  priced : s.Priced
  placed : ∃ o, s.orders.get? e = some o
  levels : ∀ g f, s.FamilyAt e g f → f.HasArmed → f.FollowsLevels spec

lemma Executor.Levelled.perform (hs : w.state.Levelled spec e) (i : Invocation)
    (hkeeps : KeepsLevels cfg spec e w i) : (i.perform cfg w).state.Levelled spec e where
  regular := hs.regular.perform cfg i
  priced := (i.perform_changes cfg w).priced hs.regular.related.accounted hs.priced
  placed := by
    obtain ⟨o, ho⟩ := hs.placed
    obtain ⟨x, hx, _⟩ := (i.perform_changes cfg w).follows hs.regular.related.accounted e o ho
    exact ⟨x, hx⟩
  levels := by
    intro g f' h' harmed
    have hrelated := hs.regular.related
    cases i.perform_origin cfg hrelated hs.regular.whole hs.regular.ordered h' with
    | placed req spec' o hnone _ _ _ _ =>
      obtain ⟨x, hx⟩ := hs.placed
      rw [hnone] at hx
      cases hx
    | armed o spec' books hlone hop hspec harmed' hsame =>
      obtain ⟨avg, havg⟩ := Order.loneRound_average (hs.priced e o hlone.get) harmed'
      rw [hsame, Order.loneRound_fst]
      apply Family.created_followsLevels g ((o.afterFills_averageFillPrice _ _).trans havg)
      rw [(o.afterFills_sameTerms _).price]
      exact (hkeeps books o avg hop hlone.get havg).2 (Or.inl hlone.noBracket) spec' hspec
    | kept f h hsame =>
      have hacc := hrelated.accounted e f.entry h.family.get
      rw [hsame] at harmed ⊢
      by_cases hop : ∃ books, i.call.op = .reconcileOrders books
      · obtain ⟨books, hop⟩ := hop
        have hafter : f.after cfg e g i.call (i.outcome cfg w.state).trace =
            f.reconciled cfg books i.call.env.now
              (reportedRows e (i.outcome cfg w.state).trace) := by
          simp only [Family.after, hop]
        rw [hafter] at harmed ⊢
        -- what is armed after the pass was armed before it
        have hbefore : f.HasArmed := by
          obtain ⟨hpaired, hiff, _⟩ := Family.entryRound_spec cfg books i.call.env.now
            h.paired hacc h.family.kind (reportedRows e (i.outcome cfg w.state).trace)
          rw [Family.reconciled_eq] at harmed
          rcases hpaired.childRounds_cases books i.call.env.now with
            ⟨hround, _⟩ | ⟨hnone, _⟩
          · rw [hround] at harmed
            exact hiff.mp harmed
          · exact absurd harmed hnone
        apply (hs.levels g f h hbefore).reconciled h.paired hacc h.family.kind ?_ harmed
        intro harmed' hquiet avg old havg hold
        have hstays := h.staysArmed harmed' hquiet
        obtain ⟨hspec, hdefault⟩ := hkeeps books f.entry avg hop h.family.get havg
        exact ⟨hspec hstays old hold, fun hrearms => hdefault (Or.inr ⟨hstays, hrearms⟩)⟩
      · obtain ⟨hlevels, hle⟩ := Family.after_sameLevels h.paired e g i.call
          (i.outcome cfg w.state).trace (not_exists.mp hop)
        exact (hs.levels g f h (hle harmed)).of_same hlevels

lemma limitPrice_pos (direction : Direction) (price : ℚ) : 0 < limitPrice direction price := by
  rw [limitPrice, clampPrice]
  exact lt_max_of_lt_left (by norm_num)

/-- The levels of an entry that is placed with `spec` follow its average price and `spec` as long as
every call keeps them. -/
theorem runAll_levelsFollow (cfg : Config) (pre rest : List Invocation) (req : PlaceRequest)
    (env : Ambient) (answers : Oracle Request Reply) {spec : BracketSpec} {e : OrderId}
    {o entry : Order} (hspec : req.bracket cfg = some spec)
    (hnone : (runAll cfg pre).state.orders.get? e = none)
    (hplaced : (runAll cfg (pre ++ [⟨⟨.placeOrder req, env⟩, answers⟩])).state.orders.get? e =
      some o)
    (hsteps : InvocationsMeet cfg (KeepsLevels cfg spec e)
      (runAll cfg (pre ++ [⟨⟨.placeOrder req, env⟩, answers⟩])) rest)
    (hget : (runAll cfg (pre ++ [⟨⟨.placeOrder req, env⟩, answers⟩] ++ rest)).state.orders.get? e =
      some entry)
    (harmed : (runAll cfg (pre ++ [⟨⟨.placeOrder req, env⟩, answers⟩] ++ rest)).state.ListsArmed
      entry) :
    (runAll cfg (pre ++ [⟨⟨.placeOrder req, env⟩, answers⟩] ++ rest)).state.LevelsFollow spec
      entry := by
  have hstart : (runAll cfg (pre ++ [⟨⟨.placeOrder req, env⟩, answers⟩])).state.Levelled spec e := by
    refine ⟨runAll_regular cfg _, runAll_priced cfg _, ⟨o, hplaced⟩, ?_⟩
    intro g f h _
    have hs := runAll_regular cfg pre
    rw [runAll_concat] at h
    cases Invocation.perform_origin cfg _ hs.related hs.whole hs.ordered h with
    | kept f₀ h₀ _ =>
      rw [h₀.family.get] at hnone
      cases hnone
    | armed o₀ _ _ hlone _ _ _ _ =>
      rw [hlone.get] at hnone
      cases hnone
    | placed req' spec' o₀ _ hop hspec' hprice hsame =>
      obtain rfl := Op.placeOrder.inj hop
      obtain rfl := Option.some.inj (hspec.symm.trans hspec')
      rw [hsame]
      apply Family.created_followsLevels g hprice
      rw [pyOr?, Option.getD_some, pyOr, if_neg (limitPrice_pos _ _).ne']
  rw [runAll_append] at hget harmed ⊢
  have hend := hsteps.induction (I := fun w => w.state.Levelled spec e) hstart
    fun w i hw hkeeps => hw.perform i hkeeps
  have hids : entry.bracketOrderIds ≠ [] := by
    obtain ⟨c, hc, _⟩ := harmed
    exact List.ne_nil_of_mem hc
  obtain ⟨g, tp, sl, hbracket⟩ := hend.regular.related.listed e entry hget hids
  have h : Executor.FamilyAt _ e g ⟨entry, tp, sl⟩ :=
    ⟨hend.regular.related, hend.regular.whole, hbracket⟩
  exact h.levelsFollow (hend.levels g _ h (h.listsArmed.mp harmed))

/-- An entry placed with the default bracket, and one placed with a bracket of its own. -/
def defaultBracket : PlaceRequest :=
  { marketId := "m", direction := .yes, sizeUsdc := 10, price := 1 / 2 }

def ownBracket : PlaceRequest := { defaultBracket with bracketSpec := some ⟨1 / 5, 1 / 10, 60⟩ }

/-- The theorem at a first fill on paper that arms the default bracket. -/
theorem runAll_levelsFollow_firstFill :
    ∃ entry, (runAll threeTenths
        ([offline (.placeOrder defaultBracket) 0] ++ [midpointPass (2 / 5) 1])).state.orders.get? 0 =
          some entry ∧
      (runAll threeTenths
        ([offline (.placeOrder defaultBracket) 0] ++ [midpointPass (2 / 5) 1])).state.LevelsFollow
          ⟨6 / 100, 35 / 1000, 24 * 60⟩ entry := by
  have hplaced : ((runAll threeTenths [offline (.placeOrder defaultBracket) 0]).state.orders.get?
      0).any (fun o => o.bracketOrderIds = [] ∧ o.averageAfter threeTenths
        (fun _ => some { midpoint := some (2 / 5), bestBid := some (2 / 5) })
        (reportedRows 0 ((midpointPass (2 / 5) 1).outcome threeTenths
          (runAll threeTenths [offline (.placeOrder defaultBracket) 0]).state).trace) =
        some (2 / 5)) = true := by decide +kernel
  have hfilled : ((runAll threeTenths ([offline (.placeOrder defaultBracket) 0] ++
      [midpointPass (2 / 5) 1])).state.orders.get? 0).any (fun o =>
        (runAll threeTenths ([offline (.placeOrder defaultBracket) 0] ++
          [midpointPass (2 / 5) 1])).state.ListsArmed o) = true := by decide +kernel
  obtain ⟨o, hget, hfacts⟩ := (Option.any_eq_true _ _).mp hplaced
  obtain ⟨entry, hget', harmed⟩ := (Option.any_eq_true _ _).mp hfilled
  obtain ⟨hids, havg⟩ := of_decide_eq_true hfacts
  refine ⟨entry, hget', runAll_levelsFollow threeTenths [] [midpointPass (2 / 5) 1] defaultBracket
    { now := 0 } unreachable rfl rfl hget ⟨?_, trivial⟩ hget' (of_decide_eq_true harmed)⟩
  intro books x avg hop hx havg'
  obtain rfl := Op.reconcileOrders.inj hop
  obtain rfl := Option.some.inj (hget.symm.trans hx)
  obtain rfl := Option.some.inj (havg.symm.trans havg')
  constructor
  · rintro ⟨⟨c, hc, _⟩, _⟩
    rw [hids] at hc
    cases hc
  · rintro _ default hdefault
    obtain rfl := Option.some.inj hdefault
    have hprice : pyOr? (some (2 / 5)) o.price = 2 / 5 := by norm_num [pyOr?, pyOr]
    rw [hprice]
    rfl

/-- A pass arms the default bracket, whatever the bracket is that was asked for. -/
theorem ownBracket_levels :
    ownBracket.bracket threeTenths = some ⟨1 / 5, 1 / 10, 60⟩ ∧
    ∃ entry, (runAll threeTenths
        [offline (.placeOrder ownBracket) 0, midpointPass (2 / 5) 1]).state.orders.get? 0 =
          some entry ∧
      (runAll threeTenths
        [offline (.placeOrder ownBracket) 0, midpointPass (2 / 5) 1]).state.ListsArmed entry ∧
      ¬ (runAll threeTenths
        [offline (.placeOrder ownBracket) 0, midpointPass (2 / 5) 1]).state.LevelsFollow
          ⟨1 / 5, 1 / 10, 60⟩ entry := by
  have hentry : ((runAll threeTenths
      [offline (.placeOrder ownBracket) 0, midpointPass (2 / 5) 1]).state.orders.get? 0).any (fun o =>
        (runAll threeTenths
          [offline (.placeOrder ownBracket) 0, midpointPass (2 / 5) 1]).state.ListsArmed o ∧
        o.averageFillPrice = some (2 / 5) ∧ o.takeProfitPrice = some (53 / 125)) = true := by
    decide +kernel
  obtain ⟨entry, hget, hfacts⟩ := (Option.any_eq_true _ _).mp hentry
  obtain ⟨harmed, havg, htp⟩ := of_decide_eq_true hfacts
  refine ⟨rfl, entry, hget, harmed, ?_⟩
  rintro ⟨avg, havg', htp', _⟩
  obtain rfl := Option.some.inj (havg.symm.trans havg')
  rw [htp, Option.some.injEq] at htp'
  norm_num [clampPrice] at htp'

end PolyCortex
