import PolyCortex.Execution.LiveEntry

/-!
# Entries after their exit

When a child of an entry has been filled the position is closed, but a remainder of the entry stays
in the reconciliation loop. Nothing withdraws it, so it is the book and the exchange alone that
decide whether the entry is filled again. `reconcileOrders_paperEntry` is the counterpart of
`reconcileOrders_liveEntry`.
-/

namespace PolyCortex

open Coroutine Relation

variable {cfg : Config} {s s' : Executor} {e id : OrderId}

open Executor (KeepsLedger)

/-! ### A paper entry in a pass -/

/-- A paper entry after a pass over `books`. -/
def Order.afterBooks (cfg : Config) (books : MarketBooks) (now : Time) (o : Order) : Order :=
  match books o.marketId with
  | none => o
  | some data =>
    if (o.status = .placed ∨ o.status = .partiallyFilled) ∧ isMarketable cfg data o = true then
      o.paperFill cfg data now
    else o

lemma Order.afterBooks_terms (cfg : Config) (books : MarketBooks) (now : Time) (o : Order) :
    Order.SameTerms o (o.afterBooks cfg books now) := by
  rw [afterBooks]
  cases books o.marketId with
  | none => exact .refl o
  | some data =>
    dsimp only
    split_ifs
    · exact o.applyFill_sameTerms _ _ _
    · exact .refl o

/-- What the books do depends on the ledger only. -/
lemma Order.SameLedger.afterBooks {o o' : Order} (h : Order.SameLedger o o') (books : MarketBooks)
    (now : Time) :
    Order.SameLedger (o.afterBooks cfg books now) (o'.afterBooks cfg books now) := by
  rw [Order.afterBooks, Order.afterBooks, h.terms.marketId]
  cases books o.marketId with
  | none => exact h
  | some data =>
    have hprice : entryFillPrice data o' = entryFillPrice data o := by
      simp only [entryFillPrice, h.terms.direction, h.terms.price]
    have hsize : paperFillSize cfg o' = paperFillSize cfg o := by
      simp only [paperFillSize, h.fill.sizeUsdc, h.fill.remainingSizeUsdc]
    have hmarket : isMarketable cfg data o' = isMarketable cfg data o := by
      simp only [isMarketable, hprice, h.terms.price]
    simp only [hmarket, h.status, paperFill, hprice, hsize]
    split_ifs
    · exact h.applyFill _ _ _
    · exact h

/-- The book is applied to the ledger of an entry; arming its bracket adds nothing to that. -/
lemma reconcilePaperEntry_self (hs : s.Linked) {o : Order} (hget : s.orders.get? e = some o)
    (hkind : o.orderKind = .entry) (hopen : o.status = .placed ∨ o.status = .partiallyFilled)
    {books : MarketBooks} {data : MarketData} (hdata : books o.marketId = some data) (now : Time) :
    ∃ o', (reconcilePaperEntry cfg data now e o s).2.orders.get? e = some o' ∧
      Order.SameLedger (o.afterBooks cfg books now) o' := by
  have hafter : o.afterBooks cfg books now =
      if isMarketable cfg data o = true then o.paperFill cfg data now else o := by
    simp [Order.afterBooks, hdata, hopen]
  rw [hafter, reconcilePaperEntry]
  have hget' : (s.modifyOrder e fun _ => o.paperFill cfg data now).orders.get? e =
      some (o.paperFill cfg data now) := by simp [hget]
  dsimp only
  split_ifs
  · refine (armDefaultBrackets_armings cfg now e _).keepsLedger (fun parent hparent => ?_) _ hget'
    rw [hget', Option.some.injEq] at hparent
    rw [← hparent, Order.paperFill, Order.applyFill_bracketOrderIds]
    exact hs.notMem hget hkind e o hget
  · exact ⟨_, hget', .refl _⟩
  · exact ⟨o, hget, .refl o⟩

/-- What a pass leaves of the paper entry `o`. -/
def BooksApplied (cfg : Config) (books : MarketBooks) (e : OrderId) (o : Order) (now : Time)
    (w' : ExecWorld) : Prop :=
  w'.state.Linked ∧ ∃ o', w'.state.orders.get? e = some o' ∧
    Order.SameLedger (o.afterBooks cfg books now) o'

/-- The own round of a paper entry. -/
lemma reconcileOrder_self_paper (books : MarketBooks) (now : Time) {w : ExecWorld}
    (hw : w.state.Linked) {o : Order} (hget : w.state.orders.get? e = some o)
    (hkind : o.orderKind = .entry) (hpaper : o.isPaper = true) :
    Meets Alone (fun _ _ => True) (fun _ w' => BooksApplied cfg books e o now w')
      (reconcileOrder cfg books now e) w := by
  suffices hround : Meets Alone (fun _ _ => True) (fun _ w' => ∃ o',
      w'.state.orders.get? e = some o' ∧ Order.SameLedger (o.afterBooks cfg books now) o')
      (reconcileOrder cfg books now e) w from
    ((reconcileOrder_linked books now e hw).and hround).imp fun _ _ h => h
  have hskip : ¬ (o.status = .placed ∨ o.status = .partiallyFilled) →
      o.afterBooks cfg books now = o := by
    intro h
    rw [Order.afterBooks]
    cases books o.marketId <;> simp [h]
  apply Meets.get_bind trivial
  simp only [hget, hkind]
  split_ifs with hfinal
  · refine ⟨o, hget, ?_⟩
    rw [hskip]
    · exact .refl o
    · rintro (h | h) <;> rw [h] at hfinal <;> cases hfinal
  rw [reconcileEntry, if_neg (by simp [hpaper])]
  split_ifs with hopen
  · cases hdata : books o.marketId with
    | none =>
      refine ⟨o, hget, ?_⟩
      simp only [Order.afterBooks, hdata]
      exact .refl o
    | some data =>
      have heffects : Effects cfg w.state (reconcilePaperEntry cfg data now e o w.state).2 :=
        reconcilePaperEntry_effects hw.accounted hget hkind hopen.2
      obtain ⟨o', ho', hsame⟩ := reconcilePaperEntry_self hw hget hkind hopen.2 hdata now
      have hkind' : o'.orderKind = .entry :=
        hsame.terms.orderKind.trans ((o.afterBooks_terms cfg books now).orderKind.trans hkind)
      refine .modifyGet_bind trivial ⟨trivial, ?_⟩
      obtain ⟨o'', ho'', hsame'⟩ := (armDeferred_armings cfg now e _).keepsLedger
        ((heffects.linked hw).notMem ho' hkind' e) o' ho'
      exact ⟨o'', ho'', hsame.trans hsame'⟩
  · rw [hskip fun h => hopen ⟨hpaper, h⟩]
    exact ⟨trivial, (armDeferred_armings cfg now e _).keepsLedger (hw.notMem hget hkind e) o hget⟩

/-- One pass over all orders, as it concerns a paper entry. -/
theorem reconcileOrders_paperEntry (cfg : Config) (books : MarketBooks) (now : Time) {w : ExecWorld}
    (hw : w.state.Linked) {o : Order} (hget : w.state.orders.get? e = some o)
    (hkind : o.orderKind = .entry) (hpaper : o.isPaper = true) (ω : Oracle Request Reply) :
    BooksApplied cfg books e o now (w.after ((reconcileOrders cfg books now).run ω w.state)) := by
  refine reconcileOrders_around hw hget hkind ?_ ?_ ?_ ω
  · intro w' o' hw' ho' hsame
    refine (reconcileOrder_self_paper books now hw'.linked ho'
      (hsame.terms.orderKind.trans hkind) (hsame.terms.isPaper.trans hpaper)).imp ?_
    rintro _ w'' ⟨hlinked, o'', ho'', hsame'⟩
    exact ⟨hlinked, o'', ho'', (hsame.afterBooks books now).trans hsame'⟩
  · rintro w' ⟨hlinked, o', ho', hsame⟩
    exact ⟨hlinked, o', ho',
      hsame.terms.orderKind.trans ((o.afterBooks_terms cfg books now).orderKind.trans hkind)⟩
  · rintro w' w'' ⟨-, o', ho', hsame⟩ hw''
    obtain ⟨o'', ho'', hsame'⟩ := hw''.ledger o' ho'
    exact ⟨hw''.linked, o'', ho'', hsame.trans hsame'⟩

/-! ### Brackets are listed for good -/

/-- An entry that has a bracket keeps it, with its terms. -/
lemma Effect.keepsBracket (h : Effect cfg s s') {o : Order} (hget : s.orders.get? e = some o)
    (hids : o.bracketOrderIds ≠ []) :
    ∃ o', s'.orders.get? e = some o' ∧ Order.SameTerms o o' ∧
      o'.bracketOrderIds = o.bracketOrderIds := by
  have hmodify : ∀ {j : OrderId} {f : Order → Order}, (∀ x, s.orders.get? j = some x →
      Order.SameTerms x (f x) ∧ (f x).bracketOrderIds = x.bracketOrderIds) →
      ∃ o', (s.modifyOrder j f).orders.get? e = some o' ∧ Order.SameTerms o o' ∧
        o'.bracketOrderIds = o.bracketOrderIds :=
    fun hf => Executor.exists_modifyOrder hget
      (R := fun x x' => Order.SameTerms x x' ∧ x'.bracketOrderIds = x.bracketOrderIds)
      ⟨.refl o, rfl⟩ (hf o)
  cases h with
  | bookkeeping _ horders hid => exact ⟨o, horders ▸ hget, .refl o, rfl⟩
  | insert mk hnew hpaper =>
    exact ⟨o, Executor.get?_insertOrder_of_some hget mk, .refl o, rfl⟩
  | touch j f htouch => exact hmodify fun x hx => ⟨(htouch x hx).terms, (htouch x hx).bracketOrderIds⟩
  | withdraw j x status hx hopen hstatus =>
    exact hmodify fun x _ => ⟨by constructor <;> rfl, rfl⟩
  | fill j x size p now hx hkind hopen =>
    exact hmodify fun x _ => ⟨x.applyFill_sameTerms _ _ _, x.applyFill_bracketOrderIds _ _ _⟩
  | refresh parentId parent hparent hkind =>
    rw [get?_syncChildSizes, hget, Option.map_some]
    refine ⟨_, rfl, ?_⟩
    split_ifs
    · exact ⟨Order.resized_terms _ o, Order.resized_bracketOrderIds _ o⟩
    · exact ⟨.refl o, rfl⟩
  | create parentId parent spec now hparent hkind hnone hfill =>
    rw [get?_createBrackets_of_some spec now hparent hget]
    split_ifs with he
    · subst he
      rw [hget, Option.some.injEq] at hparent
      exact absurd (hparent ▸ hnone) hids
    · exact ⟨o, rfl, .refl o, rfl⟩
  | trigger data now j x hx hkind harmed =>
    rw [get?_triggerChild hx]
    split_ifs with he
    · subst he
      rw [hget, Option.some.injEq] at hx
      subst hx
      refine ⟨_, rfl, (o.applyFill_sameTerms _ _ _).trans (besideTriggered_terms _ _ _), ?_⟩
      rw [besideTriggered_bracketOrderIds, Order.exitFill, Order.applyFill_bracketOrderIds]
    · rw [hget]
      exact ⟨_, rfl, besideTriggered_terms _ _ _, besideTriggered_bracketOrderIds _ _ o⟩

lemma Changes.keepsBracket (h : Changes cfg s s') (hs : s.Accounted) {o : Order}
    (hget : s.orders.get? e = some o) (hids : o.bracketOrderIds ≠ []) :
    ∃ o', s'.orders.get? e = some o' ∧ Order.SameTerms o o' ∧
      o'.bracketOrderIds = o.bracketOrderIds := by
  have heffects : ∀ {s s'}, Effects cfg s s' → ∀ {o : Order}, s.orders.get? e = some o →
      o.bracketOrderIds ≠ [] → ∃ o', s'.orders.get? e = some o' ∧ Order.SameTerms o o' ∧
        o'.bracketOrderIds = o.bracketOrderIds := by
    intro s s' h o hget hids
    induction h with
    | refl => exact ⟨o, hget, .refl o, rfl⟩
    | tail _ hstep ih =>
      obtain ⟨o', ho', hterms, hids'⟩ := ih
      obtain ⟨o'', ho'', hterms', hids''⟩ := hstep.keepsBracket ho' (hids' ▸ hids)
      exact ⟨o'', ho'', hterms.trans hterms', hids''.trans hids'⟩
  induction h with
  | refl => exact ⟨o, hget, .refl o, rfl⟩
  | tail hpre hstep ih =>
    obtain ⟨o', ho', hterms, hids'⟩ := ih
    obtain ⟨o'', ho'', hterms', hids''⟩ :=
      heffects (hstep.effects (Changes.conserves hpre hs).accounted) ho' (hids' ▸ hids)
    exact ⟨o'', ho'', hterms.trans hterms', hids''.trans hids'⟩

/-! ### What fills an entry that has a bracket -/

/-- Placing, cancelling and closing fill no entry that has a bracket. -/
lemma Command.keepsFilled (h : Command cfg s s') {o : Order} (hget : s.orders.get? e = some o)
    (hkind : o.orderKind = .entry) (hids : o.bracketOrderIds ≠ []) :
    ∃ o', s'.orders.get? e = some o' ∧ o'.filledSizeUsdc = o.filledSizeUsdc := by
  have hmodify : ∀ {j : OrderId} {f : Order → Order},
      (s.orders.get? j = some o → (f o).filledSizeUsdc = o.filledSizeUsdc) →
      ∃ o', (s.modifyOrder j f).orders.get? e = some o' ∧ o'.filledSizeUsdc = o.filledSizeUsdc :=
    fun hf => Executor.exists_modifyOrder hget (R := fun x x' => x'.filledSizeUsdc = x.filledSizeUsdc)
      rfl hf
  cases h with
  | cleanup now => exact ⟨o, by rwa [orders_cleanupRecentPlacements], rfl⟩
  | openEntry env req hvalid => exact ⟨o, Executor.get?_insertOrder_of_some hget _, rfl⟩
  | fillOnPlace env req id hvalid hgetId hpaper =>
    have hnone : (buildEntryOrder cfg env req id).bracketOrderIds = [] := by
      rw [buildEntryOrder_eq]
    have hne : id ≠ e := by
      rintro rfl
      rw [hget, Option.some.injEq] at hgetId
      exact hids (hgetId ▸ hnone)
    have hfill : KeepsLedger e s (s.modifyOrder id
        (·.applyFill req.sizeUsdc (limitPrice req.direction req.price) env.now)) :=
      .modifyOrder fun h => absurd h hne
    have hkeeps : KeepsLedger e s (PolyCortex.fillOnPlace cfg env req id s) := by
      rw [PolyCortex.fillOnPlace]
      split_ifs
      · dsimp only
        cases req.bracket cfg with
        | none => exact hfill
        | some spec =>
          refine hfill.trans ((armBracketOrders_armings ..).keepsLedger fun parent hparent => ?_)
          rw [Executor.get?_modifyOrder_self, hgetId, Option.map_some, Option.some.injEq] at hparent
          rw [← hparent, Order.applyFill_bracketOrderIds, hnone]
          exact List.not_mem_nil
      · exact .refl e s
    obtain ⟨o', ho', hsame⟩ := hkeeps o hget
    exact ⟨o', ho', hsame.fill.filledSizeUsdc⟩
  | persist env req => exact ⟨o, by rwa [orders_persistOrderIntent], rfl⟩
  | abandon id x hx hkind' hstatus => exact hmodify fun _ => rfl
  | acknowledgeEntry req exchangeIds id x hx hkind' => exact hmodify fun _ => rfl
  | cancelLocally id x hx hopen =>
    rw [get?_cancelLocally, hget, Option.map_some]
    refine ⟨_, rfl, ?_⟩
    rw [Order.besideCancelled]
    split_ifs <;> rfl
  | cancelConfirmed id x hx hkind' hopen =>
    rw [Executor.setBracketState, Executor.setStatus, Executor.modifyOrder_modifyOrder]
    exact hmodify fun _ => rfl
  | expire id x hx harmed => exact hmodify fun _ => rfl
  | openExit env req hsize => exact ⟨o, Executor.get?_insertOrder_of_some hget _, rfl⟩
  | fillExit env req id hsize hgetId hpaper =>
    refine hmodify fun hget' => ?_
    rw [hgetId, Option.some.injEq] at hget'
    rw [← hget', buildExitOrder_eq] at hkind
    cases hkind
  | acknowledgeExit id exchangeId x hx hkind' => exact hmodify fun _ => rfl

lemma Commands.keepsFilled (h : Commands cfg s s') (hs : s.Accounted) {o : Order}
    (hget : s.orders.get? e = some o) (hkind : o.orderKind = .entry)
    (hids : o.bracketOrderIds ≠ []) :
    ∃ o', s'.orders.get? e = some o' ∧ o'.filledSizeUsdc = o.filledSizeUsdc := by
  induction h with
  | refl => exact ⟨o, hget, rfl⟩
  | tail hpre hstep ih =>
    obtain ⟨x, hx, hfilled⟩ := ih
    obtain ⟨x', hx', hterms, hids'⟩ := (Commands.changes hpre).keepsBracket hs hget hids
    rw [hx, Option.some.injEq] at hx'
    subst hx'
    obtain ⟨o', ho', hfilled'⟩ := hstep.keepsFilled hx (hterms.orderKind.trans hkind) (hids' ▸ hids)
    exact ⟨o', ho', hfilled'.trans hfilled⟩

/-- The call adds nothing to the fill of the entry `e`: where it reconciles, the entry is final, or
the book does not reach its limit, or the exchange reports no more than it has filled. -/
def AddsNothing (cfg : Config) (e : OrderId) (w : ExecWorld) (i : Invocation) : Prop :=
  ∀ books, i.call.op = .reconcileOrders books → ∀ o, w.state.orders.get? e = some o →
    o.status.isFinal = false →
      (o.isPaper = true → ∀ data, books o.marketId = some data → isMarketable cfg data o = true →
        paperFillSize cfg o ≤ 0) ∧
      (o.isPaper = false →
        totalFilled (reportedRows e (i.outcome cfg w.state).trace) ≤ o.filledSizeUsdc)

lemma Order.afterBooks_filled {books : MarketBooks} {now : Time} {o : Order}
    (h : o.status.isFinal = false → ∀ data, books o.marketId = some data →
      isMarketable cfg data o = true → paperFillSize cfg o ≤ 0) :
    (o.afterBooks cfg books now).filledSizeUsdc = o.filledSizeUsdc := by
  rw [afterBooks]
  cases hdata : books o.marketId with
  | none => rfl
  | some data =>
    dsimp only
    split_ifs with hfills
    · obtain ⟨hopen, hmarket⟩ := hfills
      have hfinal : o.status.isFinal = false := by
        rcases hopen with h | h <;> rw [h] <;> rfl
      rw [paperFill, applyFill_of_nonpos]
      exact (min_le_left _ _).trans (h hfinal data hdata hmarket)
    · rfl

lemma Order.afterRows_filled {rows : List StatusRow} {now : Time} {o : Order}
    (h : totalFilled rows ≤ o.filledSizeUsdc) :
    (o.afterRows rows now).filledSizeUsdc = o.filledSizeUsdc := by
  have hdelta : ¬ 0 < deltaFilled o rows := by
    rw [deltaFilled, max_eq_right (sub_nonpos.mpr h)]
    exact lt_irrefl 0
  rw [afterRows, liveFill, if_neg hdelta]
  split_ifs
  · rfl
  · rcases liveStatus_cases rows o with h | ⟨_, _, h | h⟩ <;> rw [h]

/-- A call that adds nothing leaves the fill of an entry with a bracket as it is. -/
lemma Invocation.perform_keepsFilled {w : ExecWorld} (hw : w.state.Linked) {o : Order}
    (hget : w.state.orders.get? e = some o) (hkind : o.orderKind = .entry)
    (hids : o.bracketOrderIds ≠ []) (i : Invocation) (hadds : AddsNothing cfg e w i) :
    ∃ o', (i.perform cfg w).state.orders.get? e = some o' ∧
      o'.filledSizeUsdc = o.filledSizeUsdc := by
  obtain ⟨⟨op, env⟩, answers⟩ := i
  by_cases hop : ∃ books, op = .reconcileOrders books
  swap
  · have hcommands : Commands cfg w.state (Invocation.perform cfg w ⟨⟨op, env⟩, answers⟩).state :=
      ((Call.byCommands cfg ⟨op, env⟩ w (not_exists.mp hop)).run alone_refl (fun _ => .refl) .trans
        answers).1
    exact hcommands.keepsFilled hw.accounted hget hkind hids
  obtain ⟨books, rfl⟩ := hop
  have hreported : reportedRows e (Invocation.outcome cfg
      ⟨⟨.reconcileOrders books, env⟩, answers⟩ w.state).trace =
      reportedRows e ((reconcileOrders cfg books env.now).run answers w.state).trace :=
    congrArg (fun o : Outcome Executor Request Reply OpResult => reportedRows e o.trace)
      (run_map (reconcileOrders cfg books env.now) OpResult.events answers w.state)
  rw [Invocation.perform_reconcileOrders]
  cases hpaper : o.isPaper with
  | true =>
    obtain ⟨_, o', ho', hsame⟩ :=
      reconcileOrders_paperEntry cfg books env.now hw hget hkind hpaper answers
    refine ⟨o', ho', hsame.fill.filledSizeUsdc.trans (Order.afterBooks_filled fun hopen => ?_)⟩
    exact (hadds books rfl o hget hopen).1 hpaper
  | false =>
    obtain ⟨_, rows, htrace, _, hfinal, o', ho', hsame⟩ :=
      reconcileOrders_liveEntry cfg books env.now hw hget hkind hpaper answers
    refine ⟨o', ho', hsame.fill.filledSizeUsdc.trans ?_⟩
    cases hopen : o.status.isFinal with
    | true => simp [hfinal hopen, Order.afterRows]
    | false =>
      have hrows := (hadds books rfl o hget hopen).2 hpaper
      rw [hreported] at hrows
      simp only [World.after_trace, reportedRows_append, List.append_cancel_left_eq] at htrace
      exact Order.afterRows_filled (htrace ▸ hrows)

/-! ### After the exit -/

/-- A child of the entry `e` has been filled. -/
def Executor.Exited (s : Executor) (e : OrderId) : Prop :=
  ∃ entry c child, s.orders.get? e = some entry ∧ entry.orderKind = .entry ∧
    c ∈ entry.bracketOrderIds ∧ s.orders.get? c = some child ∧ child.status = .filled

/-- After the exit an entry is not filled any more, as long as the calls add nothing to its
fill. -/
theorem runAll_exited_keeps_filled (cfg : Config) (pre rest : List Invocation) (e : OrderId)
    (hexited : (runAll cfg pre).state.Exited e)
    (hsteps : InvocationsMeet cfg (AddsNothing cfg e) (runAll cfg pre) rest) :
    ∃ entry entry', (runAll cfg pre).state.orders.get? e = some entry ∧
      (runAll cfg (pre ++ rest)).state.orders.get? e = some entry' ∧
      entry'.filledSizeUsdc = entry.filledSizeUsdc := by
  obtain ⟨entry, c, _, hget, hkind, hc, _⟩ := hexited
  rw [runAll_append]
  have hend := hsteps.induction (I := fun w => w.state.Linked ∧ ∃ o, w.state.orders.get? e = some o ∧
      o.orderKind = .entry ∧ o.bracketOrderIds ≠ [] ∧ o.filledSizeUsdc = entry.filledSizeUsdc)
    ⟨runAll_linked cfg pre, entry, hget, hkind, List.ne_nil_of_mem hc, rfl⟩ ?_
  · obtain ⟨_, entry', hget', _, _, hfilled⟩ := hend
    exact ⟨entry, entry', hget, hget', hfilled⟩
  · rintro w i ⟨hw, o, ho, hentry, hids, hfilled⟩ hadds
    have hchanges := i.perform_changes cfg w
    obtain ⟨o', ho', hterms, hids'⟩ := hchanges.keepsBracket hw.accounted ho hids
    obtain ⟨x, hx, hfilled'⟩ := i.perform_keepsFilled hw ho hentry hids hadds
    rw [ho', Option.some.injEq] at hx
    subst hx
    exact ⟨hchanges.linked hw, o', ho', hterms.orderKind.trans hentry, hids' ▸ hids,
      hfilled'.trans hfilled⟩

/-- A paper pass over a book whose bid is its midpoint. -/
def midpointPass (midpoint : ℚ) (now : Time) : Invocation :=
  offline (.reconcileOrders fun _ => some { midpoint := some midpoint, bestBid := some midpoint }) now

/-- A paper entry of 10 USDC, of which 3 are filled and then sold by the take-profit. -/
def partialExit : List Invocation :=
  [offline (.placeOrder { marketId := "m", direction := .yes, sizeUsdc := 10, price := 1 / 2 }) 0,
    midpointPass (2 / 5) 1, midpointPass (9 / 10) 2]

/-- Partial fills of three tenths of the size, in passes. -/
def threeTenths : Config := { paperFillOnPlace := false, paperPartialFillRatio := 3 / 10 }

lemma partialExit_exited : (runAll threeTenths partialExit).state.Exited 0 := by
  have hentry : ((runAll threeTenths partialExit).state.orders.get? 0).any (fun o =>
      o.orderKind = .entry ∧ 2 ∈ o.bracketOrderIds) = true := by decide +kernel
  have hchild : ((runAll threeTenths partialExit).state.orders.get? 2).any (fun o =>
      o.status = .filled) = true := by decide +kernel
  obtain ⟨entry, hget, hfacts⟩ := (Option.any_eq_true _ _).mp hentry
  obtain ⟨child, hget', hfilled⟩ := (Option.any_eq_true _ _).mp hchild
  obtain ⟨hkind, hmem⟩ := of_decide_eq_true hfacts
  exact ⟨entry, 2, child, hget, hkind, hmem, hget', of_decide_eq_true hfilled⟩

/-- The theorem where the book stays above the limit of the entry. -/
theorem runAll_exited_keeps_filled_above :
    ∃ entry entry', (runAll threeTenths partialExit).state.orders.get? 0 = some entry ∧
      (runAll threeTenths (partialExit ++ [midpointPass (9 / 10) 3])).state.orders.get? 0 =
        some entry' ∧ entry'.filledSizeUsdc = entry.filledSizeUsdc := by
  apply runAll_exited_keeps_filled threeTenths partialExit _ 0 partialExit_exited
  refine ⟨?_, trivial⟩
  have hmarket : ((runAll threeTenths partialExit).state.orders.get? 0).all (fun o =>
      o.isPaper = true ∧ isMarketable threeTenths
        { midpoint := some (9 / 10), bestBid := some (9 / 10) } o = false) = true := by
    decide +kernel
  rintro books hbooks o ho _
  obtain rfl := Op.reconcileOrders.inj hbooks
  rw [ho, Option.all_some] at hmarket
  obtain ⟨hpaper, habove⟩ := of_decide_eq_true hmarket
  constructor
  · rintro _ data hdata hreached
    rw [← Option.some.inj hdata, habove] at hreached
    cases hreached
  · intro hlive
    rw [hpaper] at hlive
    cases hlive

/-- When the book comes back to the limit after the exit, the entry is filled again. -/
theorem runAll_exited_reenters :
    (runAll threeTenths partialExit).state.Exited 0 ∧
    ∃ entry entry', (runAll threeTenths partialExit).state.orders.get? 0 = some entry ∧
      (runAll threeTenths (partialExit ++ [midpointPass (2 / 5) 3])).state.orders.get? 0 =
        some entry' ∧ entry.filledSizeUsdc = 3 ∧ entry'.filledSizeUsdc = 6 := by
  refine ⟨partialExit_exited, ?_⟩
  have hbefore : ((runAll threeTenths partialExit).state.orders.get? 0).any (fun o =>
      o.filledSizeUsdc = 3) = true := by decide +kernel
  have hafter : ((runAll threeTenths (partialExit ++ [midpointPass (2 / 5) 3])).state.orders.get?
      0).any (fun o => o.filledSizeUsdc = 6) = true := by decide +kernel
  obtain ⟨entry, hget, hfilled⟩ := (Option.any_eq_true _ _).mp hbefore
  obtain ⟨entry', hget', hfilled'⟩ := (Option.any_eq_true _ _).mp hafter
  exact ⟨entry, entry', hget, hget', of_decide_eq_true hfilled, of_decide_eq_true hfilled'⟩

end PolyCortex
