import PolyCortex.Execution.Brackets

/-!
# A live entry in a reconciliation pass

`reconcileOrders_liveEntry` says what one pass does to the ledger of a live entry: it is the
entry's own round that matters, and that round applies the rows the exchange has reported for the
entry. The other rounds may open, resize and trigger brackets, but they leave the ledger alone.
-/

namespace PolyCortex

open Coroutine Relation

variable {cfg : Config} {s s' : Executor} {e id : OrderId}

/-! ### Links -/

/-- The children an entry lists are bracket orders. -/
structure Executor.Linked (s : Executor) : Prop where
  accounted : s.Accounted
  listed : ∀ e entry c, s.orders.get? e = some entry → c ∈ entry.bracketOrderIds →
    ∃ o, s.orders.get? c = some o ∧ o.orderKind.isBracket = true

/-- So no order lists an entry. -/
lemma Executor.Linked.notMem (hs : s.Linked) {o : Order} (hget : s.orders.get? e = some o)
    (hkind : o.orderKind = .entry) (id : OrderId) (parent : Order)
    (hparent : s.orders.get? id = some parent) : e ∉ parent.bracketOrderIds := by
  intro hmem
  obtain ⟨o', ho', hbracket⟩ := hs.listed id parent e hparent hmem
  rw [hget, Option.some.injEq] at ho'
  rw [← ho', hkind] at hbracket
  cases hbracket

/-- A listed child was listed before, or it is the child of a new bracket. -/
lemma Effect.listed (h : Effect cfg s s') {c : OrderId} {entry' : Order}
    (hentry' : s'.orders.get? e = some entry') (hc : c ∈ entry'.bracketOrderIds) :
    (∃ entry, s.orders.get? e = some entry ∧ c ∈ entry.bracketOrderIds) ∨
      ∃ o, s'.orders.get? c = some o ∧ o.orderKind.isBracket = true := by
  have hmodify : ∀ {j : OrderId} {f : Order → Order},
      (∀ o, s.orders.get? j = some o → (f o).bracketOrderIds = o.bracketOrderIds) →
      (s.modifyOrder j f).orders.get? e = some entry' →
      ∃ entry, s.orders.get? e = some entry ∧ c ∈ entry.bracketOrderIds := by
    intro j f hf hentry'
    rw [Executor.get?_modifyOrder] at hentry'
    split_ifs at hentry' with hj
    · obtain ⟨entry, hentry, rfl⟩ := Option.map_eq_some_iff.mp hentry'
      exact ⟨entry, hj ▸ hentry, hf entry hentry ▸ hc⟩
    · exact ⟨entry', hentry', hc⟩
  cases h with
  | bookkeeping _ horders hid => exact Or.inl ⟨entry', horders ▸ hentry', hc⟩
  | insert mk hnew hpaper =>
    rw [Executor.get?_insertOrder] at hentry'
    split_ifs at hentry' with he
    · rw [← Option.some.inj hentry', (hnew _).bracketOrderIds] at hc
      cases hc
    · exact Or.inl ⟨entry', hentry', hc⟩
  | touch j f htouch => exact Or.inl (hmodify (fun o ho => (htouch o ho).bracketOrderIds) hentry')
  | withdraw j o status hget hopen hstatus =>
    exact Or.inl (hmodify (f := fun o => { o with status }) (fun _ _ => rfl) hentry')
  | fill j o x p now hget hkind hopen =>
    exact Or.inl (hmodify (fun o _ => o.applyFill_bracketOrderIds x p now) hentry')
  | refresh parentId o hget hkind =>
    rw [get?_syncChildSizes] at hentry'
    obtain ⟨entry, hentry, rfl⟩ := Option.map_eq_some_iff.mp hentry'
    refine Or.inl ⟨entry, hentry, ?_⟩
    split_ifs at hc
    · rwa [Order.resized_bracketOrderIds] at hc
    · exact hc
  | create parentId o spec now hget hkind hnone hfill =>
    rcases createBrackets_cases spec now hget hentry' with ⟨_, hnew⟩ | ⟨rfl, rfl⟩ | ⟨_, hold⟩
    · rw [hnew.bracketOrderIds] at hc
      cases hc
    · refine Or.inr ?_
      simp only [Order.withBracket, List.mem_cons, List.not_mem_nil, or_false] at hc
      rcases hc with rfl | rfl
      · refine ⟨takeProfitOrder o spec now s.nextId (s.nextId + 1), ?_,
          (takeProfitOrder_new ..).kind⟩
        simp [get?_createBrackets spec now hget]
      · refine ⟨stopLossOrder o spec now s.nextId (s.nextId + 2), ?_, (stopLossOrder_new ..).kind⟩
        simp [get?_createBrackets spec now hget]
    · exact Or.inl ⟨entry', hold, hc⟩
  | trigger data now j o hget hkind harmed =>
    rw [get?_triggerChild hget] at hentry'
    obtain ⟨x, hx, rfl⟩ := Option.map_eq_some_iff.mp hentry'
    rw [besideTriggered_bracketOrderIds] at hc
    split_ifs at hx with he
    · rw [← Option.some.inj hx, Order.exitFill, Order.applyFill_bracketOrderIds] at hc
      exact Or.inl ⟨o, he ▸ hget, hc⟩
    · exact Or.inl ⟨x, hx, hc⟩

lemma Effects.linked (h : Effects cfg s s') (hs : s.Linked) : s'.Linked := by
  induction h with
  | refl => exact hs
  | tail _ hstep ih =>
    refine ⟨(hstep.conserves ih.accounted).accounted, fun e entry c hentry hc => ?_⟩
    rcases hstep.listed hentry hc with ⟨entry, hentry, hc⟩ | hnew
    · obtain ⟨o, ho, hbracket⟩ := ih.listed e entry c hentry hc
      obtain ⟨o', ho', hterms, _⟩ := hstep.follows c o ho
      exact ⟨o', ho', hterms.orderKind ▸ hbracket⟩
    · exact hnew

lemma Changes.linked (h : Changes cfg s s') (hs : s.Linked) : s'.Linked := by
  induction h with
  | refl => exact hs
  | tail _ hstep ih => exact (hstep.effects ih.accounted).linked ih

lemma Executor.linked_init : Executor.init.Linked :=
  ⟨Executor.accounted_init, by rintro e entry c ⟨⟩⟩

lemma runAll_linked (cfg : Config) (run : List Invocation) : (runAll cfg run).state.Linked :=
  Changes.linked (runFrom_changes cfg ⟨.init, []⟩ run) Executor.linked_init

/-! ### Ledgers -/

/-- The ledger of an order: what it was placed for, its fills, its status and exchange orders. -/
structure Order.SameLedger (o o' : Order) : Prop where
  terms : Order.SameTerms o o'
  fill : Order.SameFill o o'
  status : o'.status = o.status
  exchangeOrderIds : o'.exchangeOrderIds = o.exchangeOrderIds

lemma Order.SameLedger.refl (o : Order) : Order.SameLedger o o := by
  constructor
  · exact .refl o
  · exact .refl o
  · rfl
  · rfl

lemma Order.SameLedger.trans {o₁ o₂ o₃ : Order} (h : Order.SameLedger o₁ o₂)
    (h' : Order.SameLedger o₂ o₃) : Order.SameLedger o₁ o₃ := by
  constructor
  · exact h.terms.trans h'.terms
  · exact h.fill.trans h'.fill
  · exact h'.status.trans h.status
  · exact h'.exchangeOrderIds.trans h.exchangeOrderIds

/-- From `s` to `s'` the ledger of the order `e` stays as it is. -/
def Executor.KeepsLedger (e : OrderId) (s s' : Executor) : Prop :=
  ∀ o, s.orders.get? e = some o → ∃ o', s'.orders.get? e = some o' ∧ Order.SameLedger o o'

namespace Executor.KeepsLedger

lemma refl (e : OrderId) (s : Executor) : KeepsLedger e s s := fun o ho => ⟨o, ho, .refl o⟩

lemma trans {s'' : Executor} (h : KeepsLedger e s s') (h' : KeepsLedger e s' s'') :
    KeepsLedger e s s'' := by
  intro o ho
  obtain ⟨o', ho', hsame⟩ := h o ho
  obtain ⟨o'', ho'', hsame'⟩ := h' o' ho'
  exact ⟨o'', ho'', hsame.trans hsame'⟩

lemma modifyOrder {f : Order → Order} (hf : id = e → ∀ o, Order.SameLedger o (f o)) :
    KeepsLedger e s (s.modifyOrder id f) := by
  intro o ho
  by_cases hid : id = e
  · refine ⟨f o, ?_, hf hid o⟩
    simp [hid, ho]
  · refine ⟨o, ?_, .refl o⟩
    rw [get?_modifyOrder_of_ne s (Ne.symm hid), ho]

end Executor.KeepsLedger

open Executor (KeepsLedger)

lemma setBracketState_keepsLedger (id : OrderId) (state : BracketState) :
    KeepsLedger e s (s.setBracketState id state) := by
  apply KeepsLedger.modifyOrder
  intro _ o
  constructor
  · constructor <;> rfl
  · constructor <;> rfl
  · rfl
  · rfl

/-- A step of arming changes the ledger of no order but the children it resizes, and lists no
existing order as a child. -/
lemma Arming.keepsLedger {o : Order} (h : Arming id s s') (hget : s.orders.get? e = some o)
    (hlisted : ∀ parent, s.orders.get? id = some parent → e ∉ parent.bracketOrderIds) :
    KeepsLedger e s s' ∧
      ∀ parent, s'.orders.get? id = some parent → e ∉ parent.bracketOrderIds := by
  have hassign : ∀ f : Order → Order, (∀ o, (f o).bracketOrderIds = o.bracketOrderIds) →
      ∀ parent, (s.modifyOrder id f).orders.get? id = some parent →
        e ∉ parent.bracketOrderIds := by
    intro f hf parent hparent
    rw [Executor.get?_modifyOrder_self, Option.map_eq_some_iff] at hparent
    obtain ⟨parent', hparent', rfl⟩ := hparent
    rw [hf]
    exact hlisted parent' hparent'
  cases h with
  | levels takeProfit stopLoss =>
    refine ⟨KeepsLedger.modifyOrder ?_, hassign _ fun o => rfl⟩
    intro _ o
    constructor
    · constructor <;> rfl
    · constructor <;> rfl
    · rfl
    · rfl
  | state state => exact ⟨setBracketState_keepsLedger id state, hassign _ fun o => rfl⟩
  | refresh parent hparent hkind =>
    constructor
    · intro o' ho'
      refine ⟨o', ?_, .refl o'⟩
      simp [get?_syncChildSizes, ho', hlisted parent hparent]
    · intro parent' hparent'
      rw [get?_syncChildSizes, hparent, Option.map_some, Option.some.injEq] at hparent'
      subst hparent'
      split_ifs
      · simpa using hlisted parent hparent
      · exact hlisted parent hparent
  | create spec now parent hparent hkind hnone =>
    constructor
    · intro o' ho'
      rw [get?_createBrackets_of_some spec now hparent ho']
      split_ifs with he
      · subst he
        rw [hparent, Option.some.injEq] at ho'
        subst ho'
        refine ⟨_, rfl, ?_⟩
        constructor
        · constructor <;> rfl
        · constructor <;> rfl
        · rfl
        · rfl
      · exact ⟨o', rfl, .refl o'⟩
    · intro parent' hparent'
      obtain ⟨htp, hsl⟩ := Executor.ne_bracketIds hget
      rw [get?_createBrackets_self spec now hparent, Option.some.injEq] at hparent'
      subst hparent'
      simp [Order.withBracket, htp, hsl]

lemma Armings.keepsLedger (h : Armings id s s')
    (hlisted : ∀ parent, s.orders.get? id = some parent → e ∉ parent.bracketOrderIds) :
    KeepsLedger e s s' := by
  intro o ho
  have hboth : KeepsLedger e s s' ∧
      ∀ parent, s'.orders.get? id = some parent → e ∉ parent.bracketOrderIds := by
    induction h with
    | refl => exact ⟨.refl e s, hlisted⟩
    | tail _ hstep ih =>
      obtain ⟨hkeeps, hlisted'⟩ := ih
      obtain ⟨o', ho', _⟩ := hkeeps o ho
      obtain ⟨hkeeps', hlisted''⟩ := hstep.keepsLedger ho' hlisted'
      exact ⟨hkeeps.trans hkeeps', hlisted''⟩
  exact hboth.1 o ho

/-! ### The rows of a pass -/

/-- An entry after the rows of a pass: the fills first, then the statuses. -/
def Order.afterRows (rows : List StatusRow) (now : Time) (o : Order) : Order :=
  if rows = [] then o else (o.liveFill rows now).liveStatus rows

lemma Order.liveFill_terms (rows : List StatusRow) (now : Time) (o : Order) :
    Order.SameTerms o (o.liveFill rows now) ∧
      (o.liveFill rows now).bracketOrderIds = o.bracketOrderIds := by
  unfold liveFill
  split_ifs
  · exact ⟨applyFill_sameTerms .., applyFill_bracketOrderIds ..⟩
  · exact ⟨.refl o, rfl⟩

lemma Order.afterRows_terms (rows : List StatusRow) (now : Time) (o : Order) :
    Order.SameTerms o (o.afterRows rows now) ∧
      (o.afterRows rows now).bracketOrderIds = o.bracketOrderIds := by
  obtain ⟨hterms, hids⟩ := o.liveFill_terms rows now
  unfold afterRows
  split_ifs
  · exact ⟨.refl o, rfl⟩
  · rcases liveStatus_cases rows (o.liveFill rows now) with h | ⟨_, _, h | h⟩
    · rw [h]
      exact ⟨hterms, hids⟩
    · rw [h]
      exact ⟨hterms.trans (by constructor <;> rfl), hids⟩
    · rw [h]
      exact ⟨hterms.trans (by constructor <;> rfl), hids⟩

/-- What the rows do depends on the ledger only. -/
lemma Order.SameLedger.applyFill {o o' : Order} (h : Order.SameLedger o o') (x p : ℚ)
    (now : Time) : Order.SameLedger (o.applyFill x p now) (o'.applyFill x p now) := by
  have haccepted : o'.acceptedFill x = o.acceptedFill x := by
    simp only [acceptedFill, h.fill.remainingSizeUsdc]
  have hremaining : o'.remainingAfter x = o.remainingAfter x := by
    simp only [remainingAfter, haccepted, h.fill.sizeUsdc, h.fill.filledSizeUsdc]
  have haverage : o'.averageWith (o.acceptedFill x) p = o.averageWith (o.acceptedFill x) p := by
    simp only [averageWith, h.fill.averageFillPrice, h.fill.filledSizeUsdc]
  have hterms : Order.SameTerms (o.applyFill x p now) (o'.applyFill x p now) :=
    (o.applyFill_sameTerms x p now).symm.trans (h.terms.trans (o'.applyFill_sameTerms x p now))
  by_cases hpos : 0 < o.acceptedFill x
  · have hpos' : 0 < o'.acceptedFill x := haccepted ▸ hpos
    refine ⟨hterms, ?_, ?_, ?_⟩
    · rw [applyFill_of_pos hpos, applyFill_of_pos hpos']
      constructor
      · exact h.fill.sizeUsdc
      · simp only [haccepted, h.fill.filledSizeUsdc]
      · simp only [hremaining]
      · simp only [haccepted, haverage]
    · rw [applyFill_of_pos hpos, applyFill_of_pos hpos']
      simp only [hremaining]
    · rw [applyFill_of_pos hpos, applyFill_of_pos hpos']
      exact h.exchangeOrderIds
  · have hpos' : ¬ 0 < o'.acceptedFill x := haccepted ▸ hpos
    rw [applyFill_of_nonpos (not_lt.mp hpos), applyFill_of_nonpos (not_lt.mp hpos')]
    exact h

lemma Order.SameLedger.withStatus {o o' : Order} (h : Order.SameLedger o o')
    (status : OrderStatus) : Order.SameLedger { o with status } { o' with status } := by
  obtain ⟨hterms, hfill, _, hids⟩ := h
  refine ⟨?_, ?_, rfl, hids⟩
  · obtain ⟨⟩ := hterms
    constructor <;> assumption
  · obtain ⟨⟩ := hfill
    constructor <;> assumption

lemma Order.SameLedger.afterRows {o o' : Order} (h : Order.SameLedger o o')
    (rows : List StatusRow) (now : Time) :
    Order.SameLedger (o.afterRows rows now) (o'.afterRows rows now) := by
  have hdelta : deltaFilled o' rows = deltaFilled o rows := by
    simp only [deltaFilled, h.fill.filledSizeUsdc]
  have hprice : lastPrice o' rows = lastPrice o rows := by
    simp only [lastPrice, activePrice, h.fill.averageFillPrice, h.terms.price]
  have hfill : Order.SameLedger (o.liveFill rows now) (o'.liveFill rows now) := by
    simp only [liveFill, hdelta, hprice]
    split_ifs
    · exact h.applyFill _ _ _
    · exact h
  simp only [Order.afterRows, liveStatus, hfill.status]
  split_ifs
  · exact h
  · exact hfill
  · exact hfill.withStatus .cancelled
  · exact hfill.withStatus .expired
  · exact hfill

/-! ### The rounds of other orders -/

lemma reconcilePaperEntry_keepsLedger {data : MarketData} {now : Time} {o : Order} (hid : id ≠ e)
    (hget : s.orders.get? id = some o) (hlisted : e ∉ o.bracketOrderIds) :
    KeepsLedger e s (reconcilePaperEntry cfg data now id o s).2 := by
  unfold reconcilePaperEntry
  have hfill : KeepsLedger e s (s.modifyOrder id fun _ => o.paperFill cfg data now) :=
    .modifyOrder fun h => absurd h hid
  dsimp only
  split_ifs
  · refine hfill.trans
        ((armDefaultBrackets_armings cfg now id _).keepsLedger fun parent hparent => ?_)
    rw [Executor.get?_modifyOrder_self, hget, Option.map_some, Option.some.injEq] at hparent
    rwa [← hparent, Order.paperFill, Order.applyFill_bracketOrderIds]
  · exact hfill
  · exact .refl e s

lemma applyStatusRows_keepsLedger {rows : List StatusRow} {now : Time} (hid : id ≠ e)
    (hlisted : ∀ parent, s.orders.get? id = some parent → e ∉ parent.bracketOrderIds) :
    KeepsLedger e s (applyStatusRows cfg now id rows s).2 := by
  unfold applyStatusRows
  cases hget : s.orders.get? id with
  | none => exact .refl e s
  | some o =>
    have hfill : KeepsLedger e s (s.modifyOrder id fun _ => (o.liveFill rows now).liveStatus rows) :=
      .modifyOrder fun h => absurd h hid
    dsimp only
    split_ifs with hrows
    · exact .refl e s
    · refine hfill.trans
        ((armDefaultBrackets_armings cfg now id _).keepsLedger fun parent hparent => ?_)
      rw [Executor.get?_modifyOrder_self, hget, Option.map_some, Option.some.injEq] at hparent
      have hids := (o.afterRows_terms rows now).2
      rw [Order.afterRows, if_neg hrows] at hids
      rw [← hparent, hids]
      exact hlisted o hget
    · exact hfill

/-- A child that is triggered or expires leaves the ledger of an entry alone. -/
lemma reconcileChild_keepsLedger {data : MarketData} {now : Time} {o entry : Order} (hid : id ≠ e)
    (hget : s.orders.get? id = some o) (hentry : s.orders.get? e = some entry)
    (hopen : entry.status ≠ .armed) : KeepsLedger e s (reconcileChild data now id o s).2 := by
  unfold reconcileChild
  split_ifs
  · exact .refl e s
  · unfold expireChild setParentBracketState
    have hexpire : KeepsLedger e s (s.setStatus id .expired) :=
      .modifyOrder fun h => absurd h hid
    cases o.parentOrderId with
    | none => exact hexpire
    | some parentId => exact hexpire.trans (setBracketState_keepsLedger parentId .expired)
  · intro o' ho'
    rw [hentry, Option.some.injEq] at ho'
    subst ho'
    rw [get?_triggerChild hget, if_neg (Ne.symm hid), hentry]
    refine ⟨_, rfl, ?_⟩
    have hsibling : ∀ x : Order, x.status = entry.status →
        isOcoSibling (o.exitFill data now) x = false := by
      intro x hx
      rw [Bool.eq_false_iff, ne_eq, isOcoSibling_iff]
      rintro ⟨_, _, _, harmed⟩
      exact hopen (hx ▸ harmed)
    unfold Order.besideTriggered
    split_ifs with hparent
    · simp only [hsibling { entry with bracketState := .closed } rfl]
      constructor
      · constructor <;> rfl
      · constructor <;> rfl
      · rfl
      · rfl
    · simp only [hsibling entry rfl]
      exact .refl entry
  · exact .refl e s

/-- The rows of an entry are applied to its ledger; arming its bracket adds nothing to that. -/
lemma applyStatusRows_self (hs : s.Linked) {o : Order} (hget : s.orders.get? e = some o)
    (hkind : o.orderKind = .entry) (rows : List StatusRow) (now : Time) :
    ∃ o', (applyStatusRows cfg now e rows s).2.orders.get? e = some o' ∧
      Order.SameLedger (o.afterRows rows now) o' := by
  unfold applyStatusRows Order.afterRows
  simp only [hget]
  by_cases hrows : rows = []
  · rw [if_pos hrows, if_pos hrows]
    exact ⟨o, hget, .refl o⟩
  rw [if_neg hrows, if_neg hrows]
  set after := (o.liveFill rows now).liveStatus rows with hafter
  have hget' : (s.modifyOrder e fun _ => after).orders.get? e = some after := by
    simp [hget]
  split_ifs
  · have hkeeps : KeepsLedger e (s.modifyOrder e fun _ => after)
        (armDefaultBrackets cfg now e (s.modifyOrder e fun _ => after)).2 := by
      refine (armDefaultBrackets_armings cfg now e _).keepsLedger fun parent hparent => ?_
      rw [hget', Option.some.injEq] at hparent
      have hids := (o.afterRows_terms rows now).2
      rw [Order.afterRows, if_neg hrows, ← hafter] at hids
      rw [← hparent, hids]
      exact hs.notMem hget hkind e o hget
    exact hkeeps after hget'
  · exact ⟨after, hget', .refl after⟩

/-! ### A pass -/

/-- The start of the rounds and the end of each: linked, and nothing reported or done for `e`. -/
structure Undisturbed (e : OrderId) (w w' : ExecWorld) : Prop where
  linked : w'.state.Linked
  ledger : KeepsLedger e w.state w'.state
  rows : reportedRows e w'.trace = reportedRows e w.trace

/-- A round keeps the links, whatever else it does. -/
lemma reconcileOrder_linked (books : MarketBooks) (now : Time) (id : OrderId) {w : ExecWorld}
    (hw : w.state.Linked) :
    Meets Alone (fun _ _ => True) (fun _ w' => w'.state.Linked)
      (reconcileOrder cfg books now id) w := by
  have hchanges : ByChanges cfg (fun _ _ => True) (reconcileOrder cfg books now id) w :=
    reconcileOrder_byChanges books now id
  exact (hchanges.reaches (fun _ => .refl) .trans).imp
    fun _ _ h => Changes.linked h.2 hw

lemma fetchStatusRows_meets (id : OrderId) (exchangeIds : List ExchangeId) (w : ExecWorld) :
    Meets Alone (fun _ _ => True) (fun rows w' => w'.state = w.state ∧
        ∃ t, w'.trace = w.trace ++ t ∧ AsksFor Request.isStatus id t ∧ rows = reportedRows id t ∧
          rows.length ≤ exchangeIds.length)
      (fetchStatusRows id exchangeIds) w :=
  (fetchStatusRows_inquires id exchangeIds).meets (fun _ _ _ => trivial) w

/-- The round of another order leaves the entry `e` undisturbed. -/
lemma reconcileOrder_undisturbed (books : MarketBooks) (now : Time) (hid : id ≠ e)
    {w : ExecWorld} (hw : w.state.Linked) {entry : Order}
    (hentry : w.state.orders.get? e = some entry) (hkind : entry.orderKind = .entry) :
    Meets Alone (fun _ _ => True) (fun _ w' => Undisturbed e w w')
      (reconcileOrder cfg books now id) w := by
  have hlisted := hw.notMem hentry hkind
  have harmed : entry.status ≠ .armed := by
    intro h
    have hbracket := (hw.accounted e entry hentry).bracket_of_armed h
    rw [hkind] at hbracket
    cases hbracket
  suffices hround : Meets Alone (fun _ _ => True) (fun _ w' => KeepsLedger e w.state w'.state ∧
      reportedRows e w'.trace = reportedRows e w.trace) (reconcileOrder cfg books now id) w from
    ((reconcileOrder_linked books now id hw).and hround).imp fun _ _ h => ⟨h.1, h.2.1, h.2.2⟩
  refine .get_bind trivial ?_
  cases hget : w.state.orders.get? id with
  | none => exact ⟨.refl e _, rfl⟩
  | some o =>
    -- after the own round the deferred arming, which concerns only `id` and its children
    have hdeferred : ∀ {α : Type} {f : List OrderLifecycleEvent → α} {w' : ExecWorld},
        Undisturbed e w w' → Meets Alone (fun _ _ => True)
          (fun _ w' => KeepsLedger e w.state w'.state ∧
            reportedRows e w'.trace = reportedRows e w.trace)
          ((modifyGet (armDeferred cfg now id)).bind fun armed => .pure (f armed)) w' := by
      intro α f w' hw'
      obtain ⟨entry', hentry', hsame⟩ := hw'.ledger entry hentry
      refine .modifyGet_bind trivial ⟨hw'.ledger.trans
        ((armDeferred_armings cfg now id _).keepsLedger ?_), hw'.rows⟩
      exact hw'.linked.notMem hentry' (hsame.terms.orderKind.trans hkind) id
    dsimp only
    cases horder : o.orderKind with
    | exit => exact ⟨.refl e _, rfl⟩
    | takeProfit =>
      dsimp only
      cases books o.marketId with
      | none => exact ⟨.refl e _, rfl⟩
      | some data => exact ⟨trivial, reconcileChild_keepsLedger hid hget hentry harmed, rfl⟩
    | stopLoss =>
      dsimp only
      cases books o.marketId with
      | none => exact ⟨.refl e _, rfl⟩
      | some data => exact ⟨trivial, reconcileChild_keepsLedger hid hget hentry harmed, rfl⟩
    | entry =>
      dsimp only
      split_ifs with hfinal
      · exact ⟨.refl e _, rfl⟩
      unfold reconcileEntry
      split_ifs with hlive hpaper
      · refine Meets.bind (Q := fun _ w' => Undisturbed e w w') ?_ fun events w' hw' =>
          hdeferred hw'
        refine (fetchStatusRows_meets id _ w).bind fun rows w' ⟨hstate, t, htrace, hasks, _⟩ => ?_
        have hget' : w'.state.orders.get? id = some o := hstate ▸ hget
        have heffects : Effects cfg w'.state (applyStatusRows cfg now id rows w'.state).2 :=
          applyStatusRows_effects hget' horder (by simpa using hfinal)
        refine ⟨trivial, heffects.linked (hstate ▸ hw), ?_, ?_⟩
        · rw [← hstate]
          exact applyStatusRows_keepsLedger hid (hstate ▸ hlisted id)
        · simp [htrace, hasks.reportedRows_of_ne hid]
      · cases books o.marketId with
        | none => exact ⟨.refl e _, rfl⟩
        | some data =>
          have heffects : Effects cfg w.state (reconcilePaperEntry cfg data now id o w.state).2 :=
            reconcilePaperEntry_effects hw.accounted hget horder hpaper.2
          refine .modifyGet_bind trivial (hdeferred ⟨heffects.linked hw, ?_, rfl⟩)
          exact reconcilePaperEntry_keepsLedger hid hget (hlisted id o hget)
      · exact ⟨trivial, (armDeferred_armings cfg now id _).keepsLedger (hlisted id), rfl⟩

/-- What a pass leaves of the live entry `o`: its rows are applied, at most one for each of its
exchange orders, and a final entry is not asked about. -/
def PassApplied (e : OrderId) (o : Order) (now : Time) (w w' : ExecWorld) : Prop :=
  w'.state.Linked ∧ ∃ rows, reportedRows e w'.trace = reportedRows e w.trace ++ rows ∧
    rows.length ≤ o.exchangeOrderIds.length ∧ (o.status.isFinal = true → rows = []) ∧
    ∃ o', w'.state.orders.get? e = some o' ∧ Order.SameLedger (o.afterRows rows now) o'

/-- The own round of a live entry. -/
lemma reconcileOrder_self (books : MarketBooks) (now : Time) {w : ExecWorld}
    (hw : w.state.Linked) {o : Order} (hget : w.state.orders.get? e = some o)
    (hkind : o.orderKind = .entry) (hpaper : o.isPaper = false) :
    Meets Alone (fun _ _ => True) (fun _ w' => PassApplied e o now w w')
      (reconcileOrder cfg books now e) w := by
  suffices hround : Meets Alone (fun _ _ => True) (fun _ w' => ∃ rows,
      reportedRows e w'.trace = reportedRows e w.trace ++ rows ∧
      rows.length ≤ o.exchangeOrderIds.length ∧ (o.status.isFinal = true → rows = []) ∧
      ∃ o', w'.state.orders.get? e = some o' ∧ Order.SameLedger (o.afterRows rows now) o')
      (reconcileOrder cfg books now e) w from
    ((reconcileOrder_linked books now e hw).and hround).imp fun _ _ h => h
  refine .get_bind trivial ?_
  simp only [hget, hkind]
  by_cases hfinal : o.status.isFinal = true
  · rw [if_pos hfinal]
    exact ⟨[], by simp, by simp, fun _ => rfl, o, hget, .refl o⟩
  rw [if_neg hfinal, reconcileEntry]
  by_cases hasks : ¬ o.isPaper = true ∧ cfg.liveReconcileEnabled = true ∧ cfg.clobConnected = true
  swap
  · -- nothing is asked: only a deferred bracket may be armed
    rw [if_neg hasks, if_neg (by simp [hpaper])]
    refine ⟨trivial, [], by simp, by simp, fun _ => rfl, ?_⟩
    exact (armDeferred_armings cfg now e _).keepsLedger (hw.notMem hget hkind e) o hget
  rw [if_pos hasks]
  let I (w' : ExecWorld) : Prop := w'.state.Linked ∧ ∃ rows,
    reportedRows e w'.trace = reportedRows e w.trace ++ rows ∧
    rows.length ≤ o.exchangeOrderIds.length ∧
    ∃ o', w'.state.orders.get? e = some o' ∧ Order.SameLedger (o.afterRows rows now) o'
  refine Meets.bind (Q := fun _ w' => I w') ?_ fun events w' hw' => ?_
  · refine (fetchStatusRows_meets e _ w).bind
      fun rows w' ⟨hstate, t, htrace, hasks, hrows, hlen⟩ => ?_
    have hget' : w'.state.orders.get? e = some o := hstate ▸ hget
    have hlinked : w'.state.Linked := hstate ▸ hw
    have heffects : Effects cfg w'.state (applyStatusRows cfg now e rows w'.state).2 :=
      applyStatusRows_effects hget' hkind (by simpa using hfinal)
    refine ⟨trivial, heffects.linked hlinked, rows, ?_, hlen, ?_⟩
    · simp [htrace, hrows]
    · exact applyStatusRows_self hlinked hget' hkind rows now
  · obtain ⟨hlinked, rows, htrace, hlen, o', ho', hsame⟩ := hw'
    have hkind' : o'.orderKind = .entry :=
      hsame.terms.orderKind.trans ((o.afterRows_terms rows now).1.orderKind.trans hkind)
    have hkeeps : KeepsLedger e w'.state (armDeferred cfg now e w'.state).2 :=
      (armDeferred_armings cfg now e _).keepsLedger (hlinked.notMem ho' hkind' e)
    obtain ⟨o'', ho'', hsame'⟩ := hkeeps o' ho'
    refine .modifyGet_bind trivial ⟨rows, htrace, hlen, ?_, o'', ho'', hsame.trans hsame'⟩
    exact fun h => absurd h hfinal

/-- One pass over all orders, as it concerns the entry `e`: what its own round comes to, the rounds
of the others only carry on. -/
lemma reconcileOrders_around {books : MarketBooks} {now : Time} {P : ExecWorld → Prop}
    {w : ExecWorld} (hw : w.state.Linked) {o : Order} (hget : w.state.orders.get? e = some o)
    (hkind : o.orderKind = .entry)
    (hround : ∀ {w' o'}, Undisturbed e w w' → w'.state.orders.get? e = some o' →
      Order.SameLedger o o' → Ends (fun _ => P) (reconcileOrder cfg books now e) w')
    (hentry : ∀ {w'}, P w' → w'.state.Linked ∧
      ∃ o', w'.state.orders.get? e = some o' ∧ o'.orderKind = .entry)
    (hcarried : ∀ {w' w''}, P w' → Undisturbed e w' w'' → P w'') (ω : Oracle Request Reply) :
    P (w.after ((reconcileOrders cfg books now).run ω w.state)) := by
  have hmeets : Ends (fun _ => P) (reconcileOrders cfg books now) w := by
    refine .get_bind trivial ?_
    refine Meets.forEach_split (I := Undisturbed e w) w.state.orders.nodup
      (Dict.mem_keys_of_get? hget) ?_ ?_ ?_ ⟨hw, .refl e _, rfl⟩
    · intro id hid w' hw'
      obtain ⟨o', ho', hsame⟩ := hw'.ledger o hget
      refine (reconcileOrder_undisturbed books now hid hw'.linked ho'
        (hsame.terms.orderKind.trans hkind)).imp ?_
      intro _ w'' hw''
      exact ⟨hw''.linked, hw'.ledger.trans hw''.ledger, hw''.rows.trans hw'.rows⟩
    · intro w' hw'
      obtain ⟨o', ho', hsame⟩ := hw'.ledger o hget
      exact hround hw' ho' hsame
    · intro id hid w' hw'
      obtain ⟨hlinked, o', ho', hkind'⟩ := hentry hw'
      exact (reconcileOrder_undisturbed books now hid hlinked ho' hkind').imp
        fun _ _ hw'' => hcarried hw' hw''
  exact hmeets.run ω

/-- One pass over all orders, as it concerns a live entry. -/
theorem reconcileOrders_liveEntry (cfg : Config) (books : MarketBooks) (now : Time) {w : ExecWorld}
    (hw : w.state.Linked) {o : Order} (hget : w.state.orders.get? e = some o)
    (hkind : o.orderKind = .entry) (hpaper : o.isPaper = false) (ω : Oracle Request Reply) :
    PassApplied e o now w (w.after ((reconcileOrders cfg books now).run ω w.state)) := by
  refine reconcileOrders_around hw hget hkind ?_ ?_ ?_ ω
  · intro w' o' hw' ho' hsame
    refine (reconcileOrder_self books now hw'.linked ho'
      (hsame.terms.orderKind.trans hkind) (hsame.terms.isPaper.trans hpaper)).imp ?_
    rintro _ w'' ⟨hlinked, rows, htrace, hlen, hfinal, o'', ho'', hsame'⟩
    refine ⟨hlinked, rows, htrace.trans (by rw [hw'.rows]), ?_, ?_, o'', ho'', ?_⟩
    · rwa [← hsame.exchangeOrderIds]
    · rwa [← hsame.status]
    · exact (hsame.afterRows rows now).trans hsame'
  · rintro w' ⟨hlinked, rows, -, -, -, o', ho', hsame⟩
    exact ⟨hlinked, o', ho',
      hsame.terms.orderKind.trans ((o.afterRows_terms rows now).1.orderKind.trans hkind)⟩
  · rintro w' w'' ⟨-, rows, htrace, hlen, hfinal, o', ho', hsame⟩ hw''
    obtain ⟨o'', ho'', hsame'⟩ := hw''.ledger o' ho'
    exact ⟨hw''.linked, rows, hw''.rows.trans htrace, hlen, hfinal, o'', ho'', hsame.trans hsame'⟩

end PolyCortex
