import PolyCortex.Execution.Families

/-!
# What the operations do to a family

The operations once more, as functions on a family alone: `Family.reconciled`, `Family.cancelled`
and `Family.expired` say what a pass, a cancellation and the expiry of stale orders make of an entry
and its two children. The executor does the same to the family inside its dictionary, whatever the
other orders are (`reconcileOrders_family`, `cancelOrder_family`, `cancelAllOpenOrders_family`,
`cancelExpiredOrders_family`), so facts about a family are proved about these functions.
-/

namespace PolyCortex

open Coroutine Relation

/-- An entry with the two children of its bracket. -/
structure Family where
  entry : Order
  takeProfit : Order
  stopLoss : Order
  deriving DecidableEq

/-! ### The functions -/

/-- The order after a cancellation: what is final stays. -/
def Order.withdrawn (o : Order) : Order :=
  if o.status.isFinal then o else { o with status := .cancelled }

/-- The child after the expiry of stale orders. -/
def Order.lapsed (now : Time) (o : Order) : Order :=
  if o.status = .armed ∧ o.isPastExpiry now = true then { o with status := .expired } else o

namespace Family

/-- The bracket is armed again: new levels around the entry's price, children of its size. -/
def refresh (spec : BracketSpec) (f : Family) : Family where
  entry :=
    { f.entry with
      takeProfitPrice := some (buildBracketLevels f.entry.activePrice spec).1
      stopLossPrice := some (buildBracketLevels f.entry.activePrice spec).2
      bracketState := .armed }
  takeProfit := f.takeProfit.resized f.entry.activeSize
  stopLoss := f.stopLoss.resized f.entry.activeSize

def refreshDefault (cfg : Config) (f : Family) : Family :=
  match cfg.defaultBracketSpec with
  | none => f
  | some spec => f.refresh spec

/-- A paper entry against the book. -/
def applyBook (cfg : Config) (data : MarketData) (now : Time) (f : Family) : Family :=
  if isMarketable cfg data f.entry then
    let filled := f.entry.paperFill cfg data now
    if filled.status ≠ f.entry.status then { f with entry := filled }.refreshDefault cfg
    else { f with entry := filled }
  else f

/-- A live entry against the rows of the exchange. -/
def applyRows (cfg : Config) (rows : List StatusRow) (now : Time) (f : Family) : Family :=
  if rows = [] then f
  else
    let filled := f.entry.liveFill rows now
    if 0 < filled.filledSizeUsdc then { f with entry := filled.liveStatus rows }.refreshDefault cfg
    else { f with entry := filled.liveStatus rows }

/-- The round of the entry. -/
def entryRound (cfg : Config) (books : MarketBooks) (now : Time) (rows : List StatusRow)
    (f : Family) : Family :=
  if f.entry.status.isFinal then f
  else if ¬ f.entry.isPaper ∧ cfg.liveReconcileEnabled ∧ cfg.clobConnected then
    f.applyRows cfg rows now
  else if f.entry.isPaper ∧ (f.entry.status = .placed ∨ f.entry.status = .partiallyFilled) then
    match books f.entry.marketId with
    | none => f
    | some data => f.applyBook cfg data now
  else f

/-- The round of a child: the entry, the child itself and the other child after it. -/
def childRound (data : MarketData) (now : Time) (entry own sibling : Order) :
    Order × Order × Order :=
  if own.status ≠ .armed then (entry, own, sibling)
  else if own.isPastExpiry now then
    ({ entry with bracketState := .expired }, { own with status := .expired }, sibling)
  else if shouldTrigger data own then
    ({ entry with bracketState := .closed }, own.exitFill data now,
      if sibling.status = .armed then { sibling with status := .cancelled } else sibling)
  else (entry, own, sibling)

def takeProfitRound (books : MarketBooks) (now : Time) (f : Family) : Family :=
  match books f.takeProfit.marketId with
  | none => f
  | some data =>
    let (entry, takeProfit, stopLoss) := childRound data now f.entry f.takeProfit f.stopLoss
    { entry, takeProfit, stopLoss }

def stopLossRound (books : MarketBooks) (now : Time) (f : Family) : Family :=
  match books f.stopLoss.marketId with
  | none => f
  | some data =>
    let (entry, stopLoss, takeProfit) := childRound data now f.entry f.stopLoss f.takeProfit
    { entry, takeProfit, stopLoss }

/-- The family after a pass over `books` in which the exchange has reported `rows` for the entry. -/
def reconciled (cfg : Config) (books : MarketBooks) (now : Time) (rows : List StatusRow)
    (f : Family) : Family :=
  ((f.entryRound cfg books now rows).takeProfitRound books now).stopLossRound books now

/-- `cancel_order` for the entry; `failed` says that the exchange did not confirm it. -/
def cancelled (cfg : Config) (failed : Bool) (f : Family) : Family :=
  if f.entry.status.isFinal then f
  else if f.entry.isPaper ∨ ¬ cfg.clobConnected then
    { entry := { f.entry with status := .cancelled, bracketState := .cancelled }
      takeProfit := f.takeProfit.withdrawn
      stopLoss := f.stopLoss.withdrawn }
  else if failed then f
  else { f with entry := { f.entry with status := .cancelled, bracketState := .cancelled } }

/-- `cancel_all_open_orders`. -/
def allCancelled (cfg : Config) (failed : Bool) (f : Family) : Family :=
  let f := f.cancelled cfg failed
  { f with takeProfit := f.takeProfit.withdrawn, stopLoss := f.stopLoss.withdrawn }

/-- The entry is cancelled for its age. -/
def aged (cfg : Config) (now : Time) (failed : Bool) (f : Family) : Family :=
  if minutes cfg.orderExpiryMinutes < now - f.entry.timestamp then f.cancelled cfg failed else f

/-- `cancel_expired_orders`. -/
def expired (cfg : Config) (now : Time) (failed : Bool) (f : Family) : Family :=
  let f := f.aged cfg now failed
  { f with takeProfit := f.takeProfit.lapsed now, stopLoss := f.stopLoss.lapsed now }

end Family

/-! ### Families in a state -/

variable {cfg : Config} {s s' : Executor} {e id : OrderId} {g : ℕ} {f f' : Family}

/-- The family `f` of the entry `e`, with the children `g + 1` and `g + 2`. -/
abbrev Executor.HasFamily (s : Executor) (e : OrderId) (g : ℕ) (f : Family) : Prop :=
  s.Bracket e f.entry g f.takeProfit f.stopLoss

/-- The three orders are stored in `s`. -/
structure Executor.Stores (s : Executor) (e : OrderId) (g : ℕ) (f : Family) : Prop where
  entry : s.orders.get? e = some f.entry
  takeProfit : s.orders.get? (g + 1) = some f.takeProfit
  stopLoss : s.orders.get? (g + 2) = some f.stopLoss

lemma Executor.Bracket.stores (h : s.HasFamily e g f) : s.Stores e g f :=
  ⟨h.get, h.get_takeProfit, h.get_stopLoss⟩

/-- What changes have made of a family is a family. -/
lemma Executor.HasFamily.of_changes (h : s.HasFamily e g f) (hs : s.Accounted)
    (hchanges : Changes cfg s s') (hf : s'.Stores e g f') : s'.HasFamily e g f' := by
  obtain ⟨entry, tp, sl, hb⟩ := Executor.Bracket.of_changes h hs hchanges
  obtain rfl := Option.some.inj (hf.entry.symm.trans hb.get)
  obtain rfl := Option.some.inj (hf.takeProfit.symm.trans hb.get_takeProfit)
  obtain rfl := Option.some.inj (hf.stopLoss.symm.trans hb.get_stopLoss)
  exact hb

lemma Executor.Bracket.ne_takeProfit {entry tp sl : Order} (h : s.Bracket e entry g tp sl) :
    e ≠ g + 1 := (Nat.lt_succ_of_le h.before).ne

lemma Executor.Bracket.ne_stopLoss {entry tp sl : Order} (h : s.Bracket e entry g tp sl) :
    e ≠ g + 2 := (Nat.lt_succ_of_le h.before).trans (Nat.lt_succ_self _) |>.ne

lemma Executor.Bracket.ids_ne_nil {entry tp sl : Order} (h : s.Bracket e entry g tp sl) :
    entry.bracketOrderIds ≠ [] := by simp [h.ids]

/-- The entry is assigned. -/
lemma Executor.HasFamily.assign (h : s.HasFamily e g f) (x : Order) :
    (s.modifyOrder e fun _ => x).Stores e g { f with entry := x } := by
  constructor
  · simp [h.get]
  · rw [get?_modifyOrder_of_ne s h.ne_takeProfit.symm, h.get_takeProfit]
  · rw [get?_modifyOrder_of_ne s h.ne_stopLoss.symm, h.get_stopLoss]

/-! ### Arming again -/

lemma armBracketOrders_stores (hf : s.Stores e g f) (hkind : f.entry.orderKind = .entry)
    (hids : f.entry.bracketOrderIds = [g + 1, g + 2]) (hbefore : e ≤ g) (spec : BracketSpec)
    (now : Time) : (armBracketOrders spec now e s).2.Stores e g (f.refresh spec) := by
  have hne : e ≠ g + 1 ∧ e ≠ g + 2 := by
    constructor <;> intro h <;> rw [h] at hbefore <;> simp at hbefore
  simp only [armBracketOrders, hf.entry, hkind, hids, refreshBrackets, Executor.setBracketState,
    Executor.modifyOrder_modifyOrder]
  constructor
  · simp [get?_syncChildSizes, hf.entry, hids, hne, Family.refresh]
  · simp [get?_syncChildSizes, hids, Executor.get?_modifyOrder, hne.1.symm, hf.takeProfit,
      Family.refresh]
  · simp [get?_syncChildSizes, hids, Executor.get?_modifyOrder, hne.2.symm, hf.stopLoss,
      Family.refresh]

lemma armDefaultBrackets_stores (hf : s.Stores e g f) (hkind : f.entry.orderKind = .entry)
    (hids : f.entry.bracketOrderIds = [g + 1, g + 2]) (hbefore : e ≤ g) (now : Time) :
    (armDefaultBrackets cfg now e s).2.Stores e g (f.refreshDefault cfg) := by
  rw [armDefaultBrackets, Family.refreshDefault]
  cases cfg.defaultBracketSpec with
  | none => exact hf
  | some spec => exact armBracketOrders_stores hf hkind hids hbefore spec now

/-- An entry with children needs no deferred arming. -/
lemma armDeferred_of_bracket {o : Order} (hget : s.orders.get? e = some o)
    (hids : o.bracketOrderIds ≠ []) (now : Time) : (armDeferred cfg now e s).2 = s := by
  simp [armDeferred, hget, hids]

/-! ### The round of the entry -/

lemma reconcilePaperEntry_stores (cfg : Config) (h : s.HasFamily e g f) (data : MarketData)
    (now : Time) :
    (reconcilePaperEntry cfg data now e f.entry s).2.Stores e g (f.applyBook cfg data now) := by
  have hassign := Executor.HasFamily.assign h (f.entry.paperFill cfg data now)
  have hterms := f.entry.applyFill_sameTerms (paperFillSize cfg f.entry)
    (entryFillPrice data f.entry) now
  have hids := f.entry.applyFill_bracketOrderIds (paperFillSize cfg f.entry)
    (entryFillPrice data f.entry) now
  rw [reconcilePaperEntry, Family.applyBook]
  dsimp only
  split_ifs
  · exact armDefaultBrackets_stores hassign (hterms.orderKind.trans h.kind) (hids.trans h.ids)
      h.before now
  · exact hassign
  · exact h.stores

lemma applyStatusRows_stores (h : s.HasFamily e g f) (rows : List StatusRow) (now : Time) :
    (applyStatusRows cfg now e rows s).2.Stores e g (f.applyRows cfg rows now) := by
  have hassign := Executor.HasFamily.assign h ((f.entry.liveFill rows now).liveStatus rows)
  rw [applyStatusRows, Family.applyRows]
  simp only [h.get]
  split_ifs with hrows
  · exact h.stores
  · obtain ⟨hterms, hids⟩ := f.entry.afterRows_terms rows now
    rw [Order.afterRows, if_neg hrows] at hterms hids
    exact armDefaultBrackets_stores hassign (hterms.orderKind.trans h.kind) (hids.trans h.ids)
      h.before now
  · exact hassign

/-! ### The round of a child -/

/-- A child `c` of the entry `e`, with the other child `c'`. -/
structure Executor.Siblings (s : Executor) (e : OrderId) (entry : Order) (c : OrderId) (own : Order)
    (c' : OrderId) (sibling : Order) : Prop where
  get_entry : s.orders.get? e = some entry
  get_own : s.orders.get? c = some own
  get_sibling : s.orders.get? c' = some sibling
  ne_own : e ≠ c
  ne_sibling : e ≠ c'
  ne : c' ≠ c
  orderId : sibling.orderId ≠ own.orderId
  parentOrderId : own.parentOrderId = some e
  group : own.ocoGroupId.isSome = true
  sibling_group : sibling.ocoGroupId = own.ocoGroupId
  entry_group : entry.ocoGroupId = none

lemma Executor.Bracket.siblings_takeProfit (h : s.HasFamily e g f) (hs : s.Related) :
    s.Siblings e f.entry (g + 1) f.takeProfit (g + 2) f.stopLoss where
  get_entry := h.get
  get_own := h.get_takeProfit
  get_sibling := h.get_stopLoss
  ne_own := h.ne_takeProfit
  ne_sibling := h.ne_stopLoss
  ne := by simp
  orderId := by
    rw [hs.keyed _ _ h.get_takeProfit, hs.keyed _ _ h.get_stopLoss]
    simp
  parentOrderId := h.takeProfit.parentOrderId
  group := by simp [h.takeProfit.ocoGroupId]
  sibling_group := h.stopLoss.ocoGroupId.trans h.takeProfit.ocoGroupId.symm
  entry_group := (hs.root e f.entry h.get (by rw [h.kind]; rfl)).2

lemma Executor.Bracket.siblings_stopLoss (h : s.HasFamily e g f) (hs : s.Related) :
    s.Siblings e f.entry (g + 2) f.stopLoss (g + 1) f.takeProfit where
  get_entry := h.get
  get_own := h.get_stopLoss
  get_sibling := h.get_takeProfit
  ne_own := h.ne_stopLoss
  ne_sibling := h.ne_takeProfit
  ne := by simp
  orderId := by
    rw [hs.keyed _ _ h.get_takeProfit, hs.keyed _ _ h.get_stopLoss]
    simp
  parentOrderId := h.stopLoss.parentOrderId
  group := by simp [h.stopLoss.ocoGroupId]
  sibling_group := h.takeProfit.ocoGroupId.trans h.stopLoss.ocoGroupId.symm
  entry_group := (hs.root e f.entry h.get (by rw [h.kind]; rfl)).2

/-! What a triggered child does to its parent, to itself and to the other child. -/

lemma besideTriggered_parent {filled entry : Order} (hparent : filled.parentOrderId = some e)
    (hgroup : filled.ocoGroupId.isSome = true) (hroot : entry.ocoGroupId = none) :
    filled.besideTriggered e entry = { entry with bracketState := .closed } := by
  have hnot : isOcoSibling filled { entry with bracketState := .closed } = false := by
    rw [Bool.eq_false_iff, ne_eq, isOcoSibling_iff]
    rintro ⟨_, hsame, _⟩
    replace hsame : entry.ocoGroupId = filled.ocoGroupId := hsame
    rw [← hsame, hroot] at hgroup
    cases hgroup
  simp [Order.besideTriggered, hparent, hnot]

lemma besideTriggered_self {filled : Order} (hparent : filled.parentOrderId ≠ some id) :
    filled.besideTriggered id filled = filled := by
  have hnot : isOcoSibling filled filled = false := by
    rw [Bool.eq_false_iff, ne_eq, isOcoSibling_iff]
    rintro ⟨_, _, hne, _⟩
    exact hne rfl
  simp [Order.besideTriggered, hparent, hnot]

lemma besideTriggered_sibling {filled sibling : Order} (hparent : filled.parentOrderId ≠ some id)
    (hgroup : filled.ocoGroupId.isSome = true) (hsame : sibling.ocoGroupId = filled.ocoGroupId)
    (hne : sibling.orderId ≠ filled.orderId) :
    filled.besideTriggered id sibling =
      if sibling.status = .armed then { sibling with status := .cancelled } else sibling := by
  have hiff : isOcoSibling filled sibling = true ↔ sibling.status = .armed := by
    rw [isOcoSibling_iff]
    exact ⟨fun h => h.2.2.2, fun h => ⟨hgroup, hsame, hne, h⟩⟩
  simp [Order.besideTriggered, hparent, hiff]

lemma reconcileChild_siblings {entry own sibling : Order} {c c' : OrderId}
    (h : s.Siblings e entry c own c' sibling) (data : MarketData) (now : Time) :
    (reconcileChild data now c own s).2.orders.get? e =
        some (Family.childRound data now entry own sibling).1 ∧
      (reconcileChild data now c own s).2.orders.get? c =
        some (Family.childRound data now entry own sibling).2.1 ∧
      (reconcileChild data now c own s).2.orders.get? c' =
        some (Family.childRound data now entry own sibling).2.2 := by
  obtain ⟨hentry, hown, hsibling, hne, hne', hcc, horder, hparent, hgroup, hgroup', hroot⟩ := h
  have hterms := own.applyFill_sameTerms (pyOr own.remainingSizeUsdc own.sizeUsdc)
    (exitPrice data own) now
  have hfilled : (own.exitFill data now).parentOrderId = some e :=
    hterms.parentOrderId.trans hparent
  have hfilledGroup : (own.exitFill data now).ocoGroupId = own.ocoGroupId := hterms.ocoGroupId
  have hfilledId : (own.exitFill data now).orderId = own.orderId := hterms.orderId
  rw [reconcileChild, Family.childRound]
  by_cases harmed : own.status = .armed
  · rw [if_neg (not_not.mpr harmed), if_neg (not_not.mpr harmed)]
    by_cases hexpired : own.isPastExpiry now = true
    · rw [if_pos hexpired, if_pos hexpired]
      simp [expireChild, get?_setParentBracketState, Executor.setStatus, Executor.get?_modifyOrder,
        hentry, hown, hsibling, hparent, hne, hne', hcc]
    rw [if_neg hexpired, if_neg hexpired]
    by_cases htrigger : shouldTrigger data own = true
    · rw [if_pos htrigger, if_pos htrigger]
      refine ⟨?_, ?_, ?_⟩
      · rw [get?_triggerChild hown, if_neg hne, hentry, Option.map_some,
          besideTriggered_parent hfilled (hfilledGroup ▸ hgroup) hroot]
      · rw [get?_triggerChild hown, if_pos rfl, Option.map_some, besideTriggered_self]
        simp [hfilled, hne]
      · rw [get?_triggerChild hown, if_neg hcc, hsibling, Option.map_some,
          besideTriggered_sibling _ (hfilledGroup ▸ hgroup) (hgroup'.trans hfilledGroup.symm)
            (hfilledId.symm ▸ horder)]
        simp [hfilled, hne']
    · rw [if_neg htrigger, if_neg htrigger]
      exact ⟨hentry, hown, hsibling⟩
  · rw [if_pos harmed, if_pos harmed]
    exact ⟨hentry, hown, hsibling⟩

/-! ### What the children keep -/

/-- A property that children have when they are created, and that nothing takes from them. -/
structure ChildInvariant (P : Order → Prop) : Prop where
  created : ∀ {o : Order}, o.status = .armed → dust ≤ o.sizeUsdc → P o
  touched : ∀ {o o' : Order}, Order.SameFill o o' → o'.status = o.status → P o → P o'
  withdrawn : ∀ {o : Order}, P o → ∀ status, status = .cancelled ∨ status = .expired →
    P { o with status }
  resized : ∀ {o : Order} {size : ℚ}, dust ≤ size → P o → P (o.resized size)
  fired : ∀ {o : Order}, o.Accounted → o.status = .armed → P o → ∀ data now, P (o.exitFill data now)

lemma Order.Accounted.dust_le_activeSize {o : Order} (h : o.Accounted) (hkind : o.orderKind = .entry) :
    dust ≤ o.activeSize := by
  rw [activeSize, pyOr]
  split_ifs with hzero
  · have hsize := h.entry_size hkind
    norm_num [dust]
    linarith
  · exact h.onGrid.le_of_pos (lt_of_le_of_ne h.filled_nonneg (Ne.symm hzero))

lemma ChildInvariant.beside {P : Order → Prop} (hP : ChildInvariant P) {x : Order} (hx : P x)
    (filled : Order) (c : OrderId) : P (filled.besideTriggered c x) := by
  obtain ⟨hsize, hfilled, hremaining, haverage⟩ := besideTriggered_fill filled c x
  have hstatus := besideTriggered_status filled c x
  split_ifs at hstatus
  · refine hP.touched ?_ hstatus (hP.withdrawn hx .cancelled (Or.inl rfl))
    exact ⟨hsize, hfilled, hremaining, haverage⟩
  · exact hP.touched ⟨hsize, hfilled, hremaining, haverage⟩ hstatus hx

/-- The bracket children have the property `P`. -/
def Executor.Children (P : Order → Prop) (s : Executor) : Prop :=
  ∀ c o, s.orders.get? c = some o → o.orderKind.isBracket = true → P o

lemma Effect.children {P : Order → Prop} (hP : ChildInvariant P) (h : Effect cfg s s')
    (hacc : s.Accounted) (hs : s.Children P) : s'.Children P := by
  have hmodify : ∀ {j : OrderId} {F : Order → Order},
      (∀ o, s.orders.get? j = some o → (F o).orderKind = o.orderKind) →
      (∀ o, s.orders.get? j = some o → o.orderKind.isBracket = true → P o → P (F o)) →
      (s.modifyOrder j F).Children P := by
    intro j F hkind hF c o' ho' hbracket
    rw [Executor.get?_modifyOrder] at ho'
    split_ifs at ho' with hc
    · obtain ⟨o, ho, rfl⟩ := Option.map_eq_some_iff.mp ho'
      have hbracket' : o.orderKind.isBracket = true := hkind o ho ▸ hbracket
      exact hF o ho hbracket' (hs j o ho hbracket')
    · exact hs c o' ho' hbracket
  cases h with
  | bookkeeping _ horders hid =>
    intro c o ho
    rw [horders] at ho
    exact hs c o ho
  | insert mk hnew hpaper =>
    intro c o' ho' hbracket
    rw [Executor.get?_insertOrder] at ho'
    split_ifs at ho' with hc
    · rw [← Option.some.inj ho', (hnew _).kind] at hbracket
      cases hbracket
    · exact hs c o' ho' hbracket
  | touch j F htouch =>
    exact hmodify (fun o ho => (htouch o ho).terms.orderKind)
      fun o ho _ => hP.touched (htouch o ho).fill (htouch o ho).status
  | withdraw j o status hget hopen hstatus =>
    exact hmodify (fun _ _ => rfl) fun _ _ _ hx => hP.withdrawn hx status hstatus
  | fill j o x p now hget hkind hopen =>
    refine hmodify (fun o _ => (o.applyFill_sameTerms x p now).orderKind) fun o' ho' hbracket => ?_
    rw [Option.some.inj (ho'.symm.trans hget), hkind] at hbracket
    cases hbracket
  | refresh parentId o hget hkind =>
    intro c child' hchild' hbracket
    rw [get?_syncChildSizes] at hchild'
    obtain ⟨child, hchild, rfl⟩ := Option.map_eq_some_iff.mp hchild'
    split_ifs at hbracket ⊢ with hlisted
    · exact hP.resized ((hacc parentId o hget).dust_le_activeSize hkind)
        (hs c child hchild ((Order.resized_terms _ child).orderKind ▸ hbracket))
    · exact hs c child hchild hbracket
  | create parentId o spec now hget hkind hnone hfill =>
    intro c o' ho' hbracket
    rcases createBrackets_cases spec now hget ho' with ⟨_, hnew⟩ | ⟨rfl, rfl⟩ | ⟨_, hold⟩
    · refine hP.created hnew.status ?_
      rw [hnew.sizeUsdc]
      exact (hacc parentId o hget).dust_le_activeSize hkind
    · replace hbracket : o.orderKind.isBracket = true := hbracket
      rw [hkind] at hbracket
      cases hbracket
    · exact hs c o' hold hbracket
  | trigger data now j o hget hkind harmed =>
    intro c o' ho' hbracket
    rw [get?_triggerChild hget] at ho'
    obtain ⟨x, hx, rfl⟩ := Option.map_eq_some_iff.mp ho'
    rw [(besideTriggered_terms _ c x).orderKind] at hbracket
    apply hP.beside
    split_ifs at hx
    · rw [← Option.some.inj hx]
      exact hP.fired (hacc j o hget) harmed (hs j o hget hkind) data now
    · exact hs c x hx hbracket

/-- An invariant of the children holds for as long as the process lives. -/
theorem Changes.children {P : Order → Prop} (hP : ChildInvariant P) (h : Changes cfg s s')
    (hacc : s.Accounted) (hs : s.Children P) : s'.Children P := by
  have heffects : ∀ {s s'}, Effects cfg s s' → s.Accounted → s.Children P → s'.Children P := by
    intro s s' h hacc hs
    induction h with
    | refl => exact hs
    | tail hpre hstep ih => exact hstep.children hP (Effects.conserves hpre hacc).accounted ih
  induction h with
  | refl => exact hs
  | tail hpre hstep ih =>
    have hacc' := (Changes.conserves hpre hacc).accounted
    exact heffects (hstep.effects hacc') hacc' ih

/-! ### Children are whole -/

lemma Order.Accounted.activeSize_pos {o : Order} (h : o.Accounted) (hkind : o.orderKind = .entry) :
    0 < o.activeSize :=
  dust_pos.trans_le (h.dust_le_activeSize hkind)

/-- A child that is armed has a size, and no child is partly filled. -/
structure Order.Whole (o : Order) : Prop where
  status : o.status ≠ .placed ∧ o.status ≠ .partiallyFilled
  size_pos : o.status = .armed → 0 < o.sizeUsdc

def Executor.ChildrenWhole (s : Executor) : Prop :=
  ∀ c o, s.orders.get? c = some o → o.orderKind.isBracket = true → o.Whole

/-- A child that is untouched and has a size, if it is armed. -/
def Order.Ready (o : Order) : Prop :=
  o.status = .armed → o.filledSizeUsdc = 0 ∧ o.remainingSizeUsdc = o.sizeUsdc ∧ 0 < o.sizeUsdc

lemma Order.Whole.ready {o : Order} (h : o.Whole) (hacc : o.Accounted) : o.Ready := by
  intro harmed
  obtain ⟨hfilled, hremaining⟩ := hacc.untouched (Or.inr harmed)
  exact ⟨hfilled, hremaining, h.size_pos harmed⟩

/-- What an armed child fills when it fires. -/
lemma Order.Ready.exitFill {o : Order} (h : o.Ready) (harmed : o.status = .armed)
    (data : MarketData) (now : Time) : (o.exitFill data now).status = .filled ∧
      (o.exitFill data now).filledSizeUsdc = round8 o.sizeUsdc := by
  obtain ⟨hfilled, hremaining, hpos⟩ := h harmed
  have hoffer : pyOr o.remainingSizeUsdc o.sizeUsdc = o.sizeUsdc := by
    rw [hremaining, pyOr, if_neg hpos.ne']
  have haccepted : o.acceptedFill o.sizeUsdc = o.sizeUsdc := by
    rw [acceptedFill, hremaining, min_self]
  have hrest : o.remainingAfter o.sizeUsdc ≤ dust := by
    have hround := le_round8_add o.sizeUsdc
    have hmax : max (o.sizeUsdc - round8 o.sizeUsdc) 0 ≤ dust / 2 :=
      max_le (by linarith) (by linarith [dust_pos])
    rw [remainingAfter, haccepted, hfilled, zero_add]
    linarith [round8_le_add (max (o.sizeUsdc - round8 o.sizeUsdc) 0)]
  rw [Order.exitFill, hoffer, applyFill_of_pos (haccepted.symm ▸ hpos)]
  exact ⟨if_pos hrest, by rw [haccepted, hfilled, zero_add]⟩

/-- An armed child is filled when it fires. -/
lemma Order.Ready.exitFill_status {o : Order} (h : o.Ready) (harmed : o.status = .armed)
    (data : MarketData) (now : Time) : (o.exitFill data now).status = .filled :=
  (h.exitFill harmed data now).1

lemma Order.Ready.resized {o : Order} (h : o.Ready) {size : ℚ} (hpos : 0 < size) :
    (o.resized size).Ready := by
  intro harmed
  rw [Order.resized_status] at harmed
  rw [Order.resized, if_pos harmed]
  exact ⟨(h harmed).1, rfl, hpos⟩

lemma childInvariant_whole : ChildInvariant Order.Whole where
  created harmed hsize := ⟨by simp [harmed], fun _ => dust_pos.trans_le hsize⟩
  touched hfill hstatus h :=
    ⟨hstatus ▸ h.status, fun harmed => hfill.sizeUsdc ▸ h.size_pos (hstatus ▸ harmed)⟩
  withdrawn _ status hstatus := by rcases hstatus with rfl | rfl <;> exact ⟨⟨by simp, by simp⟩, by simp⟩
  resized := by
    intro o size hsize h
    refine ⟨by simpa using h.status, fun harmed => ?_⟩
    rw [Order.resized_status] at harmed
    rw [Order.resized, if_pos harmed]
    exact dust_pos.trans_le hsize
  fired hacc harmed h data now := by
    have hfilled := (h.ready hacc).exitFill_status harmed data now
    exact ⟨by simp [hfilled], by simp [hfilled]⟩

lemma Effect.childrenWhole (h : Effect cfg s s') (hacc : s.Accounted) (hs : s.ChildrenWhole) :
    s'.ChildrenWhole :=
  h.children childInvariant_whole hacc hs

lemma Changes.childrenWhole (h : Changes cfg s s') (hacc : s.Accounted) (hs : s.ChildrenWhole) :
    s'.ChildrenWhole :=
  h.children childInvariant_whole hacc hs

/-! ### Children protect something -/

/-- A child that is armed is no smaller than the dust, and one that is filled has filled something. -/
structure Order.Funded (o : Order) : Prop where
  armed : o.status = .armed → dust ≤ o.sizeUsdc
  filled : o.status = .filled → 0 < o.filledSizeUsdc

lemma childInvariant_funded : ChildInvariant Order.Funded where
  created harmed hsize := ⟨fun _ => hsize, by simp [harmed]⟩
  touched hfill hstatus h :=
    ⟨fun harmed => hfill.sizeUsdc ▸ h.armed (hstatus ▸ harmed),
      fun hfilled => hfill.filledSizeUsdc ▸ h.filled (hstatus ▸ hfilled)⟩
  withdrawn _ status hstatus := by rcases hstatus with rfl | rfl <;> exact ⟨by simp, by simp⟩
  resized := by
    intro o size hsize h
    refine ⟨fun harmed => ?_, by simpa using h.filled⟩
    rw [Order.resized_status] at harmed
    rw [Order.resized, if_pos harmed]
    exact hsize
  fired := by
    intro o hacc harmed h data now
    obtain ⟨hfilled, hremaining⟩ := hacc.untouched (Or.inr harmed)
    have hready : o.Ready := fun _ => ⟨hfilled, hremaining, dust_pos.trans_le (h.armed harmed)⟩
    obtain ⟨hstatus, hsize⟩ := hready.exitFill harmed data now
    refine ⟨by simp [hstatus], fun _ => ?_⟩
    rw [hsize]
    linarith [le_round8_add o.sizeUsdc, h.armed harmed, dust_pos]

theorem runAll_childrenWhole (cfg : Config) (run : List Invocation) :
    (runAll cfg run).state.ChildrenWhole :=
  Changes.childrenWhole (runFrom_changes cfg ⟨.init, []⟩ run) Executor.accounted_init
    (by rintro c o ⟨⟩)

end PolyCortex
