import PolyCortex.Execution.Arming
import PolyCortex.Execution.Runs

/-!
# The effects of a change on the orders

A change of a run is a chain of a few kinds of effects (`Change.effects`): an order is inserted,
filled or withdrawn, a bracket is created, resized or triggered, and everything else leaves sizes
and statuses alone. Invariants about sizes and statuses are proved effect by effect.
-/

namespace PolyCortex

open Relation Rounding

/-- The sizes and the average price are the same. -/
structure Order.SameFill (o o' : Order) : Prop where
  sizeUsdc : o'.sizeUsdc = o.sizeUsdc
  filledSizeUsdc : o'.filledSizeUsdc = o.filledSizeUsdc
  remainingSizeUsdc : o'.remainingSizeUsdc = o.remainingSizeUsdc
  averageFillPrice : o'.averageFillPrice = o.averageFillPrice

lemma Order.SameFill.refl (o : Order) : Order.SameFill o o := by
  constructor <;> rfl

lemma Order.SameFill.trans {o₁ o₂ o₃ : Order} (h : Order.SameFill o₁ o₂) (h' : Order.SameFill o₂ o₃) :
    Order.SameFill o₁ o₃ where
  sizeUsdc := h'.sizeUsdc.trans h.sizeUsdc
  filledSizeUsdc := h'.filledSizeUsdc.trans h.filledSizeUsdc
  remainingSizeUsdc := h'.remainingSizeUsdc.trans h.remainingSizeUsdc
  averageFillPrice := h'.averageFillPrice.trans h.averageFillPrice

/-- Only the bracket state and levels, the exchange ids or nothing changed. -/
structure Order.Touched (o o' : Order) : Prop where
  terms : Order.SameTerms o o'
  fill : Order.SameFill o o'
  status : o'.status = o.status
  bracketOrderIds : o'.bracketOrderIds = o.bracketOrderIds

/-- An entry or exit as it is inserted under `id`. -/
structure Order.New (id : OrderId) (o : Order) : Prop where
  orderId : o.orderId = id
  status : o.status = .placed
  filled : o.filledSizeUsdc = 0
  remaining : o.remainingSizeUsdc = o.sizeUsdc
  size_nonneg : 0 ≤ o.sizeUsdc
  entry_size : o.orderKind = .entry → 1 / 2 ≤ o.sizeUsdc
  kind : o.orderKind.isBracket = false
  parentOrderId : o.parentOrderId = none
  ocoGroupId : o.ocoGroupId = none
  bracketOrderIds : o.bracketOrderIds = []
  exchangeOrderIds : o.exchangeOrderIds = []

/-- All orders are accounted for. -/
def Executor.Accounted (s : Executor) : Prop :=
  ∀ id o, s.orders.get? id = some o → o.Accounted

/-- The smallest partial fill the settings ask for is far above the rounding. -/
def Config.FillsAboveDust (cfg : Config) : Prop := 1 / 10 ^ 4 ≤ cfg.paperPartialFillRatio

/-- The order has a fill: one that counts unless the fills are dust, and that has a price. -/
structure Order.HasFill (cfg : Config) (o : Order) : Prop where
  filled_pos : cfg.FillsAboveDust → 0 < o.filledSizeUsdc
  priced : (0 < o.filledSizeUsdc → o.averageFillPrice.isSome = true) →
    o.averageFillPrice.isSome = true

inductive Effect (cfg : Config) (s : Executor) : Executor → Prop where
  | bookkeeping (s' : Executor) (horders : s'.orders = s.orders) (hid : s.nextId ≤ s'.nextId) :
    Effect cfg s s'
  | insert (mk : OrderId → Order) (hnew : ∀ id, (mk id).New id)
    (hpaper : ∀ id, (mk id).isPaper = cfg.isPaper) : Effect cfg s (s.insertOrder mk)
  | touch (id : OrderId) (f : Order → Order)
    (htouch : ∀ o, s.orders.get? id = some o → Order.Touched o (f o)) :
    Effect cfg s (s.modifyOrder id f)
  | withdraw (id : OrderId) (o : Order) (status : OrderStatus)
    (hget : s.orders.get? id = some o) (hopen : o.status.isFinal = false)
    (hstatus : status = .cancelled ∨ status = .expired) : Effect cfg s (s.setStatus id status)
  | fill (id : OrderId) (o : Order) (x p : ℚ) (now : Time) (hget : s.orders.get? id = some o)
    (hkind : o.orderKind.isBracket = false) (hopen : o.status.isFinal = false) :
    Effect cfg s (s.modifyOrder id (·.applyFill x p now))
  | refresh (parentId : OrderId) (o : Order) (hget : s.orders.get? parentId = some o)
    (hkind : o.orderKind = .entry) : Effect cfg s (syncChildSizes o s)
  | create (parentId : OrderId) (o : Order) (spec : BracketSpec) (now : Time)
    (hget : s.orders.get? parentId = some o) (hkind : o.orderKind = .entry)
    (hnone : o.bracketOrderIds = []) (hfill : o.HasFill cfg) :
    Effect cfg s (createBrackets spec now parentId o s).2
  | trigger (data : MarketData) (now : Time) (id : OrderId) (o : Order)
    (hget : s.orders.get? id = some o) (hkind : o.orderKind.isBracket = true)
    (harmed : o.status = .armed) : Effect cfg s (triggerChild data now id o s).2

abbrev Effects (cfg : Config) : Executor → Executor → Prop := ReflTransGen (Effect cfg)

variable {cfg : Config} {s : Executor}

lemma Order.HasFill.congr {o o' : Order} (h : o.HasFill cfg) (hsame : Order.SameFill o o') :
    o'.HasFill cfg := by
  obtain ⟨hpos, hpriced⟩ := h
  rw [← hsame.filledSizeUsdc] at hpos
  rw [← hsame.filledSizeUsdc, ← hsame.averageFillPrice] at hpriced
  exact ⟨hpos, hpriced⟩

lemma Order.Touched.refl (o : Order) : Order.Touched o o :=
  ⟨.refl o, ⟨rfl, rfl, rfl, rfl⟩, rfl, rfl⟩

/-! ### Arming -/

/-- A step of arming an entry that has a fill is an effect, and the entry still has a fill. -/
lemma Arming.effect {id : OrderId} {s' : Executor} (h : Arming id s s')
    (hfill : ∀ o, s.orders.get? id = some o → o.HasFill cfg) :
    Effect cfg s s' ∧ ∀ o, s'.orders.get? id = some o → o.HasFill cfg := by
  have hassign : ∀ f : Order → Order, (∀ o, Order.SameFill o (f o)) →
      ∀ o, (s.modifyOrder id f).orders.get? id = some o → o.HasFill cfg := by
    intro f hf o ho
    rw [Executor.get?_modifyOrder_self, Option.map_eq_some_iff] at ho
    obtain ⟨o', ho', rfl⟩ := ho
    exact (hfill o' ho').congr (hf o')
  cases h with
  | levels takeProfit stopLoss =>
    refine ⟨.touch id _ fun o _ => ?_, hassign _ fun o => by constructor <;> rfl⟩
    exact ⟨by constructor <;> rfl, by constructor <;> rfl, rfl, rfl⟩
  | state state =>
    refine ⟨.touch id _ fun o _ => ?_, hassign _ fun o => by constructor <;> rfl⟩
    exact ⟨by constructor <;> rfl, by constructor <;> rfl, rfl, rfl⟩
  | refresh o hget hkind =>
    refine ⟨.refresh id o hget hkind, fun o' ho' => ?_⟩
    rw [get?_syncChildSizes, hget, Option.map_some, Option.some.injEq] at ho'
    subst ho'
    split_ifs
    · exact ⟨by simpa using (hfill o hget).filled_pos, by simpa using (hfill o hget).priced⟩
    · exact hfill o hget
  | create spec now o hget hkind hnone =>
    refine ⟨.create id o spec now hget hkind hnone (hfill o hget), ?_⟩
    intro o' ho'
    rw [get?_createBrackets_self spec now hget, Option.some.injEq] at ho'
    subst ho'
    exact ⟨(hfill o hget).filled_pos, (hfill o hget).priced⟩

lemma Armings.effects {id : OrderId} {s' : Executor} (h : Armings id s s')
    (hfill : ∀ o, s.orders.get? id = some o → o.HasFill cfg) : Effects cfg s s' := by
  have hboth : Effects cfg s s' ∧ ∀ o, s'.orders.get? id = some o → o.HasFill cfg := by
    induction h with
    | refl => exact ⟨.refl, hfill⟩
    | tail _ hstep ih =>
      obtain ⟨hpre, hfill'⟩ := ih
      obtain ⟨heffect, hfill''⟩ := hstep.effect hfill'
      exact ⟨hpre.tail heffect, hfill''⟩
  exact hboth.1

lemma half_le_of_valid {env : Ambient} {req : PlaceRequest}
    (hvalid : validateOrder cfg env req = none) : 1 / 2 ≤ req.sizeUsdc := by
  unfold validateOrder at hvalid
  cases hkill : env.killSwitch with
  | some reason => simp [hkill] at hvalid
  | none =>
    simp only [hkill] at hvalid
    split_ifs at hvalid with _ hsize
    all_goals exact not_lt.mp hsize

/-- A placement that passes the checks has at least one chunk. -/
lemma splitIntoChunks_pos {size : ℚ} (hsize : 1 / 2 ≤ size) : 0 < (splitIntoChunks cfg size).1 := by
  unfold splitIntoChunks
  split_ifs
  · have hceil : 0 < ⌈size / 20⌉ := Int.ceil_pos.mpr (by linarith)
    have hnat : 0 < ⌈size / 20⌉.toNat := Int.lt_toNat.mpr hceil
    exact lt_min hnat (by norm_num)
  · exact Nat.one_pos

/-- A completed entry has filled something. -/
lemma Order.Accounted.filled_pos {o : Order} (h : o.Accounted) (hkind : o.orderKind = .entry)
    (hstatus : o.status = .filled) : 0 < o.filledSizeUsdc := by
  have hsize := h.entry_size hkind
  have htotal := h.size_le_total
  rw [h.remaining_of_filled hstatus] at htotal
  have hdust : dust = 1 / 10 ^ 8 := rfl
  norm_num [hdust] at htotal
  linarith

/-- A fill that moves the status of a paper entry leaves a positive filled size. -/
lemma paperFill_pos {o : Order} (h : o.Accounted) (hcfg : cfg.FillsAboveDust)
    (hkind : o.orderKind = .entry) (hstatus : o.status = .placed ∨ o.status = .partiallyFilled)
    {data : MarketData} {now : Time} (hmoved : (o.paperFill cfg data now).status ≠ o.status) :
    0 < (o.paperFill cfg data now).filledSizeUsdc := by
  have hacc := h.applyFill (paperFillSize cfg o) (entryFillPrice data o) now
  have hsame := Order.applyFill_sameTerms o (paperFillSize cfg o) (entryFillPrice data o) now
  rcases Order.applyFill_status o (paperFillSize cfg o) (entryFillPrice data o) now with
    ⟨heq, _⟩ | ⟨_, hfilled⟩ | ⟨hpos, hpart⟩
  · exact absurd (congrArg Order.status heq) hmoved
  · exact hacc.filled_pos (hsame.orderKind.trans hkind) hfilled
  · have hplaced : o.status = .placed :=
      hstatus.resolve_right fun hp => hmoved (hpart.trans hp.symm)
    obtain ⟨hfilled, hremaining⟩ := h.untouched (Or.inl hplaced)
    have hsize := h.entry_size hkind
    have hsize_fill : 1 / 20000 ≤ paperFillSize cfg o := by
      unfold paperFillSize
      split_ifs
      · have hratio : (1 : ℚ) / 10 ^ 4 ≤ cfg.paperPartialFillRatio := hcfg
        refine le_min (by rw [hremaining]; linarith) (le_max_of_le_left ?_)
        nlinarith
      · rw [hremaining]
        linarith
    have haccepted : 1 / 20000 ≤ o.acceptedFill (paperFillSize cfg o) :=
      le_min hsize_fill (by rw [hremaining]; linarith)
    have hround := le_round8_add (o.filledSizeUsdc + o.acceptedFill (paperFillSize cfg o))
    have hdust : dust = 1 / 10 ^ 8 := rfl
    rw [Order.paperFill, Order.applyFill_of_pos hpos]
    norm_num [hdust, hfilled] at hround ⊢
    linarith

/-! ### The changes -/

lemma orders_cleanupRecentPlacements (cfg : Config) (now : Time) (s : Executor) :
    (cleanupRecentPlacements cfg now s).orders = s.orders := by
  simp only [cleanupRecentPlacements]
  split_ifs <;> rfl

lemma nextId_cleanupRecentPlacements (cfg : Config) (now : Time) (s : Executor) :
    (cleanupRecentPlacements cfg now s).nextId = s.nextId := by
  simp only [cleanupRecentPlacements]
  split_ifs <;> rfl

lemma orders_preflight (cfg : Config) (env : Ambient) (req : PlaceRequest) (s : Executor) :
    (preflight cfg env req s).2.orders = s.orders := by
  unfold preflight
  by_cases hvalid : (validateOrder cfg env req).isSome = true
  · rw [if_pos hvalid]
  rw [if_neg hvalid]
  by_cases hslip : ¬ passesSlippage cfg req = true
  · rw [if_pos hslip]
  rw [if_neg hslip]
  exact orders_cleanupRecentPlacements cfg env.now s

lemma nextId_persistOrderIntent (env : Ambient) (clientId : ℕ) (req : PlaceRequest)
    (s : Executor) : (persistOrderIntent env clientId req s).2.nextId = s.nextId := by
  unfold persistOrderIntent
  split_ifs <;> rfl

lemma buildEntryOrder_new (env : Ambient) (req : PlaceRequest) (hsize : 1 / 2 ≤ req.sizeUsdc)
    (id : OrderId) : (buildEntryOrder cfg env req id).New id := by
  rw [buildEntryOrder_eq]
  constructor <;> first | rfl | (dsimp only; linarith) | exact fun _ => hsize

lemma buildExitOrder_new (env : Ambient) (req : CloseRequest) (hsize : 0 < req.sizeUsdc)
    (id : OrderId) : (buildExitOrder cfg env req id).New id := by
  rw [buildExitOrder_eq]
  constructor <;> first | rfl | exact hsize.le | exact fun h => by cases h

lemma setBracketState_effects (id : OrderId) (state : BracketState) :
    Effects cfg s (s.setBracketState id state) :=
  .single (.touch id _ fun _ _ => ⟨by constructor <;> rfl, by constructor <;> rfl, rfl, rfl⟩)

lemma setParentBracketState_effects (o : Order) (state : BracketState) :
    Effects cfg s (setParentBracketState o state s) := by
  unfold setParentBracketState
  cases o.parentOrderId with
  | none => exact .refl
  | some parentId => exact setBracketState_effects parentId state

/-- Withdrawing an order that is still open, and leaving it alone otherwise. -/
lemma withdrawIfOpen_effects (id : OrderId) :
    Effects cfg s (s.modifyOrder id fun child =>
      if child.status.isFinal then child else { child with status := .cancelled }) := by
  cases hget : s.orders.get? id with
  | none =>
    refine .single (.touch id _ fun o ho => ?_)
    rw [hget] at ho
    cases ho
  | some o =>
    by_cases hfinal : o.status.isFinal = true
    · refine .single (.touch id _ fun o' ho' => ?_)
      rw [hget] at ho'
      cases ho'
      rw [if_pos hfinal]
      exact .refl o
    · have heq : s.modifyOrder id (fun child =>
          if child.status.isFinal then child else { child with status := .cancelled }) =
          s.setStatus id .cancelled := by
        refine Executor.modifyOrder_congr fun o' ho' => ?_
        rw [hget] at ho'
        cases ho'
        rw [if_neg hfinal]
      rw [heq]
      exact .single (.withdraw id o .cancelled hget (by simpa using hfinal) (Or.inl rfl))

lemma withdrawOpen_effects (ids : List OrderId) :
    Effects cfg s (ids.foldl (fun s childId =>
      s.modifyOrder childId fun child =>
        if child.status.isFinal then child else { child with status := .cancelled }) s) := by
  induction ids generalizing s with
  | nil => exact .refl
  | cons id ids ih => exact (withdrawIfOpen_effects id).trans ih

lemma cancelLocally_effects {id : OrderId} {o : Order} (hget : s.orders.get? id = some o)
    (hopen : o.status.isFinal = false) : Effects cfg s (cancelLocally id o s) := by
  have hwithdraw : Effects cfg s (s.setStatus id .cancelled) :=
    .single (.withdraw id o .cancelled hget hopen (Or.inl rfl))
  unfold cancelLocally
  dsimp only
  split_ifs with hkind
  · exact (hwithdraw.trans (setBracketState_effects id .cancelled)).trans
      (withdrawOpen_effects o.bracketOrderIds)
  · exact hwithdraw

/-! ### Cancelling locally -/

/-- What the parts of a local cancellation keep, it keeps. -/
lemma cancelLocally_induction {P : Executor → Prop} {id : OrderId} (o : Order) (hs : P s)
    (hstatus : ∀ s, P s → P (s.setStatus id .cancelled))
    (hstate : ∀ s, P s → P (s.setBracketState id .cancelled))
    (hchild : ∀ s childId, P s → P (s.modifyOrder childId fun child =>
      if child.status.isFinal then child else { child with status := .cancelled })) :
    P (cancelLocally id o s) := by
  have hchildren : ∀ (ids : List OrderId) (s : Executor), P s →
      P (ids.foldl (fun s childId => s.modifyOrder childId fun child =>
        if child.status.isFinal then child else { child with status := .cancelled }) s) := by
    intro ids
    induction ids with
    | nil => exact fun _ hs => hs
    | cons c ids ih => exact fun s hs => ih _ (hchild s c hs)
  rw [cancelLocally]
  dsimp only
  split_ifs
  · exact hchildren o.bracketOrderIds _ (hstate _ (hstatus s hs))
  · exact hstatus s hs

/-- The order `x`, with the id `j`, after the local cancellation of the order `o` with the id
`id`. -/
def Order.besideCancelled (id : OrderId) (o : Order) (j : OrderId) (x : Order) : Order :=
  if j = id then
    { x with
      status := .cancelled
      bracketState := if o.orderKind = .entry then .cancelled else x.bracketState }
  else if o.orderKind = .entry ∧ j ∈ o.bracketOrderIds ∧ x.status.isFinal = false then
    { x with status := .cancelled }
  else x

lemma get?_withdrawOpen (ids : List OrderId) (s : Executor) (j : OrderId) :
    (ids.foldl (fun s childId => s.modifyOrder childId fun child =>
      if child.status.isFinal then child else { child with status := .cancelled }) s).orders.get? j =
      (s.orders.get? j).map fun x =>
        if j ∈ ids ∧ x.status.isFinal = false then { x with status := .cancelled } else x := by
  induction ids generalizing s with
  | nil => simp
  | cons c ids ih =>
    rw [List.foldl_cons, ih, Executor.get?_modifyOrder]
    by_cases hj : j = c
    · subst hj
      rw [if_pos rfl, Option.map_map]
      congr 1
      funext x
      by_cases hfinal : x.status.isFinal = true
      · simp [hfinal]
      · simp [hfinal]
    · simp [hj]

lemma get?_cancelLocally (id : OrderId) (o : Order) (s : Executor) (j : OrderId) :
    (cancelLocally id o s).orders.get? j = (s.orders.get? j).map (o.besideCancelled id j) := by
  rw [cancelLocally]
  dsimp only
  by_cases hkind : o.orderKind = .entry
  · rw [if_pos hkind, get?_withdrawOpen, Executor.setBracketState, Executor.setStatus,
      Executor.modifyOrder_modifyOrder, Executor.get?_modifyOrder]
    by_cases hj : j = id
    · subst hj
      rw [if_pos rfl, Option.map_map]
      congr 1
      funext x
      simp [Order.besideCancelled, hkind]
    · rw [if_neg hj]
      congr 1
      funext x
      simp [Order.besideCancelled, hkind, hj]
  · rw [if_neg hkind, Executor.setStatus, Executor.get?_modifyOrder]
    by_cases hj : j = id
    · subst hj
      rw [if_pos rfl]
      congr 1
      funext x
      simp [Order.besideCancelled, hkind]
    · rw [if_neg hj]
      cases s.orders.get? j <;> simp [Order.besideCancelled, hkind, hj]

/-- A new entry that is offered its whole size is complete. -/
lemma buildEntryOrder_filled_pos {env : Ambient} {req : PlaceRequest}
    (hvalid : validateOrder cfg env req = none) (id : OrderId) (price : ℚ) (now : Time) :
    0 < ((buildEntryOrder cfg env req id).applyFill req.sizeUsdc price now).filledSizeUsdc := by
  have hsize := half_le_of_valid hvalid
  have haccepted : (buildEntryOrder cfg env req id).acceptedFill req.sizeUsdc = req.sizeUsdc := by
    rw [buildEntryOrder_eq, Order.acceptedFill, min_self]
  have hpos : 0 < (buildEntryOrder cfg env req id).acceptedFill req.sizeUsdc := by
    rw [haccepted]
    linarith
  have hfilled : (buildEntryOrder cfg env req id).filledSizeUsdc = 0 := by rw [buildEntryOrder_eq]
  have hround := le_round8_add req.sizeUsdc
  have hdust : dust = 1 / 10 ^ 8 := rfl
  rw [Order.applyFill_of_pos hpos]
  dsimp only
  rw [haccepted, hfilled, zero_add]
  norm_num [hdust] at hround ⊢
  linarith

lemma fillOnPlace_effects {env : Ambient} {req : PlaceRequest} {id : OrderId}
    (hvalid : validateOrder cfg env req = none)
    (hget : s.orders.get? id = some (buildEntryOrder cfg env req id)) :
    Effects cfg s (fillOnPlace cfg env req id s) := by
  unfold fillOnPlace
  split_ifs with hfill
  · have hkind : (buildEntryOrder cfg env req id).orderKind = .entry := by rw [buildEntryOrder_eq]
    set price := limitPrice req.direction req.price with hprice
    have heffect : Effects cfg s (s.modifyOrder id (·.applyFill req.sizeUsdc price env.now)) := by
      refine .single (.fill id _ _ _ _ hget (by rw [hkind]; rfl) ?_)
      rw [buildEntryOrder_eq]
      rfl
    dsimp only
    cases req.bracket cfg with
    | none => exact heffect
    | some spec =>
      refine heffect.trans ((armBracketOrders_armings spec env.now id _).effects fun o ho => ?_)
      rw [Executor.get?_modifyOrder_self, hget, Option.map_some, Option.some.injEq] at ho
      subst ho
      have hpos := buildEntryOrder_filled_pos hvalid id price env.now
      exact ⟨fun _ => hpos, fun h => h hpos⟩
  · exact .refl

lemma reconcilePaperEntry_effects {data : MarketData} {now : Time} {id : OrderId} {o : Order}
    (hs : s.Accounted) (hget : s.orders.get? id = some o) (hkind : o.orderKind = .entry)
    (hstatus : o.status = .placed ∨ o.status = .partiallyFilled) :
    Effects cfg s (reconcilePaperEntry cfg data now id o s).2 := by
  have heffect : Effects cfg s (s.modifyOrder id fun _ => o.paperFill cfg data now) := by
    have heq : s.modifyOrder id (fun _ => o.paperFill cfg data now) =
        s.modifyOrder id (·.applyFill (paperFillSize cfg o) (entryFillPrice data o) now) := by
      refine Executor.modifyOrder_congr fun o' ho' => ?_
      rw [hget] at ho'
      cases ho'
      rfl
    rw [heq]
    refine .single (.fill id o _ _ _ hget (by rw [hkind]; rfl) ?_)
    rcases hstatus with h | h <;> rw [h] <;> rfl
  unfold reconcilePaperEntry
  dsimp only
  split_ifs with hmarket hmoved
  · refine heffect.trans ((armDefaultBrackets_armings cfg now id _).effects fun o' ho' => ?_)
    rw [Executor.get?_modifyOrder_self, hget, Option.map_some, Option.some.injEq] at ho'
    subst ho'
    refine ⟨fun hcfg => paperFill_pos (hs id o hget) hcfg hkind hstatus hmoved, fun _ => ?_⟩
    by_cases hpos : 0 < o.acceptedFill (paperFillSize cfg o)
    · rw [Order.paperFill, Order.applyFill_of_pos hpos]
      rfl
    · rw [Order.paperFill, Order.applyFill_of_nonpos (not_lt.mp hpos)] at hmoved
      exact absurd rfl hmoved
  · exact heffect
  · exact .refl

lemma armDeferred_effects (now : Time) (id : OrderId) :
    Effects cfg s (armDeferred cfg now id s).2 := by
  unfold armDeferred
  cases hget : s.orders.get? id with
  | none => exact .refl
  | some o =>
    dsimp only
    split_ifs with h
    · refine (armDefaultBrackets_armings cfg now id s).effects fun o' ho' => ?_
      rw [hget] at ho'
      cases ho'
      exact ⟨fun _ => h.2.1, fun h' => h' h.2.1⟩
    · exact .refl

lemma reconcileChild_effects {data : MarketData} {now : Time} {id : OrderId} {o : Order}
    (hget : s.orders.get? id = some o) (hkind : o.orderKind.isBracket = true) :
    Effects cfg s (reconcileChild data now id o s).2 := by
  unfold reconcileChild
  by_cases harmed : o.status = .armed
  · rw [if_neg (not_not.mpr harmed)]
    split_ifs
    · have hwithdraw : Effect cfg s (s.setStatus id .expired) :=
        .withdraw id o .expired hget (by rw [harmed]; rfl) (Or.inr rfl)
      exact (ReflTransGen.single hwithdraw).trans (setParentBracketState_effects o .expired)
    · exact .single (.trigger data now id o hget hkind harmed)
    · exact .refl
  · rw [if_pos harmed]

/-- The statuses of the rows leave an order alone or withdraw it. -/
lemma liveStatus_cases (rows : List StatusRow) (o : Order) :
    o.liveStatus rows = o ∨
    (o.status ≠ .filled ∧ o.status ≠ .partiallyFilled ∧
      (o.liveStatus rows = { o with status := .cancelled } ∨
        o.liveStatus rows = { o with status := .expired })) := by
  unfold Order.liveStatus
  split_ifs with hstatus hcancelled hexpired
  · exact Or.inl rfl
  · exact Or.inr ⟨fun h => hstatus (Or.inl h), fun h => hstatus (Or.inr h), Or.inl rfl⟩
  · exact Or.inr ⟨fun h => hstatus (Or.inl h), fun h => hstatus (Or.inr h), Or.inr rfl⟩
  · exact Or.inl rfl

section Rows

variable {now : Time} {id : OrderId} {rows : List StatusRow} {o : Order}

/-- A fill from the rows that is not in the status was none. -/
lemma liveFill_open (hopen : o.status.isFinal = false) (hne : (o.liveFill rows now).status ≠ .filled)
    (hne' : (o.liveFill rows now).status ≠ .partiallyFilled) :
    (o.liveFill rows now).status.isFinal = false := by
  unfold Order.liveFill at hne hne' ⊢
  split_ifs at hne hne' ⊢ with hdelta
  · rcases Order.applyFill_status o (deltaFilled o rows) (lastPrice o rows) now with
      ⟨heq, _⟩ | ⟨_, h⟩ | ⟨_, h⟩
    · rw [heq]
      exact hopen
    · exact absurd h hne
    · exact absurd h hne'
  · exact hopen

lemma liveFill_effects (hget : s.orders.get? id = some o) (hkind : o.orderKind = .entry)
    (hopen : o.status.isFinal = false) :
    Effects cfg s (s.modifyOrder id (·.liveFill rows now)) := by
  by_cases hdelta : 0 < deltaFilled o rows
  · have heq : s.modifyOrder id (·.liveFill rows now) =
        s.modifyOrder id (·.applyFill (deltaFilled o rows) (lastPrice o rows) now) := by
      refine Executor.modifyOrder_congr fun o' ho' => ?_
      rw [hget] at ho'
      cases ho'
      rw [Order.liveFill, if_pos hdelta]
    rw [heq]
    exact .single (.fill id o _ _ _ hget (by rw [hkind]; rfl) hopen)
  · refine .single (.touch id _ fun o' ho' => ?_)
    rw [hget] at ho'
    cases ho'
    rw [Order.liveFill, if_neg hdelta]
    exact .refl o

/-- The statuses of the rows withdraw an open order at most. -/
lemma liveStatus_effects (hget : s.orders.get? id = some o)
    (hopen : o.status ≠ .filled → o.status ≠ .partiallyFilled → o.status.isFinal = false) :
    Effects cfg s (s.modifyOrder id (·.liveStatus rows)) := by
  rcases liveStatus_cases rows o with hsame | ⟨hne, hne', hwithdrawn⟩
  · refine .single (.touch id _ fun o' ho' => ?_)
    rw [hget] at ho'
    cases ho'
    rw [hsame]
    exact .refl _
  · have hwithdraw : ∀ status, status = .cancelled ∨ status = .expired →
        o.liveStatus rows = { o with status } →
          Effects cfg s (s.modifyOrder id (·.liveStatus rows)) := by
      intro status hstatus h
      have heq : s.modifyOrder id (·.liveStatus rows) = s.setStatus id status := by
        refine Executor.modifyOrder_congr fun o' ho' => ?_
        rw [hget] at ho'
        cases ho'
        exact h
      rw [heq]
      exact .single (.withdraw id _ status hget (hopen hne hne') hstatus)
    rcases hwithdrawn with h | h
    · exact hwithdraw .cancelled (Or.inl rfl) h
    · exact hwithdraw .expired (Or.inr rfl) h

lemma applyStatusRows_effects (hget : s.orders.get? id = some o) (hkind : o.orderKind = .entry)
    (hopen : o.status.isFinal = false) :
    Effects cfg s (applyStatusRows cfg now id rows s).2 := by
  -- first the fill, then the status
  have hget' : (s.modifyOrder id (·.liveFill rows now)).orders.get? id =
      some (o.liveFill rows now) := by
    rw [Executor.get?_modifyOrder_self, hget, Option.map_some]
  have hboth : s.modifyOrder id (fun _ => (o.liveFill rows now).liveStatus rows) =
      (s.modifyOrder id (·.liveFill rows now)).modifyOrder id (·.liveStatus rows) := by
    rw [Executor.modifyOrder_modifyOrder]
    refine Executor.modifyOrder_congr fun o' ho' => ?_
    rw [hget] at ho'
    cases ho'
    rfl
  have heffects : Effects cfg s (s.modifyOrder id fun _ => (o.liveFill rows now).liveStatus rows) := by
    rw [hboth]
    exact (liveFill_effects hget hkind hopen).trans (liveStatus_effects hget' (liveFill_open hopen))
  unfold applyStatusRows
  simp only [hget]
  split_ifs with hrows hpos
  · exact .refl
  · refine heffects.trans ((armDefaultBrackets_armings cfg now id _).effects fun o' ho' => ?_)
    rw [Executor.get?_modifyOrder_self, hget, Option.map_some, Option.some.injEq] at ho'
    subst ho'
    rcases liveStatus_cases rows (o.liveFill rows now) with h | ⟨_, _, h | h⟩ <;> rw [h] <;>
      exact ⟨fun _ => hpos, fun h' => h' hpos⟩
  · exact heffects

end Rows

/-- Every command is a chain of effects. -/
theorem Command.effects {s' : Executor} (h : Command cfg s s') : Effects cfg s s' := by
  cases h with
  | cleanup now =>
    exact .single (.bookkeeping _ (orders_cleanupRecentPlacements cfg now s)
      (nextId_cleanupRecentPlacements cfg now s).ge)
  | openEntry env req hvalid =>
    refine ReflTransGen.tail (.single (.insert (buildEntryOrder cfg env req) ?_ fun id => ?_))
      (.bookkeeping _ rfl le_rfl)
    · exact buildEntryOrder_new env req (half_le_of_valid hvalid)
    · rw [buildEntryOrder_eq]
  | fillOnPlace env req id hvalid hget hpaper => exact fillOnPlace_effects hvalid hget
  | persist env req =>
    refine .single (.bookkeeping _ (orders_persistOrderIntent ..) ?_)
    rw [nextId_persistOrderIntent]
    exact Nat.le_succ _
  | abandon id o hget hkind hstatus =>
    exact .single (.withdraw id o .cancelled hget (by rw [hstatus]; rfl) (Or.inl rfl))
  | acknowledgeEntry req exchangeIds id o hget hkind =>
    exact .single (.touch id _ fun o _ =>
      ⟨by constructor <;> rfl, by constructor <;> rfl, rfl, rfl⟩)
  | cancelLocally id o hget hopen => exact cancelLocally_effects hget hopen
  | cancelConfirmed id o hget hkind hopen =>
    exact ReflTransGen.trans (.single (.withdraw id o .cancelled hget hopen (Or.inl rfl)))
      (setBracketState_effects id .cancelled)
  | expire id o hget harmed =>
    exact .single (.withdraw id o .expired hget (by rw [harmed]; rfl) (Or.inr rfl))
  | openExit env req hsize =>
    refine .single (.insert (buildExitOrder cfg env req) (buildExitOrder_new env req hsize) ?_)
    intro id
    rw [buildExitOrder_eq]
  | fillExit env req id hsize hget hpaper =>
    refine .single (.fill id _ _ _ _ hget ?_ ?_) <;> rw [buildExitOrder_eq] <;> rfl
  | acknowledgeExit id exchangeId o hget hkind =>
    exact .single (.touch id _ fun o _ =>
      ⟨by constructor <;> rfl, by constructor <;> rfl, rfl, rfl⟩)

/-- Every change is a chain of effects. -/
theorem Change.effects {s' : Executor} (h : Change cfg s s') (hs : s.Accounted) :
    Effects cfg s s' := by
  cases h with
  | command h => exact h.effects
  | paperEntry data now id o hget hkind hstatus hpaper =>
    exact reconcilePaperEntry_effects hs hget hkind hstatus
  | deferred now id => exact armDeferred_effects now id
  | child data now id o hget hkind => exact reconcileChild_effects hget hkind
  | statusRows now id rows o hget hkind hopen hlive =>
    exact applyStatusRows_effects hget hkind hopen

end PolyCortex
