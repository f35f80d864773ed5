import Mathlib.Data.List.Sort
import PolyCortex.Execution.Reentry

/-!
# Entries and their brackets

An entry and the two children of its bracket are a family. `Executor.Related` says how the
families of a state look, whatever the settings, and the frame lemmas say that a round of a pass
and a cancellation concern one family only. A pass over all orders then comes down to three rounds:
that of the entry, and those of its children (`reconcileOrders_family`).
-/

namespace PolyCortex

open Coroutine Relation

variable {cfg : Config} {s s' : Executor} {e id j : OrderId}

/-! ### Brackets -/

/-- `o` is the child of the kind `kind` of the entry `e`, in the group `g`. -/
structure Order.IsChild (o : Order) (e : OrderId) (g : ℕ) (kind : OrderKind) (entry : Order) :
    Prop where
  orderKind : o.orderKind = kind
  parentOrderId : o.parentOrderId = some e
  ocoGroupId : o.ocoGroupId = some g
  marketId : o.marketId = entry.marketId

/-- The entry `e` has the children `tp` and `sl`, in the group `g`. -/
structure Executor.Bracket (s : Executor) (e : OrderId) (entry : Order) (g : ℕ) (tp sl : Order) :
    Prop where
  get : s.orders.get? e = some entry
  kind : entry.orderKind = .entry
  ids : entry.bracketOrderIds = [g + 1, g + 2]
  before : e ≤ g
  get_takeProfit : s.orders.get? (g + 1) = some tp
  get_stopLoss : s.orders.get? (g + 2) = some sl
  takeProfit : tp.IsChild e g .takeProfit entry
  stopLoss : sl.IsChild e g .stopLoss entry
  expiry : sl.gttExpiryAt = tp.gttExpiryAt

/-- How the orders of a state hang together. -/
structure Executor.Related (s : Executor) : Prop where
  accounted : s.Accounted
  keyed : s.Keyed
  root : ∀ id o, s.orders.get? id = some o → o.orderKind.isBracket = false →
    o.parentOrderId = none ∧ o.ocoGroupId = none
  child : ∀ c o, s.orders.get? c = some o → o.orderKind.isBracket = true →
    ∃ e entry g tp sl, s.Bracket e entry g tp sl ∧
      (c = g + 1 ∨ c = g + 2)
  listed : ∀ e entry, s.orders.get? e = some entry → entry.bracketOrderIds ≠ [] →
    ∃ g tp sl, s.Bracket e entry g tp sl

lemma Order.IsChild.of_sameTerms {g : ℕ} {kind : OrderKind} {entry entry' o o' : Order}
    (h : o.IsChild e g kind entry) (hentry : Order.SameTerms entry entry')
    (ho : Order.SameTerms o o') : o'.IsChild e g kind entry' := by
  constructor
  · exact ho.orderKind.trans h.orderKind
  · exact ho.parentOrderId.trans h.parentOrderId
  · exact ho.ocoGroupId.trans h.ocoGroupId
  · exact ho.marketId.trans (h.marketId.trans hentry.marketId.symm)

/-- A bracket survives what keeps the terms and the listed children of all orders. -/
lemma Executor.Bracket.of_kept {entry tp sl : Order} {g : ℕ}
    (h : s.Bracket e entry g tp sl)
    (hkept : ∀ id o, s.orders.get? id = some o → ∃ o', s'.orders.get? id = some o' ∧
      Order.SameTerms o o' ∧ (o.bracketOrderIds ≠ [] → o'.bracketOrderIds = o.bracketOrderIds)) :
    ∃ entry' tp' sl', s'.Bracket e entry' g tp' sl' := by
  obtain ⟨entry', hentry', hterms, hids⟩ := hkept e entry h.get
  obtain ⟨tp', htp', htpTerms, _⟩ := hkept _ tp h.get_takeProfit
  obtain ⟨sl', hsl', hslTerms, _⟩ := hkept _ sl h.get_stopLoss
  refine ⟨entry', tp', sl', hentry', hterms.orderKind.trans h.kind, ?_, h.before, htp', hsl',
    h.takeProfit.of_sameTerms hterms htpTerms, h.stopLoss.of_sameTerms hterms hslTerms, ?_⟩
  · rw [hids (by simp [h.ids]), h.ids]
  · rw [htpTerms.gttExpiryAt, hslTerms.gttExpiryAt, h.expiry]

/-- What keeps the terms and the listed children of all orders, and adds roots only, keeps the
relations. -/
lemma Executor.Related.of_kept (hs : s.Related) (haccounted : s'.Accounted) (hkeyed : s'.Keyed)
    (hkept : ∀ id o, s.orders.get? id = some o → ∃ o', s'.orders.get? id = some o' ∧
      Order.SameTerms o o' ∧ (o.bracketOrderIds ≠ [] → o'.bracketOrderIds = o.bracketOrderIds))
    (hsource : ∀ id o', s'.orders.get? id = some o' → (∃ o, s.orders.get? id = some o ∧
      Order.SameTerms o o' ∧ o'.bracketOrderIds = o.bracketOrderIds) ∨ o'.New id) :
    s'.Related := by
  refine ⟨haccounted, hkeyed, ?_, ?_, ?_⟩
  · intro id o' ho' hkind
    rcases hsource id o' ho' with ⟨o, ho, hterms, _⟩ | hnew
    · rw [hterms.parentOrderId, hterms.ocoGroupId]
      exact hs.root id o ho (hterms.orderKind ▸ hkind)
    · exact ⟨hnew.parentOrderId, hnew.ocoGroupId⟩
  · intro c o' ho' hkind
    rcases hsource c o' ho' with ⟨o, ho, hterms, _⟩ | hnew
    · obtain ⟨e, entry, g, tp, sl, hbracket, hc⟩ := hs.child c o ho (hterms.orderKind ▸ hkind)
      obtain ⟨entry', tp', sl', hbracket'⟩ := hbracket.of_kept hkept
      exact ⟨e, entry', g, tp', sl', hbracket', hc⟩
    · rw [hnew.kind] at hkind
      cases hkind
  · intro e entry' hentry' hids
    rcases hsource e entry' hentry' with ⟨entry, hentry, _, hids'⟩ | hnew
    · obtain ⟨g, tp, sl, hbracket⟩ := hs.listed e entry hentry (hids' ▸ hids)
      obtain ⟨x, tp', sl', hbracket'⟩ := hbracket.of_kept hkept
      obtain rfl := Option.some.inj (hentry'.symm.trans hbracket'.get)
      exact ⟨g, tp', sl', hbracket'⟩
    · exact absurd hnew.bracketOrderIds hids

/-- The bracket that arming creates. -/
lemma createBrackets_bracket (hs : s.Keyed) {o : Order} (hget : s.orders.get? e = some o)
    (hkind : o.orderKind = .entry) (spec : BracketSpec) (now : Time) :
    (createBrackets spec now e o s).2.Bracket e (o.withBracket s.nextId) s.nextId
      (takeProfitOrder o spec now s.nextId (s.nextId + 1))
      (stopLossOrder o spec now s.nextId (s.nextId + 2)) := by
  refine ⟨get?_createBrackets_self spec now hget, hkind, rfl, (Executor.lt_nextId hget).le,
    by simp [get?_createBrackets spec now hget], by simp [get?_createBrackets spec now hget],
    ?_, ?_, ?_⟩
  · rw [takeProfitOrder, bracketChild_eq]
    exact ⟨rfl, by rw [hs e o hget], rfl, rfl⟩
  · rw [stopLossOrder, bracketChild_eq]
    exact ⟨rfl, by rw [hs e o hget], rfl, rfl⟩
  · rw [takeProfitOrder, stopLossOrder, bracketChild_eq, bracketChild_eq]

lemma Executor.Related.create (hs : s.Related) {o : Order} (hget : s.orders.get? e = some o)
    (hkind : o.orderKind = .entry) (hnone : o.bracketOrderIds = []) {spec : BracketSpec}
    {now : Time} (haccounted : (createBrackets spec now e o s).2.Accounted)
    (hkeyed : (createBrackets spec now e o s).2.Keyed) :
    (createBrackets spec now e o s).2.Related := by
  have hnew := createBrackets_bracket hs.keyed hget hkind spec now
  have hkept : ∀ id x, s.orders.get? id = some x → ∃ x',
      (createBrackets spec now e o s).2.orders.get? id = some x' ∧ Order.SameTerms x x' ∧
        (x.bracketOrderIds ≠ [] → x'.bracketOrderIds = x.bracketOrderIds) := by
    intro id x hx
    rw [get?_createBrackets_of_some spec now hget hx]
    split_ifs with hid
    · subst hid
      obtain rfl := Option.some.inj (hget.symm.trans hx)
      exact ⟨_, rfl, by constructor <;> rfl, fun h => absurd hnone h⟩
    · exact ⟨x, rfl, .refl x, fun _ => rfl⟩
  refine ⟨haccounted, hkeyed, ?_, ?_, ?_⟩
  · intro id x' hx' hroot
    rcases createBrackets_cases spec now hget hx' with ⟨_, hchild⟩ | ⟨rfl, rfl⟩ | ⟨_, hx⟩
    · rw [hchild.kind] at hroot
      cases hroot
    · exact hs.root id o hget hroot
    · exact hs.root id x' hx hroot
  · intro c x' hx' hbracket
    rcases createBrackets_cases spec now hget hx' with ⟨hc, _⟩ | ⟨rfl, rfl⟩ | ⟨_, hx⟩
    · exact ⟨e, _, _, _, _, hnew, hc⟩
    · replace hbracket : o.orderKind.isBracket = true := hbracket
      rw [hkind] at hbracket
      cases hbracket
    · obtain ⟨e', entry, g, tp, sl, hold, hc⟩ := hs.child c x' hx hbracket
      obtain ⟨entry', tp', sl', hold'⟩ := hold.of_kept hkept
      exact ⟨e', entry', g, tp', sl', hold', hc⟩
  · intro e' x' hx' hids
    rcases createBrackets_cases spec now hget hx' with ⟨_, hchild⟩ | ⟨rfl, rfl⟩ | ⟨_, hx⟩
    · exact absurd hchild.bracketOrderIds hids
    · exact ⟨_, _, _, hnew⟩
    · obtain ⟨g, tp, sl, hold⟩ := hs.listed e' x' hx hids
      obtain ⟨y, tp', sl', hold'⟩ := hold.of_kept hkept
      obtain rfl := Option.some.inj (hx'.symm.trans hold'.get)
      exact ⟨g, tp', sl', hold'⟩

lemma Effect.related (h : Effect cfg s s') (hs : s.Related) : s'.Related := by
  have haccounted := (h.conserves hs.accounted).accounted
  have hkeyed : s'.Keyed := Effects.keyed (.single h) hs.keyed
  have hkept : ∀ id o, s.orders.get? id = some o → ∃ o', s'.orders.get? id = some o' ∧
      Order.SameTerms o o' ∧ (o.bracketOrderIds ≠ [] → o'.bracketOrderIds = o.bracketOrderIds) := by
    intro id o ho
    obtain ⟨o', ho', hterms, _⟩ := h.follows id o ho
    refine ⟨o', ho', hterms, fun hids => ?_⟩
    obtain ⟨x, hx, _, hids'⟩ := h.keepsBracket ho hids
    exact Option.some.inj (ho'.symm.trans hx) ▸ hids'
  have hmap : ∀ f : OrderId → Order → Order,
      (∀ id, s'.orders.get? id = (s.orders.get? id).map (f id)) →
      (∀ id o, s.orders.get? id = some o → (f id o).bracketOrderIds = o.bracketOrderIds) →
      s'.Related := by
    intro f hget hids
    refine hs.of_kept haccounted hkeyed hkept fun id o' ho' => Or.inl ?_
    rw [hget] at ho'
    obtain ⟨o, ho, rfl⟩ := Option.map_eq_some_iff.mp ho'
    obtain ⟨x, hx, hterms, _⟩ := hkept id o ho
    rw [hget, ho, Option.map_some, Option.some.injEq] at hx
    exact ⟨o, ho, hx ▸ hterms, hids id o ho⟩
  have hmodify : ∀ {j : OrderId} {f : Order → Order}, s' = s.modifyOrder j f →
      (∀ o, s.orders.get? j = some o → (f o).bracketOrderIds = o.bracketOrderIds) →
      s'.Related := by
    intro j f hs' hids
    apply hmap fun id o => if id = j then f o else o
    · intro id
      rw [hs', Executor.get?_modifyOrder]
      split_ifs with hid
      · rw [hid]
      · simp
    · intro id o ho
      split_ifs with hid
      · exact hids o (hid ▸ ho)
      · rfl
  cases h with
  | bookkeeping _ horders hid =>
    exact hmap (fun _ o => o) (fun id => by simp [horders]) fun _ _ _ => rfl
  | insert mk hnew hpaper =>
    refine hs.of_kept haccounted hkeyed hkept fun id o' ho' => ?_
    rw [Executor.get?_insertOrder] at ho'
    split_ifs at ho' with hid
    · rw [hid, ← Option.some.inj ho']
      exact Or.inr (hnew _)
    · exact Or.inl ⟨o', ho', .refl o', rfl⟩
  | touch j f htouch => exact hmodify rfl fun o ho => (htouch o ho).bracketOrderIds
  | withdraw j o status hget hopen hstatus => exact hmodify rfl fun _ _ => rfl
  | fill j o x p now hget hkind hopen =>
    exact hmodify rfl fun o _ => o.applyFill_bracketOrderIds _ _ _
  | refresh parentId o hget hkind =>
    apply hmap _ (get?_syncChildSizes o s)
    intro id child _
    split_ifs
    · exact Order.resized_bracketOrderIds _ child
    · rfl
  | create parentId o spec now hget hkind hnone hfill =>
    exact hs.create hget hkind hnone haccounted hkeyed
  | trigger data now j o hget hkind harmed =>
    apply hmap (fun id x => (o.exitFill data now).besideTriggered id
      (if id = j then o.exitFill data now else x))
    · intro id
      rw [get?_triggerChild hget]
      split_ifs with hid
      · rw [hid, hget, Option.map_some, Option.map_some]
      · rfl
    · intro id x hx
      rw [besideTriggered_bracketOrderIds]
      split_ifs with hid
      · subst hid
        rw [Option.some.inj (hx.symm.trans hget), Order.exitFill, Order.applyFill_bracketOrderIds]
      · rfl

lemma Changes.related (h : Changes cfg s s') (hs : s.Related) : s'.Related := by
  have heffects : ∀ {s s'}, Effects cfg s s' → s.Related → s'.Related := by
    intro s s' h hs
    induction h with
    | refl => exact hs
    | tail _ hstep ih => exact hstep.related ih
  induction h with
  | refl => exact hs
  | tail _ hstep ih => exact heffects (hstep.effects ih.accounted) ih

lemma Executor.related_init : Executor.init.Related := by
  refine ⟨Executor.accounted_init, ?_, ?_, ?_, ?_⟩
  · rintro id o ⟨⟩
  · rintro id o ⟨⟩
  · rintro id o ⟨⟩
  · rintro id o ⟨⟩

/-- The parent of a bracket child is an entry with brackets. -/
lemma Executor.Related.parent_of_child (hs : s.Related) {id : OrderId} {o : Order}
    (hget : s.orders.get? id = some o) (hkind : o.orderKind.isBracket = true) :
    ∃ e entry, o.parentOrderId = some e ∧ s.orders.get? e = some entry ∧
      entry.orderKind = .entry ∧ entry.bracketOrderIds ≠ [] := by
  obtain ⟨e, entry, g, tp, sl, hb, rfl | rfl⟩ := hs.child id o hget hkind
  · rw [Option.some.inj (hget.symm.trans hb.get_takeProfit)]
    exact ⟨e, entry, hb.takeProfit.parentOrderId, hb.get, hb.kind, by simp [hb.ids]⟩
  · rw [Option.some.inj (hget.symm.trans hb.get_stopLoss)]
    exact ⟨e, entry, hb.stopLoss.parentOrderId, hb.get, hb.kind, by simp [hb.ids]⟩

theorem runAll_related (cfg : Config) (run : List Invocation) : (runAll cfg run).state.Related :=
  Changes.related (runFrom_changes cfg ⟨.init, []⟩ run) Executor.related_init

/-- A bracket keeps its group and its children, whatever happens. -/
lemma Executor.Bracket.of_changes {entry tp sl : Order} {g : ℕ} (hb : s.Bracket e entry g tp sl)
    (hs : s.Accounted) (h : Changes cfg s s') :
    ∃ entry' tp' sl', s'.Bracket e entry' g tp' sl' := by
  apply hb.of_kept
  intro id o ho
  obtain ⟨o', ho', hterms, _⟩ := h.follows hs id o ho
  refine ⟨o', ho', hterms, fun hids => ?_⟩
  obtain ⟨x, hx, _, hids'⟩ := h.keepsBracket hs ho hids
  exact Option.some.inj (ho'.symm.trans hx) ▸ hids'

/-! ### The order of the ids -/

/-- The orders are stored in the order of their ids. -/
def Executor.Ordered (s : Executor) : Prop := s.orders.keys.Pairwise (· < ·)

lemma Executor.Ordered.insertOrder (hs : s.Ordered) (mk : OrderId → Order) :
    (s.insertOrder mk).Ordered := by
  have hkeys : (s.insertOrder mk).orders.keys = s.orders.keys ++ [s.nextId] :=
    Dict.keys_set_of_none s.get?_nextId _
  rw [Ordered, hkeys, List.pairwise_append]
  refine ⟨hs, List.pairwise_singleton _ _, fun a ha b hb => ?_⟩
  rw [List.mem_singleton.mp hb]
  exact s.fresh a ha

lemma keys_syncChildSizes (parent : Order) (s : Executor) :
    (syncChildSizes parent s).orders.keys = s.orders.keys := by
  rw [syncChildSizes]
  induction parent.bracketOrderIds generalizing s with
  | nil => rfl
  | cons id ids ih =>
    rw [List.foldl_cons, ih]
    rfl

lemma nextId_syncChildSizes (parent : Order) (s : Executor) :
    (syncChildSizes parent s).nextId = s.nextId := by
  rw [syncChildSizes]
  induction parent.bracketOrderIds generalizing s with
  | nil => rfl
  | cons id ids ih =>
    rw [List.foldl_cons, ih]
    rfl

/-- Ids are handed out once. -/
lemma Effect.nextId_le (h : Effect cfg s s') : s.nextId ≤ s'.nextId := by
  cases h with
  | bookkeeping _ horders hid => exact hid
  | insert mk hnew hpaper => exact Nat.le_succ _
  | touch j f htouch => exact le_rfl
  | withdraw j o status hget hopen hstatus => exact le_rfl
  | fill j o x p now hget hkind hopen => exact le_rfl
  | refresh parentId o hget hkind => exact (nextId_syncChildSizes o s).ge
  | create parentId o spec now hget hkind hnone hfill => exact Nat.le_add_right s.nextId 3
  | trigger data now j o hget hkind harmed =>
    simp only [triggerChild, cancelSiblings, setParentBracketState]
    cases (o.exitFill data now).parentOrderId <;> exact le_rfl

lemma Changes.nextId_le (h : Changes cfg s s') (hs : s.Accounted) : s.nextId ≤ s'.nextId := by
  have heffects : ∀ {s s'}, Effects cfg s s' → s.nextId ≤ s'.nextId := by
    intro s s' h
    induction h with
    | refl => exact le_rfl
    | tail _ hstep ih => exact ih.trans hstep.nextId_le
  induction h with
  | refl => exact le_rfl
  | tail hpre hstep ih =>
    exact ih.trans (heffects (hstep.effects (Changes.conserves hpre hs).accounted))

/-- An order was there before, or it has a new id. -/
lemma Effect.old_or_new (h : Effect cfg s s') {id : OrderId} {o' : Order}
    (hget : s'.orders.get? id = some o') :
    (∃ o, s.orders.get? id = some o) ∨ s.nextId ≤ id := by
  have hmodify : ∀ {j : OrderId} {f : Order → Order},
      (s.modifyOrder j f).orders.get? id = some o' → ∃ o, s.orders.get? id = some o := by
    intro j f hget
    rw [Executor.get?_modifyOrder] at hget
    split_ifs at hget with hid
    · obtain ⟨o, ho, -⟩ := Option.map_eq_some_iff.mp hget
      exact ⟨o, hid ▸ ho⟩
    · exact ⟨o', hget⟩
  cases h with
  | bookkeeping _ horders hid => exact Or.inl ⟨o', horders ▸ hget⟩
  | insert mk hnew hpaper =>
    rw [Executor.get?_insertOrder] at hget
    split_ifs at hget with hid
    · exact Or.inr hid.ge
    · exact Or.inl ⟨o', hget⟩
  | touch j f htouch => exact Or.inl (hmodify hget)
  | withdraw j o status hj hopen hstatus => exact Or.inl (hmodify hget)
  | fill j o x p now hj hkind hopen => exact Or.inl (hmodify hget)
  | refresh parentId o hj hkind =>
    rw [get?_syncChildSizes] at hget
    obtain ⟨o, ho, -⟩ := Option.map_eq_some_iff.mp hget
    exact Or.inl ⟨o, ho⟩
  | create parentId o spec now hj hkind hnone hfill =>
    rw [get?_createBrackets spec now hj] at hget
    split_ifs at hget with hsl htp hparent
    · exact Or.inr (hsl ▸ Nat.le_add_right _ _)
    · exact Or.inr (htp ▸ Nat.le_add_right _ _)
    · exact Or.inl ⟨o, hparent ▸ hj⟩
    · exact Or.inl ⟨o', hget⟩
  | trigger data now j o hj hkind harmed =>
    rw [get?_triggerChild hj] at hget
    obtain ⟨x, hx, -⟩ := Option.map_eq_some_iff.mp hget
    split_ifs at hx with hid
    · exact Or.inl ⟨o, hid ▸ hj⟩
    · exact Or.inl ⟨x, hx⟩

/-- The ids of all orders are at least `n`. -/
structure Executor.StartsAt (n : ℕ) (s : Executor) : Prop where
  next : n ≤ s.nextId
  orders : ∀ id o, s.orders.get? id = some o → n ≤ id

lemma Changes.old_or_new (h : Changes cfg s s') (hacc : s.Accounted) {id : OrderId} {o' : Order}
    (hget : s'.orders.get? id = some o') : (∃ o, s.orders.get? id = some o) ∨ s.nextId ≤ id := by
  have heffects : ∀ {s s'}, Effects cfg s s' → s.nextId ≤ s'.nextId ∧
      ∀ id o', s'.orders.get? id = some o' → (∃ o, s.orders.get? id = some o) ∨ s.nextId ≤ id := by
    intro s s' h
    induction h with
    | refl => exact ⟨le_rfl, fun id o' hget => Or.inl ⟨o', hget⟩⟩
    | tail _ hstep ih =>
      refine ⟨ih.1.trans hstep.nextId_le, fun id o' hget => ?_⟩
      rcases hstep.old_or_new hget with ⟨o, ho⟩ | hnew
      · exact ih.2 id o ho
      · exact Or.inr (ih.1.trans hnew)
  induction h generalizing o' with
  | refl => exact Or.inl ⟨o', hget⟩
  | tail hpre hstep ih =>
    have hlast := heffects (hstep.effects (Changes.conserves hpre hacc).accounted)
    rcases hlast.2 id o' hget with ⟨o, ho⟩ | hnew
    · exact ih ho
    · exact Or.inr ((Changes.nextId_le hpre hacc).trans hnew)

lemma Changes.startsAt {n : ℕ} (h : Changes cfg s s') (hacc : s.Accounted) (hs : s.StartsAt n) :
    s'.StartsAt n := by
  have heffects : ∀ {s s'}, Effects cfg s s' → s.StartsAt n → s'.StartsAt n := by
    intro s s' h hs
    induction h with
    | refl => exact hs
    | tail _ hstep ih =>
      refine ⟨ih.next.trans hstep.nextId_le, fun id o hget => ?_⟩
      rcases hstep.old_or_new hget with ⟨o', ho'⟩ | hnew
      · exact ih.orders id o' ho'
      · exact ih.next.trans hnew
  induction h with
  | refl => exact hs
  | tail hpre hstep ih =>
    exact heffects (hstep.effects (Changes.conserves hpre hacc).accounted) ih

lemma Effect.ordered (h : Effect cfg s s') (hs : s.Ordered) : s'.Ordered := by
  cases h with
  | bookkeeping _ horders hid =>
    rw [Executor.Ordered, horders]
    exact hs
  | insert mk hnew hpaper => exact hs.insertOrder mk
  | touch j f htouch => exact hs
  | withdraw j o status hget hopen hstatus => exact hs
  | fill j o x p now hget hkind hopen => exact hs
  | refresh parentId o hget hkind =>
    rw [Executor.Ordered, keys_syncChildSizes]
    exact hs
  | create parentId o spec now hget hkind hnone hfill =>
    have htaken : s.takeId.Ordered := hs
    exact (htaken.insertOrder (takeProfitOrder o spec now s.nextId)).insertOrder
      (stopLossOrder o spec now s.nextId)
  | trigger data now j o hget hkind harmed =>
    have hkeys : (triggerChild data now j o s).2.orders.keys = s.orders.keys := by
      simp only [triggerChild, cancelSiblings, setParentBracketState]
      cases (o.exitFill data now).parentOrderId <;> rfl
    rw [Executor.Ordered, hkeys]
    exact hs

lemma Changes.ordered (h : Changes cfg s s') (hacc : s.Accounted) (hs : s.Ordered) :
    s'.Ordered := by
  have heffects : ∀ {s s'}, Effects cfg s s' → s.Ordered → s'.Ordered := by
    intro s s' h hs
    induction h with
    | refl => exact hs
    | tail _ hstep ih => exact hstep.ordered ih
  induction h with
  | refl => exact hs
  | tail hpre hstep ih =>
    exact heffects (hstep.effects (Changes.conserves hpre hacc).accounted) ih

theorem runAll_ordered (cfg : Config) (run : List Invocation) : (runAll cfg run).state.Ordered :=
  Changes.ordered (runFrom_changes cfg ⟨.init, []⟩ run) Executor.accounted_init .nil

/-- A family is stored in this order. -/
lemma Executor.Bracket.sublist {entry tp sl : Order} {g : ℕ} (hb : s.Bracket e entry g tp sl)
    (hs : s.Ordered) : [e, g + 1, g + 2].Sublist s.orders.keys := by
  have hfirst : e < g + 1 := Nat.lt_succ_of_le hb.before
  have hsecond : g + 1 < g + 2 := Nat.lt_succ_self (g + 1)
  have hsorted : [e, g + 1, g + 2].Pairwise (· < ·) := by
    simp [hfirst, hfirst.trans hsecond]
  refine List.sublist_of_subperm_of_pairwise ?_ hsorted hs
  refine List.subperm_of_subset (hsorted.imp fun h => h.ne) fun id hid => ?_
  simp only [List.mem_cons, List.not_mem_nil, or_false] at hid
  rcases hid with rfl | rfl | rfl
  · exact Dict.mem_keys_of_get? hb.get
  · exact Dict.mem_keys_of_get? hb.get_takeProfit
  · exact Dict.mem_keys_of_get? hb.get_stopLoss

/-! ### Orders of different families -/

/-- The orders `id` and `j` have nothing to do with each other. -/
structure Executor.Apart (s : Executor) (id j : OrderId) : Prop where
  ne : j ≠ id
  notListed : ∀ o, s.orders.get? id = some o → j ∉ o.bracketOrderIds
  notParent : ∀ o, s.orders.get? id = some o → o.parentOrderId ≠ some j
  notSibling : ∀ o x, s.orders.get? id = some o → s.orders.get? j = some x →
    o.ocoGroupId.isSome = true → x.ocoGroupId ≠ o.ocoGroupId

/-- The members of a family are its entry and the two children. -/
lemma Executor.Bracket.member {entry tp sl : Order} {g : ℕ} (hb : s.Bracket e entry g tp sl)
    (hj : j ∈ [e, g + 1, g + 2]) :
    ∃ x, s.orders.get? j = some x ∧ (j = e ∧ x = entry ∨
      x.orderKind.isBracket = true ∧ x.parentOrderId = some e ∧ x.ocoGroupId = some g) := by
  simp only [List.mem_cons, List.not_mem_nil, or_false] at hj
  rcases hj with rfl | rfl | rfl
  · exact ⟨entry, hb.get, Or.inl ⟨rfl, rfl⟩⟩
  · exact ⟨tp, hb.get_takeProfit, Or.inr ⟨by rw [hb.takeProfit.orderKind]; rfl,
      hb.takeProfit.parentOrderId, hb.takeProfit.ocoGroupId⟩⟩
  · exact ⟨sl, hb.get_stopLoss, Or.inr ⟨by rw [hb.stopLoss.orderKind]; rfl,
      hb.stopLoss.parentOrderId, hb.stopLoss.ocoGroupId⟩⟩

/-- Two families that share a group or an entry are the same. -/
lemma Executor.Bracket.unique {e' : OrderId} {entry entry' tp tp' sl sl' : Order} {g g' : ℕ}
    (hb : s.Bracket e entry g tp sl) (hb' : s.Bracket e' entry' g' tp' sl')
    (hsame : e' = e ∨ g' = g) : e' = e ∧ g' = g := by
  rcases hsame with rfl | rfl
  · obtain rfl := Option.some.inj (hb.get.symm.trans hb'.get)
    have hids := hb'.ids.symm.trans hb.ids
    simp only [List.cons.injEq, Nat.add_right_cancel_iff] at hids
    exact ⟨rfl, hids.1⟩
  · have hparent := hb'.takeProfit.parentOrderId
    rw [Option.some.inj (hb'.get_takeProfit.symm.trans hb.get_takeProfit),
      hb.takeProfit.parentOrderId, Option.some.injEq] at hparent
    exact ⟨hparent.symm, rfl⟩

/-- The family that a child belongs to. -/
lemma Executor.Related.familyOf (hs : s.Related) {c : OrderId} {o : Order}
    (hget : s.orders.get? c = some o)
    (hchild : o.parentOrderId.isSome = true ∨ o.ocoGroupId.isSome = true) :
    ∃ e entry g tp sl, s.Bracket e entry g tp sl ∧ c ∈ [e, g + 1, g + 2] ∧
      o.parentOrderId = some e ∧ o.ocoGroupId = some g := by
  have hbracket : o.orderKind.isBracket = true := by
    by_contra hroot
    obtain ⟨hparent, hgroup⟩ := hs.root c o hget (by simpa using hroot)
    simp [hparent, hgroup] at hchild
  obtain ⟨e, entry, g, tp, sl, hb, hc⟩ := hs.child c o hget hbracket
  refine ⟨e, entry, g, tp, sl, hb, by rcases hc with rfl | rfl <;> simp, ?_⟩
  rcases hc with rfl | rfl
  · rw [Option.some.inj (hget.symm.trans hb.get_takeProfit)]
    exact ⟨hb.takeProfit.parentOrderId, hb.takeProfit.ocoGroupId⟩
  · rw [Option.some.inj (hget.symm.trans hb.get_stopLoss)]
    exact ⟨hb.stopLoss.parentOrderId, hb.stopLoss.ocoGroupId⟩

/-- An order that is not in a family has nothing to do with its members. -/
lemma Executor.Bracket.apart {entry tp sl : Order} {g : ℕ} (hb : s.Bracket e entry g tp sl)
    (hs : s.Related) (hid : id ∉ [e, g + 1, g + 2]) (hj : j ∈ [e, g + 1, g + 2]) :
    s.Apart id j := by
  -- the family that `id` has or belongs to is another one
  have hother : ∀ {e' entry' g' tp' sl'}, s.Bracket e' entry' g' tp' sl' →
      id ∈ [e', g' + 1, g' + 2] → e' ≠ e ∧ g' ≠ g := by
    intro e' entry' g' tp' sl' hb' hid'
    by_contra h
    obtain ⟨rfl, rfl⟩ := hb.unique hb' (by tauto)
    exact hid hid'
  obtain ⟨x, hx, hmember⟩ := hb.member hj
  refine ⟨fun h => hid (h ▸ hj), fun o ho hmem => ?_, fun o ho hparent => ?_,
    fun o y ho hy hsome hgroup => ?_⟩
  · obtain ⟨g', tp', sl', hb'⟩ := hs.listed id o ho (List.ne_nil_of_mem hmem)
    rw [hb'.ids] at hmem
    obtain ⟨y, hy, hmember'⟩ := hb'.member (List.mem_cons_of_mem _ hmem)
    obtain rfl := Option.some.inj (hx.symm.trans hy)
    obtain ⟨hne, _⟩ := hother hb' List.mem_cons_self
    rcases hmember with ⟨rfl, rfl⟩ | ⟨_, hparent, _⟩
    · rcases hmember' with ⟨rfl, _⟩ | ⟨hbracket, _⟩
      · exact hne rfl
      · rw [hb.kind] at hbracket
        cases hbracket
    · rcases hmember' with ⟨rfl, rfl⟩ | ⟨_, hparent', _⟩
      · rw [(hs.root _ _ hx (by rw [hb'.kind]; rfl)).1] at hparent
        cases hparent
      · exact hne (Option.some.inj (hparent'.symm.trans hparent))
  · obtain ⟨e', entry', g', tp', sl', hb', hmem, hparent', _⟩ :=
      hs.familyOf ho (Or.inl (by rw [hparent]; rfl))
    obtain ⟨hne, _⟩ := hother hb' hmem
    obtain rfl := Option.some.inj (hparent'.symm.trans hparent)
    rcases hmember with ⟨rfl, _⟩ | ⟨hbracket, _⟩
    · exact hne rfl
    · rw [Option.some.inj (hx.symm.trans hb'.get), hb'.kind] at hbracket
      cases hbracket
  · obtain ⟨e', entry', g', tp', sl', hb', hmem, _, hgroup'⟩ := hs.familyOf ho (Or.inr hsome)
    obtain ⟨_, hne⟩ := hother hb' hmem
    obtain rfl := Option.some.inj (hx.symm.trans hy)
    rw [hgroup'] at hgroup
    rcases hmember with ⟨_, rfl⟩ | ⟨_, _, hgroup''⟩
    · rw [(hs.root _ _ hx (by rw [hb.kind]; rfl)).2] at hgroup
      cases hgroup
    · exact hne (Option.some.inj (hgroup.symm.trans hgroup''))

/-- An entry without a bracket has nothing to do with the others. -/
lemma Executor.Related.apart_of_noBracket (hs : s.Related) {entry : Order}
    (hget : s.orders.get? e = some entry) (hkind : entry.orderKind = .entry)
    (hnone : entry.bracketOrderIds = []) (hid : id ≠ e) : s.Apart id e := by
  obtain ⟨hparent, hgroup⟩ := hs.root e entry hget (by rw [hkind]; rfl)
  refine ⟨hid.symm, fun o ho hmem => ?_, fun o ho hparent' => ?_, fun o x ho hx hsome hgroup' => ?_⟩
  · obtain ⟨g', tp', sl', hb'⟩ := hs.listed id o ho (List.ne_nil_of_mem hmem)
    rw [hb'.ids] at hmem
    obtain ⟨y, hy, hmember⟩ := hb'.member (List.mem_cons_of_mem _ hmem)
    obtain rfl := Option.some.inj (hget.symm.trans hy)
    rcases hmember with ⟨rfl, _⟩ | ⟨hbracket, _⟩
    · exact hid rfl
    · rw [hkind] at hbracket
      cases hbracket
  · obtain ⟨e', entry', g', tp', sl', hb', _, hparent'', _⟩ :=
      hs.familyOf ho (Or.inl (by rw [hparent']; rfl))
    obtain rfl := Option.some.inj (hparent''.symm.trans hparent')
    obtain rfl := Option.some.inj (hget.symm.trans hb'.get)
    rw [hb'.ids] at hnone
    cases hnone
  · obtain rfl := Option.some.inj (hget.symm.trans hx)
    rw [hgroup] at hgroup'
    rw [← hgroup'] at hsome
    cases hsome

/-! ### Frames -/

/-- Arming leaves an order alone that is neither the parent nor one of its children. -/
lemma Armings.frame (h : Armings id s s') {x : Order} (hget : s.orders.get? j = some x)
    (hne : j ≠ id)
    (hlisted : ∀ parent, s.orders.get? id = some parent → j ∉ parent.bracketOrderIds) :
    s'.orders.get? j = some x := by
  have hboth : s'.orders.get? j = some x ∧
      ∀ parent, s'.orders.get? id = some parent → j ∉ parent.bracketOrderIds := by
    induction h with
    | refl => exact ⟨hget, hlisted⟩
    | @tail s₁ s₂ _ hstep ih =>
      obtain ⟨hget', hlisted'⟩ := ih
      have hassign : ∀ f : Order → Order, (∀ o, (f o).bracketOrderIds = o.bracketOrderIds) →
          (s₁.modifyOrder id f).orders.get? j = some x ∧
            ∀ parent, (s₁.modifyOrder id f).orders.get? id = some parent →
              j ∉ parent.bracketOrderIds := by
        intro f hf
        refine ⟨by rwa [Executor.get?_modifyOrder_of_ne s₁ hne], fun parent hparent => ?_⟩
        rw [Executor.get?_modifyOrder_self, Option.map_eq_some_iff] at hparent
        obtain ⟨parent', hparent', rfl⟩ := hparent
        rw [hf]
        exact hlisted' parent' hparent'
      cases hstep with
      | levels takeProfit stopLoss => exact hassign _ fun o => rfl
      | state state => exact hassign _ fun o => rfl
      | refresh parent hparent hkind =>
        refine ⟨by simp [get?_syncChildSizes, hget', hlisted' parent hparent], ?_⟩
        intro parent' hparent''
        rw [get?_syncChildSizes, hparent, Option.map_some, Option.some.injEq] at hparent''
        subst hparent''
        split_ifs
        · simpa using hlisted' parent hparent
        · exact hlisted' parent hparent
      | create spec now parent hparent hkind hnone =>
        obtain ⟨htp, hsl⟩ := Executor.ne_bracketIds hget'
        refine ⟨by simp [get?_createBrackets spec now hparent, htp, hsl, hne, hget'], ?_⟩
        intro parent' hparent'
        rw [get?_createBrackets_self spec now hparent, Option.some.injEq] at hparent'
        subst hparent'
        simp [Order.withBracket, htp, hsl]
  exact hboth.1

/-- The round of an order leaves the orders apart from it alone. -/
lemma RoundOf.frame {books : MarketBooks} {now : Time} (h : RoundOf cfg books now id s s')
    (hapart : s.Apart id j) {x : Order} (hget : s.orders.get? j = some x) :
    s'.orders.get? j = some x := by
  obtain ⟨hne, hlisted, hparent, hsibling⟩ := hapart
  have hassign : ∀ f : Order → Order, (s.modifyOrder id f).orders.get? j = some x := by
    intro f
    rwa [Executor.get?_modifyOrder_of_ne s hne]
  have hassigned : ∀ {o o' : Order}, s.orders.get? id = some o →
      o'.bracketOrderIds = o.bracketOrderIds → ∀ parent,
        (s.modifyOrder id fun _ => o').orders.get? id = some parent →
          j ∉ parent.bracketOrderIds := by
    intro o o' ho hids parent hget'
    rw [Executor.get?_modifyOrder_self, ho, Option.map_some, Option.some.injEq] at hget'
    rw [← hget', hids]
    exact hlisted o ho
  cases h with
  | paperEntry data o ho hkind hstatus hpaper hdata =>
    rw [reconcilePaperEntry]
    dsimp only
    split_ifs
    · refine (armDefaultBrackets_armings cfg now id _).frame (hassign _) hne (hassigned ho ?_)
      rw [Order.paperFill, Order.applyFill_bracketOrderIds]
    · exact hassign _
    · exact hget
  | deferred => exact (armDeferred_armings cfg now id s).frame hget hne hlisted
  | child data o ho hkind hdata =>
    rw [reconcileChild]
    split_ifs
    · exact hget
    · rw [expireChild, get?_setParentBracketState, Executor.setStatus, hassign, Option.map_some,
        if_neg (hparent o ho)]
    · have hfilled := o.applyFill_sameTerms (pyOr o.remainingSizeUsdc o.sizeUsdc)
        (exitPrice data o) now
      rw [get?_triggerChild ho, if_neg hne, hget, Option.map_some, Order.besideTriggered,
        Order.exitFill, hfilled.parentOrderId, if_neg (hparent o ho)]
      have hnot : isOcoSibling (o.applyFill (pyOr o.remainingSizeUsdc o.sizeUsdc)
          (exitPrice data o) now) x = false := by
        rw [Bool.eq_false_iff, ne_eq, isOcoSibling_iff, hfilled.ocoGroupId]
        rintro ⟨hsome, hgroup, _⟩
        exact hsibling o x ho hget hsome hgroup
      simp only [hnot]
      rfl
    · exact hget
  | statusRows rows o ho hkind hopen hlive =>
    rw [applyStatusRows]
    simp only [ho]
    split_ifs with hrows
    · exact hget
    · refine (armDefaultBrackets_armings cfg now id _).frame (hassign _) hne (hassigned ho ?_)
      have hids := (o.afterRows_terms rows now).2
      rwa [Order.afterRows, if_neg hrows] at hids
    · exact hassign _

lemma CancelOf.frame (h : CancelOf id s s') (hapart : s.Apart id j) {x : Order}
    (hget : s.orders.get? j = some x) : s'.orders.get? j = some x := by
  cases h with
  | locally o ho hopen =>
    rw [get?_cancelLocally, hget, Option.map_some, Order.besideCancelled, if_neg hapart.ne, if_neg]
    rintro ⟨_, hmem, _⟩
    exact hapart.notListed o ho hmem
  | confirmed o ho hkind hopen =>
    rwa [Executor.setBracketState, Executor.setStatus, Executor.modifyOrder_modifyOrder,
      Executor.get?_modifyOrder_of_ne s hapart.ne]
  | expire o ho harmed =>
    rwa [Executor.setStatus, Executor.get?_modifyOrder_of_ne s hapart.ne]

end PolyCortex
