import PolyCortex.Execution.LiveEntry

/-!
# The protection of a position

`Executor.Protects` says that the armed children of every entry have the size that the entry has
filled. Arming a bracket establishes it (`armBracketOrders_protects`), and of all changes only a
fill of an open paper entry can break it: when the fill leaves the status of the entry as it is,
its children are not resized. `FillProtected` says when that does no harm.
-/

namespace PolyCortex

open Coroutine Relation
open Executor (KeepsLedger)

variable {cfg : Config} {s s' : Executor} {e id : OrderId}

/-! ### The invariant -/

/-- Children are listed by their parents, and the armed ones have the size that the parent has
filled, unless the parent is `exempt`. -/
structure Executor.Protects (exempt : OrderId → Prop) (s : Executor) : Prop where
  listed : ∀ e entry c, s.orders.get? e = some entry → c ∈ entry.bracketOrderIds →
    ∃ o, s.orders.get? c = some o ∧ o.parentOrderId = some e
  armed : ∀ c o, s.orders.get? c = some o → o.status = .armed →
    ∃ e entry, s.orders.get? e = some entry ∧ entry.orderKind = .entry ∧
      o.parentOrderId = some e ∧ c ∈ entry.bracketOrderIds ∧
      (¬ exempt e → o.sizeUsdc = entry.filledSizeUsdc)

abbrev Executor.Protected (s : Executor) : Prop := s.Protects fun _ => False

/-- The order `e` has an armed child. -/
def Executor.HasArmedChild (s : Executor) (e : OrderId) : Prop :=
  ∃ c ∈ s.orders.keys, ∃ o ∈ s.orders.get? c, o.status = .armed ∧ o.parentOrderId = some e

instance (s : Executor) (e : OrderId) : Decidable (s.HasArmedChild e) :=
  inferInstanceAs (Decidable (∃ c ∈ s.orders.keys, ∃ o ∈ s.orders.get? c,
    o.status = .armed ∧ o.parentOrderId = some e))

lemma Executor.hasArmedChild_iff : s.HasArmedChild e ↔
    ∃ c o, s.orders.get? c = some o ∧ o.status = .armed ∧ o.parentOrderId = some e := by
  constructor
  · rintro ⟨c, _, o, ho, harmed, hparent⟩
    exact ⟨c, o, ho, harmed, hparent⟩
  · rintro ⟨c, o, ho, harmed, hparent⟩
    exact ⟨c, Dict.mem_keys_of_get? ho, o, ho, harmed, hparent⟩

/-- `o'` is what has become of `o`: not armed anew, and of the same size while armed. -/
structure Order.KeepsGuard (o o' : Order) : Prop where
  terms : Order.SameTerms o o'
  bracketOrderIds : o'.bracketOrderIds = o.bracketOrderIds
  armed : o'.status = .armed → o.status = .armed ∧ o'.sizeUsdc = o.sizeUsdc

lemma Order.KeepsGuard.refl (o : Order) : Order.KeepsGuard o o :=
  ⟨.refl o, rfl, fun h => ⟨h, rfl⟩⟩

namespace Executor.Protects

variable {exempt exempt' : OrderId → Prop}

lemma weaken (hs : s.Protects exempt) (h : ∀ e, exempt e → exempt' e) : s.Protects exempt' := by
  refine ⟨hs.listed, fun c o ho harmed => ?_⟩
  obtain ⟨e, entry, hentry, hkind, hparent, hmem, hsize⟩ := hs.armed c o ho harmed
  exact ⟨e, entry, hentry, hkind, hparent, hmem, fun hne => hsize fun hex => hne (h e hex)⟩

/-- An entry without an armed child need not be exempt. -/
lemma of_noArmedChild (hs : s.Protects (· = e)) (hnone : ¬ s.HasArmedChild e) : s.Protected := by
  refine ⟨hs.listed, fun c o ho harmed => ?_⟩
  obtain ⟨e', entry, hentry, hkind, hparent, hmem, hsize⟩ := hs.armed c o ho harmed
  refine ⟨e', entry, hentry, hkind, hparent, hmem, fun _ => hsize ?_⟩
  rintro rfl
  exact hnone (hasArmedChild_iff.mpr ⟨c, o, ho, harmed, hparent⟩)

lemma of_orders_eq (hs : s.Protects exempt) (h : s'.orders = s.orders) : s'.Protects exempt := by
  constructor
  · rw [h]
    exact hs.listed
  · rw [h]
    exact hs.armed

/-- An assignment to all orders; entries whose filled size changes become exempt. -/
lemma of_map (hs : s.Protects exempt) {f : OrderId → Order → Order}
    (hget : ∀ id, s'.orders.get? id = (s.orders.get? id).map (f id))
    (hf : ∀ id o, s.orders.get? id = some o → Order.KeepsGuard o (f id o))
    (hfilled : ∀ id o, s.orders.get? id = some o → o.orderKind = .entry → ¬ exempt' id →
      ¬ exempt id ∧ (f id o).filledSizeUsdc = o.filledSizeUsdc) : s'.Protects exempt' := by
  constructor
  · intro e entry' c hentry' hc
    rw [hget, Option.map_eq_some_iff] at hentry'
    obtain ⟨entry, hentry, rfl⟩ := hentry'
    rw [(hf e entry hentry).bracketOrderIds] at hc
    obtain ⟨o, ho, hparent⟩ := hs.listed e entry c hentry hc
    refine ⟨f c o, by rw [hget, ho, Option.map_some], ?_⟩
    rw [(hf c o ho).terms.parentOrderId, hparent]
  · intro c o' ho' harmed'
    rw [hget, Option.map_eq_some_iff] at ho'
    obtain ⟨o, ho, rfl⟩ := ho'
    obtain ⟨harmed, hsize⟩ := (hf c o ho).armed harmed'
    obtain ⟨e, entry, hentry, hkind, hparent, hmem, heq⟩ := hs.armed c o ho harmed
    have hkeep := hf e entry hentry
    refine ⟨e, f e entry, by rw [hget, hentry, Option.map_some], ?_, ?_, ?_, fun hne => ?_⟩
    · rw [hkeep.terms.orderKind, hkind]
    · rw [(hf c o ho).terms.parentOrderId, hparent]
    · rwa [hkeep.bracketOrderIds]
    · obtain ⟨hne', hfill⟩ := hfilled e entry hentry hkind hne
      rw [hsize, heq hne', hfill]

lemma modifyOrder (hs : s.Protects exempt) {f : Order → Order}
    (hf : ∀ o, s.orders.get? id = some o → Order.KeepsGuard o (f o) ∧
      (o.orderKind = .entry → (f o).filledSizeUsdc = o.filledSizeUsdc)) :
    (s.modifyOrder id f).Protects exempt := by
  refine hs.of_map (f := fun j o => if j = id then f o else o) (fun j => ?_) (fun j o ho => ?_)
    fun j o ho hkind hne => ⟨hne, ?_⟩
  · rw [get?_modifyOrder]
    split_ifs with hj
    · rw [hj]
    · simp
  · split_ifs with hj
    · subst hj
      exact (hf o ho).1
    · exact .refl o
  · split_ifs with hj
    · subst hj
      exact (hf o ho).2 hkind
    · rfl

/-- A fill of the entry `e` makes it exempt. -/
lemma fillEntry (hs : s.Protected) {f : Order → Order}
    (hf : ∀ o, s.orders.get? e = some o → Order.KeepsGuard o (f o)) :
    (s.modifyOrder e f).Protects (· = e) := by
  refine hs.of_map (f := fun j o => if j = e then f o else o) (fun j => ?_) (fun j o ho => ?_)
    fun j o ho hkind hne => ⟨fun h => h, ?_⟩
  · rw [get?_modifyOrder]
    split_ifs with hj
    · rw [hj]
    · simp
  · split_ifs with hj
    · subst hj
      exact hf o ho
    · exact .refl o
  · rw [if_neg hne]

lemma insertOrder (hs : s.Protects exempt) {mk : OrderId → Order} (hnew : ∀ id, (mk id).New id) :
    (s.insertOrder mk).Protects exempt := by
  constructor
  · intro e entry c hentry hc
    rw [get?_insertOrder] at hentry
    split_ifs at hentry with he
    · rw [Option.some.injEq] at hentry
      subst hentry
      rw [(hnew _).bracketOrderIds] at hc
      cases hc
    · obtain ⟨o, ho, hparent⟩ := hs.listed e entry c hentry hc
      exact ⟨o, get?_insertOrder_of_some ho mk, hparent⟩
  · intro c o ho harmed
    rw [get?_insertOrder] at ho
    split_ifs at ho with hc
    · rw [Option.some.injEq] at ho
      subst ho
      rw [(hnew _).status] at harmed
      cases harmed
    · obtain ⟨e, entry, hentry, hrest⟩ := hs.armed c o ho harmed
      exact ⟨e, entry, get?_insertOrder_of_some hentry mk, hrest⟩

/-- Resizing the children of the exempt entry. -/
lemma refresh {entry parent : Order} (hs : s.Protects (· = e)) (hget : s.orders.get? e = some entry)
    (hids : parent.bracketOrderIds = entry.bracketOrderIds)
    (hsize : parent.activeSize = entry.filledSizeUsdc) : (syncChildSizes parent s).Protected := by
  have hmap : ∀ id, (syncChildSizes parent s).orders.get? id = (s.orders.get? id).map fun o =>
      if id ∈ entry.bracketOrderIds then o.resized entry.filledSizeUsdc else o := by
    intro id
    rw [get?_syncChildSizes, hids, hsize]
  have hfilled : ∀ (id : OrderId) (o : Order),
      (if id ∈ entry.bracketOrderIds then o.resized entry.filledSizeUsdc else o).filledSizeUsdc =
        o.filledSizeUsdc := by
    intro id o
    split_ifs <;> simp
  have hterms : ∀ (id : OrderId) (o : Order), Order.SameTerms o
      (if id ∈ entry.bracketOrderIds then o.resized entry.filledSizeUsdc else o) := by
    intro id o
    split_ifs
    · exact Order.resized_terms _ o
    · exact .refl o
  have hlist : ∀ (id : OrderId) (o : Order),
      (if id ∈ entry.bracketOrderIds then o.resized entry.filledSizeUsdc else o).bracketOrderIds =
        o.bracketOrderIds := by
    intro id o
    split_ifs <;> simp
  constructor
  · intro e' entry' c hentry' hc
    rw [hmap, Option.map_eq_some_iff] at hentry'
    obtain ⟨x, hx, rfl⟩ := hentry'
    rw [hlist] at hc
    obtain ⟨o, ho, hparent⟩ := hs.listed e' x c hx hc
    refine ⟨_, by rw [hmap, ho, Option.map_some], ?_⟩
    rw [(hterms c o).parentOrderId, hparent]
  · intro c o' ho' harmed'
    rw [hmap, Option.map_eq_some_iff] at ho'
    obtain ⟨o, ho, rfl⟩ := ho'
    have harmed : o.status = .armed := by
      split_ifs at harmed'
      · rwa [Order.resized_status] at harmed'
      · exact harmed'
    obtain ⟨e', entry', hentry', hkind, hparent, hmem, heq⟩ := hs.armed c o ho harmed
    refine ⟨e', _, by rw [hmap, hentry', Option.map_some], ?_, ?_, ?_, fun _ => ?_⟩
    · rw [(hterms e' entry').orderKind, hkind]
    · rw [(hterms c o).parentOrderId, hparent]
    · rwa [hlist]
    · rw [hfilled]
      by_cases hown : c ∈ entry.bracketOrderIds
      · -- the children of `e` are resized, and a child is listed by one parent only
        obtain ⟨x, hx, hparent'⟩ := hs.listed e entry c hget hown
        rw [ho, Option.some.injEq] at hx
        subst hx
        rw [hparent, Option.some.injEq] at hparent'
        subst hparent'
        rw [hget, Option.some.injEq] at hentry'
        subst hentry'
        rw [if_pos hown, Order.resized, if_pos harmed]
      · rw [if_neg hown]
        apply heq
        rintro rfl
        rw [hget, Option.some.injEq] at hentry'
        subst hentry'
        exact hown hmem

/-- The new children of the exempt entry. -/
lemma create {entry : Order} (hs : s.Protects (· = e)) (hget : s.orders.get? e = some entry)
    (hid : entry.orderId = e) (hkind : entry.orderKind = .entry)
    (hnone : entry.bracketOrderIds = []) (hsize : entry.activeSize = entry.filledSizeUsdc)
    (spec : BracketSpec) (now : Time) : (createBrackets spec now e entry s).2.Protected := by
  set s' := (createBrackets spec now e entry s).2 with hs'
  have hself : s'.orders.get? e = some (entry.withBracket s.nextId) :=
    get?_createBrackets_self spec now hget
  have hold : ∀ c o, s.orders.get? c = some o → c ≠ e → s'.orders.get? c = some o := by
    intro c o ho hc
    rw [hs', get?_createBrackets_of_some spec now hget ho, if_neg hc]
  have hparentOf : ∀ c o, s.orders.get? c = some o →
      ∃ o', s'.orders.get? c = some o' ∧ o'.parentOrderId = o.parentOrderId := by
    intro c o ho
    by_cases hc : c = e
    · subst hc
      rw [hget, Option.some.injEq] at ho
      subst ho
      exact ⟨_, hself, rfl⟩
    · exact ⟨o, hold c o ho hc, rfl⟩
  constructor
  · intro e' entry' c hentry' hc
    rcases createBrackets_cases spec now hget hentry' with ⟨_, hnew⟩ | ⟨rfl, rfl⟩ | ⟨_, hentry⟩
    · rw [hnew.bracketOrderIds] at hc
      cases hc
    · obtain ⟨child, hchild, hnew⟩ := createBrackets_children spec now hget hc
      exact ⟨child, hchild, by rw [hnew.parentOrderId, hid]⟩
    · obtain ⟨o, ho, hparent⟩ := hs.listed e' entry' c hentry hc
      obtain ⟨o', ho', hsame⟩ := hparentOf c o ho
      exact ⟨o', ho', hsame.trans hparent⟩
  · -- an armed child that existed before belongs to another entry
    have hexisting : ∀ c o, s.orders.get? c = some o → o.status = .armed →
        ∃ e' entry', s'.orders.get? e' = some entry' ∧ entry'.orderKind = .entry ∧
          o.parentOrderId = some e' ∧ c ∈ entry'.bracketOrderIds ∧
          o.sizeUsdc = entry'.filledSizeUsdc := by
      intro c o ho harmed
      obtain ⟨e', entry', hentry', hkind', hparent, hmem, heq⟩ := hs.armed c o ho harmed
      have hne : e' ≠ e := by
        rintro rfl
        rw [hget, Option.some.injEq] at hentry'
        subst hentry'
        rw [hnone] at hmem
        cases hmem
      exact ⟨e', entry', hold e' entry' hentry' hne, hkind', hparent, hmem, heq hne⟩
    intro c o' ho' harmed
    rcases createBrackets_cases spec now hget ho' with ⟨hc, hnew⟩ | ⟨rfl, rfl⟩ | ⟨_, ho⟩
    · refine ⟨e, _, hself, hkind, ?_, ?_, fun _ => ?_⟩
      · rw [hnew.parentOrderId, hid]
      · simpa [Order.withBracket] using hc
      · rw [hnew.sizeUsdc, hsize]
        rfl
    · obtain ⟨e', entry', hentry', hrest⟩ := hexisting c entry hget harmed
      exact ⟨e', entry', hentry', hrest.1, hrest.2.1, hrest.2.2.1, fun _ => hrest.2.2.2⟩
    · obtain ⟨e', entry', hentry', hrest⟩ := hexisting c o' ho harmed
      exact ⟨e', entry', hentry', hrest.1, hrest.2.1, hrest.2.2.1, fun _ => hrest.2.2.2⟩

end Executor.Protects

/-! ### What keeps the protection -/

/-- Arming an entry that has a fill brings its children up to it. -/
lemma armBracketOrders_protects {entry : Order} (hs : s.Protects (· = e))
    (hget : s.orders.get? e = some entry) (hid : entry.orderId = e)
    (hkind : entry.orderKind = .entry) (hpos : 0 < entry.filledSizeUsdc) (spec : BracketSpec)
    (now : Time) : (armBracketOrders spec now e s).2.Protected := by
  have hsize : entry.activeSize = entry.filledSizeUsdc := Order.activeSize_of_pos hpos
  simp only [armBracketOrders, hget]
  rw [if_neg (not_not.mpr hkind)]
  set levels := buildBracketLevels entry.activePrice spec
  let setLevels : Order → Order := fun o =>
    { o with takeProfitPrice := some levels.1, stopLossPrice := some levels.2 }
  have hlevels : (s.modifyOrder e setLevels).Protects (· = e) := by
    apply hs.modifyOrder
    intro o _
    exact ⟨⟨by constructor <;> rfl, rfl, fun h => ⟨h, rfl⟩⟩, fun _ => rfl⟩
  have hget' : (s.modifyOrder e setLevels).orders.get? e = some (setLevels entry) := by
    simp [hget]
  by_cases hnone : entry.bracketOrderIds = []
  · rw [if_neg (not_not.mpr hnone)]
    have hcreate := hlevels.create hget' hid hkind hnone hsize spec now
    exact hcreate
  · rw [if_pos hnone]
    let setState : Order → Order := fun o => { o with bracketState := .armed }
    have hstate : ((s.modifyOrder e setLevels).modifyOrder e setState).Protects (· = e) := by
      apply hlevels.modifyOrder
      intro o _
      exact ⟨⟨by constructor <;> rfl, rfl, fun h => ⟨h, rfl⟩⟩, fun _ => rfl⟩
    have hget'' : ((s.modifyOrder e setLevels).modifyOrder e setState).orders.get? e =
        some (setState (setLevels entry)) := by
      rw [Executor.get?_modifyOrder_self, hget', Option.map_some]
    exact hstate.refresh hget'' rfl hsize

lemma setStatus_protects (hs : s.Protected) {status : OrderStatus} (hstatus : status ≠ .armed) :
    (s.setStatus id status).Protected := by
  apply hs.modifyOrder
  intro o _
  exact ⟨⟨by constructor <;> rfl, rfl, fun h => absurd h hstatus⟩, fun _ => rfl⟩

lemma setBracketState_protects (hs : s.Protected) (state : BracketState) :
    (s.setBracketState id state).Protected := by
  apply hs.modifyOrder
  intro o _
  exact ⟨⟨by constructor <;> rfl, rfl, fun h => ⟨h, rfl⟩⟩, fun _ => rfl⟩

lemma cancelLocally_protects (hs : s.Protected) (o : Order) : (cancelLocally id o s).Protected := by
  refine cancelLocally_induction (P := Executor.Protected) o hs ?_ ?_ ?_
  · exact fun _ hs => setStatus_protects hs (by simp)
  · exact fun _ hs => setBracketState_protects hs .cancelled
  · refine fun _ c hs => hs.modifyOrder fun child _ => ?_
    split_ifs
    · exact ⟨.refl child, fun _ => rfl⟩
    · exact ⟨⟨by constructor <;> rfl, rfl, fun h => by cases h⟩, fun _ => rfl⟩

/-- A fill leaves the guard of an order as it is: an armed order that takes it is not armed
afterwards. -/
lemma Order.applyFill_keepsGuard (o : Order) (x p : ℚ) (now : Time) :
    Order.KeepsGuard o (o.applyFill x p now) := by
  refine ⟨o.applyFill_sameTerms x p now, by simp, fun harmed => ?_⟩
  rcases o.applyFill_status x p now with ⟨heq, _⟩ | ⟨_, h⟩ | ⟨_, h⟩
  · rw [heq] at harmed
    exact ⟨harmed, by simp⟩
  · rw [h] at harmed
    cases harmed
  · rw [h] at harmed
    cases harmed

lemma fillOnPlace_protects {env : Ambient} {req : PlaceRequest} (hs : s.Protected)
    (hvalid : validateOrder cfg env req = none)
    (hget : s.orders.get? id = some (buildEntryOrder cfg env req id)) :
    (fillOnPlace cfg env req id s).Protected := by
  set price := limitPrice req.direction req.price with hprice
  set filled := (buildEntryOrder cfg env req id).applyFill req.sizeUsdc price env.now with hfilled
  have hfill : (s.modifyOrder id (·.applyFill req.sizeUsdc price env.now)).Protects (· = id) :=
    hs.fillEntry fun o ho => Order.applyFill_keepsGuard o _ _ _
  have hget' : (s.modifyOrder id (·.applyFill req.sizeUsdc price env.now)).orders.get? id =
      some filled := by
    rw [Executor.get?_modifyOrder_self, hget, Option.map_some]
  have hterms : Order.SameTerms (buildEntryOrder cfg env req id) filled :=
    Order.applyFill_sameTerms _ _ _ _
  rw [fillOnPlace]
  split_ifs
  · dsimp only
    cases req.bracket cfg with
    | none =>
      -- a new entry has no children
      apply hfill.of_noArmedChild
      rw [Executor.hasArmedChild_iff]
      rintro ⟨c, o, ho, harmed, hparent⟩
      obtain ⟨e, entry, hentry, _, hparent', hmem, _⟩ := hfill.armed c o ho harmed
      rw [hparent, Option.some.injEq] at hparent'
      subst hparent'
      rw [hget', Option.some.injEq] at hentry
      subst hentry
      rw [hfilled, Order.applyFill_bracketOrderIds, buildEntryOrder_eq] at hmem
      cases hmem
    | some spec =>
      apply armBracketOrders_protects hfill hget'
      · rw [hterms.orderId, buildEntryOrder_eq]
      · rw [hterms.orderKind, buildEntryOrder_eq]
      · exact buildEntryOrder_filled_pos hvalid id price env.now
  · exact hs

/-- Placing, cancelling and closing keep the protection. -/
lemma Command.protects (h : Command cfg s s') (hs : s.Protected) : s'.Protected := by
  cases h with
  | cleanup now => exact hs.of_orders_eq (orders_cleanupRecentPlacements cfg now s)
  | openEntry env req hvalid =>
    have hinsert : (s.insertOrder (buildEntryOrder cfg env req)).Protected :=
      hs.insertOrder (buildEntryOrder_new env req (half_le_of_valid hvalid))
    exact hinsert.of_orders_eq rfl
  | fillOnPlace env req id hvalid hget hpaper => exact fillOnPlace_protects hs hvalid hget
  | persist env req => exact hs.of_orders_eq (orders_persistOrderIntent ..)
  | abandon id o hget hkind hstatus => exact setStatus_protects hs (by simp)
  | acknowledgeEntry req exchangeIds id o hget hkind =>
    apply hs.modifyOrder
    intro o _
    exact ⟨⟨by constructor <;> rfl, rfl, fun h => ⟨h, rfl⟩⟩, fun _ => rfl⟩
  | cancelLocally id o hget hopen => exact cancelLocally_protects hs o
  | cancelConfirmed id o hget hkind hopen =>
    exact setBracketState_protects (setStatus_protects hs (by simp)) .cancelled
  | expire id o hget harmed => exact setStatus_protects hs (by simp)
  | openExit env req hsize => exact hs.insertOrder (buildExitOrder_new env req hsize)
  | fillExit env req id hsize hget hpaper =>
    apply hs.modifyOrder
    intro o ho
    refine ⟨Order.applyFill_keepsGuard o _ _ _, fun hkind => ?_⟩
    rw [hget, Option.some.injEq] at ho
    rw [← ho, buildExitOrder_eq] at hkind
    cases hkind
  | acknowledgeExit id exchangeId o hget hkind =>
    apply hs.modifyOrder
    intro o _
    exact ⟨⟨by constructor <;> rfl, rfl, fun h => ⟨h, rfl⟩⟩, fun _ => rfl⟩

lemma Commands.protects (h : Commands cfg s s') (hs : s.Protected) : s'.Protected := by
  induction h with
  | refl => exact hs
  | tail _ hstep ih => exact hstep.protects ih

lemma armDeferred_protects (now : Time) (hkeyed : s.Keyed) (hs : s.Protected) :
    (armDeferred cfg now id s).2.Protected := by
  rw [armDeferred]
  cases hget : s.orders.get? id with
  | none => exact hs
  | some o =>
    dsimp only
    split_ifs with h
    · rw [armDefaultBrackets]
      cases cfg.defaultBracketSpec with
      | none => exact hs
      | some spec =>
        by_cases hkind : o.orderKind = .entry
        · exact armBracketOrders_protects (hs.weaken fun _ h => h.elim) hget (hkeyed id o hget)
            hkind h.2.1 spec now
        · simpa [armBracketOrders, hget, hkind] using hs
    · exact hs

lemma reconcileChild_protects {data : MarketData} {now : Time} {o : Order} (hs : s.Protected)
    (hget : s.orders.get? id = some o) (hkind : o.orderKind.isBracket = true) :
    (reconcileChild data now id o s).2.Protected := by
  rw [reconcileChild]
  split_ifs with harmed
  · exact hs
  · rw [expireChild, setParentBracketState]
    have hexpire : (s.setStatus id .expired).Protected := setStatus_protects hs (by simp)
    cases o.parentOrderId with
    | none => exact hexpire
    | some parentId => exact setBracketState_protects hexpire .expired
  · have hfill : (s.modifyOrder id fun _ => o.exitFill data now).Protected := by
      apply hs.modifyOrder
      intro o' ho'
      rw [hget, Option.some.injEq] at ho'
      subst ho'
      refine ⟨Order.applyFill_keepsGuard o _ _ _, fun hentry => ?_⟩
      rw [hentry] at hkind
      cases hkind
    refine hfill.of_map (f := (o.exitFill data now).besideTriggered) (fun j => ?_) ?_ ?_
    · rw [get?_triggerChild hget, Executor.get?_modifyOrder, hget, Option.map_some]
    · intro j o' _
      refine ⟨besideTriggered_terms _ _ _, besideTriggered_bracketOrderIds _ _ _, fun harmed' => ?_⟩
      rw [besideTriggered_status] at harmed'
      split_ifs at harmed'
      exact ⟨harmed', (besideTriggered_fill _ _ _).sizeUsdc⟩
    · exact fun j o' _ _ hne => ⟨hne, (besideTriggered_fill _ _ _).filledSizeUsdc⟩
  · exact hs

/-! ### Fills of paper entries -/

/-- A fill of the open paper entry `o` in this pass leaves its children right: either the status
moves, so that the bracket is armed anew, and the filled size is positive; or there is no armed
child; or the filled size stays the same in the rounding. -/
def FillProtected (cfg : Config) (books : MarketBooks) (s : Executor) (e : OrderId) (o : Order) :
    Prop :=
  o.orderKind = .entry → o.status = .placed ∨ o.status = .partiallyFilled →
    ∀ data ∈ books o.marketId, isMarketable cfg data o = true →
      if cfg.enableBracketOrders = true ∧
          (o.status = .placed ∨ o.remainingAfter (paperFillSize cfg o) ≤ dust) then
        0 < round8 (o.filledSizeUsdc + paperFillSize cfg o)
      else s.HasArmedChild e → round8 (o.filledSizeUsdc + paperFillSize cfg o) = o.filledSizeUsdc

instance (cfg : Config) (books : MarketBooks) (s : Executor) (e : OrderId) (o : Order) :
    Decidable (FillProtected cfg books s e o) :=
  inferInstanceAs (Decidable (o.orderKind = .entry →
    o.status = .placed ∨ o.status = .partiallyFilled →
    ∀ data ∈ books o.marketId, isMarketable cfg data o = true →
      if cfg.enableBracketOrders = true ∧
          (o.status = .placed ∨ o.remainingAfter (paperFillSize cfg o) ≤ dust) then
        0 < round8 (o.filledSizeUsdc + paperFillSize cfg o)
      else s.HasArmedChild e →
        round8 (o.filledSizeUsdc + paperFillSize cfg o) = o.filledSizeUsdc))

lemma acceptedFill_paperFillSize (cfg : Config) (o : Order) :
    o.acceptedFill (paperFillSize cfg o) = paperFillSize cfg o := by
  rw [Order.acceptedFill, min_eq_left]
  rw [paperFillSize]
  split_ifs
  · exact min_le_left _ _
  · exact le_rfl

lemma reconcilePaperEntry_protects {data : MarketData} {books : MarketBooks} {now : Time}
    {o : Order} (hkeyed : s.Keyed) (hs : s.Protected)
    (hget : s.orders.get? e = some o) (hkind : o.orderKind = .entry)
    (hstatus : o.status = .placed ∨ o.status = .partiallyFilled)
    (hdata : books o.marketId = some data) (hfill : FillProtected cfg books s e o) :
    (reconcilePaperEntry cfg data now e o s).2.Protected := by
  rw [reconcilePaperEntry]
  by_cases hmarket : isMarketable cfg data o = true
  swap
  · rw [if_neg hmarket]
    exact hs
  rw [if_pos hmarket]
  dsimp only
  have hcond := hfill hkind hstatus data hdata hmarket
  have hkeeps : Order.KeepsGuard o (o.paperFill cfg data now) :=
    Order.applyFill_keepsGuard o _ _ _
  have hexempt : (s.modifyOrder e fun _ => o.paperFill cfg data now).Protects (· = e) := by
    apply hs.fillEntry
    intro o' ho'
    rw [hget, Option.some.injEq] at ho'
    exact ho' ▸ hkeeps
  have hget' : (s.modifyOrder e fun _ => o.paperFill cfg data now).orders.get? e =
      some (o.paperFill cfg data now) := by
    rw [Executor.get?_modifyOrder_self, hget, Option.map_some]
  have hsame : (o.paperFill cfg data now).filledSizeUsdc = o.filledSizeUsdc →
      (s.modifyOrder e fun _ => o.paperFill cfg data now).Protected := by
    intro hfilled
    apply hs.modifyOrder
    intro o' ho'
    rw [hget, Option.some.injEq] at ho'
    subst ho'
    exact ⟨hkeeps, fun _ => hfilled⟩
  by_cases hpos : 0 < o.acceptedFill (paperFillSize cfg o)
  swap
  · have heq : o.paperFill cfg data now = o := Order.applyFill_of_nonpos (not_lt.mp hpos) _ _
    rw [if_neg (by simp [heq])]
    exact hsame (by rw [heq])
  have hfilled : (o.paperFill cfg data now).filledSizeUsdc =
      round8 (o.filledSizeUsdc + paperFillSize cfg o) := by
    rw [Order.paperFill, Order.applyFill_of_pos hpos, acceptedFill_paperFillSize]
  have hmoved : (o.paperFill cfg data now).status ≠ o.status ↔
      o.status = .placed ∨ o.remainingAfter (paperFillSize cfg o) ≤ dust := by
    rw [Order.paperFill, Order.applyFill_of_pos hpos]
    dsimp only
    rcases hstatus with h | h <;> split_ifs with hdust <;> simp [h, hdust]
  -- when the children are not brought up to the fill, the condition has to help
  have hleft : ¬ (cfg.enableBracketOrders = true ∧
      (o.status = .placed ∨ o.remainingAfter (paperFillSize cfg o) ≤ dust)) →
      (s.modifyOrder e fun _ => o.paperFill cfg data now).Protected := by
    intro hnot
    rw [if_neg hnot] at hcond
    by_cases hchild : s.HasArmedChild e
    · exact hsame (hfilled.trans (hcond hchild))
    · apply hexempt.of_noArmedChild
      rw [Executor.hasArmedChild_iff]
      rintro ⟨c, o', ho', harmed, hparent⟩
      apply hchild
      rw [Executor.hasArmedChild_iff]
      by_cases hc : c = e
      · subst hc
        rw [hget', Option.some.injEq] at ho'
        subst ho'
        exact ⟨c, o, hget, (hkeeps.armed harmed).1, by rw [← hkeeps.terms.parentOrderId, hparent]⟩
      · rw [Executor.get?_modifyOrder_of_ne s hc] at ho'
        exact ⟨c, o', ho', harmed, hparent⟩
  split_ifs with hstatus'
  · have hmoves := hmoved.mp hstatus'
    rw [armDefaultBrackets, Config.defaultBracketSpec]
    by_cases henabled : cfg.enableBracketOrders = true
    · rw [if_pos henabled]
      rw [if_pos ⟨henabled, hmoves⟩] at hcond
      apply armBracketOrders_protects hexempt hget'
      · rw [hkeeps.terms.orderId, hkeyed e o hget]
      · rw [hkeeps.terms.orderKind, hkind]
      · rwa [hfilled]
    · rw [if_neg henabled]
      exact hleft fun h => henabled h.1
  · exact hleft fun h => hstatus' (hmoved.mpr h.2)

/-! ### The rounds of other orders -/

/-- An assignment that arms no order anew gives `e` no armed child. -/
lemma hasArmedChild_of_map {f : OrderId → Order → Order}
    (hget : ∀ id, s'.orders.get? id = (s.orders.get? id).map (f id))
    (hf : ∀ id o, s.orders.get? id = some o →
      Order.SameTerms o (f id o) ∧ ((f id o).status = .armed → o.status = .armed))
    (h : s'.HasArmedChild e) : s.HasArmedChild e := by
  rw [Executor.hasArmedChild_iff] at h ⊢
  obtain ⟨c, o', ho', harmed, hparent⟩ := h
  rw [hget, Option.map_eq_some_iff] at ho'
  obtain ⟨o, ho, rfl⟩ := ho'
  obtain ⟨hterms, harmed'⟩ := hf c o ho
  exact ⟨c, o, ho, harmed' harmed, by rw [← hterms.parentOrderId, hparent]⟩

lemma hasArmedChild_of_modifyOrder {f : Order → Order}
    (hf : ∀ o, s.orders.get? id = some o →
      Order.SameTerms o (f o) ∧ ((f o).status = .armed → o.status = .armed))
    (h : (s.modifyOrder id f).HasArmedChild e) : s.HasArmedChild e := by
  refine hasArmedChild_of_map (f := fun j o => if j = id then f o else o) (fun j => ?_)
    (fun j o ho => ?_) h
  · rw [Executor.get?_modifyOrder]
    split_ifs with hj
    · rw [hj]
    · simp
  · split_ifs with hj
    · subst hj
      exact hf o ho
    · exact ⟨.refl o, fun h => h⟩

/-- Arming the bracket of `id` gives no other order an armed child. -/
lemma Arming.hasArmedChild (h : Arming id s s') (hne : id ≠ e)
    (hid : ∀ o, s.orders.get? id = some o → o.orderId = id) :
    (s'.HasArmedChild e → s.HasArmedChild e) ∧
      ∀ o, s'.orders.get? id = some o → o.orderId = id := by
  have hassign : ∀ f : Order → Order,
      (∀ o, Order.SameTerms o (f o) ∧ ((f o).status = .armed → o.status = .armed)) →
      ((s.modifyOrder id f).HasArmedChild e → s.HasArmedChild e) ∧
        ∀ o, (s.modifyOrder id f).orders.get? id = some o → o.orderId = id := by
    intro f hf
    refine ⟨hasArmedChild_of_modifyOrder fun o _ => hf o, fun o' ho' => ?_⟩
    rw [Executor.get?_modifyOrder_self, Option.map_eq_some_iff] at ho'
    obtain ⟨o, ho, rfl⟩ := ho'
    rw [(hf o).1.orderId, hid o ho]
  cases h with
  | levels takeProfit stopLoss => exact hassign _ fun o => ⟨by constructor <;> rfl, fun h => h⟩
  | state state => exact hassign _ fun o => ⟨by constructor <;> rfl, fun h => h⟩
  | refresh parent hget hkind =>
    constructor
    · apply hasArmedChild_of_map (get?_syncChildSizes parent s)
      intro c o _
      split_ifs
      · exact ⟨Order.resized_terms _ o, by simp⟩
      · exact ⟨.refl o, fun h => h⟩
    · intro o' ho'
      rw [get?_syncChildSizes, hget, Option.map_some, Option.some.injEq] at ho'
      subst ho'
      split_ifs
      · rw [(Order.resized_terms _ parent).orderId, hid parent hget]
      · exact hid parent hget
  | create spec now parent hget hkind hnone =>
    constructor
    · intro h
      rw [Executor.hasArmedChild_iff] at h ⊢
      obtain ⟨c, o', ho', harmed, hparent⟩ := h
      rcases createBrackets_cases spec now hget ho' with ⟨_, hnew⟩ | ⟨rfl, rfl⟩ | ⟨_, ho⟩
      · rw [hnew.parentOrderId, hid parent hget, Option.some.injEq] at hparent
        exact absurd hparent hne
      · exact ⟨c, parent, hget, harmed, hparent⟩
      · exact ⟨c, o', ho, harmed, hparent⟩
    · intro o' ho'
      rw [get?_createBrackets_self spec now hget, Option.some.injEq] at ho'
      rw [← ho']
      exact hid parent hget

lemma Armings.hasArmedChild (h : Armings id s s') (hne : id ≠ e)
    (hid : ∀ o, s.orders.get? id = some o → o.orderId = id) :
    s'.HasArmedChild e → s.HasArmedChild e := by
  have hboth : (s'.HasArmedChild e → s.HasArmedChild e) ∧
      ∀ o, s'.orders.get? id = some o → o.orderId = id := by
    induction h with
    | refl => exact ⟨fun h => h, hid⟩
    | tail _ hstep ih =>
      obtain ⟨hback, hid'⟩ := ih
      obtain ⟨hback', hid''⟩ := hstep.hasArmedChild hne hid'
      exact ⟨fun h => hback (hback' h), hid''⟩
  exact hboth.1

lemma reconcilePaperEntry_hasArmedChild {data : MarketData} {now : Time} {o : Order} (hne : id ≠ e)
    (hget : s.orders.get? id = some o) (hid : o.orderId = id)
    (h : (reconcilePaperEntry cfg data now id o s).2.HasArmedChild e) : s.HasArmedChild e := by
  have hkeeps := o.applyFill_keepsGuard (paperFillSize cfg o) (entryFillPrice data o) now
  have hfill : (s.modifyOrder id fun _ => o.paperFill cfg data now).HasArmedChild e →
      s.HasArmedChild e := by
    apply hasArmedChild_of_modifyOrder
    intro o' ho'
    rw [hget, Option.some.injEq] at ho'
    subst ho'
    exact ⟨hkeeps.terms, fun h => (hkeeps.armed h).1⟩
  rw [reconcilePaperEntry] at h
  dsimp only at h
  split_ifs at h with hmarket hmoved
  · refine hfill ((armDefaultBrackets_armings cfg now id _).hasArmedChild hne (fun o' ho' => ?_) h)
    rw [Executor.get?_modifyOrder_self, hget, Option.map_some, Option.some.injEq] at ho'
    rw [← ho', Order.paperFill, hkeeps.terms.orderId, hid]
  · exact hfill h
  · exact h

lemma reconcileChild_hasArmedChild {data : MarketData} {now : Time} {o : Order}
    (hget : s.orders.get? id = some o)
    (h : (reconcileChild data now id o s).2.HasArmedChild e) : s.HasArmedChild e := by
  rw [reconcileChild] at h
  split_ifs at h with harmed
  · exact h
  · rw [expireChild, setParentBracketState] at h
    have hexpire : (s.setStatus id .expired).HasArmedChild e → s.HasArmedChild e := by
      apply hasArmedChild_of_modifyOrder
      intro o _
      exact ⟨by constructor <;> rfl, fun h => by cases h⟩
    cases hparent : o.parentOrderId with
    | none => exact hexpire (by simpa [hparent] using h)
    | some parentId =>
      rw [hparent] at h
      apply hexpire
      refine hasArmedChild_of_modifyOrder (fun o _ => ?_) h
      exact ⟨by constructor <;> rfl, fun h => h⟩
  · rw [not_not] at harmed
    refine hasArmedChild_of_map (f := fun j x => (o.exitFill data now).besideTriggered j
      (if j = id then o.exitFill data now else x)) (fun j => ?_) (fun j x hx => ?_) h
    · rw [get?_triggerChild hget]
      by_cases hj : j = id
      · subst hj
        simp [hget]
      · simp [hj]
    · have hstatus : ∀ y : Order, ((o.exitFill data now).besideTriggered j y).status = .armed →
          y.status = .armed := by
        intro y hy
        rw [besideTriggered_status] at hy
        split_ifs at hy
        exact hy
      by_cases hj : j = id
      · subst hj
        rw [hget, Option.some.injEq] at hx
        subst hx
        rw [if_pos rfl]
        refine ⟨?_, fun _ => harmed⟩
        exact (o.applyFill_sameTerms _ _ _).trans (besideTriggered_terms _ _ _)
      · rw [if_neg hj]
        exact ⟨besideTriggered_terms _ _ _, hstatus x⟩
  · exact h

/-- The round of a paper order gives no other order an armed child. -/
lemma reconcileOrder_hasArmedChild (books : MarketBooks) (now : Time) (hne : id ≠ e)
    {w : ExecWorld} (hlinked : w.state.Linked) (hkeyed : w.state.Keyed)
    (hpaper : w.state.PaperIs true) :
    Meets Alone (fun _ _ => True) (fun _ w' => w'.state.HasArmedChild e → w.state.HasArmedChild e)
      (reconcileOrder cfg books now id) w := by
  apply Meets.get_bind trivial
  cases hget : w.state.orders.get? id with
  | none => exact fun h => h
  | some o =>
    dsimp only
    cases hkind : o.orderKind with
    | exit => exact fun h => h
    | takeProfit =>
      dsimp only
      cases books o.marketId with
      | none => exact fun h => h
      | some data => exact ⟨trivial, reconcileChild_hasArmedChild hget⟩
    | stopLoss =>
      dsimp only
      cases books o.marketId with
      | none => exact fun h => h
      | some data => exact ⟨trivial, reconcileChild_hasArmedChild hget⟩
    | entry =>
      dsimp only
      split_ifs with hfinal
      · exact fun h => h
      rw [reconcileEntry]
      split_ifs with hlive hopen
      · exact absurd (hpaper id o hget) hlive.1
      · cases books o.marketId with
        | none => exact fun h => h
        | some data =>
          have heffects : Effects cfg w.state (reconcilePaperEntry cfg data now id o w.state).2 :=
            reconcilePaperEntry_effects hlinked.accounted hget hkind hopen.2
          refine .modifyGet_bind trivial ⟨trivial, fun h => ?_⟩
          apply reconcilePaperEntry_hasArmedChild hne hget (hkeyed id o hget)
          exact (armDeferred_armings cfg now id _).hasArmedChild hne (heffects.keyed hkeyed id) h
      · exact ⟨trivial, (armDeferred_armings cfg now id _).hasArmedChild hne (hkeyed id)⟩

/-! ### Passes -/

/-- The condition looks at the ledger of the entry and at its armed children. -/
lemma FillProtected.of_sameLedger {books : MarketBooks} {o o' : Order}
    (h : FillProtected cfg books s e o) (hsame : Order.SameLedger o o')
    (hchild : s'.HasArmedChild e → s.HasArmedChild e) : FillProtected cfg books s' e o' := by
  obtain ⟨hterms, hfill, hstatus, _⟩ := hsame
  have hsize : paperFillSize cfg o' = paperFillSize cfg o := by
    simp only [paperFillSize, hfill.sizeUsdc, hfill.remainingSizeUsdc]
  have hremaining : o'.remainingAfter (paperFillSize cfg o) =
      o.remainingAfter (paperFillSize cfg o) := by
    simp only [Order.remainingAfter, Order.acceptedFill, hfill.sizeUsdc, hfill.filledSizeUsdc,
      hfill.remainingSizeUsdc]
  intro hkind hopen data hdata hmarket
  rw [hterms.orderKind] at hkind
  rw [hstatus] at hopen
  rw [hterms.marketId] at hdata
  have hmarket' : isMarketable cfg data o = true := by
    rw [isMarketable, entryFillPrice, hterms.direction, hterms.price] at hmarket
    exact hmarket
  have hcond := h hkind hopen data hdata hmarket'
  rw [hstatus, hsize, hremaining, hfill.filledSizeUsdc]
  split_ifs at hcond ⊢
  · exact hcond
  · exact fun h => hcond (hchild h)

/-- During a pass: the orders still to come have fills that are protected. -/
structure PassProtected (cfg : Config) (books : MarketBooks) (rest : List OrderId) (w : ExecWorld) :
    Prop where
  linked : w.state.Linked
  keyed : w.state.Keyed
  paper : w.state.PaperIs true
  protects : w.state.Protected
  nodup : rest.Nodup
  fills : ∀ e ∈ rest, ∃ o, w.state.orders.get? e = some o ∧ FillProtected cfg books w.state e o

/-- The own round of an order whose fill is protected. -/
lemma reconcileOrder_protects {books : MarketBooks} {now : Time} {o : Order} {w : ExecWorld}
    (hlinked : w.state.Linked) (hkeyed : w.state.Keyed) (hpaper : w.state.PaperIs true)
    (hs : w.state.Protected) (hget : w.state.orders.get? e = some o)
    (hfill : FillProtected cfg books w.state e o) :
    Meets Alone (fun _ _ => True) (fun _ w' => w'.state.Protected)
      (reconcileOrder cfg books now e) w := by
  apply Meets.get_bind trivial
  simp only [hget]
  cases hkind : o.orderKind with
  | exit => exact hs
  | takeProfit =>
    dsimp only
    cases books o.marketId with
    | none => exact hs
    | some data => exact ⟨trivial, reconcileChild_protects hs hget (by rw [hkind]; rfl)⟩
  | stopLoss =>
    dsimp only
    cases books o.marketId with
    | none => exact hs
    | some data => exact ⟨trivial, reconcileChild_protects hs hget (by rw [hkind]; rfl)⟩
  | entry =>
    dsimp only
    split_ifs with hfinal
    · exact hs
    rw [reconcileEntry]
    split_ifs with hlive hopen
    · exact absurd (hpaper e o hget) hlive.1
    · cases hdata : books o.marketId with
      | none => exact hs
      | some data =>
        have heffects : Effects cfg w.state (reconcilePaperEntry cfg data now e o w.state).2 :=
          reconcilePaperEntry_effects hlinked.accounted hget hkind hopen.2
        refine .modifyGet_bind trivial ⟨trivial, ?_⟩
        apply armDeferred_protects now (heffects.keyed hkeyed)
        exact reconcilePaperEntry_protects hkeyed hs hget hkind hopen.2 hdata hfill
    · exact ⟨trivial, armDeferred_protects now hkeyed hs⟩

/-- One round of a pass. -/
lemma reconcileOrder_passProtected {books : MarketBooks} {now : Time} {rest : List OrderId}
    {w : ExecWorld} (hcfg : cfg.isPaper = true) (hw : PassProtected cfg books (id :: rest) w) :
    Meets Alone (fun _ _ => True) (fun _ w' => PassProtected cfg books rest w')
      (reconcileOrder cfg books now id) w := by
  obtain ⟨hlinked, hkeyed, hpaper, hs, hnodup, hfills⟩ := hw
  obtain ⟨hnotMem, hrest⟩ := List.nodup_cons.mp hnodup
  obtain ⟨o, hget, hfill⟩ := hfills id List.mem_cons_self
  have hchanges : Meets Alone (fun _ _ => True) (fun _ w' => Changes cfg w.state w'.state)
      (reconcileOrder cfg books now id) w :=
    ((reconcileOrder_byChanges books now id).reaches (fun _ => .refl) .trans).imp fun _ _ h => h.2
  have hothers : ∀ e : { e // e ∈ rest }, Meets Alone (fun _ _ => True)
      (fun _ w' => (∀ entry, w.state.orders.get? e = some entry → entry.orderKind = .entry →
          KeepsLedger e w.state w'.state) ∧
        (w'.state.HasArmedChild e → w.state.HasArmedChild e))
      (reconcileOrder cfg books now id) w := by
    rintro ⟨e, he⟩
    have hne : id ≠ e := by
      rintro rfl
      exact hnotMem he
    refine Meets.and ?_ (reconcileOrder_hasArmedChild books now hne hlinked hkeyed hpaper)
    obtain ⟨entry, hentry, _⟩ := hfills e (List.mem_cons_of_mem _ he)
    by_cases hkind : entry.orderKind = .entry
    · refine (reconcileOrder_undisturbed books now hne hlinked hentry hkind).imp ?_
      exact fun _ _ h _ _ _ => h.ledger
    · refine hchanges.imp fun _ _ _ entry' hentry' hkind' => ?_
      rw [hentry, Option.some.injEq] at hentry'
      exact absurd (hentry' ▸ hkind') hkind
  refine (((reconcileOrder_protects hlinked hkeyed hpaper hs hget hfill).and hchanges).all
    hothers).imp ?_
  rintro _ w' ⟨⟨hs', hch⟩, hall⟩
  refine ⟨hch.linked hlinked, hch.keyed hlinked.accounted hkeyed, ?_, hs', hrest, fun e he => ?_⟩
  · exact hcfg ▸ hch.paperIs hlinked.accounted (hcfg ▸ hpaper)
  · obtain ⟨entry, hentry, hfill'⟩ := hfills e (List.mem_cons_of_mem _ he)
    obtain ⟨hledger, hchild⟩ := hall ⟨e, he⟩
    by_cases hkind : entry.orderKind = .entry
    · obtain ⟨entry', hentry', hsame⟩ := hledger entry hentry hkind entry hentry
      exact ⟨entry', hentry', hfill'.of_sameLedger hsame hchild⟩
    · obtain ⟨entry', hentry', hterms, _⟩ := hch.follows hlinked.accounted e entry hentry
      refine ⟨entry', hentry', fun hkind' => ?_⟩
      exact absurd (hterms.orderKind ▸ hkind') hkind

/-- The fills of all paper entries that a pass would fill are protected. -/
def PassProtects (cfg : Config) (w : ExecWorld) (call : Call) : Prop :=
  match call.op with
  | .reconcileOrders books => ∀ e ∈ w.state.orders.keys, ∀ o ∈ w.state.orders.get? e,
    FillProtected cfg books w.state e o
  | _ => True

instance (cfg : Config) (w : ExecWorld) (call : Call) : Decidable (PassProtects cfg w call) :=
  match call with
  | ⟨.reconcileOrders books, _⟩ =>
    inferInstanceAs (Decidable (∀ e ∈ w.state.orders.keys, ∀ o ∈ w.state.orders.get? e,
      FillProtected cfg books w.state e o))
  | ⟨.placeOrder _, _⟩ | ⟨.cancelOrder _, _⟩ | ⟨.cancelAllOpenOrders, _⟩
  | ⟨.cancelExpiredOrders, _⟩ | ⟨.closePosition _, _⟩ => inferInstanceAs (Decidable True)

lemma Invocation.perform_protects (hcfg : cfg.isPaper = true) {w : ExecWorld}
    (hlinked : w.state.Linked) (hkeyed : w.state.Keyed) (hpaper : w.state.PaperIs true)
    (hs : w.state.Protected) (i : Invocation) (hpass : PassProtects cfg w i.call) :
    (i.perform cfg w).state.Protected := by
  obtain ⟨⟨op, env⟩, answers⟩ := i
  by_cases hop : ∃ books, op = .reconcileOrders books
  · obtain ⟨books, rfl⟩ := hop
    have hmeets : Meets Alone (fun _ _ => True) (fun _ w' => w'.state.Protected)
        (Call.program cfg ⟨.reconcileOrders books, env⟩) w := by
      refine Meets.bind (Q := fun _ w' => w'.state.Protected) ?_ fun _ _ h => h
      apply Meets.get_bind trivial
      refine (Meets.forEach_rest (I := PassProtected cfg books)
        (fun id rest w' hw' => reconcileOrder_passProtected hcfg hw') ?_).imp fun _ _ h => h.protects
      refine ⟨hlinked, hkeyed, hpaper, hs, w.state.orders.nodup, fun e he => ?_⟩
      obtain ⟨o, ho⟩ := Option.isSome_iff_exists.mp ((w.state.orders.mem_keys e).mp he)
      exact ⟨o, ho, hpass e he o ho⟩
    exact Ends.run hmeets answers
  · have hcommands : Commands cfg w.state (Invocation.perform cfg w ⟨⟨op, env⟩, answers⟩).state :=
      ((Call.byCommands cfg ⟨op, env⟩ w (not_exists.mp hop)).run alone_refl (fun _ => .refl) .trans
        answers).1
    exact hcommands.protects hs

/-- In a paper run whose passes protect their fills, the armed children of every entry have the
size that the entry has filled. -/
theorem runAll_children_cover (cfg : Config) (hpaper : cfg.isPaper = true) (run : List Invocation)
    (hsteps : StepsMeet cfg (PassProtects cfg) run) (e c : OrderId) (entry o : Order)
    (hentry : (runAll cfg run).state.orders.get? e = some entry)
    (hget : (runAll cfg run).state.orders.get? c = some o) (hparent : o.parentOrderId = some e)
    (harmed : o.status = .armed) :
    o.sizeUsdc = entry.filledSizeUsdc ∧ o.remainingSizeUsdc = entry.filledSizeUsdc := by
  have hprotected : (runAll cfg run).state.Protected := by
    apply hsteps.induction (I := fun w => w.state.Protected)
    · constructor
      · rintro e entry c ⟨⟩
      · rintro c o ⟨⟩
    · intro pre i hpre hpass
      exact Invocation.perform_protects hpaper (runAll_linked cfg pre) (runAll_keyed cfg pre)
        (hpaper ▸ runAll_paperIs cfg pre) hpre i hpass
  obtain ⟨e', entry', hentry', _, hparent', _, hsize⟩ := hprotected.armed c o hget harmed
  rw [hparent, Option.some.injEq] at hparent'
  subst hparent'
  rw [hentry, Option.some.injEq] at hentry'
  subst hentry'
  have huntouched := ((runAll_linked cfg run).accounted c o hget).untouched (Or.inr harmed)
  have hcover := hsize fun h => h
  exact ⟨hcover, huntouched.2.trans hcover⟩

/-- A paper executor that fills entries in passes, each time the given part of their size. -/
def paperConfig (ratio : ℚ) : Config := { paperFillOnPlace := false, paperPartialFillRatio := ratio }

/-- A paper entry of 10 USDC, and two passes in which it is marketable. -/
def twoPaperFills : List Invocation :=
  [offline (.placeOrder { marketId := "m", direction := .yes, sizeUsdc := 10, price := 1 / 2 }) 0,
    offline (.reconcileOrders fun _ => some { midpoint := some (2 / 5) }) 1,
    offline (.reconcileOrders fun _ => some { midpoint := some (2 / 5) }) 2]

/-- The theorem where the second pass completes the entry. -/
theorem runAll_children_cover_completed :
    ∃ o, (runAll (paperConfig (1 / 2)) twoPaperFills).state.orders.get? 2 = some o ∧
      o.status = .armed ∧ o.sizeUsdc = 10 := by
  have hentry : ((runAll (paperConfig (1 / 2)) twoPaperFills).state.orders.get? 0).any
      (fun entry => entry.filledSizeUsdc = 10) = true := by decide +kernel
  have hchild : ((runAll (paperConfig (1 / 2)) twoPaperFills).state.orders.get? 2).any
      (fun o => o.parentOrderId = some 0 ∧ o.status = .armed) = true := by decide +kernel
  obtain ⟨entry, hgetEntry, hfilled⟩ := (Option.any_eq_true _ _).mp hentry
  obtain ⟨o, hget, hfacts⟩ := (Option.any_eq_true _ _).mp hchild
  obtain ⟨hparent, harmed⟩ := of_decide_eq_true hfacts
  have hcover := runAll_children_cover (paperConfig (1 / 2)) rfl twoPaperFills (by decide +kernel)
    0 2 entry o hgetEntry hget hparent harmed
  exact ⟨o, hget, harmed, hcover.1.trans (of_decide_eq_true hfilled)⟩

/-- The second of two partial fills is left without protection. -/
theorem runAll_children_uncovered :
    ∃ entry o, (runAll (paperConfig (3 / 10)) twoPaperFills).state.orders.get? 0 = some entry ∧
      (runAll (paperConfig (3 / 10)) twoPaperFills).state.orders.get? 2 = some o ∧
      o.parentOrderId = some 0 ∧ o.status = .armed ∧ o.sizeUsdc = 3 ∧ entry.filledSizeUsdc = 6 := by
  have hentry : ((runAll (paperConfig (3 / 10)) twoPaperFills).state.orders.get? 0).any
      (fun entry => entry.filledSizeUsdc = 6) = true := by decide +kernel
  have hchild : ((runAll (paperConfig (3 / 10)) twoPaperFills).state.orders.get? 2).any
      (fun o => o.parentOrderId = some 0 ∧ o.status = .armed ∧ o.sizeUsdc = 3) = true := by
    decide +kernel
  obtain ⟨entry, hgetEntry, hfilled⟩ := (Option.any_eq_true _ _).mp hentry
  obtain ⟨o, hget, hfacts⟩ := (Option.any_eq_true _ _).mp hchild
  obtain ⟨hparent, harmed, hsize⟩ := of_decide_eq_true hfacts
  exact ⟨entry, o, hgetEntry, hget, hparent, harmed, hsize, of_decide_eq_true hfilled⟩

end PolyCortex
