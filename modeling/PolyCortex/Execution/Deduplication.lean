import PolyCortex.Execution.LiveEntry

/-!
# Deduplication of placements

`place_order` refuses an entry whose market and direction were placed within the deduplication
window, by a cache of the last placements. Every call prunes the cache by age and by size. Pruning
by age is what makes room for the next entry; pruning by size can drop a placement that is still
within the window, and then nothing is left that refuses the next one.
-/

namespace PolyCortex

open Coroutine Relation

variable {cfg : Config} {s s' : Executor} {w : ExecWorld}

def PlaceRequest.key (req : PlaceRequest) : PlacementKey := (req.marketId, req.direction, .entry)

def Order.key (o : Order) : PlacementKey := (o.marketId, o.direction, o.orderKind)

/-! ### The cleanup -/

/-- The placements within the window. -/
def recentWithin (cfg : Config) (now : Time) (s : Executor) : Dict PlacementKey Time :=
  s.recentPlacements.filter fun _ timestamp => ¬ timestamp < now - seconds cfg.dedupWindowSeconds

/-- The placements that a cleanup evicts because of the size of the cache. -/
def evictedPlacements (cfg : Config) (now : Time) (s : Executor) : List PlacementKey :=
  let kept := recentWithin cfg now s
  if 10000 < kept.keys.length then
    (kept.keys.insertionSort fun j k => (kept.get? j).getD 0 ≤ (kept.get? k).getD 0).take 5000
  else []

lemma get?_cleanupRecentPlacements (cfg : Config) (now : Time) (s : Executor)
    (key : PlacementKey) :
    (cleanupRecentPlacements cfg now s).recentPlacements.get? key =
      if key ∈ evictedPlacements cfg now s then none else (recentWithin cfg now s).get? key := by
  by_cases hsize : 10000 < (recentWithin cfg now s).keys.length
  · have hcleanup : (cleanupRecentPlacements cfg now s).recentPlacements =
        (recentWithin cfg now s).filter fun key _ => key ∉ evictedPlacements cfg now s := by
      rw [evictedPlacements, if_pos hsize]
      exact congrArg Executor.recentPlacements (if_pos hsize)
    rw [hcleanup, Dict.get?_filter]
    cases (recentWithin cfg now s).get? key <;> simp [Option.filter]
  · have hcleanup : (cleanupRecentPlacements cfg now s).recentPlacements = recentWithin cfg now s :=
      congrArg Executor.recentPlacements (if_neg hsize)
    rw [hcleanup, evictedPlacements, if_neg hsize, if_neg (List.not_mem_nil)]

/-- A placement that is not evicted leaves the cache only when it is older than the window. -/
lemma cleanupRecentPlacements_keeps {now : Time} {key : PlacementKey} {timestamp : Time}
    (hget : s.recentPlacements.get? key = some timestamp)
    (hspared : key ∉ evictedPlacements cfg now s) :
    (cleanupRecentPlacements cfg now s).recentPlacements.get? key = some timestamp ∨
      timestamp + seconds cfg.dedupWindowSeconds < now := by
  rw [get?_cleanupRecentPlacements, if_neg hspared, recentWithin, Dict.get?_filter, hget]
  by_cases hold : timestamp < now - seconds cfg.dedupWindowSeconds
  · exact Or.inr (lt_sub_iff_add_lt.mp hold)
  · exact Or.inl (Option.filter_eq_some_iff.mpr ⟨rfl, decide_eq_true hold⟩)

/-! ### What leaves the cache and the entries alone -/

/-- The cache is the same, and every entry was there before. -/
structure Executor.NoPlacement (s s' : Executor) : Prop where
  placements : s'.recentPlacements = s.recentPlacements
  entries : ∀ id o', s'.orders.get? id = some o' → o'.orderKind = .entry →
    ∃ o, s.orders.get? id = some o ∧ Order.SameTerms o o'

namespace Executor.NoPlacement

lemma refl (s : Executor) : NoPlacement s s := ⟨rfl, fun _ o' ho' _ => ⟨o', ho', .refl o'⟩⟩

lemma trans {s'' : Executor} (h : NoPlacement s s') (h' : NoPlacement s' s'') :
    NoPlacement s s'' := by
  refine ⟨h'.placements.trans h.placements, fun id o'' ho'' hkind => ?_⟩
  obtain ⟨o', ho', hterms'⟩ := h'.entries id o'' ho'' hkind
  obtain ⟨o, ho, hterms⟩ := h.entries id o' ho' (hterms'.orderKind.symm.trans hkind)
  exact ⟨o, ho, hterms.trans hterms'⟩

lemma of_orders_eq (horders : s'.orders = s.orders)
    (hplacements : s'.recentPlacements = s.recentPlacements) : NoPlacement s s' :=
  ⟨hplacements, fun _ o' ho' _ => ⟨o', horders ▸ ho', .refl o'⟩⟩

lemma modifyOrder {id : OrderId} {f : Order → Order}
    (hf : ∀ o, s.orders.get? id = some o → Order.SameTerms o (f o)) :
    NoPlacement s (s.modifyOrder id f) := by
  refine ⟨rfl, fun j o' ho' _ => ?_⟩
  rw [get?_modifyOrder] at ho'
  split_ifs at ho' with hj
  · subst hj
    obtain ⟨o, ho, rfl⟩ := Option.map_eq_some_iff.mp ho'
    exact ⟨o, ho, hf o ho⟩
  · exact ⟨o', ho', .refl o'⟩

lemma insertOrder {mk : OrderId → Order} (hkind : ∀ id, (mk id).orderKind ≠ .entry) :
    NoPlacement s (s.insertOrder mk) := by
  refine ⟨rfl, fun j o' ho' hentry => ?_⟩
  rw [get?_insertOrder] at ho'
  split_ifs at ho' with hj
  · rw [← Option.some.inj ho'] at hentry
    exact absurd hentry (hkind _)
  · exact ⟨o', ho', .refl o'⟩

end Executor.NoPlacement

open Executor (NoPlacement)

lemma setStatus_noPlacement (id : OrderId) (status : OrderStatus) :
    NoPlacement s (s.setStatus id status) := by
  apply NoPlacement.modifyOrder
  intro o _
  constructor <;> rfl

lemma setBracketState_noPlacement (id : OrderId) (state : BracketState) :
    NoPlacement s (s.setBracketState id state) := by
  apply NoPlacement.modifyOrder
  intro o _
  constructor <;> rfl

lemma recentPlacements_syncChildSizes (parent : Order) (s : Executor) :
    (syncChildSizes parent s).recentPlacements = s.recentPlacements := by
  rw [syncChildSizes]
  induction parent.bracketOrderIds generalizing s with
  | nil => rfl
  | cons id ids ih =>
    rw [List.foldl_cons, ih]
    rfl

lemma Arming.noPlacement {id : OrderId} (h : Arming id s s') : NoPlacement s s' := by
  cases h with
  | levels takeProfit stopLoss =>
    apply NoPlacement.modifyOrder
    intro o _
    constructor <;> rfl
  | state state => exact setBracketState_noPlacement id state
  | refresh parent hget hkind =>
    refine ⟨recentPlacements_syncChildSizes parent s, fun j o' ho' _ => ?_⟩
    rw [get?_syncChildSizes] at ho'
    obtain ⟨o, ho, rfl⟩ := Option.map_eq_some_iff.mp ho'
    refine ⟨o, ho, ?_⟩
    split_ifs
    · exact Order.resized_terms _ o
    · exact .refl o
  | create spec now parent hget hkind hnone =>
    refine ⟨rfl, fun j o' ho' hentry => ?_⟩
    rcases createBrackets_cases spec now hget ho' with ⟨_, hnew⟩ | ⟨rfl, rfl⟩ | ⟨_, ho⟩
    · have hbracket := hnew.kind
      rw [hentry] at hbracket
      cases hbracket
    · exact ⟨parent, hget, by constructor <;> rfl⟩
    · exact ⟨o', ho, .refl o'⟩

lemma Armings.noPlacement {id : OrderId} (h : Armings id s s') : NoPlacement s s' := by
  induction h with
  | refl => exact .refl s
  | tail _ hstep ih => exact ih.trans hstep.noPlacement

lemma cancelLocally_noPlacement (id : OrderId) (o : Order) :
    NoPlacement s (cancelLocally id o s) := by
  refine cancelLocally_induction (P := NoPlacement s) o (.refl s) ?_ ?_ ?_
  · exact fun _ hs => hs.trans (setStatus_noPlacement id .cancelled)
  · exact fun _ hs => hs.trans (setBracketState_noPlacement id .cancelled)
  · refine fun _ c hs => hs.trans (.modifyOrder fun child _ => ?_)
    split_ifs
    · exact .refl child
    · constructor <;> rfl

lemma recentPlacements_persistOrderIntent (env : Ambient) (clientId : ℕ) (req : PlaceRequest)
    (s : Executor) :
    (persistOrderIntent env clientId req s).2.recentPlacements = s.recentPlacements := by
  rw [persistOrderIntent]
  split_ifs <;> rfl

/-- The routine commands place nothing. -/
lemma Routine.noPlacement (h : Routine cfg s s') : NoPlacement s s' := by
  cases h with
  | fillOnPlace env req id hvalid hget hpaper =>
    rw [PolyCortex.fillOnPlace]
    split_ifs
    · have hfill : NoPlacement s (s.modifyOrder id
          (·.applyFill req.sizeUsdc (limitPrice req.direction req.price) env.now)) :=
        .modifyOrder fun o _ => o.applyFill_sameTerms _ _ _
      dsimp only
      cases req.bracket cfg with
      | none => exact hfill
      | some spec => exact hfill.trans (armBracketOrders_armings ..).noPlacement
    · exact .refl s
  | persist env req =>
    exact .of_orders_eq (orders_persistOrderIntent ..) (recentPlacements_persistOrderIntent ..)
  | abandon id o hget hkind hstatus => exact setStatus_noPlacement id .cancelled
  | acknowledgeEntry req exchangeIds id o hget hkind =>
    apply NoPlacement.modifyOrder
    intro o _
    constructor <;> rfl
  | cancelLocally id o hget hopen => exact cancelLocally_noPlacement id o
  | cancelConfirmed id o hget hkind hopen =>
    exact (setStatus_noPlacement id .cancelled).trans (setBracketState_noPlacement id .cancelled)
  | expire id o hget harmed => exact setStatus_noPlacement id .expired
  | openExit env req hsize =>
    apply NoPlacement.insertOrder
    intro id
    simp [buildExitOrder_eq]
  | fillExit env req id hsize hget hpaper =>
    exact .modifyOrder fun o _ => o.applyFill_sameTerms _ _ _
  | acknowledgeExit id exchangeId o hget hkind =>
    apply NoPlacement.modifyOrder
    intro o _
    constructor <;> rfl

lemma Routines.noPlacement (h : Routines cfg s s') : NoPlacement s s' := by
  induction h with
  | refl => exact .refl s
  | tail _ hroutine ih => exact ih.trans hroutine.noPlacement

lemma setParentBracketState_noPlacement (o : Order) (state : BracketState) :
    NoPlacement s (setParentBracketState o state s) := by
  rw [setParentBracketState]
  cases o.parentOrderId with
  | none => exact .refl s
  | some parentId => exact setBracketState_noPlacement parentId state

lemma reconcilePaperEntry_noPlacement {id : OrderId} {o : Order} (hget : s.orders.get? id = some o)
    (data : MarketData) (now : Time) :
    NoPlacement s (reconcilePaperEntry cfg data now id o s).2 := by
  have hfill : NoPlacement s (s.modifyOrder id fun _ => o.paperFill cfg data now) := by
    apply NoPlacement.modifyOrder
    intro o' ho'
    rw [hget, Option.some.injEq] at ho'
    exact ho' ▸ o.applyFill_sameTerms _ _ _
  simp only [reconcilePaperEntry]
  split_ifs
  · exact hfill.trans (armDefaultBrackets_armings ..).noPlacement
  · exact hfill
  · exact .refl s

lemma reconcileChild_noPlacement {id : OrderId} {o : Order} (hget : s.orders.get? id = some o)
    (data : MarketData) (now : Time) : NoPlacement s (reconcileChild data now id o s).2 := by
  rw [reconcileChild]
  split_ifs
  · exact .refl s
  · exact (setStatus_noPlacement id .expired).trans (setParentBracketState_noPlacement o .expired)
  · refine ⟨?_, fun j o' ho' _ => ?_⟩
    · simp only [triggerChild, cancelSiblings, setParentBracketState]
      cases (o.exitFill data now).parentOrderId <;> rfl
    · rw [get?_triggerChild hget] at ho'
      obtain ⟨x, hx, rfl⟩ := Option.map_eq_some_iff.mp ho'
      split_ifs at hx with hj
      · subst hj
        rw [← Option.some.inj hx]
        exact ⟨o, hget, (o.applyFill_sameTerms _ _ _).trans (besideTriggered_terms _ _ _)⟩
      · exact ⟨x, hx, besideTriggered_terms _ _ _⟩
  · exact .refl s

lemma applyStatusRows_noPlacement (id : OrderId) (rows : List StatusRow) (now : Time)
    (s : Executor) : NoPlacement s (applyStatusRows cfg now id rows s).2 := by
  simp only [applyStatusRows]
  cases hget : s.orders.get? id with
  | none => exact .refl s
  | some o =>
    have hfill : NoPlacement s
        (s.modifyOrder id fun _ => (o.liveFill rows now).liveStatus rows) := by
      apply NoPlacement.modifyOrder
      intro o' ho'
      rw [hget, Option.some.injEq] at ho'
      subst ho'
      refine (o.liveFill_terms rows now).1.trans ?_
      rcases liveStatus_cases rows (o.liveFill rows now) with h | ⟨_, _, h | h⟩ <;> rw [h]
      · exact .refl _
      · constructor <;> rfl
      · constructor <;> rfl
    dsimp only
    split_ifs
    · exact .refl s
    · exact hfill.trans (armDefaultBrackets_armings ..).noPlacement
    · exact hfill

/-- A pass places nothing. -/
lemma Round.noPlacement {books : MarketBooks} {now : Time} (h : Round cfg books now s s') :
    NoPlacement s s' := by
  cases h with
  | paperEntry data id o hget hkind hstatus hpaper hdata =>
    exact reconcilePaperEntry_noPlacement hget data now
  | deferred id => exact (armDeferred_armings ..).noPlacement
  | child data id o hget hkind hdata => exact reconcileChild_noPlacement hget data now
  | statusRows id rows o hget hkind hopen hlive => exact applyStatusRows_noPlacement id rows now s

lemma Rounds.noPlacement {books : MarketBooks} {now : Time} (h : Rounds cfg books now s s') :
    NoPlacement s s' := by
  induction h with
  | refl => exact .refl s
  | tail _ hround ih => exact ih.trans hround.noPlacement

/-! ### A placement -/

/-- The request passes the checks that come before the cache. -/
def ReachesCache (cfg : Config) (env : Ambient) (req : PlaceRequest) : Prop :=
  validateOrder cfg env req = none ∧ passesSlippage cfg req = true

instance (cfg : Config) (env : Ambient) (req : PlaceRequest) :
    Decidable (ReachesCache cfg env req) :=
  inferInstanceAs (Decidable (_ ∧ _))

/-- The three ways the checks of a placement end. -/
lemma preflight_cases (cfg : Config) (env : Ambient) (req : PlaceRequest) (s : Executor) :
    ¬ ReachesCache cfg env req ∧ preflight cfg env req s = (false, s) ∨
    ReachesCache cfg env req ∧
      preflight cfg env req s =
        (!((cleanupRecentPlacements cfg env.now s).recentPlacements.get? req.key).isSome,
          cleanupRecentPlacements cfg env.now s) := by
  rw [preflight]
  split_ifs with hinvalid hslippage
  · exact Or.inl ⟨fun h => by simp [h.1] at hinvalid, rfl⟩
  · exact Or.inr ⟨⟨by simpa using hinvalid, hslippage⟩, rfl⟩
  · exact Or.inl ⟨fun h => hslippage h.2, rfl⟩

/-- What a placement does: nothing, the cleanup alone, or the cleanup and a new entry that was not
in the cache. -/
inductive Placed (cfg : Config) (env : Ambient) (req : PlaceRequest) (s : Executor) :
    Executor → Prop where
  | rejected (hcache : ¬ ReachesCache cfg env req) : Placed cfg env req s s
  | duplicate (hcache : ReachesCache cfg env req)
    (hknown : ((cleanupRecentPlacements cfg env.now s).recentPlacements.get? req.key).isSome = true) :
    Placed cfg env req s (cleanupRecentPlacements cfg env.now s)
  | accepted {s' : Executor} (hcache : ReachesCache cfg env req)
    (hnone : (cleanupRecentPlacements cfg env.now s).recentPlacements.get? req.key = none)
    (hopened : Routines cfg (openEntry cfg env req (cleanupRecentPlacements cfg env.now s)).2 s') :
    Placed cfg env req s s'

lemma placeOrder_placed (env : Ambient) (req : PlaceRequest) :
    Meets Alone (fun _ _ => True) (fun _ w' => Placed cfg env req w.state w'.state)
      (placeOrder cfg env req) w := by
  refine Meets.modifyGet_bind trivial ?_
  have hget := get?_openEntry cfg env req (preflight cfg env req w.state).2
  rcases preflight_cases cfg env req w.state with
    ⟨hcache, h⟩ | ⟨hcache, h⟩
  · rw [if_pos (by simp [h])]
    show Placed cfg env req w.state (preflight cfg env req w.state).2
    rw [h]
    exact .rejected hcache
  by_cases hknown : ((cleanupRecentPlacements cfg env.now w.state).recentPlacements.get?
      req.key).isSome = true
  · rw [if_pos (by simp [h, hknown])]
    show Placed cfg env req w.state (preflight cfg env req w.state).2
    rw [h]
    exact .duplicate hcache hknown
  · rw [if_neg (by simp [h, hknown])]
    refine Meets.modifyGet_bind trivial ?_
    refine (Meets.reaches (Q := fun _ _ => True)
      (G := fun w w' => Routines cfg w.state w'.state) ?_ (fun _ => .refl) .trans).mono
      (fun _ _ _ _ h => h) (fun _ _ _ => trivial) ?_
    · split_ifs with hpaper
      · exact bySteps_modify_bind (.single (.fillOnPlace env req _ hcache.1 hget hpaper)) trivial
      · exact submitEntry_byRoutines hget
    · rintro _ w' ⟨_, hopened⟩
      simp only [World.update_state, h] at hopened
      exact .accepted hcache (by simpa using hknown) hopened

lemma Invocation.perform_placed (cfg : Config) (w : ExecWorld) (req : PlaceRequest) (env : Ambient)
    (answers : Oracle Request Reply) :
    Placed cfg env req w.state
      (Invocation.perform cfg w ⟨⟨.placeOrder req, env⟩, answers⟩).state := by
  have hprogram : Meets Alone (fun _ _ => True) (fun _ w' => Placed cfg env req w.state w'.state)
      (Call.program cfg ⟨.placeOrder req, env⟩) w :=
    (placeOrder_placed env req).bind fun _ _ h => h
  exact Ends.run hprogram answers

/-- Every other call places nothing. -/
lemma Invocation.perform_noPlacement (cfg : Config) (w : ExecWorld) (i : Invocation)
    (hplace : ∀ req, i.call.op ≠ .placeOrder req) :
    NoPlacement w.state (i.perform cfg w).state := by
  obtain ⟨⟨op, env⟩, answers⟩ := i
  by_cases hpass : ∃ books, op = .reconcileOrders books
  · obtain ⟨books, rfl⟩ := hpass
    exact (Invocation.perform_rounds cfg w books env answers).noPlacement
  · have hroutines : Routines cfg w.state (Invocation.perform cfg w ⟨⟨op, env⟩, answers⟩).state :=
      ((Call.byRoutines cfg ⟨op, env⟩ w hplace (not_exists.mp hpass)).run alone_refl
        (fun _ => .refl) .trans answers).1
    exact hroutines.noPlacement

/-! ### Two entries with one key -/

/-- The time of a placement. -/
def Invocation.placedAt (i : Invocation) : Option Time :=
  match i.call.op with
  | .placeOrder _ => some i.call.env.now
  | _ => none

/-- The call does not evict `key` from the cache. -/
def SparesKey (cfg : Config) (key : PlacementKey) (w : ExecWorld) (call : Call) : Prop :=
  match call.op with
  | .placeOrder req =>
    ReachesCache cfg call.env req → key ∉ evictedPlacements cfg call.env.now w.state
  | _ => True

/-- After a placement of `key` at `placed`, with the orders of `s₀`, and calls up to `last`: the
placement is remembered or out of the window, and the later entries are out of the window. -/
structure Executor.Spaced (cfg : Config) (key : PlacementKey) (placed : Time) (s s₀ : Executor)
    (last : Time) : Prop where
  remembered : (∃ timestamp, s.recentPlacements.get? key = some timestamp ∧ placed ≤ timestamp) ∨
    placed + seconds cfg.dedupWindowSeconds < last
  later : ∀ id o, s.orders.get? id = some o → o.orderKind = .entry → o.key = key →
    (s₀.orders.get? id).isSome = true ∨ placed + seconds cfg.dedupWindowSeconds < o.timestamp

variable {key : PlacementKey} {first last : Time} {s₀ : Executor}

lemma Executor.Spaced.of_noPlacement (hs : s.Spaced cfg key first s₀ last)
    (h : NoPlacement s s') : s'.Spaced cfg key first s₀ last := by
  constructor
  · rw [h.placements]
    exact hs.remembered
  · intro id o' ho' hkind hkey
    obtain ⟨o, ho, hterms⟩ := h.entries id o' ho' hkind
    rw [hterms.timestamp]
    refine hs.later id o ho (hterms.orderKind.symm.trans hkind) ?_
    rw [← hkey, Order.key, Order.key, hterms.marketId, hterms.direction, hterms.orderKind]

/-- A cleanup that spares the key forgets its placement only when it is out of the window. -/
lemma Executor.Spaced.cleanup (hs : s.Spaced cfg key first s₀ last) {now : Time}
    (hlast : last ≤ now) (hspared : key ∉ evictedPlacements cfg now s) :
    (cleanupRecentPlacements cfg now s).Spaced cfg key first s₀ now := by
  refine ⟨?_, by simpa only [orders_cleanupRecentPlacements] using hs.later⟩
  rcases hs.remembered with ⟨timestamp, hget, hplaced⟩ | hout
  · rcases cleanupRecentPlacements_keeps hget hspared with hkept | hout
    · exact Or.inl ⟨timestamp, hkept, hplaced⟩
    · exact Or.inr (lt_of_le_of_lt (add_le_add_left hplaced _) hout)
  · exact Or.inr (hout.trans_le hlast)

/-- A new entry that the cache does not refuse is out of the window. -/
lemma Executor.Spaced.openEntry (hs : s.Spaced cfg key first s₀ last) {env : Ambient}
    {req : PlaceRequest} (hnow : env.now = last)
    (hnone : s.recentPlacements.get? req.key = none) :
    (PolyCortex.openEntry cfg env req s).2.Spaced cfg key first s₀ last := by
  have hout : req.key = key → first + seconds cfg.dedupWindowSeconds < last := by
    rintro rfl
    refine hs.remembered.resolve_left ?_
    rintro ⟨timestamp, hget, _⟩
    rw [hnone] at hget
    cases hget
  constructor
  · by_cases hkey : req.key = key
    · exact Or.inr (hout hkey)
    · refine hs.remembered.imp_left fun ⟨timestamp, hget, hplaced⟩ => ⟨timestamp, ?_, hplaced⟩
      exact (s.recentPlacements.get?_set_of_ne (Ne.symm hkey) env.now).trans hget
  · intro id o ho hkind hkey
    replace ho : (s.insertOrder (buildEntryOrder cfg env req)).orders.get? id = some o := ho
    rw [get?_insertOrder] at ho
    split_ifs at ho
    · rw [Option.some.injEq, buildEntryOrder_eq] at ho
      subst ho
      rw [hnow]
      exact Or.inr (hout hkey)
    · exact hs.later id o ho hkind hkey

lemma Executor.Spaced.place {env : Ambient} {req : PlaceRequest}
    (hs : s.Spaced cfg key first s₀ last) (hlast : last ≤ env.now)
    (hspared : ReachesCache cfg env req → key ∉ evictedPlacements cfg env.now s)
    (h : Placed cfg env req s s') : s'.Spaced cfg key first s₀ env.now := by
  cases h with
  | rejected hcache => exact ⟨hs.remembered.imp_right fun h => h.trans_le hlast, hs.later⟩
  | duplicate hcache hknown => exact hs.cleanup hlast (hspared hcache)
  | accepted hcache hnone hopened =>
    exact ((hs.cleanup hlast (hspared hcache)).openEntry rfl hnone).of_noPlacement
      hopened.noPlacement

/-- Along calls that spare the key, at times that do not decrease. -/
lemma Executor.Spaced.run {rest : List Invocation} {w : ExecWorld}
    (hs : w.state.Spaced cfg key first s₀ last)
    (htimes : (last :: rest.filterMap Invocation.placedAt).Pairwise (· ≤ ·))
    (hspared : StepsMeetFrom cfg (SparesKey cfg key) w rest) :
    ∃ last', (runFrom cfg w rest).state.Spaced cfg key first s₀ last' := by
  induction rest generalizing w last with
  | nil => exact ⟨last, hs⟩
  | cons i rest ih =>
    obtain ⟨hspares, hrest⟩ := hspared
    obtain ⟨⟨op, env⟩, answers⟩ := i
    by_cases hplace : ∃ req, op = .placeOrder req
    · obtain ⟨req, rfl⟩ := hplace
      have htimes' : (last :: env.now :: rest.filterMap Invocation.placedAt).Pairwise (· ≤ ·) :=
        htimes
      rw [List.pairwise_cons] at htimes'
      have hlast := htimes'.1 env.now List.mem_cons_self
      exact ih (hs.place hlast hspares (Invocation.perform_placed cfg w req env answers))
        htimes'.2 hrest
    · have hnone : Invocation.placedAt ⟨⟨op, env⟩, answers⟩ = none := by
        cases op with
        | placeOrder req => exact absurd ⟨req, rfl⟩ hplace
        | _ => rfl
      rw [List.filterMap_cons_none hnone] at htimes
      exact ih (hs.of_noPlacement (Invocation.perform_noPlacement cfg w _ (not_exists.mp hplace)))
        htimes hrest

/-- A new entry is remembered under its key, with its time. -/
lemma Placed.remembers {env : Ambient} {req : PlaceRequest} (h : Placed cfg env req s s')
    {id : OrderId} {o : Order} (hnone : s.orders.get? id = none)
    (hget : s'.orders.get? id = some o) (hkind : o.orderKind = .entry) :
    o.timestamp = env.now ∧ s'.recentPlacements.get? o.key = some o.timestamp := by
  cases h with
  | rejected hcache =>
    rw [hnone] at hget
    cases hget
  | duplicate hcache hknown =>
    rw [orders_cleanupRecentPlacements, hnone] at hget
    cases hget
  | accepted hcache hknown hopened =>
    obtain ⟨hplacements, hentries⟩ := hopened.noPlacement
    obtain ⟨x, hx, hterms⟩ := hentries id o hget hkind
    set s₁ := cleanupRecentPlacements cfg env.now s
    replace hx : (s₁.insertOrder (buildEntryOrder cfg env req)).orders.get? id = some x := hx
    rw [Executor.get?_insertOrder, orders_cleanupRecentPlacements, hnone] at hx
    split_ifs at hx
    rw [Option.some.injEq, buildEntryOrder_eq] at hx
    subst hx
    have hkey : o.key = req.key := by
      rw [Order.key, hterms.marketId, hterms.direction, hterms.orderKind, PlaceRequest.key]
    refine ⟨hterms.timestamp, ?_⟩
    rw [hplacements, hkey, hterms.timestamp]
    exact s₁.recentPlacements.get?_set_self req.key env.now

/-- Two entries with one market and direction, at times that do not decrease, are further apart
than the window, unless a cleanup between them evicts their key because of the size of the
cache. -/
theorem runAll_entries_apart (cfg : Config) (pre : List Invocation) (i : Invocation)
    (rest : List Invocation)
    (htimes : ((i :: rest).filterMap Invocation.placedAt).Pairwise (· ≤ ·))
    {id id' : OrderId} {o o' : Order}
    (hbefore : (runAll cfg pre).state.orders.get? id = none)
    (hget : (runAll cfg (pre ++ [i])).state.orders.get? id = some o) (hkind : o.orderKind = .entry)
    (hafter : (runAll cfg (pre ++ [i])).state.orders.get? id' = none)
    (hget' : (runAll cfg (pre ++ i :: rest)).state.orders.get? id' = some o')
    (hkind' : o'.orderKind = .entry) (hmarket : o'.marketId = o.marketId)
    (hdirection : o'.direction = o.direction)
    (hspared : StepsMeetFrom cfg (SparesKey cfg (o.marketId, o.direction, .entry))
      (runAll cfg (pre ++ [i])) rest) :
    o.timestamp + seconds cfg.dedupWindowSeconds < o'.timestamp := by
  have hrest : runAll cfg (pre ++ i :: rest) = runFrom cfg (runAll cfg (pre ++ [i])) rest := by
    rw [← runAll_append, List.append_assoc, List.singleton_append]
  have hkey : o.key = (o.marketId, o.direction, .entry) := by rw [Order.key, hkind]
  have hkey' : o'.key = o.key := by rw [Order.key, Order.key, hmarket, hdirection, hkind, hkind']
  rw [← hkey] at hspared
  obtain ⟨⟨op, env⟩, answers⟩ := i
  by_cases hplace : ∃ req, op = .placeOrder req
  swap
  · rw [runAll_concat] at hget
    obtain ⟨x, hx, _⟩ := (Invocation.perform_noPlacement cfg (runAll cfg pre) _
      (not_exists.mp hplace)).entries id o hget hkind
    rw [hbefore] at hx
    cases hx
  obtain ⟨req, rfl⟩ := hplace
  have hplaced := Invocation.perform_placed cfg (runAll cfg pre) req env answers
  rw [← runAll_concat] at hplaced
  obtain ⟨htime, hremembered⟩ := hplaced.remembers hbefore hget hkind
  have hspaced : (runAll cfg (pre ++ [⟨⟨.placeOrder req, env⟩, answers⟩])).state.Spaced cfg o.key
      o.timestamp (runAll cfg (pre ++ [⟨⟨.placeOrder req, env⟩, answers⟩])).state env.now :=
    ⟨Or.inl ⟨o.timestamp, hremembered, le_rfl⟩, fun j x hx _ _ => Or.inl (by rw [hx]; rfl)⟩
  obtain ⟨last, hend⟩ := hspaced.run htimes hspared
  rw [hrest] at hget'
  refine (hend.later id' o' hget' hkind' hkey').resolve_left ?_
  simp [hafter]

/-! #### Two placements, and a crowd between them -/

/-- The `n`-th of a family of markets. -/
def marketNamed (n : ℕ) : MarketId := String.ofList (List.replicate (n + 1) 'm')

def requestIn (n : ℕ) : PlaceRequest :=
  { marketId := marketNamed n, direction := .yes, sizeUsdc := 1, price := 1 / 2 }

/-- A paper placement in the `n`-th market. -/
def placementIn (n : ℕ) (now : Time) : Invocation := offline (.placeOrder (requestIn n)) now

/-- The theorem at two placements that are seven minutes apart. -/
theorem runAll_entries_apart_later :
    ∃ o o', (runAll {} [placementIn 0 0]).state.orders.get? 0 = some o ∧
      (runAll {} [placementIn 0 0, placementIn 0 (minutes 7)]).state.orders.get? 4 = some o' ∧
      o.timestamp + seconds 300 < o'.timestamp := by
  have hfirst : ((runAll {} ([] ++ [placementIn 0 0])).state.orders.get? 0).any (fun o =>
      o.orderKind = .entry ∧ o.key = (marketNamed 0, .yes, .entry)) = true := by decide +kernel
  have hsecond : ((runAll {} ([] ++ [placementIn 0 0, placementIn 0 (minutes 7)])).state.orders.get?
      4).any (fun o => o.key = (marketNamed 0, .yes, .entry)) = true := by decide +kernel
  obtain ⟨o, hget, hfacts⟩ := (Option.any_eq_true _ _).mp hfirst
  obtain ⟨o', hget', hfacts'⟩ := (Option.any_eq_true _ _).mp hsecond
  obtain ⟨hkind, hkey⟩ := of_decide_eq_true hfacts
  have hkey' := of_decide_eq_true hfacts'
  simp only [Order.key, Prod.mk.injEq] at hkey hkey'
  refine ⟨o, o', hget, hget', ?_⟩
  refine runAll_entries_apart {} [] (placementIn 0 0) [placementIn 0 (minutes 7)] (by decide +kernel)
    rfl hget hkind (by decide +kernel) hget' hkey'.2.2 (hkey'.1.trans hkey.1.symm)
    (hkey'.2.1.trans hkey.2.1.symm) ⟨fun _ => ?_, trivial⟩
  rw [hkey.1, hkey.2.1]
  decide +kernel

/-- A placement that reaches the cache and is not refused opens its entry. -/
lemma Placed.opens {env : Ambient} {req : PlaceRequest} (h : Placed cfg env req s s')
    (hacc : s.Accounted) (hcache : ReachesCache cfg env req)
    (hnone : (cleanupRecentPlacements cfg env.now s).recentPlacements.get? req.key = none) :
    s'.recentPlacements =
        (cleanupRecentPlacements cfg env.now s).recentPlacements.set req.key env.now ∧
      ∃ o, s'.orders.get? s.nextId = some o ∧ o.timestamp = env.now ∧ o.key = req.key := by
  cases h with
  | rejected hcache' => exact absurd hcache hcache'
  | duplicate hcache' hknown =>
    rw [hnone] at hknown
    cases hknown
  | accepted hcache' hnone' hopened =>
    set s₁ := cleanupRecentPlacements cfg env.now s with hs₁
    have hopen : Changes cfg s (openEntry cfg env req s₁).2 :=
      ReflTransGen.tail (.single (.command (.cleanup env.now)))
        (.command (.openEntry env req hcache.1))
    have hroutines : Changes cfg (openEntry cfg env req s₁).2 s' :=
      ReflTransGen.mono (fun _ _ h => .command h.command) _ _ hopened
    obtain ⟨o, ho, hterms, _⟩ := hroutines.follows (hopen.conserves hacc).accounted s₁.nextId _
      (get?_openEntry cfg env req s₁)
    rw [buildEntryOrder_eq] at hterms
    refine ⟨hopened.noPlacement.placements, o, ?_, hterms.timestamp, ?_⟩
    · rw [← ho, hs₁, nextId_cleanupRecentPlacements]
    · rw [Order.key, hterms.marketId, hterms.direction, hterms.orderKind, PlaceRequest.key]

/-- A cache whose placements are all within the window is not pruned by age. -/
lemma recentWithin_eq {now : Time}
    (h : ∀ key timestamp, s.recentPlacements.get? key = some timestamp →
      now - seconds cfg.dedupWindowSeconds ≤ timestamp) :
    recentWithin cfg now s = s.recentPlacements := by
  have hget : ∀ key, (recentWithin cfg now s).get? key = s.recentPlacements.get? key := by
    intro key
    rw [recentWithin, Dict.get?_filter]
    cases hkey : s.recentPlacements.get? key with
    | none => rfl
    | some timestamp =>
      exact Option.filter_eq_some_iff.mpr ⟨rfl, decide_eq_true (not_lt.mpr (h key timestamp hkey))⟩
  refine Dict.ext ?_ (funext hget)
  refine List.filter_eq_self.mpr fun key hkey => ?_
  obtain ⟨timestamp, htimestamp⟩ :=
    Option.isSome_iff_exists.mp ((s.recentPlacements.mem_keys key).mp hkey)
  simpa [htimestamp] using h key timestamp htimestamp

/-- One placement in each of the first `n` markets, a microsecond apart. -/
def crowd (n : ℕ) : List Invocation := (List.range n).map fun k => placementIn k k

def keyIn (n : ℕ) : PlacementKey := (requestIn n).key

lemma marketNamed_injective : Function.Injective marketNamed := by
  intro j k h
  have hlength := congrArg (fun market : String => market.toList.length) h
  simpa [marketNamed] using hlength

lemma keyIn_injective : Function.Injective keyIn := by
  intro j k h
  exact marketNamed_injective (Prod.mk.inj h).1

lemma marketNamed_ne_empty (n : ℕ) : marketNamed n ≠ "" := by
  intro h
  have hlength := congrArg (fun market : String => market.toList.length) h
  simp [marketNamed] at hlength

lemma placementIn_reachesCache (n : ℕ) (now : Time) :
    ReachesCache {} { now } (requestIn n) := by
  constructor
  · norm_num [validateOrder, requestIn, marketNamed_ne_empty n]
  · rfl

lemma placementIn_placed (n : ℕ) (now : Time) :
    Placed {} { now } (requestIn n) w.state ((placementIn n now).perform {} w).state :=
  Invocation.perform_placed {} w (requestIn n) { now } unreachable

lemma crowd_succ (n : ℕ) : crowd (n + 1) = crowd n ++ [placementIn n n] := by
  rw [crowd, List.range_succ, List.map_append]
  rfl

lemma crowd_placedAt (n : ℕ) :
    (crowd n).filterMap Invocation.placedAt = (List.range n).map fun k : ℕ => (k : Time) := by
  induction n with
  | zero => rfl
  | succ n ih =>
    rw [crowd_succ, List.filterMap_append, ih, List.range_succ, List.map_append]
    rfl

/-- The cache holds the first `n` markets, oldest first. -/
structure Executor.Crowded (s : Executor) (n : ℕ) : Prop where
  keys : s.recentPlacements.keys = (List.range n).map keyIn
  times : ∀ k < n, s.recentPlacements.get? (keyIn k) = some (k : Time)

lemma Executor.Crowded.of_get? {n : ℕ} (hs : s.Crowded n) {key : PlacementKey} {timestamp : Time}
    (hget : s.recentPlacements.get? key = some timestamp) :
    ∃ k < n, key = keyIn k ∧ timestamp = k := by
  have hkey := Dict.mem_keys_of_get? hget
  rw [hs.keys, List.mem_map] at hkey
  obtain ⟨k, hk, rfl⟩ := hkey
  rw [List.mem_range] at hk
  rw [hs.times k hk, Option.some.injEq] at hget
  exact ⟨k, hk, rfl, hget.symm⟩

lemma Executor.Crowded.recentWithin {n : ℕ} (hs : s.Crowded n) {now : Time}
    (hnow : now ≤ seconds 300) :
    PolyCortex.recentWithin {} now s = s.recentPlacements := by
  apply recentWithin_eq
  intro key timestamp hget
  obtain ⟨k, hk, rfl, rfl⟩ := hs.of_get? hget
  exact (sub_nonpos.mpr hnow).trans (Int.natCast_nonneg k)

/-- Up to the size of the cache nothing is evicted. -/
lemma crowd_crowded {n : ℕ} (hn : n ≤ 10001) : (runAll {} (crowd n)).state.Crowded n := by
  induction n with
  | zero => exact ⟨rfl, fun k hk => absurd hk (Nat.not_lt_zero k)⟩
  | succ n ih =>
    have hcrowded := ih (by omega)
    set s := (runAll {} (crowd n)).state with hs
    have hsize : s.recentPlacements.keys.length = n := by simp [hcrowded.keys]
    have hcleanup : (cleanupRecentPlacements {} (n : Time) s).recentPlacements =
        s.recentPlacements := by
      have hnow : (n : ℤ) ≤ 300 * 1000000 := by omega
      have h := hcrowded.recentWithin hnow
      rw [PolyCortex.recentWithin] at h
      rw [cleanupRecentPlacements, h, if_neg (by omega)]
    have hnew : s.recentPlacements.get? (keyIn n) = none := by
      rw [← Option.not_isSome_iff_eq_none, ← Dict.mem_keys, hcrowded.keys, List.mem_map]
      rintro ⟨k, hk, hkey⟩
      rw [keyIn_injective hkey, List.mem_range] at hk
      exact lt_irrefl n hk
    obtain ⟨hplacements, _⟩ := (placementIn_placed (w := runAll {} (crowd n)) n n).opens
      (runAll_accounted {} (crowd n)) (placementIn_reachesCache n n) (by rw [hcleanup]; exact hnew)
    replace hplacements : ((placementIn n n).perform {} (runAll {} (crowd n))).state.recentPlacements =
        s.recentPlacements.set (keyIn n) (n : Time) := by
      rw [hplacements, hcleanup]
      rfl
    rw [crowd_succ, runAll_concat]
    constructor
    · rw [hplacements, Dict.keys_set_of_none hnew, hcrowded.keys, List.range_succ, List.map_append]
      rfl
    · intro k hk
      rw [hplacements, Dict.get?_set]
      split_ifs with hkey
      · rw [keyIn_injective hkey]
      · refine hcrowded.times k ?_
        have hne : k ≠ n := fun h => hkey (congrArg keyIn h)
        omega

/-- The placement in the first market is among the oldest half of a crowd that is too large. -/
lemma crowd_evicts {now : Time} (hnow : now ≤ seconds 300) :
    keyIn 0 ∈ evictedPlacements {} now (runAll {} (crowd 10001)).state := by
  have hcrowded := crowd_crowded (n := 10001) le_rfl
  set s := (runAll {} (crowd 10001)).state
  have hsize : 10000 < s.recentPlacements.keys.length := by simp [hcrowded.keys]
  have hsorted : s.recentPlacements.keys.Pairwise fun j k =>
      (s.recentPlacements.get? j).getD 0 ≤ (s.recentPlacements.get? k).getD 0 := by
    rw [hcrowded.keys, List.pairwise_map]
    refine List.Pairwise.imp_of_mem (fun {j k} hj hk hlt => ?_) List.pairwise_lt_range
    rw [hcrowded.times j (List.mem_range.mp hj), hcrowded.times k (List.mem_range.mp hk)]
    exact Int.ofNat_le.mpr (le_of_lt hlt)
  rw [evictedPlacements, hcrowded.recentWithin hnow, if_pos hsize, hsorted.insertionSort_eq,
    hcrowded.keys, ← List.map_take, List.take_range, List.mem_map]
  exact ⟨0, by simp, rfl⟩

/-- When the first market has been evicted, it can be placed again at once. -/
lemma crowd_placed_again {n : ℕ} (hn : 0 < n) {now : Time}
    (hevicts : keyIn 0 ∈ evictedPlacements {} now (runAll {} (crowd n)).state) :
    ∃ id id' o o', id ≠ id' ∧
      (runAll {} (crowd n ++ [placementIn 0 now])).state.orders.get? id = some o ∧
      (runAll {} (crowd n ++ [placementIn 0 now])).state.orders.get? id' = some o' ∧
      o.key = keyIn 0 ∧ o'.key = keyIn 0 ∧ o.timestamp = 0 ∧ o'.timestamp = now := by
  have hfirst : ((runAll {} (crowd 1)).state.orders.get? 0).any (fun o =>
      o.key = keyIn 0 ∧ o.timestamp = 0) = true := by decide +kernel
  obtain ⟨o₁, hget₁, hfacts⟩ := (Option.any_eq_true _ _).mp hfirst
  obtain ⟨hkey₁, htime₁⟩ := of_decide_eq_true hfacts
  -- the first entry is still there after the crowd
  have hcrowd : Changes {} (runAll {} (crowd 1)).state (runAll {} (crowd n)).state := by
    obtain ⟨m, rfl⟩ := Nat.exists_eq_succ_of_ne_zero hn.ne'
    have hsplit : crowd m.succ =
        crowd 1 ++ (List.range m).map fun k => placementIn (k + 1) (k + 1 : ℕ) := by
      rw [crowd, List.range_succ_eq_map, List.map_cons, List.map_map]
      rfl
    rw [hsplit, runAll_append]
    exact runFrom_changes {} _ _
  obtain ⟨o₂, hget₂, hterms₂, _⟩ := hcrowd.follows (runAll_accounted {} _) 0 o₁ hget₁
  -- and after the next placement, which opens another one
  obtain ⟨_, o', hget', htime', hkey'⟩ := (placementIn_placed (w := runAll {} (crowd n)) 0 now).opens
    (runAll_accounted {} _) (placementIn_reachesCache 0 now)
    (by rw [get?_cleanupRecentPlacements]; exact if_pos hevicts)
  obtain ⟨o₃, hget₃, hterms₃, _⟩ :=
    (Invocation.perform_changes {} (runAll {} (crowd n)) (placementIn 0 now)).follows
      (runAll_accounted {} _) 0 o₂ hget₂
  have hterms := hterms₂.trans hterms₃
  rw [← runAll_concat] at hget' hget₃
  refine ⟨0, _, o₃, o', (Executor.lt_nextId hget₂).ne, hget₃, hget', ?_, hkey',
    hterms.timestamp.trans htime₁, htime'⟩
  rw [← hkey₁, Order.key, Order.key, hterms.marketId, hterms.direction, hterms.orderKind]

/-- After placements in 10001 markets the first one is placed again, ten milliseconds after the
first time. -/
theorem runAll_entries_not_apart :
    ((crowd 10001 ++ [placementIn 0 10001]).filterMap Invocation.placedAt).Pairwise (· ≤ ·) ∧
    ∃ id id' o o', id ≠ id' ∧
      (runAll {} (crowd 10001 ++ [placementIn 0 10001])).state.orders.get? id = some o ∧
      (runAll {} (crowd 10001 ++ [placementIn 0 10001])).state.orders.get? id' = some o' ∧
      o.orderKind = .entry ∧ o'.orderKind = .entry ∧ o'.marketId = o.marketId ∧
      o'.direction = o.direction ∧ o.timestamp ≤ o'.timestamp ∧
      ¬ o.timestamp + seconds ({} : Config).dedupWindowSeconds < o'.timestamp := by
  constructor
  · rw [List.filterMap_append, crowd_placedAt, List.pairwise_append, List.pairwise_map]
    refine ⟨List.pairwise_lt_range.imp fun h => Int.ofNat_le.mpr h.le, List.pairwise_singleton _ _,
      fun t ht t' ht' => ?_⟩
    obtain ⟨k, hk, rfl⟩ := List.mem_map.mp ht
    obtain rfl : t' = 10001 := List.mem_singleton.mp ht'
    exact Int.ofNat_le.mpr (List.mem_range.mp hk).le
  · obtain ⟨id, id', o, o', hne, hget, hget', hkey, hkey', htime, htime'⟩ :=
      crowd_placed_again (by norm_num) (crowd_evicts (show (10001 : Time) ≤ seconds 300 by decide))
    have hsame := hkey'.trans hkey.symm
    refine ⟨id, id', o, o', hne, hget, hget', congrArg (·.2.2) hkey, congrArg (·.2.2) hkey',
      congrArg (·.1) hsame, congrArg (·.2.1) hsame, ?_, ?_⟩
    · rw [htime, htime']
      decide
    · rw [htime, htime']
      decide

end PolyCortex
