import PolyCortex.Execution.BracketLevels

/-!
# Triggers around the entry

The triggers of a pair are fixed by the call that arms it: they are the levels around the average price
that the entry has then, clamped to the prices from 0.01 to 0.99. They enclose that price exactly when it
lies strictly inside the clamp (`runAll_armedAround`).
-/

namespace PolyCortex

open Coroutine Relation

variable {cfg : Config} {s : Executor} {w : ExecWorld} {e : OrderId} {g : ℕ} {f f' : Family}
  {o : Order} {spec : BracketSpec} {levels : ℚ × ℚ} {avg : ℚ} {run : List Invocation}

/-! ### Levels around a price -/

/-- A gain is aimed at, and something but not all is risked. -/
structure BracketSpec.Sound (spec : BracketSpec) : Prop where
  takeProfitPct_pos : 0 < spec.takeProfitPct
  stopLossPct_pos : 0 < spec.stopLossPct
  stopLossPct_lt : spec.stopLossPct < 1

/-- The levels lie on the two sides of the price. -/
def Encloses (levels : ℚ × ℚ) (price : ℚ) : Prop := levels.2 < price ∧ price < levels.1

lemma le_clampPrice (price : ℚ) : 1 / 100 ≤ clampPrice price := le_max_left _ _

lemma clampPrice_le (price : ℚ) : clampPrice price ≤ 99 / 100 :=
  max_le (by norm_num) (min_le_right _ _)

/-- The levels enclose the price they are built around exactly when it is strictly inside the clamp. -/
lemma BracketSpec.Sound.encloses_iff (h : spec.Sound) (avg price : ℚ) :
    Encloses (buildBracketLevels (pyOr? (some avg) price) spec) avg ↔
      1 / 100 < avg ∧ avg < 99 / 100 := by
  constructor
  · rintro ⟨hstop, hprofit⟩
    exact ⟨(le_clampPrice _).trans_lt hstop, hprofit.trans_le (clampPrice_le _)⟩
  · rintro ⟨hlow, hhigh⟩
    have hpos : 0 < avg := by linarith
    have hprice : pyOr? (some avg) price = avg := if_neg hpos.ne'
    have hstop : avg * (1 - spec.stopLossPct) < avg :=
      mul_lt_of_lt_one_right hpos (by linarith [h.stopLossPct_pos])
    have hprofit : avg < avg * (1 + spec.takeProfitPct) :=
      lt_mul_of_one_lt_right hpos (by linarith [h.takeProfitPct_pos])
    rw [hprice]
    exact ⟨max_lt hlow ((min_le_left _ _).trans_lt hstop), lt_max_of_lt_right (lt_min hprofit hhigh)⟩

/-! ### Pairs -/

/-- The children of the family trigger at the levels. -/
structure Family.HasTriggers (levels : ℚ × ℚ) (f : Family) : Prop where
  takeProfit : f.takeProfit.triggerPrice = some levels.1
  gte : f.takeProfit.triggerCondition = some .gte
  stopLoss : f.stopLoss.triggerPrice = some levels.2
  lte : f.stopLoss.triggerCondition = some .lte

lemma Family.created_hasTriggers (spec : BracketSpec) (now : Time) (g : ℕ)
    (havg : o.averageFillPrice = some avg) :
    (Family.created spec now g o).HasTriggers (buildBracketLevels (pyOr? (some avg) o.price) spec) := by
  rw [← havg]
  constructor
  · rw [created, takeProfitOrder, bracketChild_eq]
    rfl
  · rw [created, takeProfitOrder, bracketChild_eq]
  · rw [created, stopLossOrder, bracketChild_eq]
    rfl
  · rw [created, stopLossOrder, bracketChild_eq]

/-- No operation moves the triggers. -/
lemma Family.HasTriggers.follows {s' : Executor} (h : f.HasTriggers levels) (hs : s.FamilyAt e g f)
    (hs' : s'.FamilyAt e g f') (hfollows : s.Follows s') : f'.HasTriggers levels := by
  obtain ⟨tp, htp, htpTerms, -⟩ := hfollows _ _ hs.family.get_takeProfit
  obtain ⟨sl, hsl, hslTerms, -⟩ := hfollows _ _ hs.family.get_stopLoss
  obtain rfl := Option.some.inj (hs'.family.get_takeProfit.symm.trans htp)
  obtain rfl := Option.some.inj (hs'.family.get_stopLoss.symm.trans hsl)
  exact ⟨htpTerms.triggerPrice.trans h.takeProfit, htpTerms.triggerCondition.trans h.gte,
    hslTerms.triggerPrice.trans h.stopLoss, hslTerms.triggerCondition.trans h.lte⟩

/-- The children that the entry `o` lists trigger on the two sides of the price. -/
def Executor.EnclosesPrice (s : Executor) (o : Order) (price : ℚ) : Prop :=
  ∀ c ∈ o.bracketOrderIds, ∀ x ∈ s.orders.get? c,
    (x.orderKind = .takeProfit → ∃ trigger ∈ x.triggerPrice, price < trigger) ∧
    (x.orderKind = .stopLoss → ∃ trigger ∈ x.triggerPrice, trigger < price)

/-- A book at the price triggers none of the children that the entry `o` lists. -/
def Executor.UntriggeredAt (s : Executor) (o : Order) (price : ℚ) : Prop :=
  ∀ c ∈ o.bracketOrderIds, ∀ x ∈ s.orders.get? c, ∀ data, exitPrice data x = price →
    shouldTrigger data x = false

lemma Executor.FamilyAt.enclosesPrice_iff (h : s.FamilyAt e g f) (htriggers : f.HasTriggers levels)
    (price : ℚ) : s.EnclosesPrice f.entry price ↔ Encloses levels price := by
  have htp := h.family.get_takeProfit
  have hsl := h.family.get_stopLoss
  constructor
  · intro hencloses
    obtain ⟨tp, htp', hlt⟩ := (hencloses (g + 1) (by simp [h.family.ids]) _ htp).1
      h.family.takeProfit.orderKind
    obtain ⟨sl, hsl', hlt'⟩ := (hencloses (g + 2) (by simp [h.family.ids]) _ hsl).2
      h.family.stopLoss.orderKind
    obtain rfl := Option.some.inj (htriggers.takeProfit.symm.trans htp')
    obtain rfl := Option.some.inj (htriggers.stopLoss.symm.trans hsl')
    exact ⟨hlt', hlt⟩
  · rintro ⟨hstop, hprofit⟩ c hc x hx
    rw [h.family.ids] at hc
    simp only [List.mem_cons, List.not_mem_nil, or_false] at hc
    rcases hc with rfl | rfl
    · obtain rfl := Option.some.inj (htp.symm.trans hx)
      exact ⟨fun _ => ⟨_, htriggers.takeProfit, hprofit⟩, by simp [h.family.takeProfit.orderKind]⟩
    · obtain rfl := Option.some.inj (hsl.symm.trans hx)
      exact ⟨by simp [h.family.stopLoss.orderKind], fun _ => ⟨_, htriggers.stopLoss, hstop⟩⟩

lemma Executor.FamilyAt.untriggeredAt (h : s.FamilyAt e g f) (htriggers : f.HasTriggers levels)
    {price : ℚ} (hencloses : Encloses levels price) : s.UntriggeredAt f.entry price := by
  intro c hc x hx data hprice
  rw [h.family.ids] at hc
  simp only [List.mem_cons, List.not_mem_nil, or_false] at hc
  rcases hc with rfl | rfl
  · obtain rfl := Option.some.inj (h.family.get_takeProfit.symm.trans hx)
    rw [shouldTrigger, htriggers.gte, htriggers.takeProfit, hprice]
    exact decide_eq_false hencloses.2.not_ge
  · obtain rfl := Option.some.inj (h.family.get_stopLoss.symm.trans hx)
    rw [shouldTrigger, htriggers.lte, htriggers.stopLoss, hprice]
    exact decide_eq_false hencloses.1.not_ge

/-! ### Runs -/

/-- Every bracket that the run asks for is sound, and so is the default. -/
structure SoundBrackets (cfg : Config) (run : List Invocation) : Prop where
  default : ∀ spec ∈ cfg.defaultBracketSpec, spec.Sound
  asked : ∀ i ∈ run, ∀ req, i.call.op = .placeOrder req → ∀ spec ∈ req.bracketSpec, spec.Sound

lemma SoundBrackets.bracket (h : SoundBrackets cfg run) {i : Invocation} (hi : i ∈ run)
    {req : PlaceRequest} (hop : i.call.op = .placeOrder req) (hspec : req.bracket cfg = some spec) :
    spec.Sound := by
  rw [PlaceRequest.bracket, Option.or_eq_some_iff] at hspec
  rcases hspec with hasked | ⟨-, hdefault⟩
  · exact h.asked i hi req hop spec hasked
  · exact h.default spec hdefault

/-- The call `i` after the run `pre` arms the pair of `f`, with the average price `avg` of the entry. -/
structure Family.ArmedBy (cfg : Config) (pre : List Invocation) (i : Invocation) (e : OrderId) (g : ℕ)
    (f : Family) (levels : ℚ × ℚ) (avg : ℚ) : Prop where
  before : ∀ o ∈ (runAll cfg pre).state.orders.get? e, o.bracketOrderIds = []
  family : (runAll cfg (pre ++ [i])).state.FamilyAt e g f
  average : f.entry.averageFillPrice = some avg
  triggers : f.HasTriggers levels
  encloses : Encloses levels avg ↔ 1 / 100 < avg ∧ avg < 99 / 100

/-- Every pair has been armed by a call of the run, with the triggers that it has. -/
lemma runAll_armedBy (hsound : SoundBrackets cfg run) (h : (runAll cfg run).state.FamilyAt e g f) :
    ∃ pre i post, ∃ fresh : Family, ∃ levels avg, run = pre ++ i :: post ∧
      fresh.ArmedBy cfg pre i e g levels avg ∧ f.HasTriggers levels := by
  induction run using List.reverseRecOn generalizing f with
  | nil => cases h.family.get
  | append_singleton run i ih =>
    have hs := runAll_regular cfg run
    have hi : i ∈ run ++ [i] := by simp
    have harmed := h
    rw [runAll_concat] at harmed
    cases Invocation.perform_origin cfg i hs.related hs.whole hs.ordered harmed with
    | kept f₀ h₀ _ =>
      have hsound' : SoundBrackets cfg run :=
        ⟨hsound.default, fun j hj => hsound.asked j (List.mem_append_left _ hj)⟩
      obtain ⟨pre, j, post, fresh, levels, avg, rfl, hfresh, htriggers⟩ := ih hsound' h₀
      have hfollows := (i.perform_changes cfg _).follows hs.related.accounted
      refine ⟨pre, j, post ++ [i], fresh, levels, avg, by simp, hfresh, ?_⟩
      exact htriggers.follows h₀ harmed hfollows
    | armed o spec books hlone hop hspec hround hsame =>
      obtain ⟨avg, havg⟩ := Order.loneRound_average (runAll_priced cfg run e o hlone.get) hround
      rw [← Order.afterFills_averageFillPrice i.call.env.now, ← Order.loneRound_fst] at havg
      have htriggers := Family.created_hasTriggers spec i.call.env.now g havg
      rw [← hsame] at htriggers
      refine ⟨run, i, [], f, _, avg, rfl, ⟨?_, h, ?_, htriggers, ?_⟩, htriggers⟩
      · intro x hx
        obtain rfl := Option.some.inj (hlone.get.symm.trans hx)
        exact hlone.noBracket
      · rw [hsame]
        exact havg
      · exact (hsound.default spec hspec).encloses_iff avg _
    | placed req spec o hnone hop hspec hprice hsame =>
      have htriggers := Family.created_hasTriggers spec i.call.env.now g hprice
      rw [← hsame] at htriggers
      refine ⟨run, i, [], f, _, limitPrice req.direction req.price, rfl, ⟨?_, h, ?_, htriggers, ?_⟩,
        htriggers⟩
      · intro x hx
        rw [hnone] at hx
        cases hx
      · rw [hsame]
        exact hprice
      · exact (hsound.bracket hi hop hspec).encloses_iff _ _

/-- The call `i` after the run `pre` has armed the pair of the entry `e`, which is `o` then and `entry`
in the later state `s`. The triggers have not moved since, and they enclose the average price of the
entry at that call when it is strictly inside the clamp. -/
structure ArmedAround (cfg : Config) (pre : List Invocation) (i : Invocation) (e : OrderId)
    (o entry : Order) (avg : ℚ) (s : Executor) : Prop where
  before : ∀ x ∈ (runAll cfg pre).state.orders.get? e, x.bracketOrderIds = []
  armed : (runAll cfg (pre ++ [i])).state.orders.get? e = some o
  children : o.bracketOrderIds = entry.bracketOrderIds
  average : o.averageFillPrice = some avg
  fresh_encloses : (runAll cfg (pre ++ [i])).state.EnclosesPrice o avg ↔ 1 / 100 < avg ∧ avg < 99 / 100
  fresh_untriggered : 1 / 100 < avg → avg < 99 / 100 →
    (runAll cfg (pre ++ [i])).state.UntriggeredAt o avg
  encloses : s.EnclosesPrice entry avg ↔ 1 / 100 < avg ∧ avg < 99 / 100

/-- Every entry with an armed child was armed by a call of the run, around its average price then. -/
theorem runAll_armedAround (cfg : Config) (run : List Invocation) (hsound : SoundBrackets cfg run)
    {e : OrderId} {entry : Order} (hget : (runAll cfg run).state.orders.get? e = some entry)
    (harmed : (runAll cfg run).state.ListsArmed entry) :
    ∃ pre i post o avg, run = pre ++ i :: post ∧
      ArmedAround cfg pre i e o entry avg (runAll cfg run).state := by
  have hs := runAll_regular cfg run
  have hids : entry.bracketOrderIds ≠ [] := by
    obtain ⟨c, hc, _⟩ := harmed
    exact List.ne_nil_of_mem hc
  obtain ⟨g, tp, sl, hbracket⟩ := hs.related.listed e entry hget hids
  have h : (runAll cfg run).state.FamilyAt e g ⟨entry, tp, sl⟩ := ⟨hs.related, hs.whole, hbracket⟩
  obtain ⟨pre, i, post, fresh, levels, avg, hrun, hfresh, htriggers⟩ := runAll_armedBy hsound h
  refine ⟨pre, i, post, fresh.entry, avg, hrun, ?_⟩
  constructor
  case before => exact hfresh.before
  case armed => exact hfresh.family.family.get
  case children => exact hfresh.family.family.ids.trans h.family.ids.symm
  case average => exact hfresh.average
  case fresh_encloses =>
    exact (hfresh.family.enclosesPrice_iff hfresh.triggers avg).trans hfresh.encloses
  case fresh_untriggered =>
    intro hlow hhigh
    exact hfresh.family.untriggeredAt hfresh.triggers (hfresh.encloses.mpr ⟨hlow, hhigh⟩)
  case encloses => exact (h.enclosesPrice_iff htriggers avg).trans hfresh.encloses

/-- An entry at a price, filled on placement. -/
def placedAt (price : ℚ) : List Invocation :=
  [offline (.placeOrder { defaultBracket with price }) 0]

lemma soundBrackets_placedAt (price : ℚ) : SoundBrackets {} (placedAt price) := by
  constructor
  · intro spec hspec
    obtain rfl := Option.some.inj hspec
    constructor <;> norm_num
  · intro i hi req hop spec hspec
    obtain rfl := List.mem_singleton.mp hi
    obtain rfl := Op.placeOrder.inj hop
    cases hspec

theorem runAll_armedAround_half : ∃ pre i post o avg entry, placedAt (1 / 2) = pre ++ i :: post ∧
    ArmedAround {} pre i 0 o entry avg (runAll {} (placedAt (1 / 2))).state := by
  have hentry : ((runAll {} (placedAt (1 / 2))).state.orders.get? 0).any (fun o =>
      (runAll {} (placedAt (1 / 2))).state.ListsArmed o) = true := by decide +kernel
  obtain ⟨entry, hget, harmed⟩ := (Option.any_eq_true _ _).mp hentry
  obtain ⟨pre, i, post, o, avg, hrun, haround⟩ :=
    runAll_armedAround {} (placedAt (1 / 2)) (soundBrackets_placedAt _) hget (of_decide_eq_true harmed)
  exact ⟨pre, i, post, o, avg, entry, hrun, haround⟩

/-- Three tenths of an entry are filled at 0.4, and three tenths at 0.49 of a wide book. -/
def movedAverage : List Invocation :=
  [offline (.placeOrder defaultBracket) 0, midpointPass (2 / 5) 1,
    offline (.reconcileOrders fun _ => some { midpoint := some (49 / 100), bestBid := some (2 / 5) }) 2]

lemma soundBrackets_movedAverage : SoundBrackets threeTenths movedAverage := by
  constructor
  · intro spec hspec
    obtain rfl := Option.some.inj hspec
    constructor <;> norm_num [threeTenths]
  · intro i hi req hop spec hspec
    simp only [movedAverage, List.mem_cons, List.not_mem_nil, or_false] at hi
    rcases hi with rfl | rfl | rfl
    · obtain rfl := Op.placeOrder.inj hop
      cases hspec
    · cases hop
    · cases hop

/-- An entry that is filled at 0.01 has its stop-loss there, and the average price of one that is filled
again passes the take-profit. -/
theorem pennyEntry_not_enclosed :
    (SoundBrackets {} (placedAt (1 / 100)) ∧
      ∃ entry, (runAll {} (placedAt (1 / 100))).state.orders.get? 0 = some entry ∧
        (runAll {} (placedAt (1 / 100))).state.ListsArmed entry ∧
        entry.averageFillPrice = some (1 / 100) ∧
        ¬ (runAll {} (placedAt (1 / 100))).state.EnclosesPrice entry (1 / 100)) ∧
    SoundBrackets threeTenths movedAverage ∧
      ∃ entry, (runAll threeTenths movedAverage).state.orders.get? 0 = some entry ∧
        (runAll threeTenths movedAverage).state.ListsArmed entry ∧
        entry.averageFillPrice = some (89 / 200) ∧
        ¬ (runAll threeTenths movedAverage).state.EnclosesPrice entry (89 / 200) := by
  constructor
  · have hentry : ((runAll {} (placedAt (1 / 100))).state.orders.get? 0).any (fun o =>
        (runAll {} (placedAt (1 / 100))).state.ListsArmed o ∧ o.averageFillPrice = some (1 / 100) ∧
          3 ∈ o.bracketOrderIds) = true := by decide +kernel
    have hchild : ((runAll {} (placedAt (1 / 100))).state.orders.get? 3).any (fun x =>
        x.orderKind = .stopLoss ∧ x.triggerPrice = some (1 / 100)) = true := by decide +kernel
    obtain ⟨entry, hget, hfacts⟩ := (Option.any_eq_true _ _).mp hentry
    obtain ⟨harmed, havg, hlisted⟩ := of_decide_eq_true hfacts
    obtain ⟨x, hx, hstop⟩ := (Option.any_eq_true _ _).mp hchild
    obtain ⟨hkind, htrigger⟩ := of_decide_eq_true hstop
    refine ⟨soundBrackets_placedAt _, entry, hget, harmed, havg, fun hencloses => ?_⟩
    obtain ⟨trigger, htrigger', hlt⟩ := (hencloses 3 hlisted x hx).2 hkind
    obtain rfl := Option.some.inj (htrigger.symm.trans htrigger')
    exact lt_irrefl _ hlt
  · have hentry : ((runAll threeTenths movedAverage).state.orders.get? 0).any (fun o =>
        (runAll threeTenths movedAverage).state.ListsArmed o ∧ o.averageFillPrice = some (89 / 200) ∧
          2 ∈ o.bracketOrderIds) = true := by decide +kernel
    have hchild : ((runAll threeTenths movedAverage).state.orders.get? 2).any (fun x =>
        x.orderKind = .takeProfit ∧ x.triggerPrice = some (53 / 125)) = true := by decide +kernel
    obtain ⟨entry, hget, hfacts⟩ := (Option.any_eq_true _ _).mp hentry
    obtain ⟨harmed, havg, hlisted⟩ := of_decide_eq_true hfacts
    obtain ⟨x, hx, hprofit⟩ := (Option.any_eq_true _ _).mp hchild
    obtain ⟨hkind, htrigger⟩ := of_decide_eq_true hprofit
    refine ⟨soundBrackets_movedAverage, entry, hget, harmed, havg, fun hencloses => ?_⟩
    obtain ⟨trigger, htrigger', hlt⟩ := (hencloses 2 hlisted x hx).1 hkind
    obtain rfl := Option.some.inj (htrigger.symm.trans htrigger')
    norm_num at hlt

end PolyCortex
