import PolyCortex.Execution.Deduplication
import PolyCortex.Execution.FamilyPasses

/-!
# How an entry gets its bracket

An entry is placed without a bracket, on paper it may get one at once, and otherwise the pass that
finds its first fill arms one. These are the only two ways: `placeOrder_arrives` and
`reconcileOrders_lone` say what the entry is then, the other calls leave it without a bracket.
-/

namespace PolyCortex

open Coroutine Relation

variable {cfg : Config} {s s' : Executor} {w : ExecWorld} {e id : OrderId} {g : ℕ} {o : Order}
  {books : MarketBooks} {now : Time}

/-! ### New brackets -/

/-- The family of the entry `o` when its bracket has just been armed, in the group `g`. -/
def Family.created (spec : BracketSpec) (now : Time) (g : ℕ) (o : Order) : Family where
  entry := Order.withBracket g
    { o with
      takeProfitPrice := some (buildBracketLevels o.activePrice spec).1
      stopLossPrice := some (buildBracketLevels o.activePrice spec).2 }
  takeProfit := takeProfitOrder o spec now g (g + 1)
  stopLoss := stopLossOrder o spec now g (g + 2)

/-- The entry `o` without a bracket. -/
structure Executor.LoneAt (s : Executor) (e : OrderId) (o : Order) : Prop where
  related : s.Related
  whole : s.ChildrenWhole
  get : s.orders.get? e = some o
  kind : o.orderKind = .entry
  noBracket : o.bracketOrderIds = []

lemma Executor.LoneAt.step {o' : Order} (h : s.LoneAt e o) (hchanges : Changes cfg s s')
    (hget : s'.orders.get? e = some o') (hnone : o'.bracketOrderIds = []) : s'.LoneAt e o' where
  related := hchanges.related h.related
  whole := hchanges.childrenWhole h.related.accounted h.whole
  get := hget
  kind := by
    obtain ⟨x, hx, hterms, _⟩ := hchanges.follows h.related.accounted e o h.get
    rw [Option.some.inj (hget.symm.trans hx), hterms.orderKind]
    exact h.kind
  noBracket := hnone

lemma Executor.Keyed.modifyOrder {F : Order → Order} (hs : s.Keyed)
    (hF : ∀ o, s.orders.get? id = some o → (F o).orderId = o.orderId) :
    (s.modifyOrder id F).Keyed := by
  intro j x hx
  rw [get?_modifyOrder] at hx
  split_ifs at hx with hj
  · obtain ⟨y, hy, rfl⟩ := Option.map_eq_some_iff.mp hx
    rw [hF y hy, hj]
    exact hs id y hy
  · exact hs j x hx

/-- Arming an entry without a bracket creates one. -/
lemma armBracketOrders_created (hs : s.Keyed) (hget : s.orders.get? e = some o)
    (hkind : o.orderKind = .entry) (hnone : o.bracketOrderIds = []) (spec : BracketSpec)
    (now : Time) :
    (armBracketOrders spec now e s).2.HasFamily e s.nextId
      (Family.created spec now s.nextId o) := by
  let setLevels : Order → Order := fun o =>
    { o with
      takeProfitPrice := some (buildBracketLevels o.activePrice spec).1
      stopLossPrice := some (buildBracketLevels o.activePrice spec).2 }
  have hget' : (s.modifyOrder e setLevels).orders.get? e = some (setLevels o) := by simp [hget]
  have hkeyed : (s.modifyOrder e setLevels).Keyed := hs.modifyOrder fun _ _ => rfl
  have hsame : (armBracketOrders spec now e s).2 =
      (createBrackets spec now e (setLevels o) (s.modifyOrder e setLevels)).2 := by
    have hmodify : s.modifyOrder e (fun x =>
        { x with
          takeProfitPrice := some (buildBracketLevels o.activePrice spec).1
          stopLossPrice := some (buildBracketLevels o.activePrice spec).2 }) =
        s.modifyOrder e setLevels :=
      Executor.modifyOrder_congr fun x hx => by rw [Option.some.inj (hx.symm.trans hget)]
    simp only [armBracketOrders, hget, hkind, hnone, hmodify]
    rfl
  rw [hsame]
  exact createBrackets_bracket hkeyed hget' hkind spec now

/-! ### The round of an entry without a bracket -/

/-- The entry is due a bracket. -/
def Order.isDue (o : Order) : Bool :=
  (o.bracketState = .pendingFill ∨ o.bracketState = .armed) ∧ 0 < o.filledSizeUsdc

/-- A paper entry without a bracket against the book: the entry after its fill, and whether the fill
arms its bracket. -/
def Order.bookRound (cfg : Config) (data : MarketData) (now : Time) (o : Order) : Order × Bool :=
  if isMarketable cfg data o then
    (o.paperFill cfg data now, (o.paperFill cfg data now).status ≠ o.status)
  else (o, false)

/-- The round of an entry without a bracket: the entry after its fills, and whether its bracket is
armed then. -/
def Order.loneRound (cfg : Config) (books : MarketBooks) (now : Time) (rows : List StatusRow)
    (o : Order) : Order × Bool :=
  if o.status.isFinal then (o, false)
  else if ¬ o.isPaper ∧ cfg.liveReconcileEnabled ∧ cfg.clobConnected then
    let filled := o.afterRows rows now
    (filled, decide (rows ≠ [] ∧ 0 < filled.filledSizeUsdc) || filled.isDue)
  else if o.isPaper ∧ (o.status = .placed ∨ o.status = .partiallyFilled) then
    match books o.marketId with
    | none => (o, false)
    | some data =>
      let (filled, moved) := o.bookRound cfg data now
      (filled, moved || filled.isDue)
  else (o, o.isDue)

/-- An entry after the fills and statuses of a pass. -/
def Order.afterFills (cfg : Config) (books : MarketBooks) (now : Time) (rows : List StatusRow)
    (o : Order) : Order :=
  if o.status.isFinal then o
  else if ¬ o.isPaper ∧ cfg.liveReconcileEnabled ∧ cfg.clobConnected then o.afterRows rows now
  else if o.isPaper ∧ (o.status = .placed ∨ o.status = .partiallyFilled) then
    match books o.marketId with
    | none => o
    | some data => if isMarketable cfg data o then o.paperFill cfg data now else o
  else o

lemma Order.loneRound_fst (cfg : Config) (books : MarketBooks) (now : Time)
    (rows : List StatusRow) (o : Order) :
    (o.loneRound cfg books now rows).1 = o.afterFills cfg books now rows := by
  rw [loneRound, afterFills]
  split_ifs
  · rfl
  · rfl
  · cases books o.marketId with
    | none => rfl
    | some data =>
      show (o.bookRound cfg data now).1 =
        if isMarketable cfg data o then o.paperFill cfg data now else o
      rw [bookRound]
      split_ifs <;> rfl
  · rfl

/-- What a pass from `s₀` leaves of an entry without a bracket, by the outcome of its round. -/
inductive Executor.LeftBy (cfg : Config) (now : Time) (s₀ : Executor) (e : OrderId)
    (round : Order × Bool) (s : Executor) : Prop where
  | lone (hlone : s.LoneAt e round.1) (hnot : round.2 = false ∨ cfg.defaultBracketSpec = none)
  | armed (spec : BracketSpec) (g : ℕ) (hspec : cfg.defaultBracketSpec = some spec)
    (harmed : round.2 = true) (hnew : s₀.nextId ≤ g)
    (hfamily : s.FamilyAt e g (Family.created spec now g round.1))

/-- Arming an entry without a bracket by default. -/
lemma armDefaultBrackets_leftBy {s₀ : Executor} (hkeyed : s.Keyed)
    (hget : s.orders.get? e = some o) (hkind : o.orderKind = .entry)
    (hnone : o.bracketOrderIds = []) (hnext : s₀.nextId ≤ s.nextId)
    (hrelated : (armDefaultBrackets cfg now e s).2.Related)
    (hwhole : (armDefaultBrackets cfg now e s).2.ChildrenWhole) :
    Executor.LeftBy cfg now s₀ e (o, true) (armDefaultBrackets cfg now e s).2 := by
  cases hspec : cfg.defaultBracketSpec with
  | none =>
    have hsame : (armDefaultBrackets cfg now e s).2 = s := by simp [armDefaultBrackets, hspec]
    rw [hsame] at hrelated hwhole ⊢
    exact .lone ⟨hrelated, hwhole, hget, hkind, hnone⟩ (Or.inr hspec)
  | some spec =>
    have hsame : (armDefaultBrackets cfg now e s).2 = (armBracketOrders spec now e s).2 := by
      simp [armDefaultBrackets, hspec]
    rw [hsame] at hrelated hwhole ⊢
    apply Executor.LeftBy.armed spec s.nextId hspec rfl hnext
    exact ⟨hrelated, hwhole, armBracketOrders_created hkeyed hget hkind hnone spec now⟩

/-- The deferred arming of an entry without a bracket. -/
lemma armDeferred_leftBy {s₀ : Executor} {moved : Bool}
    (h : Executor.LeftBy cfg now s₀ e (o, moved) s) (hnext : s₀.nextId ≤ s.nextId) :
    Executor.LeftBy cfg now s₀ e (o, moved || o.isDue) (armDeferred cfg now e s).2 := by
  have hchanges : Changes cfg s (armDeferred cfg now e s).2 := .single (.deferred now e)
  cases h with
  | armed spec g hspec harmed hnew hfamily =>
    rw [armDeferred_of_bracket hfamily.family.get hfamily.family.ids_ne_nil]
    replace harmed : moved = true := harmed
    exact .armed spec g hspec (by simp [harmed]) hnew hfamily
  | lone hlone hnot =>
    replace hlone : s.LoneAt e o := hlone
    by_cases hdue : o.isDue = true
    · have hsame : (armDeferred cfg now e s).2 = (armDefaultBrackets cfg now e s).2 := by
        simp only [Order.isDue, decide_eq_true_eq] at hdue
        simp [armDeferred, hlone.get, hlone.noBracket, hdue]
      rw [hsame] at hchanges ⊢
      simpa [hdue] using armDefaultBrackets_leftBy hlone.related.keyed hlone.get hlone.kind
        hlone.noBracket hnext (hchanges.related hlone.related)
        (hchanges.childrenWhole hlone.related.accounted hlone.whole)
    · have hsame : (armDeferred cfg now e s).2 = s := by
        simp only [Order.isDue, decide_eq_true_eq] at hdue
        rw [armDeferred]
        simp only [hlone.get, hlone.noBracket, and_true]
        rw [if_neg hdue]
      rw [hsame]
      apply Executor.LeftBy.lone hlone
      rcases hnot with hmoved | hnone
      · replace hmoved : moved = false := hmoved
        simp [hmoved, hdue]
      · exact Or.inr hnone

lemma reconcilePaperEntry_lone {s₀ : Executor} (h : s.LoneAt e o) (hpaper : o.isPaper = true)
    (hopen : o.status = .placed ∨ o.status = .partiallyFilled) (data : MarketData)
    (hnext : s₀.nextId ≤ s.nextId) :
    Executor.LeftBy cfg now s₀ e (o.bookRound cfg data now)
      (reconcilePaperEntry cfg data now e o s).2 := by
  have hchanges : Changes cfg s (reconcilePaperEntry cfg data now e o s).2 :=
    .single (.paperEntry data now e o h.get h.kind hopen hpaper)
  have hrelated := hchanges.related h.related
  have hwhole := hchanges.childrenWhole h.related.accounted h.whole
  have hterms : Order.SameTerms o (o.paperFill cfg data now) := o.applyFill_sameTerms _ _ _
  have hnone : (o.paperFill cfg data now).bracketOrderIds = [] :=
    (o.applyFill_bracketOrderIds _ _ _).trans h.noBracket
  have hget : (s.modifyOrder e fun _ => o.paperFill cfg data now).orders.get? e =
      some (o.paperFill cfg data now) := by simp [h.get]
  have hkind := hterms.orderKind.trans h.kind
  rw [reconcilePaperEntry] at hrelated hwhole ⊢
  rw [Order.bookRound]
  dsimp only at hrelated hwhole ⊢
  split_ifs at hrelated hwhole ⊢ with hmarket hmoved
  · have hkeyed : (s.modifyOrder e fun _ => o.paperFill cfg data now).Keyed :=
      h.related.keyed.modifyOrder fun x hx => by
        rw [Option.some.inj (hx.symm.trans h.get), hterms.orderId]
    simpa [hmoved] using armDefaultBrackets_leftBy hkeyed hget hkind hnone hnext hrelated hwhole
  · exact .lone ⟨hrelated, hwhole, hget, hkind, hnone⟩ (Or.inl (by simpa using hmoved))
  · exact .lone h (Or.inl rfl)

lemma applyStatusRows_lone {s₀ : Executor} (h : s.LoneAt e o) (hlive : o.isPaper = false)
    (hopen : o.status.isFinal = false) (rows : List StatusRow) (hnext : s₀.nextId ≤ s.nextId) :
    Executor.LeftBy cfg now s₀ e
      (o.afterRows rows now, rows ≠ [] ∧ 0 < (o.afterRows rows now).filledSizeUsdc)
      (applyStatusRows cfg now e rows s).2 := by
  have hchanges : Changes cfg s (applyStatusRows cfg now e rows s).2 :=
    .single (.statusRows now e rows o h.get h.kind hopen hlive)
  have hrelated := hchanges.related h.related
  have hwhole := hchanges.childrenWhole h.related.accounted h.whole
  obtain ⟨hterms, hids⟩ := o.afterRows_terms rows now
  have hnone := hids.trans h.noBracket
  have hkind := hterms.orderKind.trans h.kind
  by_cases hrows : rows = []
  · have hsame : (applyStatusRows cfg now e rows s).2 = s := by
      simp [applyStatusRows, h.get, hrows]
    have hsame' : o.afterRows rows now = o := by simp [Order.afterRows, hrows]
    rw [hsame, hsame']
    exact .lone h (Or.inl (by simp [hrows]))
  have hafter : (o.liveFill rows now).liveStatus rows = o.afterRows rows now := by
    simp [Order.afterRows, hrows]
  have hfilled : (o.liveFill rows now).filledSizeUsdc = (o.afterRows rows now).filledSizeUsdc := by
    rw [← hafter]
    rcases liveStatus_cases rows (o.liveFill rows now) with h | ⟨_, _, h | h⟩ <;> rw [h]
  have hget : (s.modifyOrder e fun _ => o.afterRows rows now).orders.get? e =
      some (o.afterRows rows now) := by simp [h.get]
  rw [applyStatusRows] at hrelated hwhole ⊢
  simp only [h.get, if_neg hrows, hafter, hfilled] at hrelated hwhole ⊢
  split_ifs at hrelated hwhole ⊢ with hpos
  · have hkeyed : (s.modifyOrder e fun _ => o.afterRows rows now).Keyed :=
      h.related.keyed.modifyOrder fun x hx => by
        rw [Option.some.inj (hx.symm.trans h.get), hterms.orderId]
    simpa [hpos, hrows] using
      armDefaultBrackets_leftBy hkeyed hget hkind hnone hnext hrelated hwhole
  · exact .lone ⟨hrelated, hwhole, hget, hkind, hnone⟩ (Or.inl (by simp [hpos]))

/-- The round of an entry without a bracket. -/
lemma reconcileOrder_lone {s₀ : Executor} (h : w.state.LoneAt e o)
    (hrows : reportedRows e w.trace = []) (hnext : s₀.nextId ≤ w.state.nextId) :
    Ends (fun _ w' => Executor.LeftBy cfg now s₀ e
      (o.loneRound cfg books now (reportedRows e w'.trace)) w'.state)
      (reconcileOrder cfg books now e) w := by
  apply Meets.get_bind trivial
  simp only [h.get, h.kind]
  split_ifs with hfinal
  · apply Executor.LeftBy.lone <;> simp [Order.loneRound, hfinal, h]
  rw [reconcileEntry]
  split_ifs with hlive hpaper
  · have hround : ∀ rows, o.loneRound cfg books now rows = (o.afterRows rows now,
        decide (rows ≠ [] ∧ 0 < (o.afterRows rows now).filledSizeUsdc) ||
          (o.afterRows rows now).isDue) := by
      intro rows
      simp [Order.loneRound, hfinal, hlive]
    have hlive' : o.isPaper = false := by simpa using hlive.1
    apply Meets.bind (Q := fun _ w' => Executor.LeftBy cfg now s₀ e
      (o.afterRows (reportedRows e w'.trace) now, reportedRows e w'.trace ≠ [] ∧
        0 < (o.afterRows (reportedRows e w'.trace) now).filledSizeUsdc) w'.state ∧
      s₀.nextId ≤ w'.state.nextId)
    · apply (fetchStatusRows_meets e _ w).bind
      rintro rows w' ⟨hstate, t, htrace, _, ht, _⟩
      have hrows' : reportedRows e w'.trace = rows := by simp [htrace, hrows, ht]
      have hchange : Change cfg w.state (applyStatusRows cfg now e rows w.state).2 :=
        .statusRows now e rows o h.get h.kind (by simpa using hfinal) hlive'
      refine ⟨trivial, ?_, ?_⟩
      · simp only [World.update_trace, World.update_state, hrows', hstate]
        exact applyStatusRows_lone h hlive' (by simpa using hfinal) rows hnext
      · rw [World.update_state, hstate]
        exact hnext.trans (Changes.nextId_le (.single hchange) h.related.accounted)
    · rintro events w' ⟨hleft, hnext'⟩
      refine ⟨trivial, ?_⟩
      show Executor.LeftBy cfg now s₀ e (o.loneRound cfg books now (reportedRows e w'.trace))
        (armDeferred cfg now e w'.state).2
      rw [hround]
      exact armDeferred_leftBy hleft hnext'
  · cases hdata : books o.marketId with
    | none => apply Executor.LeftBy.lone <;> simp [Order.loneRound, hfinal, hpaper, hdata, h]
    | some data =>
      have hchange : Change cfg w.state (reconcilePaperEntry cfg data now e o w.state).2 :=
        .paperEntry data now e o h.get h.kind hpaper.2 hpaper.1
      have hround : ∀ rows, o.loneRound cfg books now rows = ((o.bookRound cfg data now).1,
          (o.bookRound cfg data now).2 || (o.bookRound cfg data now).1.isDue) := by
        intro rows
        simp [Order.loneRound, hfinal, hpaper, hdata]
      refine ⟨trivial, trivial, ?_⟩
      show Executor.LeftBy cfg now s₀ e (o.loneRound cfg books now (reportedRows e w.trace))
        (armDeferred cfg now e (reconcilePaperEntry cfg data now e o w.state).2).2
      rw [hround]
      exact armDeferred_leftBy (reconcilePaperEntry_lone h hpaper.1 hpaper.2 data hnext)
        (hnext.trans (Changes.nextId_le (.single hchange) h.related.accounted))
  · have hround : ∀ rows, o.loneRound cfg books now rows = (o, false || o.isDue) := by
      intro rows
      rw [Order.loneRound, if_neg hfinal, if_neg hlive, if_neg hpaper, Bool.false_or]
    refine ⟨trivial, ?_⟩
    show Executor.LeftBy cfg now s₀ e (o.loneRound cfg books now (reportedRows e w.trace))
      (armDeferred cfg now e w.state).2
    rw [hround]
    exact armDeferred_leftBy (.lone h (Or.inl rfl)) hnext

/-- What leaves the orders apart from `id` alone leaves an entry without a bracket alone. -/
lemma Executor.LoneAt.frame {R : Executor → Executor → Prop}
    (hchange : ∀ s s', R s s' → Change cfg s s')
    (hframe : ∀ s s' j x, R s s' → s.Apart id j → s.orders.get? j = some x →
      s'.orders.get? j = some x)
    (h : s.LoneAt e o) (hid : id ≠ e) (hsteps : ReflTransGen R s s') : s'.LoneAt e o := by
  induction hsteps with
  | refl => exact h
  | tail _ hstep ih =>
    have hapart := ih.related.apart_of_noBracket ih.get ih.kind ih.noBracket hid
    exact ih.step (.single (hchange _ _ hstep)) (hframe _ _ _ _ hstep hapart ih.get) ih.noBracket

/-- The round of another order. -/
lemma reconcileOrder_lone_others (h : w.state.LoneAt e o) (hid : id ≠ e) :
    Ends (fun _ w' => w'.state.LoneAt e o ∧ reportedRows e w'.trace = reportedRows e w.trace ∧
      w.state.nextId ≤ w'.state.nextId) (reconcileOrder cfg books now id) w := by
  have hsteps : BySteps (RoundOf cfg books now id) (fun _ _ => True)
      (reconcileOrder cfg books now id) w := reconcileOrder_byRoundsOf books now id
  apply ((hsteps.reaches (fun _ => .refl) .trans).and
    (reconcileOrder_undisturbed books now hid h.related.linked h.get h.kind)).imp
  rintro _ w' ⟨⟨_, hreach⟩, hundisturbed⟩
  have hchanges : Changes cfg w.state w'.state :=
    ReflTransGen.mono (fun _ _ hround => hround.round.change) _ _ hreach
  refine ⟨h.frame (fun _ _ hround => hround.round.change) ?_ hid hreach, hundisturbed.rows,
    hchanges.nextId_le h.related.accounted⟩
  exact fun _ _ _ _ hround hapart hget => hround.frame hapart hget

/-- The round of another order that was there before the pass. -/
lemma reconcileOrder_leftBy_others {s₀ : Executor} {round : Order × Bool}
    (h : Executor.LeftBy cfg now s₀ e round w.state) (hid : id ≠ e) (hold : id < s₀.nextId) :
    Ends (fun _ w' => Executor.LeftBy cfg now s₀ e round w'.state ∧
      reportedRows e w'.trace = reportedRows e w.trace) (reconcileOrder cfg books now id) w := by
  cases h with
  | lone hlone hnot =>
    apply (reconcileOrder_lone_others hlone hid).imp
    exact fun _ w' hw' => ⟨.lone hw'.1 hnot, hw'.2.1⟩
  | armed spec g hspec harmed hnew hfamily =>
    have hnot : id ∉ [e, g + 1, g + 2] := by
      have hlt : id < g + 1 := Nat.lt_succ_of_lt (hold.trans_le hnew)
      simp [hid, hlt.ne, (hlt.trans (Nat.lt_succ_self _)).ne]
    apply (reconcileOrder_others hfamily hnot).imp
    exact fun _ w' hw' => ⟨.armed spec g hspec harmed hnew hw'.1, hw'.2⟩

/-- A pass does to an entry without a bracket what `Order.loneRound` says. -/
theorem reconcileOrders_lone (cfg : Config) (books : MarketBooks) (now : Time)
    (h : s.LoneAt e o) (ω : Oracle Request Reply) :
    Executor.LeftBy cfg now s e (o.loneRound cfg books now
        (reportedRows e ((reconcileOrders cfg books now).run ω s).trace))
      ((reconcileOrders cfg books now).run ω s).state := by
  have hpass : Ends (fun _ w' => Executor.LeftBy cfg now s e
      (o.loneRound cfg books now (reportedRows e w'.trace)) w'.state)
      (reconcileOrders cfg books now) ⟨s, []⟩ := by
    let J : ℕ → ExecWorld → Prop := fun n w' =>
      match n with
      | 0 => w'.state.LoneAt e o ∧ reportedRows e w'.trace = [] ∧ s.nextId ≤ w'.state.nextId
      | _ => Executor.LeftBy cfg now s e
          (o.loneRound cfg books now (reportedRows e w'.trace)) w'.state
    have hsub : [e].Sublist s.orders.keys :=
      List.singleton_sublist.mpr (Dict.mem_keys_of_get? h.get)
    apply Meets.get_bind trivial
    apply Meets.forEach_stages (J := J) hsub s.orders.nodup
    · intro id hmem hid n w' hw'
      have hne : id ≠ e := by simpa using hid
      match n, hw' with
      | 0, ⟨hlone, hrows, hnext⟩ =>
        apply (reconcileOrder_lone_others hlone hne).imp
        rintro _ w'' ⟨hlone', hrows', hnext'⟩
        exact ⟨hlone', hrows'.trans hrows, hnext.trans hnext'⟩
      | n + 1, hleft =>
        apply (reconcileOrder_leftBy_others hleft hne (s.fresh id hmem)).imp
        rintro _ w'' ⟨hleft', hrows'⟩
        show Executor.LeftBy cfg now s e
          (o.loneRound cfg books now (reportedRows e w''.trace)) w''.state
        rw [hrows']
        exact hleft'
    · intro n id hn w' hw'
      match n, hn, hw' with
      | 0, hn, ⟨hlone, hrows, hnext⟩ =>
        obtain rfl : e = id := Option.some.inj hn
        exact reconcileOrder_lone hlone hrows hnext
    · exact ⟨h, rfl, le_rfl⟩
  have hend := hpass.run ω
  simp only [World.after_state, World.after_trace, List.nil_append] at hend
  exact hend

/-! ### Cancellations -/

lemma CancelOf.lone (h : CancelOf id s s') (hs : s.LoneAt e o) :
    ∃ o', s'.LoneAt e o' ∧ (o'.bracketState = o.bracketState ∨ o'.bracketState = .cancelled) := by
  have hchanges : Changes {} s s' := .single (h.change {})
  by_cases hid : id = e
  · subst hid
    cases h with
    | locally x hget hopen =>
      refine ⟨x.besideCancelled id id o, hs.step hchanges ?_ ?_, ?_⟩
      · rw [get?_cancelLocally, hs.get, Option.map_some]
      · rw [Order.besideCancelled, if_pos rfl]
        exact hs.noBracket
      · rw [Order.besideCancelled, if_pos rfl]
        dsimp only
        split_ifs <;> simp
    | confirmed x hget hkind hopen =>
      refine ⟨{ o with status := .cancelled, bracketState := .cancelled },
        hs.step hchanges ?_ hs.noBracket, Or.inr rfl⟩
      simp [Executor.setBracketState, Executor.setStatus, hs.get]
    | expire x hget harmed =>
      refine ⟨{ o with status := .expired }, hs.step hchanges ?_ hs.noBracket, Or.inl rfl⟩
      simp [Executor.setStatus, hs.get]
  · refine ⟨o, hs.step hchanges ?_ hs.noBracket, Or.inl rfl⟩
    exact h.frame (hs.related.apart_of_noBracket hs.get hs.kind hs.noBracket hid) hs.get

/-- The calls that only cancel. -/
def Op.isCancel : Op → Bool
  | .cancelOrder _ | .cancelAllOpenOrders | .cancelExpiredOrders => true
  | .placeOrder _ | .closePosition _ | .reconcileOrders _ => false

lemma Call.byCancels (cfg : Config) (call : Call) (w : ExecWorld) (hop : call.op.isCancel = true) :
    BySteps (fun s s' => ∃ id, CancelOf id s s') (fun _ _ => True) (call.program cfg) w := by
  have hsome : ∀ {id : OrderId} {α : Type} {p : Program α} {w : ExecWorld},
      BySteps (CancelOf id) (fun _ _ => True) p w →
      BySteps (fun s s' => ∃ id, CancelOf id s s') (fun _ _ => True) p w := by
    intro id α p w h
    exact h.mono (fun _ _ _ _ h => h)
      (fun _ _ => ReflTransGen.mono (fun _ _ hstep => ⟨id, hstep⟩) _ _) fun _ _ h => h
  obtain ⟨op, env⟩ := call
  cases op with
  | placeOrder req => cases hop
  | closePosition req => cases hop
  | reconcileOrders books => cases hop
  | cancelOrder id => exact (hsome (cancelOrder_byCancels id)).bind fun _ _ _ => trivial
  | cancelAllOpenOrders =>
    refine Meets.bind (Q := fun _ _ => True) ?_ fun _ _ _ => trivial
    apply bySteps_get_bind
    exact (bySteps_forEach fun id w' => hsome (cancelIfOpen_byCancels id)).bind
      fun _ _ _ => trivial
  | cancelExpiredOrders =>
    refine Meets.bind (Q := fun _ _ => True) ?_ fun _ _ _ => trivial
    apply bySteps_get_bind
    exact bySteps_forEach fun id w' => hsome (cancelIfExpired_byCancels env.now id)

lemma Invocation.perform_cancels (cfg : Config) (w : ExecWorld) (i : Invocation)
    (hop : i.call.op.isCancel = true) :
    ReflTransGen (fun s s' => ∃ id, CancelOf id s s') w.state (i.perform cfg w).state :=
  ((Call.byCancels cfg i.call w hop).run alone_refl (fun _ => .refl) .trans i.answers).1

lemma cancels_lone (hs : s.LoneAt e o)
    (hsteps : ReflTransGen (fun s s' => ∃ id, CancelOf id s s') s s') :
    ∃ o', s'.LoneAt e o' ∧ (o'.bracketState = o.bracketState ∨ o'.bracketState = .cancelled) := by
  induction hsteps with
  | refl => exact ⟨o, hs, Or.inl rfl⟩
  | tail _ hstep ih =>
    obtain ⟨o₁, hlone, hstate⟩ := ih
    obtain ⟨id, hcancel⟩ := hstep
    obtain ⟨o₂, hlone', hstate'⟩ := hcancel.lone hlone
    refine ⟨o₂, hlone', ?_⟩
    rcases hstate' with h | h
    · rw [h]
      exact hstate
    · exact Or.inr h

/-- A cancellation leaves an entry without a bracket. -/
lemma Invocation.perform_cancel_lone (cfg : Config) (i : Invocation)
    (hop : i.call.op.isCancel = true) (h : w.state.LoneAt e o) :
    ∃ o', (i.perform cfg w).state.LoneAt e o' ∧
      (o'.bracketState = o.bracketState ∨ o'.bracketState = .cancelled) :=
  cancels_lone h (i.perform_cancels cfg w hop)

/-! ### Placements -/

/-- `o'` says of its bracket what `o` says. -/
structure Order.SameBracket (o o' : Order) : Prop where
  bracketOrderIds : o'.bracketOrderIds = o.bracketOrderIds
  bracketState : o'.bracketState = o.bracketState
  takeProfitPrice : o'.takeProfitPrice = o.takeProfitPrice
  stopLossPrice : o'.stopLossPrice = o.stopLossPrice

lemma Order.applyFill_sameBracket (o : Order) (x p : ℚ) (now : Time) :
    Order.SameBracket o (o.applyFill x p now) := by
  by_cases h : 0 < o.acceptedFill x
  · rw [applyFill_of_pos h]
    constructor <;> rfl
  · rw [applyFill_of_nonpos (not_lt.mp h)]
    constructor <;> rfl

lemma Order.afterRows_sameBracket (rows : List StatusRow) (now : Time) (o : Order) :
    Order.SameBracket o (o.afterRows rows now) := by
  have hfill : Order.SameBracket o (o.liveFill rows now) := by
    rw [liveFill]
    split_ifs
    · exact o.applyFill_sameBracket _ _ _
    · constructor <;> rfl
  obtain ⟨hids, hstate, htp, hsl⟩ := hfill
  rw [afterRows]
  split_ifs
  · constructor <;> rfl
  · rcases liveStatus_cases rows (o.liveFill rows now) with h | ⟨_, _, h | h⟩ <;> rw [h] <;>
      exact ⟨hids, hstate, htp, hsl⟩

/-- A new entry: without a bracket, or with the one that was asked for. -/
inductive Executor.Arrived (cfg : Config) (env : Ambient) (req : PlaceRequest) (e : OrderId)
    (s : Executor) : Prop where
  | lone (o : Order) (hlone : s.LoneAt e o) (hstate : o.bracketState ≠ .armed)
  | armed (spec : BracketSpec) (g : ℕ) (o : Order) (hspec : req.bracket cfg = some spec)
    (hprice : o.averageFillPrice = some (limitPrice req.direction req.price))
    (hfamily : s.FamilyAt e g (Family.created spec env.now g o))

/-- The new entry, by its lookups. -/
def Executor.Opened (cfg : Config) (env : Ambient) (req : PlaceRequest) (e : OrderId)
    (s : Executor) : Prop :=
  (∃ o, s.orders.get? e = some o ∧ o.bracketOrderIds = [] ∧ o.bracketState ≠ .armed) ∨
    ∃ spec g o, req.bracket cfg = some spec ∧
      o.averageFillPrice = some (limitPrice req.direction req.price) ∧
      s.HasFamily e g (Family.created spec env.now g o)

/-- The first fill of an entry sets its average price. -/
lemma buildEntryOrder_average {env : Ambient} {req : PlaceRequest}
    (hvalid : validateOrder cfg env req = none) (id : OrderId) (p : ℚ) (now : Time) :
    ((buildEntryOrder cfg env req id).applyFill req.sizeUsdc p now).averageFillPrice = some p := by
  have hpos : 0 < (buildEntryOrder cfg env req id).acceptedFill req.sizeUsdc := by
    have hsize := half_le_of_valid hvalid
    rw [Order.acceptedFill, buildEntryOrder_eq, min_self]
    linarith
  rw [Order.applyFill_of_pos hpos, Order.averageWith, buildEntryOrder_eq]

lemma fillOnPlace_opened {env : Ambient} {req : PlaceRequest} (hs : s.Keyed)
    (hvalid : validateOrder cfg env req = none)
    (hnew : s.orders.get? e = some (buildEntryOrder cfg env req e)) :
    (fillOnPlace cfg env req e s).Opened cfg env req e := by
  have haverage := buildEntryOrder_average hvalid e (limitPrice req.direction req.price) env.now
  have hids : (buildEntryOrder cfg env req e).bracketOrderIds = [] := by rw [buildEntryOrder_eq]
  have hstate : (buildEntryOrder cfg env req e).bracketState ≠ .armed := by
    simp [buildEntryOrder_eq]
  have hkind : (buildEntryOrder cfg env req e).orderKind = .entry := by rw [buildEntryOrder_eq]
  generalize buildEntryOrder cfg env req e = o at hnew haverage hids hstate hkind
  rw [fillOnPlace]
  split_ifs
  · have hget : (s.modifyOrder e (·.applyFill req.sizeUsdc (limitPrice req.direction req.price)
        env.now)).orders.get? e =
        some (o.applyFill req.sizeUsdc (limitPrice req.direction req.price) env.now) := by
      rw [Executor.get?_modifyOrder_self, hnew, Option.map_some]
    dsimp only
    cases hspec : req.bracket cfg with
    | none =>
      exact Or.inl ⟨_, hget, by simp [hids],
        (o.applyFill_sameBracket _ _ _).bracketState ▸ hstate⟩
    | some spec =>
      have hkeyed : (s.modifyOrder e (·.applyFill req.sizeUsdc
          (limitPrice req.direction req.price) env.now)).Keyed :=
        hs.modifyOrder fun x _ => (x.applyFill_sameTerms _ _ _).orderId
      exact Or.inr ⟨spec, s.nextId, _, hspec, haverage, armBracketOrders_created hkeyed hget
        ((Order.applyFill_sameTerms _ _ _ _).orderKind.trans hkind) (by simp [hids]) spec env.now⟩
  · exact Or.inl ⟨o, hnew, hids, hstate⟩

lemma submitEntry_opened {env : Ambient} {req : PlaceRequest}
    (hnew : w.state.orders.get? e = some (buildEntryOrder cfg env req e)) :
    Ends (fun _ w' => w'.state.Opened cfg env req e) (submitEntry cfg env req e) w := by
  have hids : (buildEntryOrder cfg env req e).bracketOrderIds = [] := by rw [buildEntryOrder_eq]
  have hstate : (buildEntryOrder cfg env req e).bracketState ≠ .armed := by
    simp [buildEntryOrder_eq]
  generalize buildEntryOrder cfg env req e = o at hnew hids hstate
  have hcancelled : ∀ {s : Executor}, s.orders.get? e = some o →
      (s.setStatus e .cancelled).Opened cfg env req e := by
    intro s hget
    refine Or.inl ⟨{ o with status := .cancelled }, ?_, hids, hstate⟩
    rw [Executor.setStatus, Executor.get?_modifyOrder_self, hget, Option.map_some]
  have hpersist : (persistOrderIntent env w.state.nextId req w.state.takeId).2.orders.get? e =
      some o := by rw [orders_persistOrderIntent, Executor.orders_takeId, hnew]
  apply Meets.modifyGet_bind trivial
  split_ifs
  · apply ((submitChunks_inquires cfg req e).meets (fun _ _ _ => trivial) _).bind
    rintro result w' ⟨hstate', _⟩
    have hget : w'.state.orders.get? e = some o := by rw [hstate']; exact hpersist
    cases result with
    | ok exchangeIds =>
      refine ⟨trivial, Or.inl ⟨{ o with
        exchangeOrderIds := exchangeIds
        bracketState := if (req.bracket cfg).isSome then .pendingFill else o.bracketState },
        ?_, hids, ?_⟩⟩
      · show (acknowledgeEntry cfg req e exchangeIds w'.state).orders.get? e = some _
        rw [acknowledgeEntry, Executor.get?_modifyOrder_self, hget, Option.map_some]
      · dsimp only
        split_ifs <;> simp [hstate]
    | error err => exact ⟨trivial, hcancelled hget⟩
  · exact ⟨trivial, hcancelled hpersist⟩

lemma Executor.Keyed.openEntry (hs : s.Keyed) (env : Ambient) (req : PlaceRequest) :
    (PolyCortex.openEntry cfg env req s).2.Keyed := by
  intro j x hx
  have hx' : (s.insertOrder (buildEntryOrder cfg env req)).orders.get? j = some x := hx
  rw [get?_insertOrder] at hx'
  split_ifs at hx' with hj
  · rw [← Option.some.inj hx', hj, buildEntryOrder_eq]
  · exact hs j x hx'

/-- The entries that a placement adds are the one it opens. -/
lemma Executor.Opened.of_noPlacement {env : Ambient} {req : PlaceRequest}
    (h : s'.Opened cfg env req s.nextId)
    (hkept : Executor.NoPlacement (openEntry cfg env req s).2 s') {o' : Order}
    (hnone : s.orders.get? e = none) (hget : s'.orders.get? e = some o')
    (hkind : o'.orderKind = .entry) : s'.Opened cfg env req e := by
  obtain ⟨o, ho, _⟩ := hkept.entries e o' hget hkind
  have ho' : (s.insertOrder (buildEntryOrder cfg env req)).orders.get? e = some o := ho
  rw [Executor.get?_insertOrder, hnone] at ho'
  split_ifs at ho' with he
  rw [he]
  exact h

/-- What a placement adds is the entry that was asked for. -/
lemma placeOrder_opened {env : Ambient} {req : PlaceRequest} (hs : w.state.Keyed) :
    Ends (fun _ w' => ∀ e o', w.state.orders.get? e = none → w'.state.orders.get? e = some o' →
      o'.orderKind = .entry → w'.state.Opened cfg env req e) (placeOrder cfg env req) w := by
  have horders := orders_preflight cfg env req w.state
  apply Meets.modifyGet_bind trivial
  by_cases haccepted : (preflight cfg env req w.state).1 = true
  swap
  · rw [if_pos haccepted]
    intro e o' hnone hget
    have hget' : (preflight cfg env req w.state).2.orders.get? e = some o' := hget
    rw [horders, hnone] at hget'
    cases hget'
  have hvalid : validateOrder cfg env req = none := by
    rcases preflight_cases cfg env req w.state with ⟨_, h⟩ | ⟨h, _⟩
    · simp [h] at haccepted
    · exact h.1
  rw [if_neg (not_not_intro haccepted)]
  simp only [World.update]
  generalize (preflight cfg env req w.state).2 = s at horders
  rw [← horders]
  have hkeyed : s.Keyed := by rwa [Executor.Keyed, horders]
  have hnew := get?_openEntry cfg env req s
  apply Meets.modifyGet_bind trivial
  split_ifs with hpaper
  · have hroutine : Routine cfg (openEntry cfg env req s).2
        (fillOnPlace cfg env req s.nextId (openEntry cfg env req s).2) :=
      .fillOnPlace env req _ hvalid hnew hpaper
    refine ⟨trivial, fun e o' hnone hget hkind => ?_⟩
    exact (fillOnPlace_opened (hkeyed.openEntry env req) hvalid hnew).of_noPlacement
      hroutine.noPlacement hnone hget hkind
  · apply ((submitEntry_byRoutines hnew).reaches (fun _ => .refl) .trans).and
      (submitEntry_opened hnew) |>.imp
    rintro _ w' ⟨⟨_, hroutines⟩, hopened⟩ e o' hnone hget hkind
    exact hopened.of_noPlacement (Routines.noPlacement hroutines) hnone hget hkind

/-- A call adds no entry but the one that is placed, and that one has the bracket that was asked
for, or none. -/
theorem Invocation.perform_arrives (cfg : Config) (i : Invocation) (hs : w.state.Related)
    (hwhole : w.state.ChildrenWhole) {o' : Order} (hnone : w.state.orders.get? e = none)
    (hget : (i.perform cfg w).state.orders.get? e = some o') (hkind : o'.orderKind = .entry) :
    ∃ req, i.call.op = .placeOrder req ∧ (i.perform cfg w).state.Arrived cfg i.call.env req e := by
  have hchanges := i.perform_changes cfg w
  have hrelated := hchanges.related hs
  have hwhole' := hchanges.childrenWhole hs.accounted hwhole
  by_cases hplace : ∃ req, i.call.op = .placeOrder req
  · obtain ⟨req, hreq⟩ := hplace
    refine ⟨req, hreq, ?_⟩
    have hopened : (i.perform cfg w).state.Opened cfg i.call.env req e := by
      have hprogram : i.call.program cfg =
          (placeOrder cfg i.call.env req).bind fun a => .pure (.order a) := by
        rw [Call.program, hreq]
        rfl
      rw [Invocation.perform, World.after_state, (outcome_map cfg i w.state hprogram).1] at hget ⊢
      exact (placeOrder_opened (w := ⟨w.state, []⟩) hs.keyed).run i.answers e o' hnone hget hkind
    rcases hopened with ⟨o, ho, hids, hstate⟩ | ⟨spec, g, o, hspec, hprice, hfamily⟩
    · obtain rfl := Option.some.inj (ho.symm.trans hget)
      exact .lone o ⟨hrelated, hwhole', hget, hkind, hids⟩ hstate
    · exact .armed spec g o hspec hprice ⟨hrelated, hwhole', hfamily⟩
  · obtain ⟨o, ho, _⟩ :=
      (i.perform_noPlacement cfg w (not_exists.mp hplace)).entries e o' hget hkind
    rw [hnone] at ho
    cases ho

/-- What a call makes of an entry without a bracket. -/
theorem Invocation.perform_lone (cfg : Config) (i : Invocation) (h : w.state.LoneAt e o) :
    match i.call.op with
    | .reconcileOrders books => Executor.LeftBy cfg i.call.env.now w.state e
        (o.loneRound cfg books i.call.env.now (reportedRows e (i.outcome cfg w.state).trace))
        (i.perform cfg w).state
    | _ => ∃ o', (i.perform cfg w).state.LoneAt e o' ∧
        (o'.bracketState = o.bracketState ∨ o'.bracketState = .cancelled) := by
  have hcancels := fun hop => i.perform_cancel_lone cfg hop h
  have hchanges := i.perform_changes cfg w
  obtain ⟨⟨op, env⟩, ω⟩ := i
  rw [Invocation.perform, World.after_state] at hcancels hchanges ⊢
  cases op with
  | placeOrder req =>
    refine ⟨o, h.step hchanges ?_ h.noBracket, Or.inl rfl⟩
    rw [(outcome_map cfg ⟨⟨.placeOrder req, env⟩, ω⟩ w.state rfl).1]
    exact (placeOrder_keeps (w := ⟨w.state, []⟩) h.get).run ω
  | closePosition req =>
    refine ⟨o, h.step hchanges ?_ h.noBracket, Or.inl rfl⟩
    rw [(outcome_map cfg ⟨⟨.closePosition req, env⟩, ω⟩ w.state rfl).1]
    exact (closePosition_keeps (w := ⟨w.state, []⟩) h.get).run ω
  | cancelOrder id => exact hcancels rfl
  | cancelAllOpenOrders => exact hcancels rfl
  | cancelExpiredOrders => exact hcancels rfl
  | reconcileOrders books =>
    obtain ⟨hstate, htrace⟩ := outcome_map cfg ⟨⟨.reconcileOrders books, env⟩, ω⟩ w.state rfl
    rw [hstate, htrace]
    exact reconcileOrders_lone cfg books env.now h ω

/-! ### Where families come from -/

lemma Executor.FamilyAt.unique {g' : ℕ} {f f' : Family} (h : s.FamilyAt e g f)
    (h' : s.FamilyAt e g' f') : g' = g ∧ f' = f := by
  have hentry : f.entry = f'.entry := Option.some.inj (h.family.get.symm.trans h'.family.get)
  have hids : [g + 1, g + 2] = [g' + 1, g' + 2] := by rw [← h.family.ids, hentry, h'.family.ids]
  obtain rfl : g = g' := Nat.succ_injective (List.cons.inj hids).1
  have htp := Option.some.inj (h.family.get_takeProfit.symm.trans h'.family.get_takeProfit)
  have hsl := Option.some.inj (h.family.get_stopLoss.symm.trans h'.family.get_stopLoss)
  obtain ⟨entry, takeProfit, stopLoss⟩ := f
  obtain ⟨entry', takeProfit', stopLoss'⟩ := f'
  exact ⟨rfl, by rw [Family.mk.injEq]; exact ⟨hentry.symm, htp.symm, hsl.symm⟩⟩

lemma Executor.FamilyAt.not_lone {f : Family} (h : s.FamilyAt e g f) : ¬ s.LoneAt e o := by
  intro hlone
  obtain rfl := Option.some.inj (h.family.get.symm.trans hlone.get)
  exact h.family.ids_ne_nil hlone.noBracket

/-- An entry has a bracket, or none. -/
lemma Executor.Related.lone_or_family (hs : s.Related) (hwhole : s.ChildrenWhole)
    (hget : s.orders.get? e = some o) (hkind : o.orderKind = .entry) :
    s.LoneAt e o ∨ ∃ g f, s.FamilyAt e g f ∧ f.entry = o := by
  by_cases hids : o.bracketOrderIds = []
  · exact Or.inl ⟨hs, hwhole, hget, hkind, hids⟩
  · obtain ⟨g, tp, sl, hbracket⟩ := hs.listed e o hget hids
    exact Or.inr ⟨g, ⟨o, tp, sl⟩, ⟨hs, hwhole, hbracket⟩, rfl⟩

/-- The three ways in which an entry has come by the family `f'` with the call `i`: it had one
before, the pass has armed one by default, or the placement has. -/
inductive Family.Origin (cfg : Config) (w : ExecWorld) (i : Invocation) (e : OrderId) (g : ℕ)
    (f' : Family) : Prop where
  | kept (f : Family) (hfamily : w.state.FamilyAt e g f)
    (hsame : f' = f.after cfg e g i.call (i.outcome cfg w.state).trace)
  | armed (o : Order) (spec : BracketSpec) (books : MarketBooks)
    (hlone : w.state.LoneAt e o) (hop : i.call.op = .reconcileOrders books)
    (hspec : cfg.defaultBracketSpec = some spec)
    (harmed : (o.loneRound cfg books i.call.env.now
      (reportedRows e (i.outcome cfg w.state).trace)).2 = true)
    (hsame : f' = Family.created spec i.call.env.now g (o.loneRound cfg books i.call.env.now
      (reportedRows e (i.outcome cfg w.state).trace)).1)
  | placed (req : PlaceRequest) (spec : BracketSpec) (o : Order)
    (hnone : w.state.orders.get? e = none) (hop : i.call.op = .placeOrder req)
    (hspec : req.bracket cfg = some spec)
    (hprice : o.averageFillPrice = some (limitPrice req.direction req.price))
    (hsame : f' = Family.created spec i.call.env.now g o)

theorem Invocation.perform_origin (cfg : Config) (i : Invocation) (hs : w.state.Related)
    (hwhole : w.state.ChildrenWhole) (hw : w.state.Ordered) {f' : Family}
    (h : (i.perform cfg w).state.FamilyAt e g f') : Family.Origin cfg w i e g f' := by
  cases hget : w.state.orders.get? e with
  | none =>
    obtain ⟨req, hop, harrived⟩ :=
      i.perform_arrives cfg hs hwhole hget h.family.get h.family.kind
    cases harrived with
    | lone o hlone _ => exact absurd hlone h.not_lone
    | armed spec g' o hspec hprice hfamily =>
      obtain ⟨rfl, hsame⟩ := h.unique hfamily
      exact .placed req spec o hget hop hspec hprice hsame.symm
  | some o =>
    obtain ⟨x, hx, hterms, _⟩ := (i.perform_changes cfg w).follows hs.accounted e o hget
    obtain rfl := Option.some.inj (h.family.get.symm.trans hx)
    have hkind : o.orderKind = .entry := hterms.orderKind.symm.trans h.family.kind
    rcases hs.lone_or_family hwhole hget hkind with hlone | ⟨g', f, hfamily, _⟩
    · have hleft := i.perform_lone cfg hlone
      cases hop : i.call.op with
      | reconcileOrders books =>
        rw [hop] at hleft
        cases hleft with
        | lone hlone' _ => exact absurd hlone' h.not_lone
        | armed spec g' hspec harmed _ hfamily =>
          obtain ⟨rfl, hsame⟩ := h.unique hfamily
          exact .armed o spec books hlone hop hspec harmed hsame.symm
      | _ =>
        rw [hop] at hleft
        obtain ⟨o', hlone', _⟩ := hleft
        exact absurd hlone' h.not_lone
    · obtain ⟨rfl, hsame⟩ := h.unique (i.perform_family cfg hfamily hw)
      exact .kept f hfamily hsame.symm

lemma Order.afterFills_sameBracket (cfg : Config) (books : MarketBooks) (now : Time)
    (rows : List StatusRow) (o : Order) :
    Order.SameBracket o (o.afterFills cfg books now rows) := by
  have hrefl : Order.SameBracket o o := by constructor <;> rfl
  rw [afterFills]
  split_ifs
  · exact hrefl
  · exact o.afterRows_sameBracket rows now
  · cases books o.marketId with
    | none => exact hrefl
    | some data =>
      dsimp only
      split_ifs
      · exact o.applyFill_sameBracket _ _ _
      · exact hrefl
  · exact hrefl

/-- An entry without a bracket never says `armed`. -/
def Executor.LonesUnarmed (s : Executor) : Prop :=
  ∀ e o, s.LoneAt e o → o.bracketState ≠ .armed

lemma Invocation.perform_lonesUnarmed (cfg : Config) (i : Invocation) (hs : w.state.Related)
    (hwhole : w.state.ChildrenWhole) (hw : w.state.Ordered) (hlones : w.state.LonesUnarmed) :
    (i.perform cfg w).state.LonesUnarmed := by
  intro e o' h
  cases hget : w.state.orders.get? e with
  | none =>
    obtain ⟨req, _, harrived⟩ := i.perform_arrives cfg hs hwhole hget h.get h.kind
    cases harrived with
    | lone o hlone hstate =>
      obtain rfl := Option.some.inj (h.get.symm.trans hlone.get)
      exact hstate
    | armed _ _ _ _ _ hfamily => exact absurd h hfamily.not_lone
  | some o =>
    obtain ⟨x, hx, hterms, _⟩ := (i.perform_changes cfg w).follows hs.accounted e o hget
    obtain rfl := Option.some.inj (h.get.symm.trans hx)
    have hkind : o.orderKind = .entry := hterms.orderKind.symm.trans h.kind
    rcases hs.lone_or_family hwhole hget hkind with hlone | ⟨g, f, hfamily, _⟩
    swap
    · exact absurd h (i.perform_family cfg hfamily hw).not_lone
    have hleft := i.perform_lone cfg hlone
    cases hop : i.call.op with
    | reconcileOrders books =>
      rw [hop] at hleft
      cases hleft with
      | lone hlone' _ =>
        rw [Option.some.inj (h.get.symm.trans hlone'.get), Order.loneRound_fst,
          (o.afterFills_sameBracket _ _ _ _).bracketState]
        exact hlones e o hlone
      | armed _ _ _ _ _ hfamily => exact absurd h hfamily.not_lone
    | _ =>
      rw [hop] at hleft
      obtain ⟨o'', hlone', hstate⟩ := hleft
      obtain rfl := Option.some.inj (h.get.symm.trans hlone'.get)
      rcases hstate with hstate | hstate
      · rw [hstate]
        exact hlones e o hlone
      · simp [hstate]

/-- What holds of the entries and the children of every state of a run. -/
structure Executor.Regular (s : Executor) : Prop where
  related : s.Related
  whole : s.ChildrenWhole
  ordered : s.Ordered
  lones : s.LonesUnarmed

lemma Executor.Regular.perform (h : w.state.Regular) (cfg : Config) (i : Invocation) :
    (i.perform cfg w).state.Regular where
  related := (i.perform_changes cfg w).related h.related
  whole := (i.perform_changes cfg w).childrenWhole h.related.accounted h.whole
  ordered := (i.perform_changes cfg w).ordered h.related.accounted h.ordered
  lones := i.perform_lonesUnarmed cfg h.related h.whole h.ordered h.lones

lemma Executor.regular_init : Executor.init.Regular where
  related := Executor.related_init
  whole := by rintro c o ⟨⟩
  ordered := List.Pairwise.nil
  lones := by rintro e o ⟨_, _, ⟨⟩, _, _⟩

theorem runAll_regular (cfg : Config) (run : List Invocation) : (runAll cfg run).state.Regular := by
  induction run using List.reverseRecOn with
  | nil => exact Executor.regular_init
  | append_singleton run i ih =>
    rw [runAll_concat]
    exact ih.perform cfg i

end PolyCortex
