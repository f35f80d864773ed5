import PolyCortex.Execution.Acts

/-!
# Cancelling while placing

`cancel_order` wins over a placement when it does not come while chunks of the entry are still being
posted: what it then withdraws has no live exchange order left and gets none later
(`interleave_cancel_wins`).
-/

namespace PolyCortex

open Coroutine Relation

variable {cfg : Config} {w w' : ExecWorld} {e : OrderId} {o : Order}

/-! ### Placing -/

/-- The entry is left alone while it is being posted. -/
def LeftAlone (e : OrderId) : Rely Executor Request Reply := fun _ _ w w' =>
  Posting w e → w'.state.orders.get? e = w.state.orders.get? e ∧
    ackedIds e w'.trace = ackedIds e w.trace ∧ acceptedPosts e w'.trace = acceptedPosts e w.trace

/-- `n` chunks of the entry are to be posted, and `ids` are acknowledged. -/
structure ToPost (e : OrderId) (o : Order) (n : ℕ) (ids : List ExchangeId) (w : ExecWorld) :
    Prop where
  get : w.state.orders.get? e = some o
  placed : o.status = .placed
  rest : acceptedPosts e w.trace + n = o.chunks
  acked : ackedIds e w.trace = ids

variable {n : ℕ} {ids : List ExchangeId}

lemma ToPost.posting (h : ToPost e o (n + 1) ids w) : Posting w e :=
  posting_iff.mpr ⟨o, h.get, h.placed, h.rest ▸ Nat.lt_add_of_pos_right n.succ_pos⟩

lemma ToPost.leftAlone {q : Request} {r : Reply q} (h : ToPost e o (n + 1) ids w)
    (hrely : LeftAlone e q r w w') : ToPost e o (n + 1) ids w' := by
  obtain ⟨hget, hacked, haccepted⟩ := hrely h.posting
  exact ⟨hget.trans h.get, h.placed, haccepted ▸ h.rest, hacked.trans h.acked⟩

/-- The requests of a placement that post nothing. -/
def Request.isCheck : Request → Bool
  | .balance _ | .gasPrice _ | .sleep _ => true
  | .createAndPostOrder .. | .cancel .. | .status .. => false

lemma ToPost.answer_check {q : Request} (r : Reply q) (hcheck : q.isCheck = true)
    (h : ToPost e o n ids w) : ToPost e o n ids (w.answer q r) := by
  refine ⟨h.get, h.placed, ?_, ?_⟩
  · rw [World.answer_trace, acceptedPosts_concat]
    cases q <;> first | exact h.rest | cases hcheck
  · rw [World.answer_trace, ackedIds_append, h.acked]
    cases q <;> first | (simp [ackedId]; done) | cases hcheck

lemma ToPost.answer_error {tokenId : TokenId} {price size : ℚ} {side : Side} (err : CallError)
    (h : ToPost e o n ids w) :
    ToPost e o n ids (w.answer (.createAndPostOrder e tokenId price size side) (.error err)) := by
  refine ⟨h.get, h.placed, ?_, ?_⟩
  · simpa [isAcceptedPost] using h.rest
  · simpa [ackedId] using h.acked

lemma ToPost.answer_ok {tokenId : TokenId} {price size : ℚ} {side : Side} (response : Response)
    (h : ToPost e o (n + 1) ids w) :
    ToPost e o n (ids ++ response.exchangeId?.toList)
      (w.answer (.createAndPostOrder e tokenId price size side) (.ok response)) := by
  refine ⟨h.get, h.placed, ?_, ?_⟩
  · rw [← h.rest]
    simp [isAcceptedPost]
    omega
  · simp [ackedId, h.acked]

/-- What a submission ends with: all chunks are posted, or it fails while some are not. -/
def Submitted (e : OrderId) (o : Order) (result : Except CallError (List ExchangeId))
    (w : ExecWorld) : Prop :=
  match result with
  | .ok ids => ToPost e o 0 ids w
  | .error _ => ∃ n ids, ToPost e o (n + 1) ids w ∧ (ids = [] ∨ postFailed e w.trace = true)

/-- A request of a placement whose entry has chunks to be posted. -/
lemma submit_bind {α : Type} {Q : α → ExecWorld → Prop} {q : Request} {f : Reply q → Program α}
    (horder : q.order = e) (hkind : q.isSubmission = true) (h : ToPost e o (n + 1) ids w)
    (hf : ∀ r w', ToPost e o (n + 1) ids w' →
      Meets (LeftAlone e) (Act cfg (some e)) Q (f r) (w'.answer q r)) :
    Meets (LeftAlone e) (Act cfg (some e)) Q ((request q).bind f) w := by
  apply Meets.ask_bind
  intro r w' hrely
  have h' := h.leftAlone hrely
  refine ⟨.submit q r (by rw [horder]) hkind ?_, hf r w' h'⟩
  rw [horder]
  exact h'.posting

lemma assertSufficientBalance_meets (sizeUsdc : ℚ) (h : ToPost e o (n + 1) ids w) :
    Meets (LeftAlone e) (Act cfg (some e)) (fun _ => ToPost e o (n + 1) ids)
      (assertSufficientBalance e sizeUsdc) w := by
  refine submit_bind rfl rfl h fun r w' h' => ?_
  have hanswer := h'.answer_check (q := .balance e) r rfl
  match r with
  | none => exact hanswer
  | some balance =>
    dsimp only
    split_ifs <;> exact hanswer

lemma checkGasPrice_meets (h : ToPost e o (n + 1) ids w) :
    Meets (LeftAlone e) (Act cfg (some e)) (fun _ => ToPost e o (n + 1) ids)
      (checkGasPrice cfg e) w := by
  refine submit_bind rfl rfl h fun r w' h' => ?_
  have hanswer := h'.answer_check (q := .gasPrice e) r rfl
  match r with
  | none => exact hanswer
  | some gwei =>
    dsimp only
    split_ifs <;> exact hanswer

lemma postChunks_meets (tokenId : TokenId) (price chunkSize : ℚ) (h : ToPost e o n ids w) :
    Meets (LeftAlone e) (Act cfg (some e)) (Submitted e o)
      (postChunks e tokenId price chunkSize n ids) w := by
  induction n generalizing ids w with
  | zero => exact h
  | succ n ih =>
    refine submit_bind rfl rfl h fun r w' h' => ?_
    match r with
    | .error err =>
      exact ⟨n, ids, h'.answer_error err, Or.inr (by simp [isPostFailure])⟩
    | .ok response =>
      dsimp only
      split_ifs with hlast
      · obtain ⟨m, rfl⟩ := Nat.exists_eq_succ_of_ne_zero hlast
        refine submit_bind rfl rfl (h'.answer_ok response) fun r w'' h'' => ?_
        exact ih (h''.answer_check (q := .sleep e) r rfl)
      · exact ih (h'.answer_ok response)

lemma submitChunks_meets (req : PlaceRequest) (hchunks : o.chunks = (splitIntoChunks cfg req.sizeUsdc).1)
    (hpos : 0 < o.chunks) (h : ToPost e o o.chunks [] w) :
    Meets (LeftAlone e) (Act cfg (some e)) (Submitted e o) (submitChunks cfg req e) w := by
  obtain ⟨n, hn⟩ := Nat.exists_eq_succ_of_ne_zero hpos.ne'
  have h₁ : ToPost e o (n + 1) [] w := by rwa [hn] at h
  refine (assertSufficientBalance_meets req.sizeUsdc h₁).bind fun r w₁ h₂ => ?_
  match r with
  | .error err => exact ⟨n, [], h₂, Or.inl rfl⟩
  | .ok () =>
    refine (checkGasPrice_meets h₂).bind fun r w₂ h₃ => ?_
    match r with
    | .error err => exact ⟨n, [], h₃, Or.inl rfl⟩
    | .ok () =>
      have h₄ : ToPost e o (splitIntoChunks cfg req.sizeUsdc).1 [] w₂ := by rwa [← hchunks, hn]
      exact postChunks_meets req.tokenId _ _ h₄

lemma buildEntryOrder_opened (hlive : cfg.isPaper = false) {env : Ambient} {req : PlaceRequest}
    (hvalid : validateOrder cfg env req = none) (id : OrderId) :
    (buildEntryOrder cfg env req id).Opened := by
  rw [buildEntryOrder_eq]
  exact ⟨rfl, hlive, rfl, rfl, splitIntoChunks_pos (half_le_of_valid hvalid)⟩

/-- The placement gives up: the entry is cancelled. -/
lemma abandon_meets {f : Unit → Option OrderId} (h : ToPost e o (n + 1) ids w)
    (hfailed : ids = [] ∨ postFailed e w.trace = true) :
    Meets (LeftAlone e) (Act cfg (some e)) (fun _ w' => Between w' e)
      ((modify fun s : Executor => s.setStatus e .cancelled).bind fun a => .pure (f a)) w := by
  have hact : Act cfg (some e) w (w.update (·.setStatus e .cancelled)) :=
    .abandon e rfl h.posting (h.acked ▸ hfailed)
  refine .modify_bind hact ?_
  intro o' hget' hplaced
  simp [Executor.setStatus, h.get] at hget'
  subst hget'
  cases hplaced

lemma submitEntry_meets {env : Ambient} {req : PlaceRequest} (hsize : 1 / 2 ≤ req.sizeUsdc)
    (h : ToPost e (buildEntryOrder cfg env req e) (splitIntoChunks cfg req.sizeUsdc).1 [] w) :
    Meets (LeftAlone e) (Act cfg (some e)) (fun _ w' => Between w' e)
      (submitEntry cfg env req e) w := by
  have hpos : 0 < (splitIntoChunks cfg req.sizeUsdc).1 := splitIntoChunks_pos hsize
  have hchunks : (buildEntryOrder cfg env req e).chunks = (splitIntoChunks cfg req.sizeUsdc).1 := by
    rw [buildEntryOrder_eq]
  set s₁ := persistOrderIntent env w.state.nextId req w.state.takeId with hs₁
  have horders : s₁.2.orders = w.state.orders := by
    rw [hs₁, orders_persistOrderIntent, Executor.orders_takeId]
  have h₁ : ToPost e (buildEntryOrder cfg env req e) (splitIntoChunks cfg req.sizeUsdc).1 []
      ⟨s₁.2, w.trace⟩ := ⟨horders ▸ h.get, h.placed, h.rest, h.acked⟩
  refine .modifyGet_bind (.bookkeeping s₁.2 horders ?_) ?_
  · rw [hs₁, nextId_persistOrderIntent]
    exact Nat.le_succ _
  split_ifs with hpersisted
  · refine Meets.bind (submitChunks_meets req hchunks (hchunks ▸ hpos) (hchunks ▸ h₁)) ?_
    intro r w' hr
    match r with
    | .ok ids =>
      have hids : ackedIds e w'.trace = ids := hr.acked
      have hall := hr.rest
      rw [Nat.add_zero] at hall
      subst hids
      refine .modify_bind (.acknowledge req e _ rfl hr.get hr.placed hall.ge) ?_
      intro o' hget' hplaced
      simp [acknowledgeEntry, hr.get] at hget'
      subst hget'
      refine Or.inr ⟨rfl, _, ?_, rfl, Or.inl ⟨hplaced, hall.ge⟩⟩
      simp [acknowledgeEntry, hr.get]
    | .error err =>
      obtain ⟨n, ids, hpost, hfailed⟩ := hr
      exact abandon_meets hpost hfailed
  · obtain ⟨n, hn⟩ := Nat.exists_eq_succ_of_ne_zero hpos.ne'
    rw [hn] at h₁
    exact abandon_meets h₁ (Or.inl rfl)

/-- A live placement, next to tasks that leave its entry alone while it is posted. -/
lemma placeOrder_meets (hlive : cfg.isPaper = false) (env : Ambient) (req : PlaceRequest)
    (hw : LiveEntries w) :
    Meets (LeftAlone w.state.nextId) (Act cfg (some w.state.nextId))
      (fun _ w' => Between w' w.state.nextId) (placeOrder cfg env req) w := by
  have horders := orders_preflight cfg env req w.state
  have hid := nextId_preflight cfg env req w.state
  refine .modifyGet_bind (.bookkeeping _ horders hid.ge) ?_
  split_ifs with haccepted hpaper
  · rw [hlive] at hpaper
    cases hpaper
  · have hvalid := (preflight_commands cfg env req w.state).2 haccepted
    have hsize := half_le_of_valid hvalid
    have hopened := buildEntryOrder_opened hlive hvalid w.state.nextId
    have hget := get?_openEntry cfg env req (preflight cfg env req w.state).2
    rw [hid] at hget
    refine .modifyGet_bind (.openEntry _ (buildEntryOrder cfg env req) ?_ ?_ rfl rfl) ?_
    · exact congrArg some hid.symm
    · show (buildEntryOrder cfg env req (preflight cfg env req w.state).2.nextId).Opened
      rwa [hid]
    show Meets _ _ _ (submitEntry cfg env req (preflight cfg env req w.state).2.nextId) _
    rw [hid]
    obtain ⟨hacked, haccepted, _⟩ := hw.unasked le_rfl
    refine submitEntry_meets hsize ⟨hget, hopened.status, ?_, hacked⟩
    show acceptedPosts w.state.nextId w.trace + _ = _
    rw [haccepted, zero_add, buildEntryOrder_eq]
  · intro o hget
    simp [horders, Executor.get?_nextId] at hget

/-! ### Cancelling one entry -/

/-- The end of a confirmed cancellation. -/
def ExecWorld.withdraw (w : ExecWorld) (e : OrderId) : ExecWorld :=
  w.update fun s => (s.setStatus e .cancelled).setBracketState e .cancelled

lemma get?_withdraw (w : ExecWorld) (e j : OrderId) :
    (w.withdraw e).state.orders.get? j = if j = e then
      (w.state.orders.get? e).map fun o =>
        { o with status := .cancelled, bracketState := .cancelled }
    else w.state.orders.get? j := by
  simp only [ExecWorld.withdraw, World.update_state, Executor.setBracketState, Executor.setStatus,
    Executor.get?_modifyOrder]
  split_ifs
  · rw [Option.map_map]
    rfl
  · rfl

/-- What a cancellation relies on: entries are kept, and `S` has been seen to at the answer. -/
abbrev Cancels (S : (q : Request) → Reply q → ExecWorld → Prop) : Rely Executor Request Reply :=
  fun q r w w' => Kept w w' ∧ S q r w'

section Cancel

variable {S : (q : Request) → Reply q → ExecWorld → Prop} {D : ExecWorld → Prop}
  {all before rest : List ExchangeId}

/-- Cancelling the ids of a closed entry. `D` holds after the last answer. -/
lemma cancelOnExchange_meets
    (hD : ∀ x r w', LiveEntries w' → Closed w' e all → S (.cancel e x) r w' →
      (r = .ok () → all.getLast? = some x) → D (w'.answer (.cancel e x) r))
    (hall : all = before ++ rest) (hclosed : Closed w e all) (hlive : LiveEntries w)
    (hbefore : ∀ x ∈ before, x ∈ confirmedIds e w.trace) (hnone : rest = [] → D w) :
    Meets (Cancels S) (Act cfg none)
      (fun ok w' => LiveEntries w' ∧ Closed w' e all ∧ D w' ∧
        (ok = true → ∀ x ∈ all, x ∈ confirmedIds e w'.trace))
      (cancelOnExchange e rest) w := by
  induction rest generalizing before w with
  | nil =>
    rw [List.append_nil] at hall
    exact ⟨hlive, hclosed, hnone rfl, fun _ => hall ▸ hbefore⟩
  | cons x rest ih =>
    apply Meets.ask_bind
    rintro r w' ⟨hkept, hside⟩
    have hclosed' := hkept.closed e all hclosed
    have hlive' := hkept.live hlive
    obtain ⟨o, hget, _⟩ := hclosed'.2
    have hact : Act cfg none w' (w'.answer (.cancel e x) r) :=
      .cancelReply e x r rfl (Executor.lt_nextId hget)
    refine ⟨hact, ?_⟩
    have hlive'' := hact.kept.live hlive'
    have hclosed'' := hact.kept.closed e all hclosed'
    match r with
    | .error err => exact ⟨hlive'', hclosed'', hD x _ w' hlive' hclosed' hside (by simp), by simp⟩
    | .ok () =>
      have hall' : all = (before ++ [x]) ++ rest := by
        rw [hall, List.append_assoc, List.singleton_append]
      refine ih hall' hclosed'' hlive'' ?_ ?_
      · intro y hy
        rcases List.mem_append.mp hy with hy | hy
        · exact hact.kept.confirmed e y (hkept.confirmed e y (hbefore y hy))
        · rw [List.mem_singleton.mp hy]
          simp [confirmedId]
      · rintro rfl
        exact hD x _ w' hlive' hclosed' hside (by simp [hall])

/-- Cancelling an open entry whose ids are on it. -/
lemma cancelOrder_meets (hpaper : cfg.isPaper = false)
    (hD : ∀ x r w', LiveEntries w' → Closed w' e o.exchangeOrderIds → S (.cancel e x) r w' →
      (r = .ok () → o.exchangeOrderIds.getLast? = some x) → D (w'.answer (.cancel e x) r))
    (hDw : ∀ w', Act cfg none w' (ExecWorld.withdraw w' e) → D w' → D (ExecWorld.withdraw w' e))
    (hlive : LiveEntries w) (hget : w.state.orders.get? e = some o) (hplaced : o.status = .placed)
    (hclosed : Closed w e o.exchangeOrderIds) (hnone : o.exchangeOrderIds = [] → D w) :
    Meets (Cancels S) (Act cfg none)
      (fun ok w' => LiveEntries w' ∧ (ok = true → Withdrawn w' e) ∧ D w') (cancelOrder cfg e) w := by
  obtain ⟨hkind, hreal, _⟩ := hlive.entry e o hget
  have hclob : cfg.clobConnected = true := by
    simp [Config.isPaper] at hpaper
    exact hpaper.2
  refine .get_bind (.bookkeeping _ rfl le_rfl) ?_
  simp only [hget, hplaced, OrderStatus.isFinal, hreal, hclob, hkind, Bool.false_eq_true,
    not_true, ne_eq, or_self, if_false]
  refine (cancelOnExchange_meets hD (List.nil_append _).symm hclosed hlive (by simp) hnone).bind ?_
  rintro ok w' ⟨hlive', hclosed', hDw', hconfirmed⟩
  unfold concludeCancel
  split_ifs with hok
  · have hnot := hclosed'.not_posting
    obtain ⟨hacked, o', hget', _⟩ := hclosed'
    have hall : ∀ x ∈ ackedIds e w'.trace, x ∈ confirmedIds e w'.trace := by
      rw [hacked]
      exact hconfirmed hok
    have hact : Act cfg none w' (ExecWorld.withdraw w' e) :=
      .withdraw e o' rfl hget' hnot hall
    refine .modify_bind hact ⟨hact.kept.live hlive', fun _ => ⟨⟨
      { o' with status := .cancelled, bracketState := .cancelled }, ?_, rfl⟩, hall⟩, hDw w' hact hDw'⟩
    show (ExecWorld.withdraw w' e).state.orders.get? e = _
    rw [get?_withdraw, if_pos rfl, hget', Option.map_some]
  · exact ⟨hlive', by simp, hDw'⟩

end Cancel

/-! ### Cancelling all entries -/

/-- Cancelling the order asks the exchange. -/
def asksExchange (s : Executor) (id : OrderId) : Bool :=
  (s.orders.get? id).any fun o => o.status.isOpen ∧ o.exchangeOrderIds ≠ []

/-- The orders that a cancellation of `ids` gets to before it asks the exchange: those in front of
the first one whose cancellation does. -/
def reached (s : Executor) (ids : List OrderId) : List OrderId :=
  ids.takeWhile fun id => !asksExchange s id

def idsAfter (id : OrderId) (ids : List OrderId) : List OrderId := (ids.dropWhile (· ≠ id)).tail

/-- The orders that an answer lets a cancellation of `ids` get to: none, as long as other ids of the
order are to be cancelled. -/
def reachedAfter (s : Executor) (ids : List OrderId) : (q : Request) → Reply q → List OrderId
  | .cancel id x, .ok () =>
    if (s.orders.get? id).any fun o => o.exchangeOrderIds.getLast? ≠ some x then []
    else reached s (idsAfter id ids)
  | .cancel id _, .error _ => reached s (idsAfter id ids)
  | .balance _, _ | .gasPrice _, _ | .createAndPostOrder .., _ | .sleep _, _ | .status .., _ => []

/-- The open orders among `ids` have their ids on them. -/
def AllClosed (w : ExecWorld) (ids : List OrderId) : Prop :=
  ∀ id ∈ ids, ∀ o, w.state.orders.get? id = some o → o.status = .placed →
    Closed w id o.exchangeOrderIds

lemma idsAfter_eq {id : OrderId} {before rest ids : List OrderId} (hids : ids = before ++ id :: rest)
    (hnodup : ids.Nodup) : idsAfter id ids = rest := by
  subst hids
  have hbefore : ∀ j ∈ before, j ≠ id := by
    rintro j hj rfl
    rw [List.nodup_middle, List.nodup_cons] at hnodup
    exact hnodup.1 (List.mem_append_left _ hj)
  rw [idsAfter, List.dropWhile_append_of_pos (by simpa using hbefore)]
  simp

lemma AllClosed.of_state_eq {ids : List OrderId} (h : AllClosed w ids) (hkept : Kept w w')
    (hstate : w'.state = w.state) : AllClosed w' ids := by
  intro id hid o hget hplaced
  rw [hstate] at hget
  exact hkept.closed id _ (h id hid o hget hplaced)

lemma AllClosed.tail {id : OrderId} {ids : List OrderId}
    (h : AllClosed w (reached w.state (id :: ids))) (hask : asksExchange w.state id = false) :
    AllClosed w (reached w.state ids) := by
  rw [reached, List.takeWhile_cons_of_pos (by simp [hask])] at h
  exact fun j hj => h j (List.mem_cons_of_mem _ hj)

lemma reached_withdraw {id : OrderId} {ids : List OrderId} (hid : id ∉ ids) :
    reached (ExecWorld.withdraw w id).state ids = reached w.state ids := by
  induction ids with
  | nil => rfl
  | cons j ids ih =>
    simp at hid
    have hsame : asksExchange (ExecWorld.withdraw w id).state j = asksExchange w.state j := by
      rw [asksExchange, get?_withdraw, if_neg (Ne.symm hid.1), asksExchange]
    simp only [reached] at ih
    rw [reached, List.takeWhile_cons, hsame, ih hid.2, reached, List.takeWhile_cons]

/-- Withdrawing one order leaves the others closed. -/
lemma AllClosed.withdraw {id : OrderId} {ids : List OrderId} (hid : id ∉ ids)
    (hact : Act cfg none w (ExecWorld.withdraw w id)) (h : AllClosed w (reached w.state ids)) :
    AllClosed (ExecWorld.withdraw w id) (reached (ExecWorld.withdraw w id).state ids) := by
  rw [reached_withdraw hid]
  intro j hj o hget hplaced
  have hne : j ≠ id := fun heq => hid (heq ▸ (List.takeWhile_prefix _).subset hj)
  rw [get?_withdraw, if_neg hne] at hget
  exact hact.kept.closed j _ (h j hj o hget hplaced)

/-- What the schedule sees to for a cancellation of `ids`. -/
def ReachesClosed (ids : List OrderId) (q : Request) (r : Reply q) (w : ExecWorld) : Prop :=
  AllClosed w (reachedAfter w.state ids q r)

/-- What a cancellation of `all` keeps while `rest` is to be done. -/
structure Cancelling (all rest : List OrderId) (w : ExecWorld) : Prop where
  live : LiveEntries w
  remaining : ∃ before, all = before ++ rest
  closed : AllClosed w (reached w.state rest)

lemma cancelIfOpen_meets (hpaper : cfg.isPaper = false) {all rest : List OrderId} (hall : all.Nodup)
    (h : Cancelling all (e :: rest) w) :
    Meets (Cancels (ReachesClosed all)) (Act cfg none) (fun _ => Cancelling all rest)
      (cancelIfOpen cfg e) w := by
  obtain ⟨hlive, ⟨before, hids⟩, hclosed⟩ := h
  have hrest : ∃ before, all = before ++ rest := ⟨before ++ [e], by simp [hids]⟩
  have hskip : asksExchange w.state e = false → Cancelling all rest w := fun hask =>
    ⟨hlive, hrest, hclosed.tail hask⟩
  have hnotin : e ∉ rest := by
    rw [hids, List.nodup_middle, List.nodup_cons] at hall
    exact fun hmem => hall.1 (List.mem_append_right _ hmem)
  refine .get_bind (.bookkeeping _ rfl le_rfl) ?_
  cases hget : w.state.orders.get? e with
  | none => exact hskip (by simp [asksExchange, hget])
  | some o =>
    dsimp only
    split_ifs with hopen
    · have hplaced : o.status = .placed := by
        rcases (hlive.entry e o hget).2.2 with h | h
        · exact h
        · rw [h] at hopen
          cases hopen
      have hclosed_e : Closed w e o.exchangeOrderIds := by
        by_cases hnone : o.exchangeOrderIds = []
        · refine hclosed e ?_ o hget hplaced
          rw [reached, List.takeWhile_cons_of_pos (by simp [asksExchange, hget, hnone])]
          exact List.mem_cons_self
        · exact hlive.acknowledged e o hget hplaced hnone
      refine (cancelOrder_meets (D := fun w' => AllClosed w' (reached w'.state rest)) hpaper ?_ ?_
        hlive hget hplaced hclosed_e ?_).bind ?_
      · intro x r w' hlive' hclosed' hside hlast
        obtain ⟨o', hget', hids', _⟩ := hclosed'.2
        have hact : Act cfg none w' (w'.answer (.cancel e x) r) :=
          .cancelReply e x r rfl (Executor.lt_nextId hget')
        refine AllClosed.of_state_eq ?_ hact.kept rfl
        rw [ReachesClosed] at hside
        match r with
        | .error err => rwa [reachedAfter, idsAfter_eq hids hall] at hside
        | .ok () =>
          rwa [reachedAfter, hget', Option.any_some, hids', hlast rfl, if_neg (by simp),
            idsAfter_eq hids hall] at hside
      · exact fun w' hact hD => hD.withdraw hnotin hact
      · exact fun hnone => hclosed.tail (by simp [asksExchange, hget, hnone])
      · rintro ok w' ⟨hlive', _, hclosed'⟩
        have hdone : Cancelling all rest w' := ⟨hlive', hrest, hclosed'⟩
        split_ifs <;> exact hdone
    · exact hskip (by simp [asksExchange, hget, hopen])

lemma cancelAllOpenOrders_meets (hpaper : cfg.isPaper = false) (hlive : LiveEntries w)
    (hclosed : AllClosed w (reached w.state w.state.orders.keys)) :
    Meets (Cancels (ReachesClosed w.state.orders.keys)) (Act cfg none) (fun _ _ => True)
      (cancelAllOpenOrders cfg) w := by
  refine .get_bind (.bookkeeping _ rfl le_rfl) ?_
  refine Meets.bind (Q := fun _ => Cancelling w.state.orders.keys []) ?_ fun _ _ _ => trivial
  apply Meets.forEach_rest (I := Cancelling w.state.orders.keys)
  · exact fun id rest w' h => cancelIfOpen_meets hpaper w.state.orders.nodup h
  · exact ⟨hlive, ⟨[], rfl⟩, hclosed⟩

/-! ### The pool -/

/-- The operations of the race: placing and cancelling. -/
def Op.isPlacing : Op → Bool
  | .placeOrder _ | .cancelOrder _ | .cancelAllOpenOrders => true
  | .cancelExpiredOrders | .closePosition _ | .reconcileOrders _ => false

def Op.cancelsAll : Op → Bool
  | .cancelAllOpenOrders => true
  | .placeOrder _ | .cancelOrder _ | .cancelExpiredOrders | .closePosition _ | .reconcileOrders _ =>
    false

def Op.cancels (e : OrderId) : Op → Bool
  | .cancelOrder id => id = e
  | .placeOrder _ | .cancelAllOpenOrders | .cancelExpiredOrders | .closePosition _
  | .reconcileOrders _ => false

def OpResult.isTrue : OpResult → Bool
  | .flag b => b
  | .order _ | .count _ | .ids _ | .events _ => false

/-- The entry a job places, if it places one. -/
def placedBy (job : Job Call Executor Request Reply) : Option OrderId :=
  match job.tag.op with
  | .placeOrder _ => some job.start.state.nextId
  | .cancelOrder _ | .cancelAllOpenOrders | .cancelExpiredOrders | .closePosition _
  | .reconcileOrders _ => none

/-- Tasks act on their own entry or cancel, and no two place the same entry. -/
def placingProtocol (cfg : Config) : Protocol Call Executor Request Reply OpResult where
  guarantee job := Act cfg (placedBy job)
  apart job job' := ∀ e, placedBy job = some e → placedBy job' ≠ some e
  side job q r w := job.tag.op.cancelsAll = true → ReachesClosed job.start.state.orders.keys q r w
  post job a w := (∀ e, placedBy job = some e → Between w e) ∧
    ∀ e, job.tag.op.cancels e = true → a.isTrue = true → Withdrawn w e
  inv jobs w := LiveEntries w ∧ ∀ e, (∃ job ∈ jobs, placedBy job = some e) ∨ Between w e
  apart_symm h e he' he := h e he he'
  inv_guarantee := by
    rintro jobs job w w' ⟨hlive, hbetween⟩ hjob hact
    refine ⟨hact.kept.live hlive, fun e => ?_⟩
    by_cases hplaces : placedBy job = some e
    · exact Or.inl ⟨job, hjob, hplaces⟩
    · exact (hbetween e).imp_right ((hact.entryAct e).between hplaces)
  inv_finish := by
    rintro jobs jobs' job a w ⟨hlive, hbetween⟩ hpost
    refine ⟨hlive, fun e => ?_⟩
    rcases hbetween e with ⟨job', hjob', hplaces⟩ | h
    · rcases List.mem_append.mp hjob' with h | h
      · exact Or.inl ⟨job', List.mem_append_left _ h, hplaces⟩
      · rcases List.mem_cons.mp h with rfl | h
        · exact Or.inr (hpost.1 e hplaces)
        · exact Or.inl ⟨job', List.mem_append_right _ h, hplaces⟩
    · exact Or.inr h

variable {job : Job Call Executor Request Reply} {p : ExecPool}

lemma placingProtocol_kept (h : (placingProtocol cfg).Steps w w') : Kept w w' := by
  induction h with
  | refl => exact .refl w
  | tail _ hstep ih =>
    obtain ⟨job, hact⟩ := hstep
    exact ih.trans hact.kept

lemma placingProtocol_others (h : (placingProtocol cfg).Others job w w') : Kept w w' :=
  placingProtocol_kept (ReflTransGen.mono (fun _ _ ⟨job, _, h⟩ => ⟨job, h⟩) _ _ h)

lemma placingProtocol_leftAlone {q : Request} {r : Reply q} (hplaces : placedBy job = some e)
    (h : (placingProtocol cfg).Others job w w') : LeftAlone e q r w w' := by
  intro hposting
  have hboth : Posting w' e ∧ w'.state.orders.get? e = w.state.orders.get? e ∧
      ackedIds e w'.trace = ackedIds e w.trace ∧
      acceptedPosts e w'.trace = acceptedPosts e w.trace := by
    induction h with
    | refl => exact ⟨hposting, rfl, rfl, rfl⟩
    | tail _ hstep ih =>
      obtain ⟨hposting', hget, hacked, haccepted⟩ := ih
      obtain ⟨job', hapart, hact⟩ := hstep
      obtain ⟨hget', hacked', haccepted'⟩ :=
        (hact.entryAct e).posting (hapart e hplaces) hposting'
      refine ⟨?_, hget'.trans hget, hacked'.trans hacked, haccepted'.trans haccepted⟩
      rwa [Posting, hget', haccepted']
  exact hboth.2

/-- While a placement waits, its entry has chunks to be posted. -/
lemma sound_placing (hp : p.Sound (placingProtocol cfg)) {t : Task Call Executor Request Reply OpResult}
    (ht : t ∈ p.tasks) (hplaces : placedBy t.job = some e) : Posting p.world e := by
  have hside : (placingProtocol cfg).side t.job t.question (replying .failed t.question) p.world := by
    intro hall
    rw [placedBy] at hplaces
    cases hop : t.job.tag.op <;> rw [hop] at hplaces hall <;>
      first | (cases hall; done) | cases hplaces
  rcases ((hp.waits t ht).answer hside).1.answer_inv with ⟨hplaces', _, hposting⟩ | ⟨hnone, _⟩
  · rw [hplaces, Option.some.injEq] at hplaces'
    rwa [hplaces']
  · rw [hplaces] at hnone
    cases hnone

/-- A request of a placement waits for its answer only while chunks are to be posted. -/
lemma sound_submitting (hp : p.Sound (placingProtocol cfg))
    {t : Task Call Executor Request Reply OpResult} (ht : t ∈ p.tasks)
    (hkind : t.question.isSubmission = true) : Posting p.world t.question.order := by
  have hside : (placingProtocol cfg).side t.job t.question (replying .failed t.question) p.world := by
    intro _ id hid
    have hnone : ∀ (q : Request) (r : Reply q), q.isSubmission = true →
        reachedAfter p.world.state t.job.start.state.orders.keys q r = [] := by
      intro q r hq
      cases q <;> first | rfl | cases hq
    rw [hnone _ _ hkind] at hid
    cases hid
  rcases ((hp.waits t ht).answer hside).1.answer_inv with ⟨_, _, hposting⟩ | ⟨_, hcancel⟩
  · exact hposting
  · rw [hkind] at hcancel
    cases hcancel

/-- Whenever all tasks wait, open entries are being posted or have their ids on them. -/
lemma sound_between (hp : p.Sound (placingProtocol cfg)) (e : OrderId) : Between p.world e := by
  rcases hp.inv.2 e with ⟨job, hjob, hplaces⟩ | h
  · obtain ⟨t, ht, rfl⟩ := List.mem_map.mp hjob
    exact fun _ _ _ => Or.inl (sound_placing hp ht hplaces)
  · exact h

lemma Between.closed (h : Between w e) (hnot : ¬ Posting w e) (hget : w.state.orders.get? e = some o)
    (hplaced : o.status = .placed) : Closed w e o.exchangeOrderIds :=
  (h o hget hplaced).resolve_left hnot

/-! ### The race -/

/-- Nothing but placing and cancelling is started. -/
def StartsPlacing : ExecEvent → Prop
  | .start call => call.op.isPlacing = true
  | .answer _ _ => True

/-- No cancellation gets to an entry that is still being posted, or to one that its placement has
given up with live exchange orders. -/
def CancelsClosed (p : ExecPool) : ExecEvent → Prop
  | .start call => (∀ e, call.op.cancels e = true → ¬ Posting p.world e ∧
      (statusIn p e = some .cancelled →
        ∀ x ∈ ackedIds e p.world.trace, x ∈ confirmedIds e p.world.trace)) ∧
    (call.op.cancelsAll = true →
      ∀ e ∈ reached p.world.state p.world.state.orders.keys, ¬ Posting p.world e)
  | .answer n reply => ∀ t ∈ p.tasks[n]?, t.job.tag.op.cancelsAll = true →
    ∀ e ∈ reachedAfter p.world.state t.job.start.state.orders.keys t.question (reply t.question),
      ¬ Posting p.world e

/-- `cancel_order` has returned `True` for the entry, by itself or within `cancel_all_open_orders`:
the entry is cancelled, and not because its placement failed. -/
def CancelWon (p : ExecPool) (e : OrderId) : Prop :=
  (∃ x ∈ p.finished, x.1.tag.op.cancels e = true ∧ x.2.isTrue = true) ∨
    statusIn p e = some .cancelled ∧ postFailed e p.world.trace = false

lemma cancelOrder_fulfils (hpaper : cfg.isPaper = false) (hlive : LiveEntries w)
    (hbetween : Between w e) (hnot : ¬ Posting w e)
    (hcancelled : ∀ o, w.state.orders.get? e = some o → o.status = .cancelled → Withdrawn w e) :
    Meets (Cancels fun _ _ _ => True) (Act cfg none) (fun ok w' => ok = true → Withdrawn w' e)
      (cancelOrder cfg e) w := by
  cases hget : w.state.orders.get? e with
  | none =>
    refine .get_bind (.bookkeeping _ rfl le_rfl) ?_
    rw [hget]
    exact fun h => by cases h
  | some o =>
    rcases (hlive.entry e o hget).2.2 with hplaced | hstatus
    · refine (cancelOrder_meets (D := fun _ => True) hpaper ?_ ?_ hlive hget hplaced
        (hbetween.closed hnot hget hplaced) ?_).imp ?_
      · exact fun _ _ _ _ _ _ _ => trivial
      · exact fun _ _ _ => trivial
      · exact fun _ => trivial
      · exact fun ok w' h => h.2.1
    · refine .get_bind (.bookkeeping _ rfl le_rfl) ?_
      simp only [hget, hstatus, OrderStatus.isFinal, if_true]
      exact fun _ => hcancelled o hget hstatus

/-- The calls of the race fulfil their contracts. -/
lemma Call.fulfils_placing (hpaper : cfg.isPaper = false) (hp : p.Sound (placingProtocol cfg))
    (call : Call) (hop : call.op.isPlacing = true) (hcancels : CancelsClosed p (.start call)) :
    (placingProtocol cfg).Fulfils ⟨call, p.world⟩ (call.program cfg) p.world := by
  have hlive := hp.inv.1
  obtain ⟨op, env⟩ := call
  obtain ⟨hone, hall⟩ := hcancels
  cases op with
  | placeOrder req =>
    refine Meets.bind (Q := fun _ w' => Between w' p.world.state.nextId) ?_ ?_
    · refine (placeOrder_meets hpaper env req hlive).mono ?_ (fun _ _ h => h) fun _ _ h => h
      exact fun q r w w' h => placingProtocol_leftAlone rfl h.1
    · intro _ w' hbetween
      refine ⟨fun e he => ?_, fun e he => by cases he⟩
      cases he
      exact hbetween
  | cancelOrder e =>
    obtain ⟨hnot, hcancelled⟩ := hone e (by simp [Op.cancels])
    refine Meets.bind (Q := fun ok w' => ok = true → Withdrawn w' e) ?_ ?_
    · refine (cancelOrder_fulfils hpaper hlive (sound_between hp e) hnot ?_).mono ?_
        (fun _ _ h => h) fun _ _ h => h
      · intro o hget hstatus
        exact ⟨⟨o, hget, hstatus⟩, hcancelled (by rw [statusIn, hget, Option.map_some, hstatus])⟩
      · exact fun q r w w' h => ⟨placingProtocol_others h.1, trivial⟩
    · intro ok w' hwithdrawn
      refine ⟨fun e' he' => (by cases he'), fun e' he' htrue => ?_⟩
      simp [Op.cancels] at he'
      subst he'
      exact hwithdrawn htrue
  | cancelAllOpenOrders =>
    refine Meets.bind (Q := fun _ _ => True) ?_ fun _ w' _ =>
      ⟨fun e he => (by cases he), fun e he => (by cases he)⟩
    refine (cancelAllOpenOrders_meets hpaper hlive ?_).mono ?_ (fun _ _ h => h) fun _ _ h => h
    · exact fun id hid o hget => (sound_between hp id).closed (hall rfl id hid) hget
    · exact fun q r w w' h => ⟨placingProtocol_others h.1, h.2 rfl⟩
  | cancelExpiredOrders => cases hop
  | closePosition req => cases hop
  | reconcileOrders books => cases hop

lemma placing_eventMeets (hpaper : cfg.isPaper = false) (hp : p.Sound (placingProtocol cfg))
    {event : ExecEvent} (hevent : CancelsClosed p event ∧ StartsPlacing event) :
    Pool.EventMeets (placingProtocol cfg) (Call.program cfg) lockAdmits p event := by
  obtain ⟨hcancels, hop⟩ := hevent
  cases event with
  | start call =>
    intro hadmits
    refine ⟨fun t ht e he he' => ?_, ⟨hp.inv.1, fun e => Or.inr (sound_between hp e)⟩,
      call.fulfils_placing hpaper hp hop hcancels⟩
    -- both would hold the lock
    have hlock : ∀ job : Job Call Executor Request Reply, ∀ e, placedBy job = some e →
        job.tag.op.takesLock = true := by
      intro job e h
      rw [placedBy] at h
      cases hop : job.tag.op <;> rw [hop] at h <;> first | rfl | cases h
    have hrunning : (p.tasks.map (·.job.tag)).any (·.op.takesLock) = true :=
      List.any_eq_true.mpr ⟨t.job.tag, List.mem_map.mpr ⟨t, ht, rfl⟩, hlock t.job e he⟩
    have hcall : call.op.takesLock = true := hlock _ e he'
    rw [lockAdmits, hrunning, hcall] at hadmits
    cases hadmits
  | answer n reply =>
    intro t ht hall id hid o hget
    exact (sound_between hp id).closed (hcancels t ht hall id hid) hget

lemma interleave_placing (hpaper : cfg.isPaper = false) (hp : p.Sound (placingProtocol cfg))
    {schedule : List ExecEvent} (h : EventsMeet cfg CancelsClosed p schedule)
    (hops : ∀ event ∈ schedule, StartsPlacing event) :
    (interleave cfg p schedule).Sound (placingProtocol cfg) ∧
      Kept p.world (interleave cfg p schedule).world := by
  obtain ⟨hsound, hsteps⟩ := Pool.run_sound
    (fun p hp event hevent => placing_eventMeets hpaper hp hevent) hp (h.and_mem hops)
  exact ⟨hsound, placingProtocol_kept hsteps⟩

/-- An executor without orders. -/
def noOrders : ExecPool := idle ⟨.init, []⟩

lemma noOrders_sound (cfg : Config) : noOrders.Sound (placingProtocol cfg) := by
  refine ⟨by simp [noOrders, idle], by simp [noOrders, idle], ⟨?_, fun e => Or.inr ?_⟩,
    by simp [noOrders, idle]⟩
  · refine ⟨?_, ?_, ?_, by simp [noOrders, idle]⟩
    · rintro id o ⟨⟩
    · rintro id o ⟨⟩
    · rintro id o ⟨⟩
  · rintro o ⟨⟩

lemma CancelWon.withdrawn (hp : p.Sound (placingProtocol cfg)) (h : CancelWon p e) :
    Withdrawn p.world e := by
  rcases h with ⟨x, hx, hcancels, htrue⟩ | ⟨hstatus, hfailed⟩
  · obtain ⟨w, hpost, hsteps⟩ := hp.done x hx
    exact (placingProtocol_kept hsteps).withdrawn e (hpost.2 e hcancels htrue)
  · rw [statusIn, Option.map_eq_some_iff] at hstatus
    obtain ⟨o, hget, hcancelled⟩ := hstatus
    refine (hp.inv.1.cancelled e o hget hcancelled).resolve_right ?_
    rw [hfailed]
    exact fun h => by cases h

/-- When no cancellation gets to an entry that is still being posted, an entry that `cancel_order`
has cancelled has no live exchange order from then on, and nothing more is submitted for it. -/
theorem interleave_cancel_wins (cfg : Config) (hpaper : cfg.isPaper = false)
    (schedule later : List ExecEvent) (hops : ∀ event ∈ schedule ++ later, StartsPlacing event)
    (hcancels : EventsMeet cfg CancelsClosed noOrders (schedule ++ later)) (e : OrderId)
    (hwon : CancelWon (interleave cfg noOrders schedule) e) :
    let p := interleave cfg noOrders (schedule ++ later)
    (∀ x ∈ ackedIds e p.world.trace, x ∈ confirmedIds e p.world.trace) ∧
      ∀ t ∈ p.tasks, t.question.order = e → t.question.isSubmission = false := by
  obtain ⟨hschedule, hlater⟩ := (Pool.along_append _ _ _ _).mp hcancels
  obtain ⟨hsound, _⟩ := interleave_placing hpaper (noOrders_sound cfg) hschedule
    fun event hevent => hops event (List.mem_append_left _ hevent)
  obtain ⟨hsound', hkept⟩ := interleave_placing hpaper hsound hlater
    fun event hevent => hops event (List.mem_append_right _ hevent)
  have hwithdrawn := hkept.withdrawn e (hwon.withdrawn hsound)
  have hrun : interleave cfg noOrders (schedule ++ later) =
      interleave cfg (interleave cfg noOrders schedule) later := by
    simp only [interleave, Pool.run_append]
  intro p
  have hp : p = interleave cfg (interleave cfg noOrders schedule) later := hrun
  rw [hp]
  refine ⟨hwithdrawn.2, fun t ht horder => ?_⟩
  by_contra hkind
  rw [Bool.not_eq_false] at hkind
  exact hwithdrawn.not_posting (horder ▸ sound_submitting hsound' ht hkind)

instance (p : ExecPool) : (event : ExecEvent) → Decidable (CancelsClosed p event)
  | .start ⟨.cancelOrder e, env⟩ =>
    decidable_of_iff (¬ Posting p.world e ∧ (statusIn p e = some .cancelled →
      ∀ x ∈ ackedIds e p.world.trace, x ∈ confirmedIds e p.world.trace))
      (by simp [CancelsClosed, Op.cancels, Op.cancelsAll])
  | .start ⟨.cancelAllOpenOrders, env⟩ =>
    decidable_of_iff (∀ e ∈ reached p.world.state p.world.state.orders.keys, ¬ Posting p.world e)
      (by simp [CancelsClosed, Op.cancels, Op.cancelsAll])
  | .start ⟨.placeOrder req, env⟩ => isTrue (by simp [CancelsClosed, Op.cancels, Op.cancelsAll])
  | .start ⟨.cancelExpiredOrders, env⟩ =>
    isTrue (by simp [CancelsClosed, Op.cancels, Op.cancelsAll])
  | .start ⟨.closePosition req, env⟩ => isTrue (by simp [CancelsClosed, Op.cancels, Op.cancelsAll])
  | .start ⟨.reconcileOrders books, env⟩ =>
    isTrue (by simp [CancelsClosed, Op.cancels, Op.cancelsAll])
  | .answer n reply =>
    inferInstanceAs (Decidable (∀ t ∈ p.tasks[n]?, _ = true → ∀ e ∈ reachedAfter _ _ _ _, ¬ _))

instance (p : ExecPool) (e : OrderId) : Decidable (CancelWon p e) :=
  inferInstanceAs (Decidable (_ ∨ _))

/-- An entry in one chunk. -/
def placeCall (marketId : MarketId) : Call :=
  ⟨.placeOrder { threeChunks with marketId, sizeUsdc := 10 }, { now := 0 }⟩

/-- An exchange that accepts a post under an id and confirms cancellations. -/
def accepting (exchangeId : ExchangeId) : (q : Request) → Reply q :=
  scripted (fun _ => acknowledged exchangeId) (fun _ => .ok ()) (fun _ => .failed) 0

/-- An entry is placed and then cancelled. -/
def cancelAfterPlacing : List ExecEvent :=
  [.start (placeCall "m"), .answer 0 (accepting "x"), .answer 0 (accepting "x"), .answer 0 (accepting "x"),
    .start cancelCall, .answer 0 (accepting "x")]

/-- The theorem at an entry that is cancelled once it is posted, while the next one is placed. -/
theorem interleave_cancel_wins_posted :
    let p := interleave liveConfig noOrders (cancelAfterPlacing ++ [.start (placeCall "n")])
    (∀ x ∈ ackedIds 0 p.world.trace, x ∈ confirmedIds 0 p.world.trace) ∧
      ∀ t ∈ p.tasks, t.question.order = 0 → t.question.isSubmission = false :=
  interleave_cancel_wins liveConfig rfl cancelAfterPlacing [.start (placeCall "n")]
    (by simp [cancelAfterPlacing, StartsPlacing]; decide) (by decide +kernel) 0 (by decide +kernel)

/-- A cancellation while the placement waits for its first answer. -/
def cancelWhilePlacing : List ExecEvent := [.start (placeCall "m"), .start cancelCall]

/-- `cancel_order` returns `True`, the chunk is posted all the same, and its order stays live. -/
theorem interleave_cancel_loses :
    CancelWon (interleave liveConfig noOrders cancelWhilePlacing) 0 ∧
      (∃ t ∈ (interleave liveConfig noOrders (cancelWhilePlacing ++
          [.answer 0 (accepting "x"), .answer 0 (accepting "x")])).tasks,
        t.question.order = 0 ∧ t.question.isSubmission = true) ∧
      ackedIds 0 (interleave liveConfig noOrders (cancelWhilePlacing ++
        [.answer 0 (accepting "x"), .answer 0 (accepting "x"), .answer 0 (accepting "x")])).world.trace =
          ["x"] ∧
      confirmedIds 0 (interleave liveConfig noOrders (cancelWhilePlacing ++
        [.answer 0 (accepting "x"), .answer 0 (accepting "x"), .answer 0 (accepting "x")])).world.trace =
          [] :=
  ⟨by decide +kernel, by decide +kernel, by decide +kernel, by decide +kernel⟩

end PolyCortex
