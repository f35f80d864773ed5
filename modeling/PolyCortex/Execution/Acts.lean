import PolyCortex.Execution.Interleaving

/-!
# Placing and cancelling side by side

What the tasks of live placements and cancellations do to the world, one act at a time (`Act`). An
entry whose chunks are still being posted is touched by its own placement only; an entry whose ids
the exchange has all acknowledged keeps them, and is withdrawn when all are confirmed cancelled
(`Kept`).
-/

namespace PolyCortex

open Coroutine Relation

variable {cfg : Config} {mine : Option OrderId} {w w' : ExecWorld} {e : OrderId}

/-! ### The phases of an entry -/

def isAcceptedPost (e : OrderId) : Exchanged Request Reply → Bool
  | ⟨.createAndPostOrder order _ _ _ _, .ok _⟩ => order = e
  | _ => false

/-- The number of chunks of `e` that have been posted. -/
def acceptedPosts (e : OrderId) (trace : Trace) : ℕ := trace.countP (isAcceptedPost e)

@[simp] lemma acceptedPosts_concat (e : OrderId) (t : Trace) (x : Exchanged Request Reply) :
    acceptedPosts e (t ++ [x]) = acceptedPosts e t + if isAcceptedPost e x then 1 else 0 := by
  simp [acceptedPosts]

/-- Chunks of `e` are still to be posted. -/
def Posting (w : ExecWorld) (e : OrderId) : Prop :=
  (w.state.orders.get? e).any
    (fun o => o.status = .placed ∧ acceptedPosts e w.trace < o.chunks) = true

instance (w : ExecWorld) (e : OrderId) : Decidable (Posting w e) :=
  inferInstanceAs (Decidable (_ = true))

lemma posting_iff : Posting w e ↔ ∃ o, w.state.orders.get? e = some o ∧ o.status = .placed ∧
    acceptedPosts e w.trace < o.chunks := by
  simp [Posting, Option.any_eq_true]

/-- All chunks of `e` are posted, and `ids` is what the exchange has acknowledged. Once the entry is
cancelled all of them are confirmed cancelled. -/
def Closed (w : ExecWorld) (e : OrderId) (ids : List ExchangeId) : Prop :=
  ackedIds e w.trace = ids ∧ ∃ o, w.state.orders.get? e = some o ∧ o.exchangeOrderIds = ids ∧
    (o.status = .placed ∧ o.chunks ≤ acceptedPosts e w.trace ∨
      o.status = .cancelled ∧ ∀ x ∈ ids, x ∈ confirmedIds e w.trace)

/-- The entry is cancelled, and so is all the exchange has acknowledged of it. -/
def Withdrawn (w : ExecWorld) (e : OrderId) : Prop :=
  (∃ o, w.state.orders.get? e = some o ∧ o.status = .cancelled) ∧
    ∀ x ∈ ackedIds e w.trace, x ∈ confirmedIds e w.trace

/-- An open entry is being posted, or its ids are on it. -/
def Between (w : ExecWorld) (e : OrderId) : Prop :=
  ∀ o, w.state.orders.get? e = some o → o.status = .placed →
    Posting w e ∨ Closed w e o.exchangeOrderIds

lemma Closed.not_posting {ids : List ExchangeId} (h : Closed w e ids) : ¬ Posting w e := by
  rw [posting_iff]
  rintro ⟨o, ho, hplaced, hlt⟩
  obtain ⟨_, o', ho', _, hphase⟩ := h
  rw [ho, Option.some.injEq] at ho'
  subst ho'
  rcases hphase with ⟨_, hle⟩ | ⟨hcancelled, _⟩
  · exact absurd hle (not_le.mpr hlt)
  · rw [hplaced] at hcancelled
    cases hcancelled

lemma Withdrawn.not_posting (h : Withdrawn w e) : ¬ Posting w e := by
  rw [posting_iff]
  rintro ⟨o, ho, hplaced, _⟩
  obtain ⟨⟨o', ho', hcancelled⟩, _⟩ := h
  rw [ho, Option.some.injEq] at ho'
  subst ho'
  rw [hplaced] at hcancelled
  cases hcancelled

/-! ### What a task can do -/

/-- A live entry as it is created. -/
structure Order.Opened (o : Order) : Prop where
  orderKind : o.orderKind = .entry
  isPaper : o.isPaper = false
  status : o.status = .placed
  exchangeOrderIds : o.exchangeOrderIds = []
  chunks_pos : 0 < o.chunks

/-- The acts of a task that places the entry `mine`, or cancels when it places none. -/
inductive Act (cfg : Config) (mine : Option OrderId) (w : ExecWorld) : ExecWorld → Prop where
  | bookkeeping (s' : Executor) (horders : s'.orders = w.state.orders)
    (hid : w.state.nextId ≤ s'.nextId) : Act cfg mine w ⟨s', w.trace⟩
  | openEntry (s' : Executor) (mk : OrderId → Order) (hmine : mine = some w.state.nextId)
    (hnew : (mk w.state.nextId).Opened) (horders : s'.orders = (w.state.insertOrder mk).orders)
    (hid : s'.nextId = w.state.nextId + 1) : Act cfg mine w ⟨s', w.trace⟩
  | submit (q : Request) (r : Reply q) (hmine : mine = some q.order)
    (hkind : q.isSubmission = true) (hposting : Posting w q.order) : Act cfg mine w (w.answer q r)
  | acknowledge (req : PlaceRequest) (e : OrderId) (o : Order) (hmine : mine = some e)
    (hget : w.state.orders.get? e = some o) (hplaced : o.status = .placed)
    (hall : o.chunks ≤ acceptedPosts e w.trace) :
    Act cfg mine w (w.update (acknowledgeEntry cfg req e (ackedIds e w.trace)))
  | abandon (e : OrderId) (hmine : mine = some e) (hposting : Posting w e)
    (hfailed : ackedIds e w.trace = [] ∨ postFailed e w.trace = true) :
    Act cfg mine w (w.update (·.setStatus e .cancelled))
  | cancelReply (e : OrderId) (x : ExchangeId) (r : Except CallError Unit) (hmine : mine = none)
    (hexists : e < w.state.nextId) : Act cfg mine w (w.answer (.cancel e x) r)
  | withdraw (e : OrderId) (o : Order) (hmine : mine = none)
    (hget : w.state.orders.get? e = some o) (hposting : ¬ Posting w e)
    (hconfirmed : ∀ x ∈ ackedIds e w.trace, x ∈ confirmedIds e w.trace) :
    Act cfg mine w
      (w.update fun s => (s.setStatus e .cancelled).setBracketState e .cancelled)

/-- A task that can be answered posts chunks of its own entry, or cancels. -/
lemma Act.answer_inv {q : Request} {r : Reply q} (h : Act cfg mine w (w.answer q r)) :
    mine = some q.order ∧ q.isSubmission = true ∧ Posting w q.order ∨
      mine = none ∧ q.isSubmission = false := by
  generalize hw' : w.answer q r = w' at h
  have htrace : w'.trace = w.trace ++ [⟨q, r⟩] := by rw [← hw', World.answer_trace]
  cases h with
  | submit q' r' hmine hkind hposting =>
    rw [World.answer_trace] at htrace
    simp at htrace
    obtain ⟨rfl, -⟩ := htrace
    exact Or.inl ⟨hmine, hkind, hposting⟩
  | cancelReply e x r' hmine hexists =>
    rw [World.answer_trace] at htrace
    simp at htrace
    obtain ⟨rfl, -⟩ := htrace
    exact Or.inr ⟨hmine, rfl⟩
  | bookkeeping s' horders hid => simp at htrace
  | openEntry s' mk hmine hnew horders hid => simp at htrace
  | acknowledge req e o hmine hget hplaced hall => simp at htrace
  | abandon e hmine hposting hfailed => simp at htrace
  | withdraw e o hmine hget hposting hconfirmed => simp at htrace

/-- What an act does to one entry. -/
inductive EntryAct (mine : Option OrderId) (e : OrderId) (w w' : ExecWorld) : Prop where
  /-- Nothing, but more of it may be confirmed cancelled. -/
  | keep (hget : w'.state.orders.get? e = w.state.orders.get? e)
    (hacked : ackedIds e w'.trace = ackedIds e w.trace)
    (haccepted : acceptedPosts e w'.trace = acceptedPosts e w.trace)
    (hfailed : postFailed e w'.trace = postFailed e w.trace)
    (hconfirmed : ∀ x ∈ confirmedIds e w.trace, x ∈ confirmedIds e w'.trace)
  | opened (o : Order) (hmine : mine = some e) (hnew : o.Opened) (hnone : w.state.nextId = e)
    (hget : w'.state.orders.get? e = some o) (htrace : w'.trace = w.trace)
  | submitted (x : Exchanged Request Reply) (hmine : mine = some e) (hposting : Posting w e)
    (hget : w'.state.orders.get? e = w.state.orders.get? e) (htrace : w'.trace = w.trace ++ [x])
    (hconfirmed : confirmedId e x = none)
  | acknowledged (o o' : Order) (hmine : mine = some e) (hget : w.state.orders.get? e = some o)
    (hplaced : o.status = .placed) (hall : o.chunks ≤ acceptedPosts e w.trace)
    (hget' : w'.state.orders.get? e = some o') (hids : o'.exchangeOrderIds = ackedIds e w.trace)
    (hsame : o'.status = o.status ∧ o'.chunks = o.chunks ∧ o'.orderKind = o.orderKind ∧
      o'.isPaper = o.isPaper)
    (htrace : w'.trace = w.trace)
  | abandoned (o : Order) (hmine : mine = some e) (hposting : Posting w e)
    (hget : w.state.orders.get? e = some o)
    (hget' : w'.state.orders.get? e = some { o with status := .cancelled })
    (hfailed : ackedIds e w.trace = [] ∨ postFailed e w.trace = true)
    (htrace : w'.trace = w.trace)
  | withdrawn (o : Order) (hmine : mine = none) (hposting : ¬ Posting w e)
    (hget : w.state.orders.get? e = some o)
    (hget' : w'.state.orders.get? e =
      some { o with status := .cancelled, bracketState := .cancelled })
    (hconfirmed : ∀ x ∈ ackedIds e w.trace, x ∈ confirmedIds e w.trace)
    (htrace : w'.trace = w.trace)

lemma isSubmission_order_ne {q : Request} (r : Reply q) (hne : q.order ≠ e) :
    ackedId e ⟨q, r⟩ = none ∧ isAcceptedPost e ⟨q, r⟩ = false ∧ isPostFailure e ⟨q, r⟩ = false ∧
      confirmedId e ⟨q, r⟩ = none := by
  cases q with
  | createAndPostOrder order tokenId price size side =>
    cases r <;> simp_all [ackedId, isAcceptedPost, isPostFailure, confirmedId, Request.order]
  | cancel order x =>
    cases r <;> simp_all [ackedId, isAcceptedPost, isPostFailure, confirmedId, Request.order]
  | balance order => exact ⟨rfl, rfl, rfl, rfl⟩
  | gasPrice order => exact ⟨rfl, rfl, rfl, rfl⟩
  | sleep order => exact ⟨rfl, rfl, rfl, rfl⟩
  | status order method x => exact ⟨rfl, rfl, rfl, rfl⟩

/-- The acts, entry by entry. -/
lemma Act.entryAct (h : Act cfg mine w w') (e : OrderId) : EntryAct mine e w w' := by
  have hkeep : ∀ s' : Executor, s'.orders.get? e = w.state.orders.get? e →
      EntryAct mine e w ⟨s', w.trace⟩ := fun s' hget => .keep hget rfl rfl rfl fun x hx => hx
  cases h with
  | bookkeeping s' horders hid => exact hkeep s' (by rw [horders])
  | openEntry s' mk hmine hnew horders hid =>
    by_cases he : e = w.state.nextId
    · subst he
      exact .opened _ hmine hnew rfl (by rw [horders, Executor.get?_insertOrder_self]) rfl
    · exact hkeep s' (by rw [horders, Executor.get?_insertOrder, if_neg he])
  | submit q r hmine hkind hposting =>
    by_cases he : q.order = e
    · subst he
      refine .submitted ⟨q, r⟩ hmine hposting rfl rfl ?_
      cases q <;> first | rfl | cases hkind
    · obtain ⟨hacked, haccepted, hfailed, hconfirmed⟩ := isSubmission_order_ne r he
      refine .keep rfl ?_ ?_ ?_ fun x hx => ?_ <;> simp_all [acceptedPosts]
  | acknowledge req e' o hmine hget hplaced hall =>
    by_cases he : e' = e
    · subst he
      refine .acknowledged o
        { o with
          exchangeOrderIds := ackedIds e' w.trace
          bracketState := if (req.bracket cfg).isSome then .pendingFill else o.bracketState }
        hmine hget hplaced hall ?_ rfl ⟨rfl, rfl, rfl, rfl⟩ rfl
      simp [acknowledgeEntry, hget]
    · exact hkeep _ (Executor.get?_modifyOrder_of_ne _ (Ne.symm he) _)
  | abandon e' hmine hposting hfailed =>
    by_cases he : e' = e
    · subst he
      obtain ⟨o, hget, _⟩ := posting_iff.mp hposting
      refine .abandoned o hmine hposting hget ?_ hfailed rfl
      simp [Executor.setStatus, hget]
    · exact hkeep _ (Executor.get?_modifyOrder_of_ne _ (Ne.symm he) _)
  | cancelReply e' x r hmine hexists =>
    refine .keep rfl ?_ ?_ ?_ fun y hy => ?_
    · simp [ackedId]
    · simp [isAcceptedPost]
    · simp [isPostFailure]
    · simp [hy]
  | withdraw e' o hmine hget hposting hconfirmed =>
    by_cases he : e' = e
    · subst he
      refine .withdrawn o hmine hposting hget ?_ hconfirmed rfl
      simp [Executor.setStatus, Executor.setBracketState, hget]
    · refine hkeep _ ?_
      show ((w.state.setStatus e' .cancelled).setBracketState e' .cancelled).orders.get? e = _
      rw [Executor.setBracketState, Executor.get?_modifyOrder_of_ne _ (Ne.symm he),
        Executor.setStatus, Executor.get?_modifyOrder_of_ne _ (Ne.symm he)]

/-! ### What stays -/

/-- All orders are live entries, and the trace speaks of orders that exist. -/
structure LiveEntries (w : ExecWorld) : Prop where
  entry : ∀ id o, w.state.orders.get? id = some o →
    o.orderKind = .entry ∧ o.isPaper = false ∧ (o.status = .placed ∨ o.status = .cancelled)
  acknowledged : ∀ id o, w.state.orders.get? id = some o → o.status = .placed →
    o.exchangeOrderIds ≠ [] → Closed w id o.exchangeOrderIds
  cancelled : ∀ id o, w.state.orders.get? id = some o → o.status = .cancelled →
    Withdrawn w id ∨ postFailed id w.trace = true
  traced : ∀ x ∈ w.trace, x.1.order < w.state.nextId

/-- Nothing has been asked for an order that does not exist yet. -/
lemma LiveEntries.unasked (h : LiveEntries w) (he : w.state.nextId ≤ e) :
    ackedIds e w.trace = [] ∧ acceptedPosts e w.trace = 0 ∧ confirmedIds e w.trace = [] := by
  have hne : ∀ x ∈ w.trace, x.1.order ≠ e := fun x hx =>
    ((h.traced x hx).trans_le he).ne
  refine ⟨?_, ?_, ?_⟩
  · exact List.filterMap_eq_nil_iff.mpr fun x hx => (isSubmission_order_ne x.2 (hne x hx)).1
  · refine List.countP_eq_zero.mpr fun x hx => ?_
    simp [(isSubmission_order_ne x.2 (hne x hx)).2.1]
  · exact List.filterMap_eq_nil_iff.mpr fun x hx => (isSubmission_order_ne x.2 (hne x hx)).2.2.2

/-- An entry that others place is left alone while it is being posted. -/
lemma EntryAct.posting (h : EntryAct mine e w w') (hmine : mine ≠ some e) (hposting : Posting w e) :
    w'.state.orders.get? e = w.state.orders.get? e ∧ ackedIds e w'.trace = ackedIds e w.trace ∧
      acceptedPosts e w'.trace = acceptedPosts e w.trace := by
  cases h with
  | keep hget hacked haccepted _ _ => exact ⟨hget, hacked, haccepted⟩
  | opened o h _ _ _ _ => exact absurd h hmine
  | submitted x h _ _ _ _ => exact absurd h hmine
  | acknowledged o o' h _ _ _ _ _ _ _ => exact absurd h hmine
  | abandoned o h _ _ _ _ _ => exact absurd h hmine
  | withdrawn o _ hnot _ _ _ _ => exact absurd hposting hnot

/-- A closed entry stays closed, with the ids it has. -/
lemma EntryAct.closed {ids : List ExchangeId} (h : EntryAct mine e w w') (hclosed : Closed w e ids) :
    Closed w' e ids := by
  have hnot := hclosed.not_posting
  obtain ⟨hacked, o, hget, hids, hphase⟩ := hclosed
  cases h with
  | keep hget' hacked' haccepted _ hconfirmed =>
    refine ⟨hacked'.trans hacked, o, hget'.trans hget, hids, ?_⟩
    rw [haccepted]
    exact hphase.imp_right fun h => ⟨h.1, fun x hx => hconfirmed x (h.2 x hx)⟩
  | opened o' _ _ hnone _ _ =>
    exact absurd (Executor.lt_nextId hget) (hnone ▸ lt_irrefl _)
  | submitted x _ hposting _ _ _ => exact absurd hposting hnot
  | acknowledged o₁ o' _ hget₁ hplaced hall hget' hids' hsame htrace =>
    rw [hget, Option.some.injEq] at hget₁
    subst hget₁
    refine ⟨by rw [htrace, hacked], o', hget', by rw [hids', hacked], Or.inl ⟨?_, ?_⟩⟩
    · rw [hsame.1, hplaced]
    · rw [hsame.2.1, htrace]
      exact hall
  | abandoned o₁ _ hposting _ _ _ _ => exact absurd hposting hnot
  | withdrawn o₁ _ _ hget₁ hget' hconfirmed htrace =>
    rw [hget, Option.some.injEq] at hget₁
    subst hget₁
    refine ⟨by rw [htrace, hacked], _, hget', hids, Or.inr ⟨rfl, ?_⟩⟩
    rwa [htrace, ← hacked]

/-- A withdrawn entry stays withdrawn. -/
lemma EntryAct.withdrawn_stays (h : EntryAct mine e w w') (hwithdrawn : Withdrawn w e) :
    Withdrawn w' e := by
  have hnot := hwithdrawn.not_posting
  obtain ⟨⟨o, hget, hcancelled⟩, hall⟩ := hwithdrawn
  cases h with
  | keep hget' hacked _ _ hconfirmed =>
    refine ⟨⟨o, hget'.trans hget, hcancelled⟩, ?_⟩
    rw [hacked]
    exact fun x hx => hconfirmed x (hall x hx)
  | opened o' _ _ hnone _ _ =>
    exact absurd (Executor.lt_nextId hget) (hnone ▸ lt_irrefl _)
  | submitted x _ hposting _ _ _ => exact absurd hposting hnot
  | acknowledged o₁ o' _ hget₁ hplaced _ _ _ _ _ =>
    rw [hget, Option.some.injEq] at hget₁
    subst hget₁
    rw [hplaced] at hcancelled
    cases hcancelled
  | abandoned o₁ _ hposting _ _ _ _ => exact absurd hposting hnot
  | withdrawn o₁ _ _ _ hget' hconfirmed htrace =>
    refine ⟨⟨_, hget', rfl⟩, ?_⟩
    rwa [htrace]

lemma EntryAct.confirmed (h : EntryAct mine e w w') {x : ExchangeId}
    (hx : x ∈ confirmedIds e w.trace) : x ∈ confirmedIds e w'.trace := by
  cases h with
  | keep _ _ _ _ hconfirmed => exact hconfirmed x hx
  | opened o _ _ _ _ htrace => rwa [htrace]
  | submitted y _ _ _ htrace _ =>
    rw [htrace, confirmedIds_append]
    exact List.mem_append_left _ hx
  | acknowledged o o' _ _ _ _ _ _ _ htrace => rwa [htrace]
  | abandoned o _ _ _ _ _ htrace => rwa [htrace]
  | withdrawn o _ _ _ _ _ htrace => rwa [htrace]

/-- An entry that a task does not place stays between posting and closing. -/
lemma EntryAct.between (h : EntryAct mine e w w') (hmine : mine ≠ some e) (hbetween : Between w e) :
    Between w' e := by
  intro o' hget' hplaced
  cases h with
  | keep hget hacked haccepted hfailed hconfirmed =>
    rw [hget] at hget'
    rcases hbetween o' hget' hplaced with hposting | hclosed
    · refine Or.inl (posting_iff.mpr ⟨o', hget.trans hget', hplaced, ?_⟩)
      obtain ⟨o, ho, _, hlt⟩ := posting_iff.mp hposting
      rw [hget', Option.some.injEq] at ho
      subst ho
      rwa [haccepted]
    · have hkeep : EntryAct mine e w w' := .keep hget hacked haccepted hfailed hconfirmed
      exact Or.inr (hkeep.closed hclosed)
  | opened o h _ _ _ _ => exact absurd h hmine
  | submitted x h _ _ _ _ => exact absurd h hmine
  | acknowledged o o' h _ _ _ _ _ _ _ => exact absurd h hmine
  | abandoned o h _ _ _ _ _ => exact absurd h hmine
  | withdrawn o _ _ _ hget _ _ =>
    rw [hget, Option.some.injEq] at hget'
    subst hget'
    cases hplaced

/-- From `w` to `w'` closed entries stay closed and withdrawn ones withdrawn. -/
structure Kept (w w' : ExecWorld) : Prop where
  live : LiveEntries w → LiveEntries w'
  closed : ∀ e ids, Closed w e ids → Closed w' e ids
  withdrawn : ∀ e, Withdrawn w e → Withdrawn w' e
  confirmed : ∀ e, ∀ x ∈ confirmedIds e w.trace, x ∈ confirmedIds e w'.trace

namespace Kept

lemma refl (w : ExecWorld) : Kept w w :=
  ⟨fun h => h, fun _ _ h => h, fun _ h => h, fun _ _ h => h⟩

lemma trans {w'' : ExecWorld} (h : Kept w w') (h' : Kept w' w'') : Kept w w'' where
  live hw := h'.live (h.live hw)
  closed e ids hw := h'.closed e ids (h.closed e ids hw)
  withdrawn e hw := h'.withdrawn e (h.withdrawn e hw)
  confirmed e x hx := h'.confirmed e x (h.confirmed e x hx)

end Kept

lemma EntryAct.live {id : OrderId} {o' : Order} (h : EntryAct mine id w w') (hlive : LiveEntries w)
    (hget' : w'.state.orders.get? id = some o') :
    o'.orderKind = .entry ∧ o'.isPaper = false ∧ (o'.status = .placed ∨ o'.status = .cancelled) := by
  cases h with
  | keep hget _ _ _ _ => exact hlive.entry id o' (hget ▸ hget')
  | opened o _ hnew _ hget _ =>
    rw [hget, Option.some.injEq] at hget'
    subst hget'
    exact ⟨hnew.orderKind, hnew.isPaper, Or.inl hnew.status⟩
  | submitted x _ _ hget _ _ => exact hlive.entry id o' (hget ▸ hget')
  | acknowledged o o₁ _ hget _ _ hget₁ _ hsame _ =>
    rw [hget₁, Option.some.injEq] at hget'
    subst hget'
    rw [hsame.1, hsame.2.2.1, hsame.2.2.2]
    exact hlive.entry id o hget
  | abandoned o _ _ hget hget₁ _ _ =>
    rw [hget₁, Option.some.injEq] at hget'
    subst hget'
    exact ⟨(hlive.entry id o hget).1, (hlive.entry id o hget).2.1, Or.inr rfl⟩
  | withdrawn o _ _ hget hget₁ _ _ =>
    rw [hget₁, Option.some.injEq] at hget'
    subst hget'
    exact ⟨(hlive.entry id o hget).1, (hlive.entry id o hget).2.1, Or.inr rfl⟩

lemma EntryAct.acknowledged_closed {id : OrderId} {o' : Order} (h : EntryAct mine id w w')
    (hlive : LiveEntries w) (hget' : w'.state.orders.get? id = some o') (hplaced : o'.status = .placed)
    (hids : o'.exchangeOrderIds ≠ []) : Closed w' id o'.exchangeOrderIds := by
  have hclosed : Closed w id o'.exchangeOrderIds → Closed w' id o'.exchangeOrderIds := h.closed
  cases h with
  | keep hget _ _ _ _ => exact hclosed (hlive.acknowledged id o' (hget ▸ hget') hplaced hids)
  | opened o _ hnew _ hget _ =>
    rw [hget, Option.some.injEq] at hget'
    subst hget'
    exact absurd hnew.exchangeOrderIds hids
  | submitted x _ _ hget _ _ =>
    exact hclosed (hlive.acknowledged id o' (hget ▸ hget') hplaced hids)
  | acknowledged o o₁ _ _ _ hall hget₁ hids₁ hsame htrace =>
    rw [hget₁, Option.some.injEq] at hget'
    subst hget'
    refine ⟨by rw [htrace, hids₁], o₁, hget₁, rfl, Or.inl ⟨hplaced, ?_⟩⟩
    rwa [htrace, hsame.2.1]
  | abandoned o _ _ _ hget₁ _ _ =>
    rw [hget₁, Option.some.injEq] at hget'
    subst hget'
    cases hplaced
  | withdrawn o _ _ _ hget₁ _ _ =>
    rw [hget₁, Option.some.injEq] at hget'
    subst hget'
    cases hplaced

lemma EntryAct.cancelled_withdrawn {id : OrderId} {o' : Order} (h : EntryAct mine id w w')
    (hlive : LiveEntries w) (hget' : w'.state.orders.get? id = some o')
    (hcancelled : o'.status = .cancelled) : Withdrawn w' id ∨ postFailed id w'.trace = true := by
  have hstays := h.withdrawn_stays
  cases h with
  | keep hget _ _ hfailed _ =>
    rw [hfailed]
    exact (hlive.cancelled id o' (hget ▸ hget') hcancelled).imp_left hstays
  | opened o _ hnew _ hget _ =>
    rw [hget, Option.some.injEq] at hget'
    subst hget'
    rw [hnew.status] at hcancelled
    cases hcancelled
  | submitted x _ hposting hget _ _ =>
    obtain ⟨o, ho, hplaced, _⟩ := posting_iff.mp hposting
    rw [hget, ho, Option.some.injEq] at hget'
    subst hget'
    rw [hplaced] at hcancelled
    cases hcancelled
  | acknowledged o o₁ _ _ hplaced _ hget₁ _ hsame _ =>
    rw [hget₁, Option.some.injEq] at hget'
    subst hget'
    rw [hsame.1, hplaced] at hcancelled
    cases hcancelled
  | abandoned o _ _ _ hget₁ hfailed htrace =>
    refine hfailed.imp (fun hnone => ⟨⟨_, hget₁, rfl⟩, ?_⟩) fun h => by rwa [htrace]
    rw [htrace, hnone]
    simp
  | withdrawn o _ _ _ hget₁ hconfirmed htrace =>
    refine Or.inl ⟨⟨_, hget₁, rfl⟩, ?_⟩
    rwa [htrace]

lemma Act.traced (h : Act cfg mine w w') (hlive : LiveEntries w) :
    ∀ x ∈ w'.trace, x.1.order < w'.state.nextId := by
  have hsame := hlive.traced
  cases h with
  | bookkeeping s' horders hid => exact fun x hx => (hsame x hx).trans_le hid
  | openEntry s' mk hmine hnew horders hid =>
    intro x hx
    show x.1.order < s'.nextId
    rw [hid]
    exact (hsame x hx).trans (Nat.lt_succ_self _)
  | submit q r hmine hkind hposting =>
    obtain ⟨o, hget, _⟩ := posting_iff.mp hposting
    intro x hx
    rcases List.mem_append.mp hx with hx | hx
    · exact hsame x hx
    · rw [List.mem_singleton.mp hx]
      exact Executor.lt_nextId hget
  | acknowledge req e o hmine hget hplaced hall => exact hsame
  | abandon e hmine hposting hfailed => exact hsame
  | cancelReply e x r hmine hexists =>
    intro y hy
    rcases List.mem_append.mp hy with hy | hy
    · exact hsame y hy
    · rw [List.mem_singleton.mp hy]
      exact hexists
  | withdraw e o hmine hget hposting hconfirmed => exact hsame

lemma Act.kept (h : Act cfg mine w w') : Kept w w' where
  live hlive :=
    { entry := fun id _ hget => (h.entryAct id).live hlive hget
      acknowledged := fun id _ hget => (h.entryAct id).acknowledged_closed hlive hget
      cancelled := fun id _ hget => (h.entryAct id).cancelled_withdrawn hlive hget
      traced := h.traced hlive }
  closed e _ := (h.entryAct e).closed
  withdrawn e := (h.entryAct e).withdrawn_stays
  confirmed e _ := (h.entryAct e).confirmed

end PolyCortex
