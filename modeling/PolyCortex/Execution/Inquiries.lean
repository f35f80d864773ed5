import PolyCortex.Coroutine.Inquiry
import PolyCortex.Execution.Reconcile

/-!
# What the executor learns from the exchange

The parts of the operations that only ask: posting chunks, cancelling on the exchange, fetching
status rows. Each has one lemma, which says what its result has to do with the answers. The
functions on traces say what the exchange has told the executor about an order.
-/

namespace PolyCortex

open Coroutine (Inquires Exchanged forEach inquires_pure inquires_ask_bind)

abbrev Trace := List (Exchanged Request Reply)

/-! ### What a trace says about an order -/

/-- The id an answer acknowledges for a chunk of the entry `e`. -/
def ackedId (e : OrderId) : Exchanged Request Reply → Option ExchangeId
  | ⟨.createAndPostOrder order _ _ _ _, .ok response⟩ =>
    if order = e then response.exchangeId? else none
  | _ => none

/-- The ids the exchange returned for the chunks of `e`. -/
def ackedIds (e : OrderId) (trace : Trace) : List ExchangeId := trace.filterMap (ackedId e)

def isPostFailure (e : OrderId) : Exchanged Request Reply → Bool
  | ⟨.createAndPostOrder order _ _ _ _, .error _⟩ => order = e
  | _ => false

/-- Posting failed for a chunk of `e`. -/
def postFailed (e : OrderId) (trace : Trace) : Bool := trace.any (isPostFailure e)

def confirmedId (e : OrderId) : Exchanged Request Reply → Option ExchangeId
  | ⟨.cancel order exchangeId, .ok ()⟩ => if order = e then some exchangeId else none
  | _ => none

/-- The ids of `e` whose cancellation the exchange confirmed. -/
def confirmedIds (e : OrderId) (trace : Trace) : List ExchangeId :=
  trace.filterMap (confirmedId e)

def isCancelFailure (e : OrderId) : Exchanged Request Reply → Bool
  | ⟨.cancel order _, .error _⟩ => order = e
  | _ => false

/-- A cancellation for `e` failed. -/
def cancelFailed (e : OrderId) (trace : Trace) : Bool := trace.any (isCancelFailure e)

def reportedRow (e : OrderId) : Exchanged Request Reply → Option StatusRow
  | ⟨.status order _ _, .response response⟩ =>
    if order = e then parseLiveStatusResponse response else none
  | _ => none

/-- The status rows the exchange returned for `e`. -/
def reportedRows (e : OrderId) (trace : Trace) : List StatusRow :=
  trace.filterMap (reportedRow e)

/-- The requests of a placement. -/
def Request.isSubmission : Request → Bool
  | .balance _ | .gasPrice _ | .createAndPostOrder .. | .sleep _ => true
  | .cancel .. | .status .. => false

def Request.isCancel : Request → Bool
  | .cancel .. => true
  | .balance _ | .gasPrice _ | .createAndPostOrder .. | .sleep _ | .status .. => false

def Request.isStatus : Request → Bool
  | .status .. => true
  | .balance _ | .gasPrice _ | .createAndPostOrder .. | .sleep _ | .cancel .. => false

/-- Every question in the trace is of one kind and asked for `e`. -/
def AsksFor (kind : Request → Bool) (e : OrderId) (trace : Trace) : Prop :=
  ∀ x ∈ trace, x.1.order = e ∧ kind x.1 = true

@[simp] lemma asksFor_nil (kind : Request → Bool) (e : OrderId) : AsksFor kind e [] := by
  simp [AsksFor]

@[simp] lemma asksFor_cons (kind : Request → Bool) (e : OrderId) (x : Exchanged Request Reply)
    (t : Trace) : AsksFor kind e (x :: t) ↔ (x.1.order = e ∧ kind x.1 = true) ∧ AsksFor kind e t := by
  simp [AsksFor]

lemma AsksFor.append {kind : Request → Bool} {e : OrderId} {t t' : Trace} (h : AsksFor kind e t)
    (h' : AsksFor kind e t') : AsksFor kind e (t ++ t') :=
  fun x hx => (List.mem_append.mp hx).elim (h x) (h' x)

/-- Questions for one order tell nothing about another. -/
lemma AsksFor.reportedRows_of_ne {kind : Request → Bool} {e e' : OrderId} {trace : Trace}
    (h : AsksFor kind e trace) (hne : e ≠ e') : reportedRows e' trace = [] := by
  refine List.filterMap_eq_nil_iff.mpr fun x hx => ?_
  obtain ⟨q, r⟩ := x
  have hq : q.order = e := (h _ hx).1
  cases q with
  | status order method exchangeId =>
    cases r with
    | response response =>
      have hne' : order ≠ e' := fun heq => hne (hq.symm.trans heq)
      simp [reportedRow, hne']
    | unsupported => rfl
    | timeout => rfl
    | failed => rfl
  | _ => rfl

/-! They are read off exchange by exchange. -/

lemma filterMap_cons_eq {α β : Type} (f : α → Option β) (x : α) (l : List α) :
    (x :: l).filterMap f = (f x).toList ++ l.filterMap f := by
  cases h : f x <;> simp [h]

@[simp] lemma ackedIds_cons (e : OrderId) (x : Exchanged Request Reply) (t : Trace) :
    ackedIds e (x :: t) = (ackedId e x).toList ++ ackedIds e t := filterMap_cons_eq _ x t

@[simp] lemma postFailed_cons (e : OrderId) (x : Exchanged Request Reply) (t : Trace) :
    postFailed e (x :: t) = (isPostFailure e x || postFailed e t) := rfl

@[simp] lemma confirmedIds_cons (e : OrderId) (x : Exchanged Request Reply) (t : Trace) :
    confirmedIds e (x :: t) = (confirmedId e x).toList ++ confirmedIds e t :=
  filterMap_cons_eq _ x t

@[simp] lemma cancelFailed_cons (e : OrderId) (x : Exchanged Request Reply) (t : Trace) :
    cancelFailed e (x :: t) = (isCancelFailure e x || cancelFailed e t) := rfl

@[simp] lemma reportedRows_cons (e : OrderId) (x : Exchanged Request Reply) (t : Trace) :
    reportedRows e (x :: t) = (reportedRow e x).toList ++ reportedRows e t :=
  filterMap_cons_eq _ x t

@[simp] lemma ackedIds_nil (e : OrderId) : ackedIds e [] = [] := rfl

@[simp] lemma ackedIds_append (e : OrderId) (t t' : Trace) :
    ackedIds e (t ++ t') = ackedIds e t ++ ackedIds e t' := List.filterMap_append

@[simp] lemma postFailed_nil (e : OrderId) : postFailed e [] = false := rfl

@[simp] lemma postFailed_append (e : OrderId) (t t' : Trace) :
    postFailed e (t ++ t') = (postFailed e t || postFailed e t') := List.any_append

@[simp] lemma confirmedIds_nil (e : OrderId) : confirmedIds e [] = [] := rfl

@[simp] lemma confirmedIds_append (e : OrderId) (t t' : Trace) :
    confirmedIds e (t ++ t') = confirmedIds e t ++ confirmedIds e t' := List.filterMap_append

@[simp] lemma cancelFailed_nil (e : OrderId) : cancelFailed e [] = false := rfl

@[simp] lemma cancelFailed_append (e : OrderId) (t t' : Trace) :
    cancelFailed e (t ++ t') = (cancelFailed e t || cancelFailed e t') := List.any_append

@[simp] lemma reportedRows_nil (e : OrderId) : reportedRows e [] = [] := rfl

@[simp] lemma reportedRows_append (e : OrderId) (t t' : Trace) :
    reportedRows e (t ++ t') = reportedRows e t ++ reportedRows e t' := List.filterMap_append

/-! ### Submitting -/

abbrev Submits : OrderId → Trace → Prop := AsksFor Request.isSubmission

/-- Nothing is cancelled by submitting. -/
lemma AsksFor.confirmedIds_eq_nil {e : OrderId} {trace : Trace} (h : Submits e trace) :
    confirmedIds e trace = [] := by
  refine List.filterMap_eq_nil_iff.mpr fun x hx => ?_
  obtain ⟨q, r⟩ := x
  have hq := (h _ hx).2
  cases q <;> first | rfl | cases hq

/-- Posting chunks: on success the result is what has been acknowledged, on top of what was there. -/
lemma postChunks_inquires (e : OrderId) (tokenId : TokenId) (price chunkSize : ℚ) (n : ℕ)
    (exchangeIds : List ExchangeId) :
    Inquires (fun result trace => Submits e trace ∧
        ∀ ids, result = .ok ids → ids = exchangeIds ++ ackedIds e trace ∧
          postFailed e trace = false)
      (postChunks e tokenId price chunkSize n exchangeIds) := by
  induction n generalizing exchangeIds with
  | zero =>
    refine inquires_pure ⟨by simp, ?_⟩
    rintro _ ⟨⟩
    simp
  | succ n ih =>
    refine inquires_ask_bind fun r => ?_
    match r with
    | .error err => exact inquires_pure ⟨by simp [Request.order, Request.isSubmission],
        by rintro _ ⟨⟩⟩
    | .ok response =>
      dsimp only
      split_ifs
      · refine inquires_ask_bind fun _ => (ih _).mono ?_
        rintro result t ⟨hsubmits, hok⟩
        refine ⟨?_, fun ids hids => ?_⟩
        · simpa [Request.order, Request.isSubmission] using hsubmits
        · simpa [ackedId, isPostFailure] using hok ids hids
      · refine (ih _).mono ?_
        rintro result t ⟨hsubmits, hok⟩
        refine ⟨?_, fun ids hids => ?_⟩
        · simpa [Request.order, Request.isSubmission] using hsubmits
        · simpa [ackedId, isPostFailure] using hok ids hids

/-- A check before the submission asks once and posts nothing. -/
lemma assertSufficientBalance_inquires (e : OrderId) (sizeUsdc : ℚ) :
    Inquires (fun _ trace => Submits e trace ∧ ackedIds e trace = [] ∧ postFailed e trace = false)
      (assertSufficientBalance e sizeUsdc) := by
  refine inquires_ask_bind fun r => ?_
  match r with
  | none => exact inquires_pure (by simp [Request.order, Request.isSubmission, ackedId,
      isPostFailure])
  | some balance =>
    dsimp only
    split_ifs <;> exact inquires_pure (by simp [Request.order, Request.isSubmission,
      ackedId, isPostFailure])

lemma checkGasPrice_inquires (cfg : Config) (e : OrderId) :
    Inquires (fun _ trace => Submits e trace ∧ ackedIds e trace = [] ∧ postFailed e trace = false)
      (checkGasPrice cfg e) := by
  refine inquires_ask_bind fun r => ?_
  match r with
  | none => exact inquires_pure (by simp [Request.order, Request.isSubmission, ackedId,
      isPostFailure])
  | some gwei =>
    dsimp only
    split_ifs <;> exact inquires_pure (by simp [Request.order, Request.isSubmission,
      ackedId, isPostFailure])

/-- The whole submission: on success no post failed and the result is what was acknowledged. -/
lemma submitChunks_inquires (cfg : Config) (req : PlaceRequest) (e : OrderId) :
    Inquires (fun result trace => Submits e trace ∧
        ∀ ids, result = .ok ids → ids = ackedIds e trace ∧ postFailed e trace = false)
      (submitChunks cfg req e) := by
  refine (assertSufficientBalance_inquires e req.sizeUsdc).bind fun r t ⟨hsubmits, hacked, hok⟩ => ?_
  match r with
  | .error err => exact inquires_pure ⟨by simpa using hsubmits, by rintro _ ⟨⟩⟩
  | .ok () =>
    refine (checkGasPrice_inquires cfg e).bind fun r t' ⟨hsubmits', hacked', hok'⟩ => ?_
    have hboth : Submits e (t ++ t') := hsubmits.append hsubmits'
    match r with
    | .error err => exact inquires_pure ⟨by simpa using hboth, by rintro _ ⟨⟩⟩
    | .ok () =>
      refine (postChunks_inquires e _ _ _ _ []).mono ?_
      rintro result t'' ⟨hsubmits'', hresult⟩
      refine ⟨?_, fun ids hids => ?_⟩
      · rw [← List.append_assoc]
        exact hboth.append hsubmits''
      · simpa [hacked, hacked', hok, hok'] using hresult ids hids

/-! ### Cancelling -/

/-- Cancelling on the exchange succeeds when every id is confirmed, and stops at a failure. -/
lemma cancelOnExchange_inquires (e : OrderId) (exchangeIds : List ExchangeId) :
    Inquires (fun ok trace => AsksFor Request.isCancel e trace ∧ cancelFailed e trace = !ok ∧
        (ok = true → confirmedIds e trace = exchangeIds))
      (cancelOnExchange e exchangeIds) := by
  induction exchangeIds with
  | nil => exact inquires_pure ⟨by simp, rfl, fun _ => rfl⟩
  | cons exchangeId exchangeIds ih =>
    refine inquires_ask_bind fun r => ?_
    match r with
    | .ok () =>
      refine ih.mono ?_
      rintro ok t ⟨hasks, hfailed, hconfirmed⟩
      refine ⟨?_, by simpa [isCancelFailure] using hfailed, fun hok => ?_⟩
      · simpa [Request.order, Request.isCancel] using hasks
      · simp [confirmedId, hconfirmed hok]
    | .error err => exact inquires_pure (by simp [Request.order, Request.isCancel, isCancelFailure])

/-! ### Status rows -/

/-- A row is fetched when some method returns one, and then it is the row reported. -/
lemma fetchLiveExchangeStatus_inquires (e : OrderId) (exchangeId : ExchangeId)
    (methods : List StatusMethod) :
    Inquires (fun row trace => AsksFor Request.isStatus e trace ∧ row.toList = reportedRows e trace)
      (fetchLiveExchangeStatus e exchangeId methods) := by
  induction methods with
  | nil => exact inquires_pure ⟨by simp, rfl⟩
  | cons method methods ih =>
    refine inquires_ask_bind fun r => ?_
    match r with
    | .unsupported =>
      exact ih.mono fun row t h => by simpa [Request.order, Request.isStatus, reportedRow] using h
    | .timeout => exact inquires_pure (by simp [Request.order, Request.isStatus, reportedRow])
    | .failed => exact inquires_pure (by simp [Request.order, Request.isStatus, reportedRow])
    | .response response =>
      dsimp only
      cases hparse : parseLiveStatusResponse response with
      | none =>
        exact ih.mono fun row t h => by simpa [Request.order, Request.isStatus, reportedRow, hparse] using h
      | some row => exact inquires_pure (by simp [Request.order, Request.isStatus, reportedRow, hparse])

/-- The rows of a pass are the rows reported, at most one for each exchange order. -/
lemma fetchStatusRows_inquires (e : OrderId) (exchangeIds : List ExchangeId) :
    Inquires (fun rows trace => AsksFor Request.isStatus e trace ∧ rows = reportedRows e trace ∧
        rows.length ≤ exchangeIds.length)
      (fetchStatusRows e exchangeIds) := by
  unfold fetchStatusRows
  induction exchangeIds with
  | nil => exact inquires_pure ⟨by simp, rfl, le_rfl⟩
  | cons exchangeId exchangeIds ih =>
    have hone : Inquires (fun rows trace => AsksFor Request.isStatus e trace ∧ rows = reportedRows e trace ∧
          rows.length ≤ 1)
        ((fetchLiveExchangeStatus e exchangeId [.getOrder, .getOrderStatus]).bind
          fun row => .pure row.toList) := by
      refine (fetchLiveExchangeStatus_inquires e exchangeId _).bind fun row t ⟨hasks, hrow⟩ => ?_
      refine inquires_pure ⟨by rwa [List.append_nil], by rw [List.append_nil, hrow], ?_⟩
      cases row <;> simp
    refine hone.bind fun rows t ⟨hasks, hrows, hlen⟩ => ?_
    refine ih.bind fun rows' t' ⟨hasks', hrows', hlen'⟩ => inquires_pure ⟨?_, ?_, ?_⟩
    · rw [List.append_nil]
      exact hasks.append hasks'
    · simp [hrows, hrows']
    · rw [List.length_append, List.length_cons, Nat.add_comm]
      exact Nat.add_le_add hlen' hlen

end PolyCortex
