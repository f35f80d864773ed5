import PolyCortex.Data.MessageSafety

/-!
# Snapshots and subscriptions

The end of a subscription drops the snapshot of its token. A message, however, is stored whichever token
it is about, and the server goes on sending: what is in flight, and what it was never told to stop. A
snapshot is there for a subscribed token only as long as every message is about one.
-/

namespace PolyCortex.WebSocketClient

variable {py : PyConversions} {loads : String → Except PyError PersistedValue} {bus : Option EventBus}
  {ws : WebSocketClient} {tokenId : String} {snapshot : OrderBookSnapshot}

/-- The client after some events, from a new one on. -/
def after (py : PyConversions) (loads : String → Except PyError PersistedValue) (bus : Option EventBus)
    (events : List StreamEvent) : WebSocketClient :=
  run py loads { eventBus := bus } events

variable (py loads) in
/-- A message that is stored is about a subscribed token. -/
def Wanted (ws : WebSocketClient) : StreamEvent → Prop
  | .message raw => ws.connected = true → ∀ fields tokenId,
      Stores py loads raw fields (.str tokenId) → tokenId ∈ ws.subscribedTokens
  | _ => True

variable (py loads bus) in
/-- After the events there are snapshots of subscribed tokens only, and none was received before its
token was subscribed for the last time. -/
structure UnsubscribedGone (events : List StreamEvent) : Prop where
  subscribed : ∀ tokenId snapshot, (after py loads bus events).getSnapshot tokenId = some snapshot →
    tokenId ∈ (after py loads bus events).subscribedTokens
  later : ∀ before rest, events = before ++ rest → ∀ tokenId snapshot,
    tokenId ∉ (after py loads bus before).subscribedTokens →
      (after py loads bus events).getSnapshot tokenId = some snapshot →
        (after py loads bus before).messagesReceived < snapshot.received

lemma after_concat (events : List StreamEvent) (event : StreamEvent) :
    after py loads bus (events ++ [event]) = (after py loads bus events).step py loads event := by
  simp [after, run]

/-! ### Steps -/

variable (py loads) in
/-- A message touches no subscription, and it is counted when it comes in. -/
lemma step_message (raw : String) (ws : WebSocketClient) :
    (∃ fields tokenId, ws.connected = true ∧ Stores py loads raw fields tokenId ∧
        ws.step py loads (.message raw) =
          ws.received.store (bookOf py (ws.messagesReceived + 1) fields tokenId)) ∨
      (ws.step py loads (.message raw)).snapshots = ws.snapshots ∧
        (ws.step py loads (.message raw)).subscribedTokens = ws.subscribedTokens ∧
        ws.messagesReceived ≤ (ws.step py loads (.message raw)).messagesReceived := by
  cases hconnected : ws.connected with
  | false => simp [step, hconnected]
  | true =>
    rcases handleMessage_cases py loads raw ws with
      ⟨fields, tokenId, hstores, hhandle⟩ | ⟨-, -, hhandle⟩ | ⟨-, e, hhandle⟩
    · exact Or.inl ⟨fields, tokenId, rfl, hstores, by simp [step, hconnected, hhandle]⟩
    · simp [step, hconnected, hhandle, received]
    · simp [step, hconnected, hhandle, received]

lemma messagesReceived_step (event : StreamEvent) (ws : WebSocketClient) :
    ws.messagesReceived ≤ (ws.step py loads event).messagesReceived := by
  cases event with
  | message raw =>
    rcases step_message py loads raw ws with ⟨fields, tokenId, -, -, hstep⟩ | h
    · rw [hstep]
      exact Nat.le_succ _
    · exact h.2.2
  | _ => exact le_rfl

lemma getSnapshot_unsubscribe (t : String) (ws : WebSocketClient) :
    (ws.unsubscribe t).getSnapshot tokenId = if tokenId = t then none else ws.getSnapshot tokenId := by
  rw [getSnapshot, getSnapshot, unsubscribe, Dict.get?_filter]
  cases ws.snapshots.get? (.str tokenId) <;> by_cases h : tokenId = t <;> simp [h]

/-- A snapshot was there before, and its token is still subscribed if it was, or it has just come. -/
lemma getSnapshot_step (event : StreamEvent)
    (h : (ws.step py loads event).getSnapshot tokenId = some snapshot) :
    (ws.getSnapshot tokenId = some snapshot ∧
        (tokenId ∈ ws.subscribedTokens → tokenId ∈ (ws.step py loads event).subscribedTokens)) ∨
      ∃ raw fields, event = .message raw ∧ ws.connected = true ∧
        Stores py loads raw fields (.str tokenId) ∧
        (ws.step py loads event).subscribedTokens = ws.subscribedTokens ∧
        snapshot.received = ws.messagesReceived + 1 := by
  cases event with
  | subscribe t => exact Or.inl ⟨h, Finset.mem_insert_of_mem⟩
  | unsubscribe t =>
    rw [step, getSnapshot_unsubscribe] at h
    split_ifs at h with ht
    exact Or.inl ⟨h, fun hmem => Finset.mem_erase.mpr ⟨ht, hmem⟩⟩
  | connect => exact Or.inl ⟨h, id⟩
  | disconnect => exact Or.inl ⟨h, id⟩
  | message raw =>
    rcases step_message py loads raw ws with
      ⟨fields, key, hconnected, hstores, hstep⟩ | ⟨hsnapshots, hsubscribed, -⟩
    · rw [hstep] at h ⊢
      have hget : (ws.snapshots.set key (bookOf py (ws.messagesReceived + 1) fields key)).get?
          (.str tokenId) = some snapshot := h
      rw [Dict.get?_set] at hget
      split_ifs at hget with hkey
      · subst hkey
        exact Or.inr ⟨raw, fields, rfl, hconnected, hstores, rfl, by
          rw [← Option.some.inj hget]
          rfl⟩
      · exact Or.inl ⟨hget, id⟩
    · rw [getSnapshot, hsnapshots] at h
      exact Or.inl ⟨h, fun hmem => hsubscribed ▸ hmem⟩

/-! ### Runs -/

lemma messagesReceived_append (before rest : List StreamEvent) :
    (after py loads bus before).messagesReceived ≤
      (after py loads bus (before ++ rest)).messagesReceived := by
  induction rest using List.reverseRecOn with
  | nil => rw [List.append_nil]
  | append_singleton rest event ih =>
    rw [← List.append_assoc, after_concat]
    exact ih.trans (messagesReceived_step event _)

/-- A new client has no snapshots. -/
lemma unsubscribedGone_nil : UnsubscribedGone py loads bus [] where
  subscribed tokenId snapshot h := absurd h (by simp [after, run, getSnapshot])
  later before rest _ tokenId snapshot _ h := absurd h (by simp [after, run, getSnapshot])

/-- A wanted event brings no snapshot of a token that is not subscribed. -/
lemma UnsubscribedGone.concat {events : List StreamEvent} {event : StreamEvent}
    (h : UnsubscribedGone py loads bus events)
    (hwanted : Wanted py loads (after py loads bus events) event) :
    UnsubscribedGone py loads bus (events ++ [event]) := by
  have hsubscribed : ∀ tokenId snapshot,
      (after py loads bus (events ++ [event])).getSnapshot tokenId = some snapshot →
        tokenId ∈ (after py loads bus (events ++ [event])).subscribedTokens := by
    intro tokenId snapshot hget
    rw [after_concat] at hget ⊢
    rcases getSnapshot_step event hget with
      ⟨hbefore, hstays⟩ | ⟨raw, fields, rfl, hconnected, hstores, hsame, -⟩
    · exact hstays (h.subscribed tokenId snapshot hbefore)
    · rw [hsame]
      exact hwanted hconnected fields tokenId hstores
  refine ⟨hsubscribed, ?_⟩
  intro before rest hsplit tokenId snapshot hnot hget
  rcases List.eq_nil_or_concat rest with rfl | ⟨rest, last, rfl⟩
  · rw [List.append_nil] at hsplit
    subst hsplit
    exact absurd (hsubscribed tokenId snapshot hget) hnot
  · rw [List.concat_eq_append, ← List.append_assoc] at hsplit
    obtain ⟨rfl, -⟩ := List.append_inj' hsplit rfl
    rw [after_concat] at hget
    rcases getSnapshot_step event hget with ⟨hbefore, -⟩ | ⟨raw, fields, -, -, -, -, hreceived⟩
    · exact h.later before rest rfl tokenId snapshot hnot hbefore
    · rw [hreceived]
      exact Nat.lt_succ_of_le (messagesReceived_append before rest)

variable (py loads bus) in
/-- In all states of a run there are snapshots of subscribed tokens only, exactly when every message of
the run that is stored is about a token that is subscribed then. -/
theorem unsubscribedGone_iff (events : List StreamEvent) :
    (∀ before rest, events = before ++ rest → UnsubscribedGone py loads bus before) ↔
      ∀ before event rest, events = before ++ event :: rest →
        Wanted py loads (after py loads bus before) event := by
  constructor
  · intro hgone before event rest hsplit
    cases event with
    | message raw =>
      intro hconnected fields tokenId hstores
      have hnext := hgone (before ++ [.message raw]) rest (by rw [hsplit]; simp)
      have hstep : after py loads bus (before ++ [.message raw]) =
          (after py loads bus before).received.store
            (bookOf py ((after py loads bus before).messagesReceived + 1) fields (.str tokenId)) := by
        rw [after_concat]
        simp [step, hconnected, hstores.handleMessage]
      have hmem := hnext.subscribed tokenId
      rw [hstep] at hmem
      exact hmem _ (Dict.get?_set_self _ _ _)
    | _ => trivial
  · intro hwanted before
    induction before using List.reverseRecOn with
    | nil => exact fun rest _ => unsubscribedGone_nil
    | append_singleton before event ih =>
      intro rest hsplit
      have hsplit' : events = before ++ event :: rest := by rw [hsplit]; simp
      exact (ih (event :: rest) hsplit').concat (hwanted before event rest hsplit')

/-- A message that comes in after the end of the subscription. -/
def lateMessage : List StreamEvent :=
  [.connect, .subscribe "TK", .unsubscribe "TK", .message oneAskText]

/-- Its book is there, and nobody is subscribed. -/
theorem not_unsubscribedGone_lateMessage :
    ¬ UnsubscribedGone .noTexts (loadsAs (.obj oneAsk)) none lateMessage := by
  intro hgone
  have hstored : after .noTexts (loadsAs (.obj oneAsk)) none lateMessage =
      (after .noTexts (loadsAs (.obj oneAsk)) none
        [.connect, .subscribe "TK", .unsubscribe "TK"]).received.store
          (bookOf .noTexts 1 oneAsk (.str "TK")) := by
    simp [lateMessage, after, run, step, subscribe, unsubscribe, oneAsk_stores.handleMessage]
  have hmem := hgone.subscribed "TK"
  rw [hstored] at hmem
  have hsubscribed := hmem _ (Dict.get?_set_self _ _ _)
  exact absurd hsubscribed (by decide)

end PolyCortex.WebSocketClient
