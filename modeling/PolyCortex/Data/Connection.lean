import Mathlib
import PolyCortex.Machine.History

/-!
# The connection of the stream

How `WebSocketClient` connects, waits longer after every failure and subscribes again. The task that
listens runs between the calls of `start`, `stop`, `subscribe` and `unsubscribe`, with an event for each
of its awaits. However they interleave, a running client never gives up, its delays are those of the
exponential backoff, and while it listens every subscribed token has been sent on the open connection
(`connection_sound`).

A `start` while a `stop` still waits for the connection to close is left out.
-/

namespace PolyCortex

namespace WebSocketClient

open Machine

/-- The order in which a set of tokens is listed. -/
structure SetOrder where
  list : Finset String → List String
  mem_list : ∀ tokens tokenId, tokenId ∈ list tokens ↔ tokenId ∈ tokens

/-- Where the task that listens waits. -/
inductive Listener where
  | absent
  | connecting
  /-- for a subscription to be sent, with those that are left -/
  | resubscribing (rest : List String)
  | listening
  | sleeping
  deriving DecidableEq, Repr

/-- What can be seen of the client from outside. -/
inductive WireAction where
  | connected
  | sent (connection : ℕ) (tokenId : String)
  | sleep (delay : ℚ)
  | woke
  deriving DecidableEq, Repr

/-- The attributes of the client that its connection needs. `socketOpen` is `_ws` and `not _ws.closed`, and
`connections` counts the sockets that `_ws` has been. -/
structure Connection where
  maxReconnectDelay : ℚ := 60
  running : Bool := false
  stopping : Bool := false
  reconnectDelay : ℚ := 1
  reconnectCount : ℕ := 0
  subscribedTokens : Finset String := ∅
  connections : ℕ := 0
  socketOpen : Bool := false
  listener : Listener := .absent
  trace : List WireAction := []

inductive ConnectionEvent where
  | start
  | stop
  /-- `stop` has closed the connection and cancelled the task -/
  | stopped
  | subscribe (tokenId : String)
  | unsubscribe (tokenId : String)
  | connected
  | connectFailed
  /-- the send that the task waits for has ended or failed -/
  | sendDone
  /-- the server has closed the connection -/
  | socketClosed
  /-- the messages have come to an end, or one of them has raised -/
  | ended
  | slept

namespace Connection

def record (action : WireAction) (c : Connection) : Connection :=
  { c with trace := c.trace ++ [action] }

/-- `_send_subscribe`; it raises nothing. -/
def sendSubscribe (tokenId : String) (c : Connection) : Connection :=
  if c.socketOpen then c.record (.sent c.connections tokenId) else c

/-- The loop over the tokens, up to its next await. -/
def resubscribe (tokens : List String) (c : Connection) : Connection :=
  match tokens with
  | [] => { c with listener := .listening }
  | tokenId :: rest =>
    -- there is nothing to wait for on a closed socket
    if c.socketOpen then { c.sendSubscribe tokenId with listener := .resubscribing rest }
    else c.resubscribe rest

/-- `_connection_loop` after `_connect_and_listen` has returned or raised. -/
def afterConnection (c : Connection) : Connection :=
  if c.running then { c.record (.sleep c.reconnectDelay) with listener := .sleeping }
  else { c with listener := .absent }

/-- What happens at an event that can happen; the others change nothing. -/
def step (order : SetOrder) (c : Connection) : ConnectionEvent → Connection
  | .start =>
    if c.running || c.stopping then c else { c with running := true, listener := .connecting }
  | .stop => { c with running := false, stopping := true }
  | .stopped =>
    if c.stopping then { c with stopping := false, socketOpen := false, listener := .absent } else c
  | .subscribe tokenId =>
    { c with subscribedTokens := insert tokenId c.subscribedTokens }.sendSubscribe tokenId
  | .unsubscribe tokenId => { c with subscribedTokens := c.subscribedTokens.erase tokenId }
  | .connected =>
    if c.listener = .connecting then
      -- reset backoff on successful connection
      let c := { c.record .connected with
        connections := c.connections + 1, socketOpen := true, reconnectDelay := 1 }
      c.resubscribe (order.list c.subscribedTokens)
    else c
  | .connectFailed => if c.listener = .connecting then c.afterConnection else c
  | .sendDone =>
    match c.listener with
    | .resubscribing rest => c.resubscribe rest
    | _ => c
  | .socketClosed => { c with socketOpen := false }
  | .ended => if c.listener = .listening then c.afterConnection else c
  | .slept =>
    if c.listener = .sleeping then
      let c := { c.record .woke with
        reconnectDelay := min (c.reconnectDelay * 2) c.maxReconnectDelay
        reconnectCount := c.reconnectCount + 1 }
      { c with listener := if c.running then .connecting else .absent }
    else c

/-- A new client. -/
def new (maxReconnectDelay : ℚ) : Connection := { maxReconnectDelay }

/-! ### What the trace says -/

/-- The waits that have ended since the last connection. -/
def wokeSince (trace : List WireAction) : ℕ :=
  trace.foldl (fun n action =>
    match action with
    | .connected => 0
    | .woke => n + 1
    | _ => n) 0

/-- The delay after `n` waits in a row: `1, 2, 4, ...` up to the largest one. -/
def backoff (largest : ℚ) (n : ℕ) : ℚ := if n = 0 then 1 else min (2 ^ n) largest

/-- The connections so far. -/
def connectionsIn (trace : List WireAction) : ℕ := trace.count .connected

/-- An action comes as the ones before it say: a wait has its delay, a subscription its connection. -/
def Fits (largest : ℚ) (before : List WireAction) : WireAction → Prop
  | .sleep delay => delay = backoff largest (wokeSince before)
  | .sent connection _ => connection = connectionsIn before ∧ 0 < connection
  | _ => True

/-- What holds of a client at all times. -/
structure Sound (largest : ℚ) (c : Connection) : Prop where
  /-- it has a task as long as it runs -/
  persists : c.running = true → c.listener ≠ .absent
  fits : ∀ before action after, c.trace = before ++ action :: after → Fits largest before action
  /-- while it listens on an open connection, all tokens have been sent on it -/
  subscribed : c.listener = .listening → c.socketOpen = true →
    ∀ tokenId ∈ c.subscribedTokens, .sent c.connections tokenId ∈ c.trace

/-! ### Steps -/

variable {order : SetOrder} {largest : ℚ} {c : Connection} {tokenId : String} {trace : List WireAction}

@[simp] lemma wokeSince_concat (trace : List WireAction) (action : WireAction) :
    wokeSince (trace ++ [action]) =
      match action with
      | .connected => 0
      | .woke => wokeSince trace + 1
      | _ => wokeSince trace := by
  rw [wokeSince, List.foldl_concat]
  rfl

/-- The delay is doubled, up to the largest one. -/
lemma backoff_succ (hlargest : 0 ≤ largest) (n : ℕ) :
    backoff largest (n + 1) = min (backoff largest n * 2) largest := by
  rw [backoff, backoff, if_neg n.succ_ne_zero]
  split_ifs with hn
  · rw [hn]
    norm_num
  · have hdouble : min (largest * 2) largest = largest := min_eq_right (by linarith)
    rw [min_mul_of_nonneg _ _ zero_le_two, ← pow_succ, min_assoc, hdouble]

/-- What holds of a client whatever its task does. -/
structure Core (largest : ℚ) (c : Connection) : Prop where
  largest_eq : c.maxReconnectDelay = largest
  halted : c.stopping = true → c.running = false
  delay : c.reconnectDelay = backoff largest (wokeSince c.trace)
  connections : c.connections = connectionsIn c.trace
  opened : c.socketOpen = true → 0 < c.connections
  fits : ∀ before action after, c.trace = before ++ action :: after → Fits largest before action

/-- On an open socket a token has been sent, or is one of those that the task has still to send. -/
def Told (c : Connection) (tokenId : String) : Prop :=
  c.socketOpen = true →
    match c.listener with
    | .listening => .sent c.connections tokenId ∈ c.trace
    | .resubscribing rest => tokenId ∈ rest ∨ .sent c.connections tokenId ∈ c.trace
    | _ => True

structure Inv (largest : ℚ) (c : Connection) : Prop extends Core largest c where
  persists : c.running = true → c.listener ≠ .absent
  told : ∀ tokenId ∈ c.subscribedTokens, Told c tokenId

lemma Core.sendSubscribe (h : Core largest c) (tokenId : String) :
    Core largest (c.sendSubscribe tokenId) := by
  rw [Connection.sendSubscribe]
  split_ifs with hopen
  · refine { h with delay := ?_, connections := ?_, fits := ?_ }
    · simpa [record] using h.delay
    · simpa [record, connectionsIn] using h.connections
    · exact forall_split_concat.mpr ⟨h.fits, h.connections, h.opened hopen⟩
  · exact h

/-- A send is seen on the open socket, and changes nothing else. -/
lemma mem_sendSubscribe (hopen : c.socketOpen = true) (tokenId : String) :
    .sent c.connections tokenId ∈ (c.sendSubscribe tokenId).trace := by
  simp [Connection.sendSubscribe, hopen, record]

lemma sendSubscribe_eq (tokenId : String) (c : Connection) :
    ∃ trace, c.sendSubscribe tokenId = { c with trace := c.trace ++ trace } := by
  rw [Connection.sendSubscribe]
  split_ifs
  · exact ⟨[.sent c.connections tokenId], rfl⟩
  · exact ⟨[], by simp⟩

lemma told_of_mem (h : .sent c.connections tokenId ∈ c.trace) : Told c tokenId := by
  intro _
  cases c.listener with
  | listening => exact h
  | resubscribing rest => exact Or.inr h
  | _ => trivial

/-- What has been told stays told. -/
lemma Told.sendSubscribe {other : String} (h : Told c tokenId) : Told (c.sendSubscribe other) tokenId := by
  obtain ⟨trace, heq⟩ := sendSubscribe_eq other c
  rw [heq]
  intro hopen
  have htold := h hopen
  dsimp only at htold ⊢
  split at htold
  · exact List.mem_append_left _ htold
  · exact htold.imp_right (List.mem_append_left _)
  · trivial

/-- The task sends the tokens one by one. -/
lemma Core.resubscribe (tokens : List String) (h : Core largest c)
    (htokens : ∀ tokenId ∈ c.subscribedTokens, c.socketOpen = true →
      tokenId ∈ tokens ∨ .sent c.connections tokenId ∈ c.trace) :
    Inv largest (c.resubscribe tokens) := by
  induction tokens with
  | nil =>
    rw [Connection.resubscribe]
    exact { h with
      persists := fun _ => by simp
      told := fun tokenId hmem hopen => (htokens tokenId hmem hopen).resolve_left List.not_mem_nil }
  | cons token rest ih =>
    rw [Connection.resubscribe]
    split_ifs with hopen
    · obtain ⟨trace, heq⟩ := sendSubscribe_eq token c
      have hsent := mem_sendSubscribe hopen token
      rw [heq] at hsent
      refine { h.sendSubscribe token with persists := fun _ => by simp, told := ?_ }
      rw [heq]
      intro tokenId hmem _
      rcases htokens tokenId hmem hopen with hin | hdone
      · rcases List.mem_cons.mp hin with rfl | hin
        · exact Or.inr hsent
        · exact Or.inl hin
      · exact Or.inr (List.mem_append_left _ hdone)
    · exact ih fun tokenId hmem hopen' => absurd hopen' hopen

lemma Core.afterConnection (h : Core largest c) : Inv largest c.afterConnection := by
  rw [Connection.afterConnection]
  split_ifs with hrunning
  · have hsleep : Core largest (c.record (.sleep c.reconnectDelay)) := { h with
      delay := by simpa [record] using h.delay
      connections := by simpa [record, connectionsIn] using h.connections
      fits := forall_split_concat.mpr ⟨h.fits, h.delay⟩ }
    exact { hsleep with persists := fun _ => by simp, told := fun _ _ _ => trivial }
  · exact { h with persists := fun hrun => absurd hrun hrunning, told := fun _ _ _ => trivial }

lemma Inv.step (hlargest : 0 ≤ largest) (h : Inv largest c) (event : ConnectionEvent) :
    Inv largest (c.step order event) := by
  cases event with
  | start =>
    rw [Connection.step]
    split_ifs with hbusy
    · exact h
    · simp only [Bool.or_eq_true, not_or] at hbusy
      exact { h with
        halted := fun hstop => absurd hstop hbusy.2
        persists := fun _ => by simp
        told := fun _ _ _ => trivial }
  | stop =>
    exact { h with
      halted := fun _ => rfl
      persists := fun hrun => absurd hrun (by simp [Connection.step]) }
  | stopped =>
    rw [Connection.step]
    split_ifs with hstopping
    · exact { h with
        halted := fun _ => h.halted hstopping
        opened := fun hopen => absurd hopen (by simp)
        persists := fun hrun => absurd (h.halted hstopping) (by simp at hrun; simp [hrun])
        told := fun _ _ _ => trivial }
    · exact h
  | subscribe tokenId =>
    have hcore : Core largest { c with subscribedTokens := insert tokenId c.subscribedTokens } :=
      { h with }
    obtain ⟨trace, heq⟩ :=
      sendSubscribe_eq tokenId { c with subscribedTokens := insert tokenId c.subscribedTokens }
    refine { hcore.sendSubscribe tokenId with persists := ?_, told := fun other hmem => ?_ }
    · rw [Connection.step, heq]
      exact h.persists
    · rw [Connection.step, heq] at hmem
      rcases Finset.mem_insert.mp hmem with rfl | hmem
      · intro hopen
        rw [Connection.step, heq] at hopen
        have hsent := mem_sendSubscribe (c := { c with subscribedTokens := insert other c.subscribedTokens })
          hopen other
        apply told_of_mem _ _
        · simpa [Connection.step, heq] using hsent
        · simpa [Connection.step, heq] using hopen
      · have htold : Told { c with subscribedTokens := insert tokenId c.subscribedTokens } other :=
          h.told other hmem
        exact htold.sendSubscribe
  | unsubscribe tokenId =>
    exact { h with told := fun other hmem => h.told other (Finset.mem_of_mem_erase hmem) }
  | connected =>
    rw [Connection.step]
    split_ifs
    · apply Core.resubscribe
      · exact { h with
          delay := by simp [record, backoff]
          connections := by simpa [record, connectionsIn] using h.connections
          opened := fun _ => Nat.succ_pos _
          fits := forall_split_concat.mpr ⟨h.fits, trivial⟩ }
      · exact fun tokenId hmem _ => Or.inl ((order.mem_list _ _).mpr hmem)
    · exact h
  | connectFailed =>
    rw [Connection.step]
    split_ifs
    · exact h.toCore.afterConnection
    · exact h
  | sendDone =>
    rw [Connection.step]
    split
    · next rest hlistener =>
      apply h.toCore.resubscribe
      intro tokenId hmem hopen
      have htold := h.told tokenId hmem hopen
      rwa [hlistener] at htold
    · exact h
  | socketClosed =>
    exact { h with
      opened := fun hopen => absurd hopen (by simp [Connection.step])
      told := fun _ _ hopen => absurd hopen (by simp [Connection.step]) }
  | ended =>
    rw [Connection.step]
    split_ifs
    · exact h.toCore.afterConnection
    · exact h
  | slept =>
    rw [Connection.step]
    split_ifs
    · refine { h with
        delay := by simp [record, h.delay, h.largest_eq, backoff_succ hlargest]
        connections := by simpa [record, connectionsIn] using h.connections
        fits := forall_split_concat.mpr ⟨h.fits, trivial⟩
        persists := fun hrunning => ?_
        told := fun _ _ _ => ?_ }
      · have hrun : c.running = true := hrunning
        simp [record, hrun]
      · cases hrun : c.running <;> simp [record, hrun]
    · exact h

/-! ### Runs -/

lemma inv_new (largest : ℚ) : Inv largest (new largest) where
  largest_eq := rfl
  halted := nofun
  delay := rfl
  connections := rfl
  opened := nofun
  fits before action after h := absurd h (by simp [new])
  persists := nofun
  told := nofun

/-- The tokens in the order of their names. -/
def sortedOrder : SetOrder where
  list tokens := tokens.sort
  mem_list tokens tokenId := Finset.mem_sort _

end Connection
end WebSocketClient
end PolyCortex
