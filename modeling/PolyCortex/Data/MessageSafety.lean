import PolyCortex.Data.WebSocketClient

/-!
# Which messages can be handled

`_handle_message` is written for any text, yet only a text that is no JSON and the malformed levels of an
array are caught. `Digestible` is the exact condition under which it returns; then the snapshots are
touched by a book only, and that book has the valid levels of the message.
-/

namespace PolyCortex.WebSocketClient

variable {py : PyConversions} {loads : String → Except PyError PersistedValue}
  {fields : List (String × PersistedValue)} {key : String} {raw : String} {ws : WebSocketClient}

/-- The token id of a message. -/
def tokenIdOf (fields : List (String × PersistedValue)) : PersistedValue :=
  ((field fields "asset_id").or (field fields "market")).or (field fields "token_id")

variable (py) in
/-- The valid levels of a side, in the order of the message. -/
abbrev validLevels (fields : List (String × PersistedValue)) (key : String) : List OrderBookLevel :=
  keptSide py level? fields key

variable (py loads) in
/-- The text is a JSON object with a token id and at least one valid level. -/
def HasBook (raw : String) (fields : List (String × PersistedValue)) : Prop :=
  loads raw = .ok (.obj fields) ∧ (tokenIdOf fields).truthy = true ∧
    (validLevels py fields "bids" ≠ [] ∨ validLevels py fields "asks" ≠ [])

variable (py loads) in
/-- The text can be handled: it is no JSON, or an object that has no token id, or one of which both sides
can be read. When there is a valid level, the token id has to be no array and no object. -/
def Digestible (raw : String) : Prop :=
  match loads raw with
  | .error e => e = .jsonDecodeError
  | .ok (.obj fields) =>
    (tokenIdOf fields).truthy = false ∨
      LegibleSide py fields "bids" ∧ LegibleSide py fields "asks" ∧
        (validLevels py fields "bids" = [] ∧ validLevels py fields "asks" = [] ∨
          (tokenKey (tokenIdOf fields)).isOk = true)
  | .ok _ => False

variable (py loads) in
/-- The message does no harm: the handling returns, the snapshots change only for a book, and then by
one whose levels are the valid ones. -/
structure HandlesWell (raw : String) (ws : WebSocketClient) : Prop where
  returns : (ws.handleMessage py loads raw).1 = .ok ()
  unchanged : (∀ fields, ¬ HasBook py loads raw fields) →
    (ws.handleMessage py loads raw).2.snapshots = ws.snapshots
  valid : ∀ fields, HasBook py loads raw fields →
    ∃ snapshot, (ws.handleMessage py loads raw).2.snapshots =
        ws.snapshots.set snapshot.tokenId snapshot ∧
      tokenKey (tokenIdOf fields) = .ok snapshot.tokenId ∧
      snapshot.bids.Perm (validLevels py fields "bids") ∧
      snapshot.asks.Perm (validLevels py fields "asks")

/-- Sort by the price, the highest first. -/
def sortLevels (levels : List OrderBookLevel) : List OrderBookLevel :=
  levels.mergeSort fun a b => decide (b.price ≤ a.price)

variable (py) in
/-- A legible side gives its valid levels, sorted; another one raises. -/
lemma parseLevels_cases (fields : List (String × PersistedValue)) (key : String) :
    (LegibleSide py fields key ∧
        parseLevels py ((field fields key).or (.arr [])) = .ok (sortLevels (validLevels py fields key))) ∨
      (¬ LegibleSide py fields key ∧ ∃ e, parseLevels py ((field fields key).or (.arr [])) = .error e) := by
  rcases parseSide_cases py level? fields key with ⟨hlegible, hparse⟩ | ⟨hnot, e, hparse⟩
  · refine Or.inl ⟨hlegible, ?_⟩
    rw [parseLevels, hparse]
    rfl
  · refine Or.inr ⟨hnot, e, ?_⟩
    rw [parseLevels, hparse]
    rfl

/-- What the handling of a JSON object with a token id reads. -/
lemma readBook_obj (received : ℕ) (fields : List (String × PersistedValue)) :
    readBook py received (.obj fields) =
      if (tokenIdOf fields).truthy then do
        let bids ← parseLevels py ((field fields "bids").or (.arr []))
        let asks ← parseLevels py ((field fields "asks").or (.arr []))
        if bids.isEmpty && asks.isEmpty then
          pure none
        else
          let tokenId ← tokenKey (tokenIdOf fields)
          pure (some { tokenId, bids, asks, received })
      else pure none := rfl

lemma sortLevels_perm (levels : List OrderBookLevel) : (sortLevels levels).Perm levels :=
  List.mergeSort_perm _ _

@[simp] lemma sortLevels_isEmpty (levels : List OrderBookLevel) :
    (sortLevels levels).isEmpty = levels.isEmpty := by
  rw [Bool.eq_iff_iff, List.isEmpty_iff_length_eq_zero, List.isEmpty_iff_length_eq_zero,
    (sortLevels_perm levels).length_eq]

section Object

variable (htruthy : (tokenIdOf fields).truthy = true)

include htruthy

/-- With legible sides there is a book, when there is a level and the token id can be a key. -/
lemma readBook_of_legible (received : ℕ) (hbids : LegibleSide py fields "bids")
    (hasks : LegibleSide py fields "asks") :
    readBook py received (.obj fields) =
      if validLevels py fields "bids" = [] ∧ validLevels py fields "asks" = [] then .ok none
      else (tokenKey (tokenIdOf fields)).map fun tokenId => some
        { tokenId
          bids := sortLevels (validLevels py fields "bids")
          asks := sortLevels (validLevels py fields "asks")
          received } := by
  rcases parseLevels_cases py fields "bids" with ⟨-, hb⟩ | ⟨hnot, -⟩
  · rcases parseLevels_cases py fields "asks" with ⟨-, ha⟩ | ⟨hnot, -⟩
    · rw [readBook_obj, if_pos htruthy, hb, ha]
      simp only [bind, Except.bind, sortLevels_isEmpty, Bool.and_eq_true, List.isEmpty_iff]
      split_ifs
      · rfl
      · cases tokenKey (tokenIdOf fields) <;> rfl
    · exact absurd hasks hnot
  · exact absurd hbids hnot

/-- A side that is not legible raises. -/
lemma readBook_of_not_legible (received : ℕ)
    (h : ¬ (LegibleSide py fields "bids" ∧ LegibleSide py fields "asks")) :
    ∃ e, readBook py received (.obj fields) = .error e := by
  rw [readBook_obj, if_pos htruthy]
  rcases parseLevels_cases py fields "bids" with ⟨hbids, hb⟩ | ⟨-, e, he⟩
  · rcases parseLevels_cases py fields "asks" with ⟨hasks, -⟩ | ⟨-, e, he⟩
    · exact absurd ⟨hbids, hasks⟩ h
    · rw [hb, he]
      exact ⟨e, rfl⟩
  · rw [he]
    exact ⟨e, rfl⟩

end Object

/-! ### The handling -/

/-- The book of a message that is handled as the `received`-th one. -/
def bookOf (py : PyConversions) (received : ℕ) (fields : List (String × PersistedValue))
    (tokenId : TokenKey) : OrderBookSnapshot where
  tokenId := tokenId
  bids := sortLevels (validLevels py fields "bids")
  asks := sortLevels (validLevels py fields "asks")
  received := received

/-- The message has a book under the token id that can be stored. -/
structure Stores (py : PyConversions) (loads : String → Except PyError PersistedValue) (raw : String)
    (fields : List (String × PersistedValue)) (tokenId : TokenKey) : Prop where
  hasBook : HasBook py loads raw fields
  bids : LegibleSide py fields "bids"
  asks : LegibleSide py fields "asks"
  key : tokenKey (tokenIdOf fields) = .ok tokenId

/-- The message is counted. -/
def received (ws : WebSocketClient) : WebSocketClient :=
  { ws with messagesReceived := ws.messagesReceived + 1 }

/-- A text is one JSON value. -/
lemma HasBook.unique {fields' : List (String × PersistedValue)} (hbook : HasBook py loads raw fields')
    (hloads : loads raw = .ok (.obj fields)) : fields' = fields := by
  have hloads' := hbook.1
  rw [hloads] at hloads'
  simpa using hloads'.symm

lemma Stores.unique {fields' : List (String × PersistedValue)} {tokenId tokenId' : TokenKey}
    (h : Stores py loads raw fields tokenId) (h' : Stores py loads raw fields' tokenId') :
    fields' = fields ∧ tokenId' = tokenId := by
  obtain rfl := h'.hasBook.unique h.hasBook.1
  have hkey := h'.key
  rw [h.key] at hkey
  exact ⟨rfl, (Except.ok.inj hkey).symm⟩

variable (py) in
/-- A JSON object with a token id is read to a book, to nothing, or raises. -/
lemma readBook_cases (hloads : loads raw = .ok (.obj fields))
    (htruthy : (tokenIdOf fields).truthy = true) (received : ℕ) :
    (∃ tokenId, Stores py loads raw fields tokenId ∧
        readBook py received (.obj fields) = .ok (some (bookOf py received fields tokenId))) ∨
      (Digestible py loads raw ∧ (∀ fields, ¬ HasBook py loads raw fields) ∧
        readBook py received (.obj fields) = .ok none) ∨
      (¬ Digestible py loads raw ∧ ∃ e, readBook py received (.obj fields) = .error e) := by
  rw [Digestible, hloads]
  by_cases hlegible : LegibleSide py fields "bids" ∧ LegibleSide py fields "asks"
  · have hread := readBook_of_legible htruthy received hlegible.1 hlegible.2
    by_cases hlevels : validLevels py fields "bids" = [] ∧ validLevels py fields "asks" = []
    · refine Or.inr (Or.inl ⟨Or.inr ⟨hlegible.1, hlegible.2, Or.inl hlevels⟩, ?_, ?_⟩)
      · intro fields' hbook
        obtain rfl := hbook.unique hloads
        exact not_and_or.mpr hbook.2.2 hlevels
      · rw [hread, if_pos hlevels]
    · rw [if_neg hlevels] at hread
      cases hkey : tokenKey (tokenIdOf fields) with
      | ok tokenId =>
        have hbook : HasBook py loads raw fields := ⟨hloads, htruthy, not_and_or.mp hlevels⟩
        refine Or.inl ⟨tokenId, ⟨hbook, hlegible.1, hlegible.2, hkey⟩, ?_⟩
        rw [hread, hkey]
        rfl
      | error e =>
        refine Or.inr (Or.inr ⟨?_, e, by rw [hread, hkey]; rfl⟩)
        rintro (hfalse | ⟨-, -, hnone | hkey'⟩)
        · exact absurd htruthy (by simp [hfalse])
        · exact hlevels hnone
        · rw [hkey] at hkey'
          exact absurd hkey' (by simp [Except.isOk, Except.toBool])
  · refine Or.inr (Or.inr ⟨?_, readBook_of_not_legible htruthy received hlegible⟩)
    rintro (hfalse | ⟨hbids, hasks, -⟩)
    · exact absurd htruthy (by simp [hfalse])
    · exact hlegible ⟨hbids, hasks⟩

lemma Stores.digestible {tokenId : TokenKey} (h : Stores py loads raw fields tokenId) :
    Digestible py loads raw := by
  rw [Digestible, h.hasBook.1]
  exact Or.inr ⟨h.bids, h.asks, Or.inr (by rw [h.key]; rfl)⟩

section Loaded

variable {data : PersistedValue} (hloads : loads raw = .ok data)

include hloads

lemma handleMessage_of_book {snapshot : OrderBookSnapshot}
    (hread : readBook py (ws.messagesReceived + 1) data = .ok (some snapshot)) :
    ws.handleMessage py loads raw = (.ok (), ws.received.store snapshot) := by
  simp [handleMessage, hloads, hread, received]

lemma handleMessage_of_none (hread : readBook py (ws.messagesReceived + 1) data = .ok none) :
    ws.handleMessage py loads raw = (.ok (), ws.received) := by
  simp [handleMessage, hloads, hread, received]

lemma handleMessage_of_error {e : ReadError}
    (hread : readBook py (ws.messagesReceived + 1) data = .error e) :
    ws.handleMessage py loads raw = (.error e, ws.received) := by
  simp [handleMessage, hloads, hread, received]

end Loaded

/-- What becomes of a message: its book is stored, it is left aside, or its handling raises. -/
lemma handleMessage_cases (py : PyConversions) (loads : String → Except PyError PersistedValue)
    (raw : String) (ws : WebSocketClient) :
    (∃ fields tokenId, Stores py loads raw fields tokenId ∧ ws.handleMessage py loads raw =
        (.ok (), ws.received.store (bookOf py (ws.messagesReceived + 1) fields tokenId))) ∨
      (Digestible py loads raw ∧ (∀ fields, ¬ HasBook py loads raw fields) ∧
        ws.handleMessage py loads raw = (.ok (), ws.received)) ∨
      (¬ Digestible py loads raw ∧ ∃ e, ws.handleMessage py loads raw = (.error e, ws.received)) := by
  cases hloads : loads raw with
  | error e =>
    by_cases he : e = .jsonDecodeError
    · subst he
      refine Or.inr (Or.inl ⟨by rw [Digestible, hloads], ?_, ?_⟩)
      · rintro fields ⟨hloads', -⟩
        simp [hloads] at hloads'
      · simp [handleMessage, hloads, received]
    · refine Or.inr (Or.inr ⟨by rwa [Digestible, hloads], .raised e, ?_⟩)
      cases e <;> simp_all [handleMessage, received]
  | ok data =>
    cases data with
    | obj fields =>
      by_cases htruthy : (tokenIdOf fields).truthy = true
      · rcases readBook_cases py hloads htruthy (ws.messagesReceived + 1) with
          ⟨tokenId, hstores, hread⟩ | ⟨hdigestible, hnone, hread⟩ | ⟨hnot, e, hread⟩
        · exact Or.inl ⟨fields, tokenId, hstores, handleMessage_of_book hloads hread⟩
        · exact Or.inr (Or.inl ⟨hdigestible, hnone, handleMessage_of_none hloads hread⟩)
        · exact Or.inr (Or.inr ⟨hnot, e, handleMessage_of_error hloads hread⟩)
      · refine Or.inr (Or.inl ⟨?_, ?_, ?_⟩)
        · rw [Digestible, hloads]
          exact Or.inl (by simpa using htruthy)
        · intro fields' hbook
          obtain rfl := hbook.unique hloads
          exact htruthy hbook.2.1
        · apply handleMessage_of_none hloads
          rw [readBook_obj, if_neg htruthy]
          rfl
    | _ =>
      refine Or.inr (Or.inr ⟨by rw [Digestible, hloads]; exact id, .attributeError, ?_⟩)
      exact handleMessage_of_error hloads rfl

lemma Stores.handleMessage {tokenId : TokenKey} (h : Stores py loads raw fields tokenId)
    (ws : WebSocketClient) :
    ws.handleMessage py loads raw =
      (.ok (), ws.received.store (bookOf py (ws.messagesReceived + 1) fields tokenId)) := by
  rcases handleMessage_cases py loads raw ws with
    ⟨fields', tokenId', hstores, hhandle⟩ | ⟨-, hnone, -⟩ | ⟨hnot, -⟩
  · obtain ⟨rfl, rfl⟩ := h.unique hstores
    exact hhandle
  · exact absurd h.hasBook (hnone fields)
  · exact absurd h.digestible hnot

/-- `json.loads` of a text that is the given value. -/
def loadsAs (data : PersistedValue) : String → Except PyError PersistedValue := fun _ => .ok data

/-- An empty array is JSON, and it has no `get`. -/
theorem not_handlesWell_array : ¬ HandlesWell .noTexts (loadsAs (.arr [])) "[]" {} := by
  intro hwell
  have hraises : (({} : WebSocketClient).handleMessage .noTexts (loadsAs (.arr [])) "[]").1 =
      .error .attributeError := rfl
  have hreturns := hwell.returns
  rw [hraises] at hreturns
  exact absurd hreturns (by simp)

variable (py loads) in
/-- A message is handled well exactly when it is digestible. -/
theorem handlesWell_iff (raw : String) (ws : WebSocketClient) :
    HandlesWell py loads raw ws ↔ Digestible py loads raw := by
  rcases handleMessage_cases py loads raw ws with
    ⟨fields, tokenId, hstores, hhandle⟩ | ⟨hdigestible, hnone, hhandle⟩ | ⟨hnot, e, hhandle⟩
  · apply iff_of_true
    · refine ⟨by rw [hhandle], fun hno => absurd hstores.hasBook (hno fields), ?_⟩
      intro fields' hbook
      obtain rfl := hbook.unique hstores.hasBook.1
      exact ⟨_, by rw [hhandle]; rfl, hstores.key, sortLevels_perm _, sortLevels_perm _⟩
    · exact hstores.digestible
  · refine iff_of_true ⟨by rw [hhandle], fun _ => by rw [hhandle]; rfl, ?_⟩ hdigestible
    exact fun fields hbook => absurd hbook (hnone fields)
  · refine iff_of_false (fun hwell => ?_) hnot
    have hreturns := hwell.returns
    rw [hhandle] at hreturns
    exact absurd hreturns (by simp)

/-! ### A message with one ask -/

def oneAsk : List (String × PersistedValue) :=
  [("asset_id", .str "TK"),
    ("asks", .arr [.obj [("price", .float (.finite (3 / 5))), ("size", .float (.finite 10))]])]

def oneAskText : String :=
  "\x7b\"asset_id\": \"TK\", \"asks\": [\x7b\"price\": 0.6, \"size\": 10.0\x7d]\x7d"

lemma legible_floats (price size : PyFloat) :
    Legible .noTexts (.obj [("price", .float price), ("size", .float size)]) :=
  ⟨rfl, fun _ => rfl⟩

lemma oneAsk_stores :
    Stores .noTexts (loadsAs (.obj oneAsk)) oneAskText oneAsk (.str "TK") where
  hasBook := ⟨rfl, rfl, Or.inr (by decide +kernel)⟩
  bids := Or.inl rfl
  asks := Or.inr ⟨_, rfl, by simpa using legible_floats _ _⟩
  key := rfl

end PolyCortex.WebSocketClient
