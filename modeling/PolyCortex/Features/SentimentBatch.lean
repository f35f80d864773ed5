import PolyCortex.Features.Sentiment

/-!
# Batches of sentiments

What a batch is to do: return one result for each market, in its range, and save results of items alone.
The text of a language model may hold values that neither the extraction nor the reading of the items
expects: then the batch is left half done, or a result is saved that is no reading of its item. When
neither comes about is a matter of the rows of the cache and of the text (`batch_contract_iff`).
-/

namespace PolyCortex.Sentiment

variable (lib : Library)

/-! ### What a batch is to do -/

/-- A score from -1 to 1, and a confidence from 0 to 1. -/
def SentimentResult.InRange (result : SentimentResult) : Prop :=
  (∃ score, result.score = .finite score ∧ -1 ≤ score ∧ score ≤ 1) ∧
    ∃ confidence, result.confidence = .finite confidence ∧ 0 ≤ confidence ∧ confidence ≤ 1

/-- The market has a row whose timestamp is recent. -/
def isFresh (a : Analyzer) (q : Query) : Bool :=
  match a.cache q.marketId with
  | some { timestamp := .real timestamp, .. } => !decide (expired a.cacheTtl q.now timestamp)
  | _ => false

/-- The markets that the model is asked about. -/
def uncachedOf (a : Analyzer) (queries : List Query) : List Query := queries.filter fun q => !isFresh a q

/-- The array of a text. -/
def arrayOf (text : String) : Option (List PersistedValue) :=
  match lib.loads text with
  | .ok (.arr items) => some items
  | _ => none

/-- The first text that is an array. -/
def firstArray (texts : List String) : Option (List PersistedValue) := texts.findSome? (arrayOf lib)

/-- The text that the model answers with, if it is asked. -/
def answerText (a : Analyzer) (queries : List Query) : Option String :=
  if uncachedOf a queries = [] then none
  else (usableKey a).bind fun apiKey => a.llm apiKey (prompt (uncachedOf a queries))

/-- The markets that the model is asked about, each with its own item of the answer. -/
def answered (a : Analyzer) (queries : List Query) : List (Query × PersistedValue) :=
  match (answerText a queries).bind fun text => firstArray lib (candidates text) with
  | some items => (uncachedOf a queries).zip items
  | none => []

/-- One result in its range is returned for each market, and what is saved, one after the other, is what
the items say. -/
structure Contract (a : Analyzer) (queries : List Query)
    (ended : Except ReadError (Dict String SentimentResult) × Saves) : Prop where
  returns : ∃ results, ended.1 = .ok results ∧
    (∀ marketId, (results.get? marketId).isSome = true ↔ ∃ q ∈ queries, q.marketId = marketId) ∧
    ∀ marketId result, results.get? marketId = some result → result.InRange
  saves : ∀ (k : ℕ) marketId result, ended.2[k]? = some (marketId, result) →
    ∃ (q : Query) (item : PersistedValue), (answered lib a queries)[k]? = some (q, item) ∧
      q.marketId = marketId ∧ parseItem lib item = .ok result

/-! ### When it does -/

/-- The row of a market has a timestamp, and if that is recent two numbers. -/
def Readable (a : Analyzer) (q : Query) : Prop :=
  ∀ row, a.cache q.marketId = some row → ∃ timestamp, row.timestamp = .real timestamp ∧
    (¬ expired a.cacheTtl q.now timestamp →
      (floatOfCell lib row.score).isOk = true ∧ (floatOfCell lib row.confidence).isOk = true)

/-- The numbers in the row of a market are in their ranges. -/
def RowInRange (a : Analyzer) (q : Query) : Prop :=
  ∀ row result, a.cache q.marketId = some row → readRow lib row = .ok result → result.InRange

/-- The texts up to the first array fail to decode in no way that is not caught. -/
def Decodes : List String → Prop
  | [] => True
  | text :: texts =>
    match lib.loads text with
    | .ok (.arr _) => True
    | .ok _ => Decodes texts
    | .error e => e = .jsonDecodeError ∧ Decodes texts

/-- An item is an object with two numbers, none of them too large for a float. -/
def Parses : PersistedValue → Prop
  | .obj fields =>
    (((fields.lookup "score").getD (.int 0)).toFloat lib.toPyConversions).isOk = true ∧
      (((fields.lookup "confidence").getD (.int 0)).toFloat lib.toPyConversions).isOk = true
  | _ => False

/-- The rows can be read; those that answer for their markets alone are in range; and the text, if there
is one, decodes to no array, to one of another length, or to one of items that parse. -/
structure Answerable (a : Analyzer) (queries : List Query) : Prop where
  rows : ∀ q ∈ queries, Readable lib a q
  ranges : ∀ q ∈ queries, isFresh a q = true →
    (∃ other ∈ queries, other.marketId = q.marketId ∧ isFresh a other = false) ∨ RowInRange lib a q
  decodes : ∀ text, answerText a queries = some text → Decodes lib (candidates text)
  parses : ∀ text items, answerText a queries = some text → firstArray lib (candidates text) = some items →
    items.length = (uncachedOf a queries).length → ∀ item ∈ items, Parses lib item

variable {lib} {a : Analyzer} {q : Query} {queries : List Query} {result : SentimentResult}

/-! ### The cache -/

lemma readRow_isOk {row : CacheRow} : (readRow lib row).isOk = true ↔
    (floatOfCell lib row.score).isOk = true ∧ (floatOfCell lib row.confidence).isOk = true := by
  rw [readRow, isOk_bind_const]
  intro score
  rw [isOk_bind_const (P := True), and_true]
  intro confidence
  simp

/-- A market that is not fresh has no cached result, if its row can be read. -/
lemma getCached_of_not_fresh (hreadable : Readable lib a q) (h : isFresh a q = false) :
    getCached lib a q = .ok none := by
  rw [getCached]
  cases hrow : a.cache q.marketId with
  | none => rfl
  | some row =>
    obtain ⟨timestamp, htimestamp, -⟩ := hreadable row hrow
    have hexpired : expired a.cacheTtl q.now timestamp := by
      obtain ⟨timestamp', score, confidence, reasoning⟩ := row
      obtain rfl : timestamp' = .real timestamp := htimestamp
      simpa [isFresh, hrow] using h
    simp [htimestamp, hexpired]

variable (lib) in
/-- A fresh market is answered by its row. -/
lemma getCached_of_fresh (h : isFresh a q = true) :
    ∃ row, a.cache q.marketId = some row ∧ getCached lib a q = (readRow lib row).map some ∧
      (Readable lib a q → (readRow lib row).isOk = true) := by
  cases hrow : a.cache q.marketId with
  | none => simp [isFresh, hrow] at h
  | some row =>
    obtain ⟨cell, score, confidence, reasoning⟩ := row
    cases cell with
    | real timestamp =>
      have hexpired : ¬ expired a.cacheTtl q.now timestamp := by simpa [isFresh, hrow] using h
      refine ⟨_, rfl, by simp [getCached, hrow, hexpired], fun hreadable => ?_⟩
      obtain ⟨timestamp', htimestamp, hfloats⟩ := hreadable _ hrow
      obtain rfl : timestamp = timestamp' := SqlValue.real.inj htimestamp
      exact readRow_isOk.mpr (hfloats hexpired)
    | _ => simp [isFresh, hrow] at h

lemma getCached_isOk : (getCached lib a q).isOk = true ↔ Readable lib a q := by
  rw [getCached, Readable]
  cases a.cache q.marketId with
  | none => simp [isOk_iff]
  | some row =>
    cases htimestamp : row.timestamp with
    | real timestamp =>
      by_cases hexpired : expired a.cacheTtl q.now timestamp
      · simp [htimestamp, hexpired, isOk_iff]
      · have hmap : ((readRow lib row).map some).isOk = (readRow lib row).isOk := by
          cases readRow lib row <;> rfl
        simp [htimestamp, hexpired, hmap, readRow_isOk]
    | _ => simp [htimestamp, isOk_iff]

/-- What the loop over the cache leaves: the results of the fresh markets, and the other markets. -/
structure Looked (lib : Library) (a : Analyzer) (queries : List Query)
    (before after : Dict String SentimentResult) : Prop where
  fresh : ∀ q ∈ queries, isFresh a q = true →
    ∃ row result, a.cache q.marketId = some row ∧ readRow lib row = .ok result ∧
      after.get? q.marketId = some result
  other : ∀ marketId, (∀ q ∈ queries, q.marketId = marketId → isFresh a q = false) →
    after.get? marketId = before.get? marketId

lemma checkCache_isOk (results : Dict String SentimentResult) :
    (checkCache lib a queries results).isOk = true ↔ ∀ q ∈ queries, Readable lib a q := by
  induction queries generalizing results with
  | nil => simp [checkCache, isOk_iff]
  | cons q queries ih =>
    rw [checkCache, isOk_bind_const, getCached_isOk, List.forall_mem_cons]
    intro cached
    cases cached with
    | some cached => exact ih _
    | none =>
      dsimp only
      rw [isOk_bind_const (P := True), and_true, ih]
      intro looked
      simp

/-- Looking a fresh market up first: a later one of the same id has the same row. -/
lemma Looked.cons_fresh {row : CacheRow} {results results' : Dict String SentimentResult}
    (hfresh : isFresh a q = true) (hrow : a.cache q.marketId = some row)
    (hread : readRow lib row = .ok result)
    (h : Looked lib a queries (results.set q.marketId result) results') :
    Looked lib a (q :: queries) results results' := by
  constructor
  case fresh =>
    intro p hp hpfresh
    rcases List.mem_cons.mp hp with rfl | hmem
    · refine ⟨row, result, hrow, hread, ?_⟩
      by_cases hlater : ∃ later ∈ queries, later.marketId = p.marketId ∧ isFresh a later = true
      · obtain ⟨later, hlater, hid, hlfresh⟩ := hlater
        obtain ⟨row', result', hrow', hread', hget⟩ := h.fresh later hlater hlfresh
        rw [hid, hrow] at hrow'
        obtain rfl := Option.some.inj hrow'
        rw [hread] at hread'
        obtain rfl := Except.ok.inj hread'
        rw [← hid, hget]
      · push Not at hlater
        rw [h.other p.marketId fun later hmem hid => by simpa using hlater later hmem hid,
          Dict.get?_set_self]
    · exact h.fresh p hmem hpfresh
  case other =>
    intro marketId hnone
    have hne : marketId ≠ q.marketId := by
      rintro rfl
      rw [hnone q List.mem_cons_self rfl] at hfresh
      cases hfresh
    rw [h.other marketId fun p hp => hnone p (List.mem_cons_of_mem _ hp), Dict.get?_set_of_ne _ hne]

lemma Looked.cons_other {results results' : Dict String SentimentResult} (hfresh : isFresh a q = false)
    (h : Looked lib a queries results results') : Looked lib a (q :: queries) results results' := by
  constructor
  case fresh =>
    intro p hp hpfresh
    rcases List.mem_cons.mp hp with rfl | hmem
    · rw [hfresh] at hpfresh
      cases hpfresh
    · exact h.fresh p hmem hpfresh
  case other =>
    exact fun marketId hnone => h.other marketId fun p hp => hnone p (List.mem_cons_of_mem _ hp)

lemma checkCache_eq_ok (results : Dict String SentimentResult)
    (hreadable : ∀ q ∈ queries, Readable lib a q) :
    ∃ results', checkCache lib a queries results = .ok (results', uncachedOf a queries) ∧
      Looked lib a queries results results' := by
  induction queries generalizing results with
  | nil => exact ⟨results, rfl, by simp, fun _ _ => rfl⟩
  | cons q queries ih =>
    rw [List.forall_mem_cons] at hreadable
    rw [checkCache, uncachedOf, List.filter_cons]
    cases hfresh : isFresh a q with
    | true =>
      obtain ⟨row, hrow, hcached, hok⟩ := getCached_of_fresh lib hfresh
      obtain ⟨result, hread⟩ := isOk_iff.mp (hok hreadable.1)
      obtain ⟨results', hloop, hlooked⟩ := ih (results.set q.marketId result) hreadable.2
      refine ⟨results', ?_, hlooked.cons_fresh hfresh hrow hread⟩
      rw [hcached, hread]
      exact hloop
    | false =>
      obtain ⟨results', hloop, hlooked⟩ := ih results hreadable.2
      refine ⟨results', ?_, hlooked.cons_other hfresh⟩
      rw [getCached_of_not_fresh hreadable.1 hfresh]
      simp [hloop, bind, Except.bind, pure, Except.pure, uncachedOf]

/-! ### The answer -/

lemma firstDecoded_isOk {texts : List String} :
    (firstDecoded lib texts).isOk = true ↔ Decodes lib texts := by
  induction texts with
  | nil => simp [firstDecoded, Decodes, isOk_iff]
  | cons text texts ih =>
    rw [firstDecoded, Decodes, decodeArray]
    cases lib.loads text with
    | ok value =>
      cases value with
      | arr items => simp [bind, Except.bind]
      | _ => exact ih
    | error e =>
      by_cases hcaught : e = .jsonDecodeError
      · simpa [hcaught, bind, Except.bind] using ih
      · simp [hcaught, bind, Except.bind, isOk_iff]

lemma eq_firstArray {texts : List String} {answer : Option (List PersistedValue)}
    (h : firstDecoded lib texts = .ok answer) : answer = firstArray lib texts := by
  induction texts with
  | nil => exact (Except.ok.inj h).symm
  | cons text texts ih =>
    rw [firstDecoded, decodeArray] at h
    rw [firstArray, List.findSome?_cons, arrayOf]
    cases hloads : lib.loads text with
    | ok value =>
      rw [hloads] at h
      cases value with
      | arr items => exact (Except.ok.inj h).symm
      | _ => exact ih h
    | error e =>
      rw [hloads] at h
      by_cases hcaught : e = .jsonDecodeError
      · exact ih (by simpa [hcaught, bind, Except.bind] using h)
      · simp [hcaught, bind, Except.bind] at h

/-! ### Items -/

lemma parseItem_isOk {item : PersistedValue} :
    (parseItem lib item).isOk = true ↔ Parses lib item := by
  cases item with
  | obj fields =>
    rw [parseItem, Parses, isOk_bind_const (P := (((fields.lookup "confidence").getD (.int 0)).toFloat
      lib.toPyConversions).isOk = true)]
    · exact and_congr_left fun _ => iff_of_eq (congrArg (· = true) isOk_mapError)
    intro score
    rw [isOk_bind_const (P := True), and_true]
    · exact iff_of_eq (congrArg (· = true) isOk_mapError)
    intro confidence
    simp [isOk_iff]
  | _ => simp [parseItem, Parses, floatAt, PersistedValue.get, bind, Except.bind, isOk_iff]

/-- What an item says is in range, whatever the numbers of the text are. -/
lemma inRange_of_parseItem {item : PersistedValue} (h : parseItem lib item = .ok result) :
    result.InRange := by
  rw [parseItem] at h
  cases hscore : floatAt lib.toPyConversions item "score" with
  | error e => simp [hscore, bind, Except.bind] at h
  | ok score =>
    cases hconfidence : floatAt lib.toPyConversions item "confidence" with
    | error e => simp [hscore, hconfidence, bind, Except.bind] at h
    | ok confidence =>
      cases hreasoning : item.get "reasoning" (.str "") with
      | error e => simp [hscore, hconfidence, hreasoning, bind, Except.bind] at h
      | ok reasoning =>
        rw [hscore, hconfidence, hreasoning] at h
        obtain rfl := Except.ok.inj h
        obtain ⟨s, hs1, hs2, hs⟩ := PyFloat.clamp_eq_of_high (-1) 1 (by norm_num) score
        obtain ⟨c, hc1, hc2, hc⟩ := PyFloat.clamp_eq_of_high 0 1 (by norm_num) confidence
        exact ⟨⟨s, hs, hs1, hs2⟩, c, hc, hc1, hc2⟩

lemma inRange_errorResult : errorResult.InRange :=
  ⟨⟨0, rfl, by norm_num, by norm_num⟩, 0, rfl, by norm_num, by norm_num⟩

lemma inRange_neutralResult : neutralResult.InRange :=
  ⟨⟨0, rfl, by norm_num, by norm_num⟩, 0, rfl, by norm_num, by norm_num⟩

lemma readItem_of_parseItem {item : PersistedValue} (h : parseItem lib item = .ok result) :
    readItem lib item = .ok result := by
  rw [readItem, h]

/-- The results of the batch after the answer: all asked markets have one, and the others theirs. -/
structure Filled (asked : List Query) (before after : Dict String SentimentResult) : Prop where
  given : ∀ q ∈ asked, ∃ result, after.get? q.marketId = some result ∧ result.InRange
  other : ∀ marketId, (∀ q ∈ asked, q.marketId ≠ marketId) → after.get? marketId = before.get? marketId

lemma Filled.nil (results : Dict String SentimentResult) : Filled [] results results :=
  ⟨by simp, fun _ _ => rfl⟩

/-- One more market is set first. -/
lemma Filled.cons {results results' : Dict String SentimentResult} (hrange : result.InRange)
    (h : Filled queries (results.set q.marketId result) results') :
    Filled (q :: queries) results results' := by
  constructor
  case given =>
    intro p hp
    rcases List.mem_cons.mp hp with rfl | hmem
    · by_cases hlater : ∃ later ∈ queries, later.marketId = p.marketId
      · obtain ⟨later, hlater, hid⟩ := hlater
        exact hid ▸ h.given later hlater
      · push Not at hlater
        exact ⟨result, by rw [h.other _ hlater, Dict.get?_set_self], hrange⟩
    · exact h.given p hmem
  case other =>
    intro marketId hne
    have hq : marketId ≠ q.marketId := fun heq => hne q List.mem_cons_self heq.symm
    rw [h.other marketId fun p hp => hne p (List.mem_cons_of_mem _ hp), Dict.get?_set_of_ne _ hq]

lemma filled_setAll (hrange : result.InRange) (queries : List Query)
    (results : Dict String SentimentResult) : Filled queries results (setAll result queries results) := by
  induction queries generalizing results with
  | nil => exact Filled.nil results
  | cons q queries ih => exact (ih (results.set q.marketId result)).cons hrange

/-- Items that all parse give each market its result, and each of these is saved. -/
lemma mapBack_of_parses (pairs : List (Query × PersistedValue)) (results : Dict String SentimentResult)
    (h : ∀ pair ∈ pairs, Parses lib pair.2) :
    ∃ results', (mapBack lib pairs results).1 = .ok results' ∧ Filled (pairs.map Prod.fst) results results' ∧
      ∀ (k : ℕ) marketId result, (mapBack lib pairs results).2[k]? = some (marketId, result) →
        ∃ (q : Query) (item : PersistedValue), pairs[k]? = some (q, item) ∧ q.marketId = marketId ∧
          parseItem lib item = .ok result := by
  induction pairs generalizing results with
  | nil => exact ⟨results, rfl, Filled.nil results, by simp [mapBack]⟩
  | cons pair pairs ih =>
    obtain ⟨q, item⟩ := pair
    rw [List.forall_mem_cons] at h
    obtain ⟨result, hparse⟩ := isOk_iff.mp (parseItem_isOk.mpr h.1)
    obtain ⟨results', hended, hfilled, hsaves⟩ := ih (results.set q.marketId result) h.2
    have hstep : mapBack lib ((q, item) :: pairs) results =
        ((mapBack lib pairs (results.set q.marketId result)).1,
          (q.marketId, result) :: (mapBack lib pairs (results.set q.marketId result)).2) := by
      rw [mapBack, readItem_of_parseItem hparse]
    rw [hstep]
    refine ⟨results', hended, hfilled.cons (inRange_of_parseItem hparse), fun k marketId saved hk => ?_⟩
    cases k with
    | zero =>
      obtain ⟨rfl, rfl⟩ : q.marketId = marketId ∧ result = saved := by simpa using hk
      exact ⟨q, item, rfl, rfl, hparse⟩
    | succ k => exact hsaves k marketId saved hk

/-- A batch that gets through the items and has saved what they say has parsed all of them. -/
lemma parses_of_mapBack {pairs : List (Query × PersistedValue)}
    {results results' : Dict String SentimentResult}
    (hended : (mapBack lib pairs results).1 = .ok results')
    (hsaves : ∀ (k : ℕ) marketId result, (mapBack lib pairs results).2[k]? = some (marketId, result) →
      ∃ (q : Query) (item : PersistedValue), pairs[k]? = some (q, item) ∧ q.marketId = marketId ∧
        parseItem lib item = .ok result) :
    ∀ pair ∈ pairs, Parses lib pair.2 := by
  induction pairs generalizing results with
  | nil => simp
  | cons pair pairs ih =>
    obtain ⟨q, item⟩ := pair
    rw [List.forall_mem_cons]
    cases hread : readItem lib item with
    | error e =>
      rw [mapBack, hread] at hended
      cases hended
    | ok result =>
      have hstep : mapBack lib ((q, item) :: pairs) results =
          ((mapBack lib pairs (results.set q.marketId result)).1,
            (q.marketId, result) :: (mapBack lib pairs (results.set q.marketId result)).2) := by
        rw [mapBack, hread]
      rw [hstep] at hended hsaves
      obtain ⟨q', item', hpair, -, hparse⟩ := hsaves 0 q.marketId result rfl
      obtain ⟨rfl, rfl⟩ : q = q' ∧ item = item' := by simpa using hpair
      refine ⟨parseItem_isOk.mp (isOk_iff.mpr ⟨result, hparse⟩), ih hended fun k marketId saved hk => ?_⟩
      exact hsaves (k + 1) marketId saved hk

/-! ### Batches -/

lemma not_fresh_of_mem_uncached (h : q ∈ uncachedOf a queries) : q ∈ queries ∧ isFresh a q = false := by
  simpa [uncachedOf] using h

/-- Without an answer all asked markets get one and the same result, and nothing is saved. -/
lemma analyzeBatch_of_none {results : Dict String SentimentResult}
    (hcheck : checkCache lib a queries .empty = .ok (results, uncachedOf a queries))
    (htext : answerText a queries = none) :
    ∃ results', analyzeBatch lib a queries = (.ok results', []) ∧
      Filled (uncachedOf a queries) results results' := by
  rw [analyzeBatch, hcheck]
  dsimp only
  rw [answerText] at htext
  split_ifs at htext with hnone
  · rw [hnone]
    exact ⟨results, rfl, Filled.nil results⟩
  · rw [if_neg (by simpa using hnone)]
    cases hkey : usableKey a with
    | none => exact ⟨_, rfl, filled_setAll inRange_neutralResult _ _⟩
    | some apiKey =>
      rw [hkey, Option.bind_some] at htext
      refine ⟨setAll errorResult (uncachedOf a queries) results, ?_, filled_setAll inRange_errorResult _ _⟩
      simp [callApi, htext, useAnswer]

/-- With one, the batch goes on to read it. -/
lemma analyzeBatch_of_some {results : Dict String SentimentResult} {text : String}
    (hcheck : checkCache lib a queries .empty = .ok (results, uncachedOf a queries))
    (htext : answerText a queries = some text) :
    (∀ e, parseJsonResponse lib text = .error e → analyzeBatch lib a queries = (.error (.raised e), [])) ∧
      ∀ answer, parseJsonResponse lib text = .ok answer →
        analyzeBatch lib a queries = useAnswer lib (uncachedOf a queries) results answer := by
  rw [answerText] at htext
  split_ifs at htext with hnone
  obtain ⟨apiKey, hkey, hllm⟩ := Option.bind_eq_some_iff.mp htext
  have hasked : (uncachedOf a queries).isEmpty = false := by simpa using hnone
  constructor
  · intro e hparse
    simp [analyzeBatch, hcheck, hasked, hkey, callApi, hllm, hparse]
  · intro answer hparse
    simp [analyzeBatch, hcheck, hasked, hkey, callApi, hllm, hparse]

/-- A batch that can be answered: what it returns, and what it has saved. -/
lemma analyzeBatch_filled (hrows : ∀ q ∈ queries, Readable lib a q)
    (hdecodes : ∀ text, answerText a queries = some text → Decodes lib (candidates text))
    (hparses : ∀ text items, answerText a queries = some text →
      firstArray lib (candidates text) = some items → items.length = (uncachedOf a queries).length →
        ∀ item ∈ items, Parses lib item) :
    ∃ results results', Looked lib a queries .empty results ∧
      Filled (uncachedOf a queries) results results' ∧ (analyzeBatch lib a queries).1 = .ok results' ∧
      ∀ (k : ℕ) marketId result, (analyzeBatch lib a queries).2[k]? = some (marketId, result) →
        ∃ (q : Query) (item : PersistedValue), (answered lib a queries)[k]? = some (q, item) ∧
          q.marketId = marketId ∧ parseItem lib item = .ok result := by
  obtain ⟨results, hcheck, hlooked⟩ := checkCache_eq_ok .empty hrows
  cases htext : answerText a queries with
  | none =>
    obtain ⟨results', hended, hfilled⟩ := analyzeBatch_of_none hcheck htext
    exact ⟨results, results', hlooked, hfilled, by rw [hended], by simp [hended]⟩
  | some text =>
    obtain ⟨answer, hparse⟩ := isOk_iff.mp (firstDecoded_isOk.mpr (hdecodes text htext))
    obtain rfl := eq_firstArray hparse
    rw [(analyzeBatch_of_some hcheck htext).2 _ hparse]
    cases hitems : firstArray lib (candidates text) with
    | none =>
      exact ⟨results, _, hlooked, filled_setAll inRange_errorResult _ _, rfl, by simp [useAnswer]⟩
    | some items =>
      rw [useAnswer]
      split_ifs with hlength
      · exact ⟨results, _, hlooked, filled_setAll inRange_errorResult _ _, rfl, by simp⟩
      · have hlength' : items.length = (uncachedOf a queries).length := not_not.mp hlength
        have hpairs : ∀ pair ∈ (uncachedOf a queries).zip items, Parses lib pair.2 := fun pair hpair =>
          hparses text items htext hitems hlength' _ (List.of_mem_zip hpair).2
        obtain ⟨results', hended, hfilled, hsaves⟩ := mapBack_of_parses _ results hpairs
        rw [List.map_fst_zip hlength'.ge] at hfilled
        have hanswered : answered lib a queries = (uncachedOf a queries).zip items := by
          simp [answered, htext, hitems]
        rw [hanswered]
        exact ⟨results, results', hlooked, hfilled, hended, hsaves⟩

/-! ### The contract -/

/-- A market that no other asks the model about keeps the result of its row. -/
lemma get?_of_fresh {results results' : Dict String SentimentResult}
    (hlooked : Looked lib a queries .empty results) (hfilled : Filled (uncachedOf a queries) results results')
    (hq : q ∈ queries) (hfresh : isFresh a q = true)
    (halone : ∀ other ∈ queries, other.marketId = q.marketId → isFresh a other = true) :
    ∃ row result, a.cache q.marketId = some row ∧ readRow lib row = .ok result ∧
      results'.get? q.marketId = some result := by
  obtain ⟨row, result, hrow, hread, hget⟩ := hlooked.fresh q hq hfresh
  refine ⟨row, result, hrow, hread, ?_⟩
  rw [hfilled.other, hget]
  intro other hother heq
  obtain ⟨hmem, hnot⟩ := not_fresh_of_mem_uncached hother
  rw [halone other hmem heq] at hnot
  cases hnot

lemma Answerable.contract (h : Answerable lib a queries) :
    Contract lib a queries (analyzeBatch lib a queries) := by
  obtain ⟨results, results', hlooked, hfilled, hended, hsaves⟩ :=
    analyzeBatch_filled h.rows h.decodes h.parses
  -- a market that is asked about has its result from the answer, a fresh one from its row
  have hresult : ∀ q ∈ queries, ∃ result, results'.get? q.marketId = some result ∧ result.InRange := by
    intro q hq
    by_cases halone : ∀ other ∈ queries, other.marketId = q.marketId → isFresh a other = true
    · obtain ⟨row, result, hrow, hread, hget⟩ :=
        get?_of_fresh hlooked hfilled hq (halone q hq rfl) halone
      refine ⟨result, hget, ?_⟩
      rcases h.ranges q hq (halone q hq rfl) with ⟨other, hother, heq, hnot⟩ | hrange
      · rw [halone other hother heq] at hnot
        cases hnot
      · exact hrange row result hrow hread
    · push Not at halone
      obtain ⟨other, hother, heq, hnot⟩ := halone
      exact heq ▸ hfilled.given other (by simp [uncachedOf, hother, hnot])
  refine ⟨⟨results', hended, fun marketId => ⟨fun hsome => ?_, ?_⟩, fun marketId result hget => ?_⟩, hsaves⟩
  · by_contra hnone
    push Not at hnone
    rw [hfilled.other marketId fun q hq => hnone q (not_fresh_of_mem_uncached hq).1,
      hlooked.other marketId fun q hq heq => absurd heq (hnone q hq)] at hsome
    simp at hsome
  · rintro ⟨q, hq, rfl⟩
    obtain ⟨result, hget, -⟩ := hresult q hq
    simp [hget]
  · by_cases hmarket : ∃ q ∈ queries, q.marketId = marketId
    · obtain ⟨q, hq, rfl⟩ := hmarket
      obtain ⟨result', hget', hrange⟩ := hresult q hq
      rw [hget] at hget'
      exact Option.some.inj hget' ▸ hrange
    · push Not at hmarket
      rw [hfilled.other marketId fun q hq => hmarket q (not_fresh_of_mem_uncached hq).1,
        hlooked.other marketId fun q hq heq => absurd heq (hmarket q hq)] at hget
      simp at hget

lemma Contract.answerable (h : Contract lib a queries (analyzeBatch lib a queries)) :
    Answerable lib a queries := by
  obtain ⟨⟨final, hreturned, -, hrange⟩, hsaves⟩ := h
  have hrows : ∀ q ∈ queries, Readable lib a q := by
    rw [← checkCache_isOk .empty]
    cases hcheck : checkCache lib a queries .empty with
    | error e => simp [analyzeBatch, hcheck] at hreturned
    | ok looked => rfl
  obtain ⟨results, hcheck, -⟩ := checkCache_eq_ok .empty hrows
  have hdecodes : ∀ text, answerText a queries = some text → Decodes lib (candidates text) := by
    intro text htext
    rw [← firstDecoded_isOk]
    cases hparse : parseJsonResponse lib text with
    | error e =>
      rw [(analyzeBatch_of_some hcheck htext).1 e hparse] at hreturned
      cases hreturned
    | ok answer => exact isOk_iff.mpr ⟨answer, hparse⟩
  have hparses : ∀ text items, answerText a queries = some text →
      firstArray lib (candidates text) = some items → items.length = (uncachedOf a queries).length →
        ∀ item ∈ items, Parses lib item := by
    intro text items htext hitems hlength
    obtain ⟨answer, hparse⟩ := isOk_iff.mp (firstDecoded_isOk.mpr (hdecodes text htext))
    obtain rfl := eq_firstArray hparse
    have hbatch := (analyzeBatch_of_some hcheck htext).2 _ hparse
    rw [hitems, useAnswer, if_neg (not_not.mpr hlength)] at hbatch
    have hanswered : answered lib a queries = (uncachedOf a queries).zip items := by
      simp [answered, htext, hitems]
    rw [hbatch] at hreturned hsaves
    rw [hanswered] at hsaves
    intro item hitem
    rw [← List.map_snd_zip hlength.le] at hitem
    obtain ⟨pair, hpair, rfl⟩ := List.mem_map.mp hitem
    exact parses_of_mapBack hreturned hsaves pair hpair
  refine ⟨hrows, fun q hq hfresh => ?_, hdecodes, hparses⟩
  by_cases halone : ∀ other ∈ queries, other.marketId = q.marketId → isFresh a other = true
  · obtain ⟨results, results', hlooked, hfilled, hended, -⟩ := analyzeBatch_filled hrows hdecodes hparses
    obtain ⟨row, result, hrow, hread, hget⟩ := get?_of_fresh hlooked hfilled hq hfresh halone
    rw [hended] at hreturned
    obtain rfl := Except.ok.inj hreturned
    refine Or.inr fun row' result' hrow' hread' => ?_
    obtain rfl := Option.some.inj (hrow.symm.trans hrow')
    obtain rfl := Except.ok.inj (hread.symm.trans hread')
    exact hrange q.marketId result hget
  · push Not at halone
    obtain ⟨other, hother, heq, hnot⟩ := halone
    exact Or.inl ⟨other, hother, heq, by simpa using hnot⟩

/-- The texts of an answer to two markets, of which the second item is a number. -/
def twoAnswers : Library where
  toPyConversions := .noTexts
  loads text :=
    if text = "[{}, 1]" then .ok (.arr [.obj [], .int 1]) else .error .jsonDecodeError
  floatOfBytes _ := none
  strOfCell _ := ""

/-- An empty cache, and a model that gives that answer. -/
def twoMarkets : Analyzer where
  cache _ := none
  apiKey := some "key"
  llm _ _ := some "[{}, 1]"

end PolyCortex.Sentiment
