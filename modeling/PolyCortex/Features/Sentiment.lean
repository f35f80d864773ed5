import PolyCortex.Data.Dict
import PolyCortex.Data.Levels
import PolyCortex.Numeric.PyFloat
import PolyCortex.Risk.KillSwitch

/-!
# Sentiment

`SentimentAnalyzer.analyze_batch`: markets whose cached result is recent are answered by it, the others
by one call of a language model, whose answer is a free text. An array is looked for in the text in three
ways; its items are read one by one, and each result is saved in the cache as it comes.

Texts are without lone surrogates, and the table of the cache is not followed once it has been read: what
is saved is a list.
-/

namespace PolyCortex.Sentiment

/-- What SQLite has in a cell. -/
inductive SqlValue where
  | null
  | real (x : PyFloat)
  | text (s : String)
  | blob (bytes : List UInt8)

/-- A row of the cache. -/
structure CacheRow where
  timestamp : SqlValue
  score : SqlValue
  confidence : SqlValue
  reasoning : SqlValue

structure SentimentResult where
  score : PyFloat
  confidence : PyFloat
  reasoning : String
  deriving DecidableEq

/-- The standard library: also `json.loads` of a text, `float` of bytes, and `str` of a cell. -/
structure Library extends PyConversions where
  loads : String → Except PyError PersistedValue
  floatOfBytes : List UInt8 → Option PyFloat
  strOfCell : SqlValue → String

/-- A market to be analyzed, with the clock reading when its cached result is looked up. -/
structure Query where
  marketId : String
  question : String
  description : String
  now : ℚ

/-- What the analyzer finds: the time to live of a result in seconds, the rows of its cache, the API key
and the language model, which takes the key and the prompt and gives `none` when it cannot be called. -/
structure Analyzer where
  cacheTtl : ℚ := 30 * 60
  cache : String → Option CacheRow
  apiKey : Option String
  llm : String → String → Option String

variable (lib : Library)

/-! ### The cache -/

/-- `float` of a cell. -/
def floatOfCell : SqlValue → Except PyError PyFloat
  | .null => .error .typeError
  | .real x => .ok x
  | .text s => (lib.float s).elim (.error .valueError) .ok
  | .blob bytes => (lib.floatOfBytes bytes).elim (.error .valueError) .ok

/-- The age of a timestamp exceeds the time to live. -/
def expired (ttl now : ℚ) (timestamp : PyFloat) : Prop := PyFloat.finite ttl < .finite now - timestamp

instance (ttl now : ℚ) (timestamp : PyFloat) : Decidable (expired ttl now timestamp) :=
  inferInstanceAs (Decidable (_ < _))

/-- The result in a row. -/
def readRow (row : CacheRow) : Except PyError SentimentResult := do
  let score ← floatOfCell lib row.score
  let confidence ← floatOfCell lib row.confidence
  pure { score, confidence, reasoning := lib.strOfCell row.reasoning }

/-- `_get_cached`. -/
def getCached (a : Analyzer) (q : Query) : Except PyError (Option SentimentResult) :=
  match a.cache q.marketId with
  | none => .ok none
  | some row =>
    match row.timestamp with
    | .real timestamp =>
      if expired a.cacheTtl q.now timestamp then .ok none else (readRow lib row).map some
    | _ => .error .typeError

/-- The loop over the markets that looks their cached results up. -/
def checkCache (a : Analyzer) :
    List Query → Dict String SentimentResult → Except PyError (Dict String SentimentResult × List Query)
  | [], results => .ok (results, [])
  | q :: queries, results => do
    match ← getCached lib a q with
    | some cached => checkCache a queries (results.set q.marketId cached)
    | none =>
      let (results, uncached) ← checkCache a queries results
      pure (results, q :: uncached)

/-! ### The answer -/

/-- Three backticks. -/
def ticks : List Char := "```".toList

/-- The text after the first occurrence of a part. -/
def afterFirst (part : List Char) : List Char → Option (List Char)
  | [] => none
  | c :: text =>
    if part <+: c :: text then some ((c :: text).drop part.length) else afterFirst part text

/-- The text before the first occurrence of a part. -/
def beforeFirst (part : List Char) : List Char → Option (List Char)
  | [] => none
  | c :: text => if part <+: c :: text then some [] else (beforeFirst part text).map (c :: ·)

/-- The text without the space at its end. -/
def trimEnd (text : List Char) : List Char := (text.reverse.dropWhile isSpace).reverse

/-- What is between the first fences, the group of the first pattern. -/
def fenced (text : List Char) : Option (List Char) :=
  (afterFirst ticks text).bind fun rest =>
    let body := if "json".toList <+: rest then rest.drop 4 else rest
    (beforeFirst ticks (body.dropWhile isSpace)).map trimEnd

/-- From the first opening bracket to the last closing one. -/
def bracketed (text : List Char) : Option (List Char) :=
  let opened := text.dropWhile (· ≠ '[')
  let closed := (opened.reverse.dropWhile (· ≠ ']')).reverse
  if closed = [] then none else some closed

/-- The texts that are tried one after the other. -/
def candidates (text : String) : List String :=
  text :: ((fenced text.toList).toList ++ (bracketed text.toList).toList).map String.ofList

/-- Decode a text: `none` when it is no JSON, or no array. -/
def decodeArray (text : String) : Except PyError (Option (List PersistedValue)) :=
  match lib.loads text with
  | .ok (.arr items) => .ok (some items)
  | .ok _ => .ok none
  | .error e => if e = .jsonDecodeError then .ok none else .error e

/-- The first candidate that is an array. -/
def firstDecoded : List String → Except PyError (Option (List PersistedValue))
  | [] => .ok none
  | text :: texts => do
    match ← decodeArray lib text with
    | some items => pure (some items)
    | none => firstDecoded texts

/-- `_parse_json_response`. -/
def parseJsonResponse (text : String) : Except PyError (Option (List PersistedValue)) :=
  firstDecoded lib (candidates text)

/-- The result of an item. -/
def parseItem (item : PersistedValue) : Except ReadError SentimentResult := do
  let score ← floatAt lib.toPyConversions item "score"
  let confidence ← floatAt lib.toPyConversions item "confidence"
  let reasoning ← item.get "reasoning" (.str "")
  pure
    { score := pyMax (.finite (-1)) (pyMin (.finite 1) score)
      confidence := pyMax (.finite 0) (pyMin (.finite 1) confidence)
      reasoning := reasoning.toStr lib.toPyConversions }

def errorResult : SentimentResult := ⟨.finite 0, .finite 0, "error"⟩

def neutralResult : SentimentResult := ⟨.finite 0, .finite 0, "no API key"⟩

/-- `except (TypeError, ValueError)` around the reading of an item. -/
def readItem (item : PersistedValue) : Except ReadError SentimentResult :=
  match parseItem lib item with
  | .ok result => .ok result
  | .error e => if e.skipped then .ok errorResult else .error e

/-- What has been saved, in the order of the statements. -/
abbrev Saves := List (String × SentimentResult)

/-- The loop that maps the items back to the markets, with what it saves. -/
def mapBack : List (Query × PersistedValue) → Dict String SentimentResult →
    Except ReadError (Dict String SentimentResult) × Saves
  | [], results => (.ok results, [])
  | (q, item) :: pairs, results =>
    match readItem lib item with
    | .error e => (.error e, [])
    | .ok result =>
      let (ended, saves) := mapBack pairs (results.set q.marketId result)
      (ended, (q.marketId, result) :: saves)

/-- The same result for all markets. -/
def setAll (result : SentimentResult) (queries : List Query) (results : Dict String SentimentResult) :
    Dict String SentimentResult :=
  queries.foldl (fun results q => results.set q.marketId result) results

/-- The line of a market in the prompt. -/
def promptLine (q : Query) (i : ℕ) : String := s!"{i + 1}. {q.question} — {q.description}"

/-- `SENTIMENT_PROMPT`, with the markets. -/
def prompt (queries : List Query) : String :=
  "You are analyzing prediction markets. For each market below, estimate the TRUE probability it resolves YES.\n" ++
  "Consider: recent news, historical base rates, expert consensus.\n" ++
  "Return ONLY a JSON array, one object per market, in order:\n" ++
  "[\x7b\"score\": float (-1 to +1), \"confidence\": float (0 to 1), \"reasoning\": \"one sentence\"\x7d]\n\n" ++
  "Markets:\n" ++ "\n".intercalate (queries.zipIdx.map fun line => promptLine line.1 line.2)

/-- `_call_api`. -/
def callApi (a : Analyzer) (apiKey prompt : String) : Except PyError (Option (List PersistedValue)) :=
  match a.llm apiKey prompt with
  | none => .ok none
  | some text => parseJsonResponse lib text

/-- What is done with the answer. -/
def useAnswer (uncached : List Query) (results : Dict String SentimentResult) :
    Option (List PersistedValue) → Except ReadError (Dict String SentimentResult) × Saves
  | none => (.ok (setAll errorResult uncached results), [])
  | some items =>
    if items.length ≠ uncached.length then (.ok (setAll errorResult uncached results), [])
    else mapBack lib (uncached.zip items) results

/-- The API key, unless it is empty. -/
def usableKey (a : Analyzer) : Option String := a.apiKey.filter (· ≠ "")

/-- `analyze_batch`: what it returns, and what it has saved. -/
def analyzeBatch (a : Analyzer) (queries : List Query) :
    Except ReadError (Dict String SentimentResult) × Saves :=
  match checkCache lib a queries .empty with
  | .error e => (.error (.raised e), [])
  | .ok (results, uncached) =>
    if uncached.isEmpty then (.ok results, [])
    else
      match usableKey a with
      | none => (.ok (setAll neutralResult uncached results), [])
      | some apiKey =>
        match callApi lib a apiKey (prompt uncached) with
        | .error e => (.error (.raised e), [])
        | .ok answer => useAnswer lib uncached results answer

end PolyCortex.Sentiment
