import PolyCortex.Data.MaskedFormat
import PolyCortex.Data.Sanitizing
import PolyCortex.Numeric.Rounding
import PolyCortex.Risk.KillSwitch

/-!
# The filter of the log

`SensitiveFilter` rewrites the message of a log record before its arguments are put into it. What it
removes may hold placeholders, whose arguments then are too many, and what it leaves may become a private
key once the arguments are there (`Harmless`).
-/

namespace PolyCortex

open PercentFormat Substitution MaskedFormat

/-! ### The patterns -/

/-- `[a-fA-F0-9]`. -/
def hexDigits : List Char := "abcdefABCDEF0123456789".toList

def isHexDigit (c : Char) : Bool := c ∈ hexDigits

/-- What is put in for a private key, after its `0x`. -/
def keyMask : List Char := "***REDACTED_KEY***".toList

/-- What is put in for a secret, after the word for it. -/
def secretMask : List Char := "=***REDACTED***".toList

/-- `0x[a-fA-F0-9]\x7b64\x7d`. -/
def keyAt : List Char → Option Match
  | '0' :: 'x' :: text =>
    if (text.take 64).length = 64 ∧ (text.take 64).all isHexDigit then
      some ⟨['0', 'x'], text.take 64, keyMask⟩
    else none
  | _ => none

/-- The words for a secret. -/
def secretWords : List (List Char) :=
  ["api_key", "api-key", "apikey", "secret", "passphrase", "password", "token"].map String.toList

/-- What follows the blanks, the sign and the blanks after a word for a secret. -/
def secretValue (text : List Char) : List Char := (text.dropWhile isSpace).tail.dropWhile isSpace

/-- `\s*[:=]\s*\S+`. -/
def valueAt (text : List Char) : Option (List Char) :=
  match text.dropWhile isSpace with
  | [] => none
  | sign :: rest =>
    if (sign = ':' ∨ sign = '=') ∧ (secretValue text).takeWhile (!isSpace ·) ≠ [] then
      some (text.takeWhile isSpace ++
        sign :: (rest.takeWhile isSpace ++ (secretValue text).takeWhile (!isSpace ·)))
    else none

/-- The word for a secret, in any case, and its value. -/
def secretAt (text : List Char) : Option Match :=
  (secretWords.find? fun word => word <+: text.map ignoreCase).bind fun word =>
    (valueAt (text.drop word.length)).map fun removed =>
      ⟨text.take word.length, removed, secretMask⟩

/-- `_PATTERNS`. -/
def redactionPatterns : List (List Char → Option Match) := [keyAt, secretAt]

/-- What the filter makes of a text. -/
def redact (text : List Char) : List Char :=
  redactionPatterns.foldl (fun text find => sub find text) text

/-! ### Log records -/

/-- What is logged: a text, or something else with what `str` makes of it. -/
inductive LogMessage where
  | text (message : String)
  | object (printed : String)
  deriving DecidableEq, Repr

def LogMessage.str : LogMessage → String
  | .text message => message
  | .object printed => printed

/-- A record of the log. A mapping that is its only argument is its arguments, unless it is empty. -/
structure LogRecord (A : Type*) where
  msg : LogMessage
  args : Arguments A

variable {A : Type*}

/-- No arguments, with which a message is not formatted. -/
def noArguments : Arguments A → Bool
  | .positional [] => true
  | _ => false

namespace LogRecord

/-- `LogRecord.getMessage`, which the formatters of the log call. -/
def getMessage (r : Renderer A) (record : LogRecord A) : Option String :=
  if noArguments record.args then some record.msg.str
  else (format r record.msg.str.toList record.args).map String.ofList

end LogRecord

namespace SensitiveFilter

/-- `SensitiveFilter.filter`: the record as it is changed, and whether it is logged. -/
def filter (record : LogRecord A) : LogRecord A × Bool :=
  match record.msg with
  | .text message => ({ record with msg := .text (String.ofList (redact message.toList)) }, true)
  | .object _ => (record, true)

end SensitiveFilter

/-! ### Values that are logged -/

/-- An argument of a log call: an integer, a float with its exact value, or a text. -/
inductive LogValue where
  | int (n : ℤ)
  | float (q : ℚ)
  | text (text : String)
  deriving DecidableEq, Repr

/-- A number with a given number of decimals. -/
def fixedPoint (decimals : ℕ) (q : ℚ) : List Char :=
  let units := (Rounding.roundHalfEven (|q| * 10 ^ decimals)).natAbs
  let fraction := (toString (units % 10 ^ decimals)).toList
  (if q < 0 then ['-'] else []) ++ (toString (units / 10 ^ decimals)).toList ++
    '.' :: (List.replicate (decimals - fraction.length) '0' ++ fraction)

/-- The conversions of the log calls below: `%d`, `%s`, `%.2f` and `%.3f`. -/
def logRenderer : Renderer LogValue where
  star
    | .int n => some n
    | _ => none
  render spec conversion value :=
    match value, conversion with
    | .int n, 'd' => if spec.text = [] then some (toString n).toList else none
    | .text text, 's' => if spec.text = [] then some text.toList else none
    | .float q, 'f' =>
      if spec.text = ".2".toList then some (fixedPoint 2 q)
      else if spec.text = ".3".toList then some (fixedPoint 3 q)
      else none
    | _, _ => none

/-! ### What the patterns find -/

variable {text rest removed : List Char} {found : Match}

lemma keyAt_eq_some_iff : keyAt text = some found ↔
    ∃ digits rest, text = '0' :: 'x' :: (digits ++ rest) ∧ digits.length = 64 ∧
      digits.all isHexDigit ∧ found = ⟨['0', 'x'], digits, keyMask⟩ := by
  constructor
  · intro h
    unfold keyAt at h
    split at h
    · rename_i text
      obtain ⟨⟨hlength, hhex⟩, hfound⟩ := Option.ite_none_right_eq_some.mp h
      cases hfound
      exact ⟨text.take 64, text.drop 64, by rw [List.take_append_drop], hlength, hhex, rfl⟩
    · cases h
  · rintro ⟨digits, rest, rfl, hlength, hhex, rfl⟩
    have htake : (digits ++ rest).take 64 = digits := List.take_left' hlength
    simp only [keyAt, htake]
    rw [if_pos ⟨hlength, hhex⟩]

lemma sound_keyAt : Sound keyAt := by
  intro text found h
  obtain ⟨digits, rest, rfl, -, -, rfl⟩ := keyAt_eq_some_iff.mp h
  exact ⟨⟨rest, rfl⟩, List.cons_ne_nil _ _⟩

/-- What is left of a text after a sign and a value. -/
def afterValue (text : List Char) : List Char := (secretValue text).dropWhile (!isSpace ·)

lemma valueAt_eq_some (h : valueAt text = some removed) : text = removed ++ afterValue text := by
  unfold valueAt at h
  split at h
  · cases h
  · rename_i sign rest hrest
    obtain ⟨-, hremoved⟩ := Option.ite_none_right_eq_some.mp h
    cases hremoved
    have hvalue : secretValue text = rest.dropWhile isSpace := by rw [secretValue, hrest, List.tail_cons]
    calc text
      _ = text.takeWhile isSpace ++ sign :: rest := by
        rw [← hrest, List.takeWhile_append_dropWhile]
      _ = text.takeWhile isSpace ++ sign :: (rest.takeWhile isSpace ++ secretValue text) := by
        rw [hvalue, List.takeWhile_append_dropWhile]
      _ = _ := by
        conv_lhs => rw [← List.takeWhile_append_dropWhile (p := (!isSpace ·)) (l := secretValue text)]
        simp [afterValue]

/-- The value goes on to the next blank. -/
lemma head?_afterValue {c : Char} (h : (afterValue text).head? = some c) : isSpace c := by
  have hnot := List.head?_dropWhile_not (!isSpace ·) (secretValue text)
  rw [← afterValue, h] at hnot
  simpa using hnot

lemma secretAt_eq_some (h : secretAt text = some found) :
    ∃ word ∈ secretWords, word <+: text.map ignoreCase ∧
      ∃ removed, valueAt (text.drop word.length) = some removed ∧
        found = ⟨text.take word.length, removed, secretMask⟩ := by
  simp only [secretAt, Option.bind_eq_some_iff, Option.map_eq_some_iff] at h
  obtain ⟨word, hfind, removed, hremoved, rfl⟩ := h
  exact ⟨word, List.mem_of_find?_eq_some hfind, by simpa using List.find?_some hfind, removed, hremoved,
    rfl⟩

lemma sound_secretAt : Sound secretAt := by
  intro text found h
  obtain ⟨word, -, -, removed, hremoved, rfl⟩ := secretAt_eq_some h
  have hparts := valueAt_eq_some hremoved
  constructor
  · refine ⟨afterValue (text.drop word.length), ?_⟩
    rw [List.append_assoc, ← hparts, List.take_append_drop]
  · intro hnil
    obtain ⟨-, rfl⟩ := List.append_eq_nil_iff.mp hnil
    unfold valueAt at hremoved
    split at hremoved
    · cases hremoved
    · obtain ⟨-, habsurd⟩ := Option.ite_none_right_eq_some.mp hremoved
      simp at habsurd

/-! ### One pattern after the other -/

lemma keyAt_of_ne {c : Char} (h : c ≠ '0') : keyAt (c :: text) = none := by
  by_contra hfound
  obtain ⟨found, hfound⟩ := Option.ne_none_iff_exists'.mp hfound
  obtain ⟨digits, rest, htext, -⟩ := keyAt_eq_some_iff.mp hfound
  exact h (List.cons.inj htext).1

/-- Before a zero nothing is masked. -/
lemma sub_keyAt_append (h : '0' ∉ text) : sub keyAt (text ++ rest) = text ++ sub keyAt rest := by
  refine sub_append fun suffix hsuffix hne => ?_
  cases suffix with
  | nil => exact absurd rfl hne
  | cons c suffix => exact keyAt_of_ne fun hc => h (hc ▸ hsuffix.subset List.mem_cons_self)

lemma head?_sub_keyAt (text : List Char) : (sub keyAt text).head? = text.head? := by
  cases text with
  | nil => rfl
  | cons c text =>
    cases h : keyAt (c :: text) with
    | none => rw [sub_of_none h, List.head?_cons, List.head?_cons]
    | some found =>
      rw [sub_of_some sound_keyAt h]
      obtain ⟨digits, rest, htext, -, -, rfl⟩ := keyAt_eq_some_iff.mp h
      rw [(List.cons.inj htext).1]
      rfl

lemma not_isSpace_of_isHexDigit {c : Char} (h : isHexDigit c) : isSpace c = false := by
  have hall : hexDigits.all (!isSpace ·) := by decide
  have hmem : c ∈ hexDigits := by simpa [isHexDigit] using h
  simpa using List.all_eq_true.mp hall c hmem

lemma dropWhile_isSpace_sub_keyAt (text : List Char) :
    (sub keyAt text).dropWhile isSpace = sub keyAt (text.dropWhile isSpace) := by
  induction text with
  | nil => rfl
  | cons c text ih =>
    by_cases hspace : isSpace c
    · have hzero : c ≠ '0' := fun hc => absurd hspace (by rw [hc]; decide)
      rw [sub_of_none (keyAt_of_ne hzero), List.dropWhile_cons_of_pos hspace,
        List.dropWhile_cons_of_pos hspace, ih]
    · obtain ⟨rest, hrest⟩ := List.head?_eq_some_iff.mp (head?_sub_keyAt (c :: text))
      rw [List.dropWhile_cons_of_neg hspace, hrest, List.dropWhile_cons_of_neg hspace]

lemma dropWhile_not_isSpace_sub_keyAt (text : List Char) :
    (sub keyAt text).dropWhile (!isSpace ·) = sub keyAt (text.dropWhile (!isSpace ·)) := by
  induction text using subParts_induction sound_keyAt with
  | nil => rfl
  | plain c text hnone ih =>
    rw [sub_of_none hnone, List.dropWhile_cons, List.dropWhile_cons]
    split
    · exact ih
    · exact (sub_of_none hnone).symm
  | masked text found hfound ih =>
    rw [sub_of_some sound_keyAt hfound]
    obtain ⟨digits, rest, rfl, hlength, hhex, rfl⟩ := keyAt_eq_some_iff.mp hfound
    have hdrop : ('0' :: 'x' :: (digits ++ rest)).drop (['0', 'x'] ++ digits).length = rest := by
      simp
    have hkept : ∀ c ∈ ['0', 'x'] ++ keyMask, (!isSpace c) = true :=
      List.all_eq_true.mp (by decide)
    have hremoved : ∀ c ∈ ['0', 'x'] ++ digits, (!isSpace c) = true := by
      intro c hc
      rcases List.mem_append.mp hc with hlead | hdigit
      · exact hkept c (List.mem_append_left _ hlead)
      · rw [not_isSpace_of_isHexDigit (List.all_eq_true.mp hhex c hdigit), Bool.not_false]
    rw [hdrop] at ih ⊢
    rw [List.dropWhile_append_of_pos hkept, ih]
    exact congrArg (sub keyAt) (List.dropWhile_append_of_pos hremoved).symm

lemma valueAt_isSome_iff : (valueAt text).isSome ↔
    (∃ sign ∈ (text.dropWhile isSpace).head?, sign = ':' ∨ sign = '=') ∧ secretValue text ≠ [] := by
  have hvalue : (secretValue text).takeWhile (!isSpace ·) = [] ↔ secretValue text = [] := by
    rw [← List.head?_eq_none_iff, ← List.head?_eq_none_iff, List.head?_takeWhile]
    have hnot := List.head?_dropWhile_not isSpace (text.dropWhile isSpace).tail
    rw [← secretValue] at hnot
    cases h : (secretValue text).head? with
    | none => simp
    | some c => simp [h] at hnot; simp [hnot]
  unfold valueAt
  cases text.dropWhile isSpace with
  | nil => simp
  | cons sign rest => simp [hvalue]

lemma secretValue_sub_keyAt {sign : Char} (h : (text.dropWhile isSpace).head? = some sign)
    (hsign : sign ≠ '0') : secretValue (sub keyAt text) = sub keyAt (secretValue text) := by
  obtain ⟨rest, hrest⟩ := List.head?_eq_some_iff.mp h
  rw [secretValue, secretValue, dropWhile_isSpace_sub_keyAt, hrest, sub_of_none (keyAt_of_ne hsign),
    List.tail_cons, List.tail_cons, dropWhile_isSpace_sub_keyAt]

lemma sign_ne_zero {sign : Char} (h : sign = ':' ∨ sign = '=') : sign ≠ '0' := by
  rcases h with rfl | rfl <;> decide

/-- Masking the private keys hides no value. -/
lemma valueAt_sub_keyAt_isSome (text : List Char) :
    (valueAt (sub keyAt text)).isSome = (valueAt text).isSome := by
  have hhead : ((sub keyAt text).dropWhile isSpace).head? = (text.dropWhile isSpace).head? := by
    rw [dropWhile_isSpace_sub_keyAt, head?_sub_keyAt]
  rw [Bool.eq_iff_iff, valueAt_isSome_iff, valueAt_isSome_iff, hhead]
  refine and_congr_right fun ⟨sign, hmem, hsign⟩ => not_congr ?_
  rw [secretValue_sub_keyAt hmem (sign_ne_zero hsign), ← List.head?_eq_none_iff, head?_sub_keyAt,
    List.head?_eq_none_iff]

lemma afterValue_sub_keyAt (h : (valueAt text).isSome) :
    afterValue (sub keyAt text) = sub keyAt (afterValue text) := by
  obtain ⟨⟨sign, hmem, hsign⟩, -⟩ := valueAt_isSome_iff.mp h
  rw [afterValue, afterValue, secretValue_sub_keyAt hmem (sign_ne_zero hsign),
    dropWhile_not_isSpace_sub_keyAt]

lemma zero_not_mem_lead {word lead : List Char} (hword : word ∈ secretWords)
    (hlead : word = lead.map ignoreCase) : '0' ∉ lead := by
  have hwords : ∀ word ∈ secretWords, '0' ∉ word := by decide
  have hzero : ignoreCase '0' = '0' := by decide
  exact fun hmem => hwords word hword (hlead ▸ hzero ▸ List.mem_map_of_mem hmem)

/-- A piece that begins a text with its private keys masked, and reaches none, begins the text. -/
lemma prefix_of_prefix_sub_keyAt {lead : List Char} (hzero : '0' ∉ lead)
    (h : lead <+: sub keyAt text) : lead <+: text := by
  induction lead generalizing text with
  | nil => exact List.nil_prefix
  | cons c lead ih =>
    rw [List.mem_cons, not_or] at hzero
    have hhead : text.head? = some c := by
      obtain ⟨rest, hrest⟩ := h
      rw [← head?_sub_keyAt, ← hrest, List.cons_append, List.head?_cons]
    obtain ⟨text, rfl⟩ := List.head?_eq_some_iff.mp hhead
    rw [sub_of_none (keyAt_of_ne (Ne.symm hzero.1))] at h
    exact List.cons_prefix_cons.mpr ⟨rfl, ih hzero.2 (List.cons_prefix_cons.mp h).2⟩

/-- Masking the private keys leaves the words alone. -/
lemma word_prefix_sub_keyAt_iff {word : List Char} (hword : word ∈ secretWords) :
    word <+: (sub keyAt text).map ignoreCase ↔ word <+: text.map ignoreCase := by
  rw [List.prefix_map_iff, List.prefix_map_iff]
  refine exists_congr fun lead => and_congr_left fun hlead => ?_
  have hzero := zero_not_mem_lead hword hlead
  constructor
  · exact prefix_of_prefix_sub_keyAt hzero
  · rintro ⟨rest, rfl⟩
    rw [sub_keyAt_append hzero]
    exact List.prefix_append lead _

lemma find_word_sub_keyAt (text : List Char) :
    (secretWords.find? fun word => word <+: (sub keyAt text).map ignoreCase) =
      secretWords.find? fun word => word <+: text.map ignoreCase := by
  refine List.find?_congr fun word hword => ?_
  exact decide_eq_decide.mpr (word_prefix_sub_keyAt_iff hword)

lemma sub_keyAt_of_word {word : List Char} (hword : word ∈ secretWords)
    (h : word <+: text.map ignoreCase) :
    sub keyAt text = text.take word.length ++ sub keyAt (text.drop word.length) := by
  obtain ⟨lead, ⟨rest, rfl⟩, rfl⟩ := List.prefix_map_iff.mp h
  rw [List.length_map, List.take_left, List.drop_left, sub_keyAt_append (zero_not_mem_lead hword rfl)]

lemma length_take_of_word {word : List Char} (h : word <+: text.map ignoreCase) :
    (text.take word.length).length = word.length := by
  rw [List.length_take, min_eq_left]
  simpa using h.length_le

lemma drop_of_secretAt {word : List Char} (hword : word <+: text.map ignoreCase)
    (h : valueAt (text.drop word.length) = some removed) :
    text.drop (text.take word.length ++ removed).length = afterValue (text.drop word.length) := by
  rw [List.length_append, length_take_of_word hword, ← List.drop_drop]
  conv_lhs => rw [valueAt_eq_some h, List.drop_left]

/-- Masking the private keys makes no secret of what was none. -/
lemma secretAt_sub_keyAt_eq_none (h : secretAt text = none) : secretAt (sub keyAt text) = none := by
  simp only [secretAt, find_word_sub_keyAt, Option.bind_eq_none_iff, Option.map_eq_none_iff] at h ⊢
  intro word hfind
  have hword : word <+: text.map ignoreCase := by simpa using List.find?_some hfind
  have hmasked := sub_keyAt_of_word (List.mem_of_find?_eq_some hfind) hword
  rw [hmasked, List.drop_left' (length_take_of_word hword), ← Option.not_isSome_iff_eq_none,
    valueAt_sub_keyAt_isSome, Option.not_isSome_iff_eq_none]
  exact h word hfind

/-- Masking the private keys leaves every secret one, and what follows it is masked as before. -/
lemma secretAt_sub_keyAt (h : secretAt text = some found) :
    ∃ removed, secretAt (sub keyAt text) = some ⟨found.lead, removed, found.inserted⟩ ∧
      (sub keyAt text).drop (found.lead ++ removed).length =
        sub keyAt (text.drop (found.lead ++ found.removed).length) := by
  have hfound := h
  simp only [secretAt, Option.bind_eq_some_iff, Option.map_eq_some_iff] at hfound
  obtain ⟨word, hfind, removed, hremoved, rfl⟩ := hfound
  have hword : word <+: text.map ignoreCase := by simpa using List.find?_some hfind
  have hmem := List.mem_of_find?_eq_some hfind
  have hlength := length_take_of_word hword
  have hmasked := sub_keyAt_of_word hmem hword
  have hdrop : (sub keyAt text).drop word.length = sub keyAt (text.drop word.length) := by
    rw [hmasked, List.drop_left' hlength]
  have htake : (sub keyAt text).take word.length = text.take word.length := by
    rw [hmasked, List.take_left' hlength]
  have hsome : (valueAt (text.drop word.length)).isSome := by rw [hremoved, Option.isSome_some]
  obtain ⟨removed', hremoved'⟩ := Option.isSome_iff_exists.mp
    ((valueAt_sub_keyAt_isSome (text.drop word.length)).trans hsome)
  refine ⟨removed', ?_, ?_⟩
  · simp only [secretAt, find_word_sub_keyAt, hfind, Option.bind_some, hdrop, hremoved', htake,
      Option.map_some]
  · have hword' := (word_prefix_sub_keyAt_iff hmem).mpr hword
    have hafter := drop_of_secretAt hword' (hdrop ▸ hremoved')
    rw [htake, hdrop] at hafter
    rw [hafter, drop_of_secretAt hword hremoved, afterValue_sub_keyAt hsome]

/-- No word for a secret begins in a masked private key, whatever follows it. -/
lemma sub_secretAt_keyMask (rest : List Char) :
    sub secretAt (['0', 'x'] ++ keyMask ++ rest) = ['0', 'x'] ++ keyMask ++ sub secretAt rest := by
  have hapart : ∀ part ∈ (['0', 'x'] ++ keyMask).tails, part ≠ [] → ∀ word ∈ secretWords,
      ¬ word <+: part.map ignoreCase ∧ ¬ part.map ignoreCase <+: word := by decide
  refine sub_append fun part hpart hne => ?_
  by_contra hfound
  obtain ⟨found, hfound⟩ := Option.ne_none_iff_exists'.mp hfound
  obtain ⟨word, hmem, hword, -⟩ := secretAt_eq_some hfound
  obtain ⟨hlonger, hshorter⟩ := hapart part ((List.mem_tails ..).mpr hpart) hne word hmem
  rw [List.map_append] at hword
  rcases List.prefix_or_prefix_of_prefix hword (List.prefix_append _ _) with h | h
  · exact hlonger h
  · exact hshorter h

/-! ### Both patterns at once -/

/-- What either pattern finds at the beginning of a text. -/
def redactAt (text : List Char) : Option Match := (secretAt text).or (keyAt text)

/-- A text, taken apart into what the filter keeps and what it removes. -/
def redactions (text : List Char) : List Part := subParts redactAt 0 text

lemma redactAt_eq_some_iff : redactAt text = some found ↔
    secretAt text = some found ∨ secretAt text = none ∧ keyAt text = some found :=
  Option.or_eq_some_iff

lemma redactAt_eq_none_iff : redactAt text = none ↔ secretAt text = none ∧ keyAt text = none :=
  Option.or_eq_none_iff

lemma sound_redactAt : Sound redactAt := by
  intro text found h
  rcases redactAt_eq_some_iff.mp h with hsecret | ⟨-, hkey⟩
  · exact sound_secretAt text found hsecret
  · exact sound_keyAt text found hkey

/-- The filter removes from the message what the patterns find in it, and nothing else. -/
theorem redact_eq (text : List Char) : redact text = replaced (redactions text) := by
  show sub secretAt (sub keyAt text) = sub redactAt text
  induction text using subParts_induction sound_redactAt with
  | nil => rfl
  | plain c text hnone ih =>
    obtain ⟨hsecret, hkey⟩ := redactAt_eq_none_iff.mp hnone
    have hsecret' := secretAt_sub_keyAt_eq_none hsecret
    rw [sub_of_none hkey] at hsecret' ⊢
    rw [sub_of_none hsecret', sub_of_none hnone, ih]
  | masked text found hfound ih =>
    rw [sub_of_some sound_redactAt hfound]
    rcases redactAt_eq_some_iff.mp hfound with hsecret | ⟨-, hkey⟩
    · obtain ⟨removed, hsecret', hdrop⟩ := secretAt_sub_keyAt hsecret
      rw [sub_of_some sound_secretAt hsecret', hdrop, ih]
    · rw [sub_of_some sound_keyAt hkey]
      obtain ⟨digits, rest, rfl, -, -, rfl⟩ := keyAt_eq_some_iff.mp hkey
      rw [sub_secretAt_keyMask, ih]

/-! ### What the filter puts in -/

/-- A private key: `0x` and 64 hexadecimal digits. -/
def privateKeys : Set (List Char) :=
  {key | ∃ digits, key = '0' :: 'x' :: digits ∧ digits.length = 64 ∧ digits.all isHexDigit}

lemma not_mem_privateKey {c : Char} {key : List Char} (hkey : key ∈ privateKeys)
    (hc : c ∉ '0' :: 'x' :: hexDigits) : c ∉ key := by
  obtain ⟨digits, rfl, -, hhex⟩ := hkey
  intro hmem
  rcases List.mem_cons.mp hmem with rfl | hmem
  · exact hc List.mem_cons_self
  · rcases List.mem_cons.mp hmem with rfl | hdigit
    · exact hc (List.mem_cons_of_mem _ List.mem_cons_self)
    · have hex : c ∈ hexDigits := by simpa [isHexDigit] using List.all_eq_true.mp hhex c hdigit
      exact hc (List.mem_cons_of_mem _ (List.mem_cons_of_mem _ hex))

lemma length_privateKey {key : List Char} (hkey : key ∈ privateKeys) : key.length = 66 := by
  obtain ⟨digits, rfl, hlength, -⟩ := hkey
  simp [hlength]

lemma seals_keyMask : Seals privateKeys keyMask := by
  refine ⟨'*', "**REDACTED_KEY**".toList, '*', by decide, fun key hkey => ?_⟩
  have hstar := not_mem_privateKey (c := '*') hkey (by decide)
  refine ⟨hstar, hstar, ?_⟩
  rw [length_privateKey hkey]
  decide

lemma seals_secretMask : Seals privateKeys secretMask := by
  refine ⟨'=', "***REDACTED**".toList, '*', by decide, fun key hkey => ?_⟩
  refine ⟨not_mem_privateKey hkey (by decide), not_mem_privateKey hkey (by decide), ?_⟩
  rw [length_privateKey hkey]
  decide

lemma inserted_of_redactAt (h : redactAt text = some found) :
    found.inserted = keyMask ∨ found.inserted = secretMask := by
  rcases redactAt_eq_some_iff.mp h with hsecret | ⟨-, hkey⟩
  · obtain ⟨_, -, -, _, -, rfl⟩ := secretAt_eq_some hsecret
    exact Or.inr rfl
  · obtain ⟨_, _, -, -, -, rfl⟩ := keyAt_eq_some_iff.mp hkey
    exact Or.inl rfl

lemma sealed_redactions (text : List Char) : Sealed privateKeys (redactions text) := by
  intro found hfound
  obtain ⟨rest, hrest⟩ := exists_find_of_mem sound_redactAt hfound
  rcases inserted_of_redactAt hrest with h | h
  · exact h ▸ seals_keyMask
  · exact h ▸ seals_secretMask

lemma settles_of_word {word lead : List Char} (hword : word ∈ secretWords)
    (hlead : word = lead.map ignoreCase) : Settles lead := by
  have hpercent : ∀ word ∈ secretWords, '%' ∉ word := by decide
  have hignore : ignoreCase '%' = '%' := by decide
  have hfirst : ∀ word ∈ secretWords, word.head?.any (· ∉ modifiers.map ignoreCase) := by decide
  refine ⟨fun hmem => hpercent word hword (hlead ▸ hignore ▸ List.mem_map_of_mem hmem), ?_⟩
  obtain ⟨c, hc, hmodifiers⟩ := (Option.any_eq_true _ _).mp (hfirst word hword)
  rw [hlead, List.head?_map, Option.map_eq_some_iff] at hc
  obtain ⟨d, hd, rfl⟩ := hc
  refine ⟨d, List.mem_of_head? hd, fun hmem => ?_⟩
  exact of_decide_eq_true hmodifiers (List.mem_map_of_mem hmem)

lemma settles_zero_x : Settles ['0', 'x'] := ⟨by decide, 'x', by decide, by decide⟩

lemma separated_redactions (text : List Char) : Separated (redactions text) := by
  have hmasks : '%' ∉ keyMask ∧ '%' ∉ secretMask := by decide
  rw [redactions]
  induction text using subParts_induction sound_redactAt with
  | nil => trivial
  | plain c text hnone ih =>
    rw [subParts_of_none hnone]
    exact ih
  | masked text found hfound ih =>
    rw [subParts_of_some sound_redactAt hfound]
    refine ⟨?_, ?_, ?_, ih⟩
    · rcases redactAt_eq_some_iff.mp hfound with hsecret | ⟨-, hkey⟩
      · obtain ⟨word, hmem, hword, _, -, rfl⟩ := secretAt_eq_some hsecret
        obtain ⟨lead, ⟨rest, rfl⟩, rfl⟩ := List.prefix_map_iff.mp hword
        simp only [List.length_map, List.take_left]
        exact settles_of_word hmem rfl
      · obtain ⟨_, _, -, -, -, rfl⟩ := keyAt_eq_some_iff.mp hkey
        exact settles_zero_x
    · rcases inserted_of_redactAt hfound with h | h
      · exact h ▸ hmasks.1
      · exact h ▸ hmasks.2
    · rw [original_subParts sound_redactAt]
      intro hpercent hnext
      rcases redactAt_eq_some_iff.mp hfound with hsecret | ⟨-, hkey⟩
      · obtain ⟨word, -, hword, removed, hremoved, rfl⟩ := secretAt_eq_some hsecret
        rw [drop_of_secretAt hword hremoved] at hnext
        exact absurd (head?_afterValue hnext) (by decide)
      · obtain ⟨digits, _, -, -, hhex, rfl⟩ := keyAt_eq_some_iff.mp hkey
        exact absurd (List.all_eq_true.mp hhex '%' hpercent) (by decide)

/-- A message without arguments shows no private key once it has been filtered. -/
theorem not_contains_redact (text : List Char) : ¬ Contains privateKeys (redact text) := by
  rw [redact_eq, (fills_kept (sealed_redactions text)).contains_iff]
  refine not_shows_kept sound_redactAt ?_ ?_ text
  · rintro text key ⟨digits, rfl, hlength, hhex⟩ ⟨rest, rfl⟩ hnone
    have hkey : keyAt ('0' :: 'x' :: (digits ++ rest)) = some ⟨['0', 'x'], digits, keyMask⟩ :=
      keyAt_eq_some_iff.mpr ⟨digits, rest, rfl, hlength, hhex, rfl⟩
    cases hkey.symm.trans (redactAt_eq_none_iff.mp hnone).2
  · intro text found hfound key hkey
    have hwords : ∀ word ∈ secretWords, word.length < 66 := by decide
    rw [length_privateKey hkey]
    rcases redactAt_eq_some_iff.mp hfound with hsecret | ⟨-, hkey⟩
    · obtain ⟨word, hmem, hword, _, -, rfl⟩ := secretAt_eq_some hsecret
      rw [length_take_of_word hword]
      exact hwords word hmem
    · obtain ⟨_, _, -, -, -, rfl⟩ := keyAt_eq_some_iff.mp hkey
      show 2 < 66
      decide

/-! ### What reaches the log -/

open SensitiveFilter

variable {r : Renderer A}

/-- The record is logged and formats, and its text has no private key in it. -/
def Hides (r : Renderer A) (record : LogRecord A) : Prop :=
  (filter record).2 = true ∧
    ∃ text, (filter record).1.getMessage r = some text ∧ ¬ Contains privateKeys text.toList

/-- The condition on a record: the filter removes no placeholder of the message, and every private key of
the formatted message is at least in part of what it removes. A message that is no text has no private
key in it, and one without arguments is harmless. -/
def Harmless (r : Renderer A) (record : LogRecord A) : Prop :=
  match record.msg with
  | .text message =>
    noArguments record.args ∨ Spared r privateKeys (redactions message.toList) record.args
  | .object _ => ∀ text, record.getMessage r = some text → ¬ Contains privateKeys text.toList

/-- The arguments are values in their order, or a mapping whose keys and placeholders are not cut in two
by what the filter removes. -/
def Uncut (r : Renderer A) (record : LogRecord A) : Prop :=
  match record.msg with
  | .text message =>
    record.args.isPositional ∨ (visible r ⟨.text, record.args⟩ (redactions message.toList)).isSome
  | .object _ => True

lemma hides_text_iff (record : LogRecord A) (message : String) (hmsg : record.msg = .text message)
    (hargs : noArguments record.args = false) :
    Hides r record ↔ Safe r privateKeys (redact message.toList) record.args := by
  have hfilter : filter record =
      ({ record with msg := .text (String.ofList (redact message.toList)) }, true) := by
    rw [filter, hmsg]
  have hmessage : (filter record).1.getMessage r =
      (format r (redact message.toList) record.args).map String.ofList := by
    rw [hfilter]
    simp [LogRecord.getMessage, hargs, LogMessage.str]
  rw [Hides, hmessage, hfilter, Safe]
  simp

lemma hides_of_noArguments (record : LogRecord A) (message : String)
    (hmsg : record.msg = .text message) (hargs : noArguments record.args) : Hides r record := by
  have hfilter : filter record =
      ({ record with msg := .text (String.ofList (redact message.toList)) }, true) := by
    rw [filter, hmsg]
  refine ⟨by rw [hfilter], String.ofList (redact message.toList), ?_, ?_⟩
  · rw [hfilter, LogRecord.getMessage, if_pos hargs]
    rfl
  · rw [String.toList_ofList]
    exact not_contains_redact message.toList

lemma format_of_getMessage (record : LogRecord A) (message : String) (hmsg : record.msg = .text message)
    (hargs : noArguments record.args = false) (h : (record.getMessage r).isSome) :
    (format r (original (redactions message.toList)) record.args).isSome := by
  rw [redactions, original_subParts sound_redactAt]
  simpa [LogRecord.getMessage, hargs, hmsg, LogMessage.str] using h

/-- A record that formats is logged without a private key, and still formats, if it is harmless. If it is
not, it is not, unless its arguments are a mapping and the filter cuts a placeholder for it in two. -/
theorem hides_iff_harmless (r : Renderer A) (record : LogRecord A)
    (hformat : (record.getMessage r).isSome) :
    (Harmless r record → Hides r record) ∧
      (Uncut r record → Hides r record → Harmless r record) := by
  match hmsg : record.msg with
  | .object printed =>
    have hfilter : filter record = (record, true) := by rw [filter, hmsg]
    obtain ⟨text, htext⟩ := Option.isSome_iff_exists.mp hformat
    simp only [Harmless, hmsg, Hides, hfilter, htext]
    simp
  | .text message =>
    cases hargs : noArguments record.args with
    | true =>
      have hhides := hides_of_noArguments (r := r) record message hmsg hargs
      refine ⟨fun _ => hhides, fun _ _ => ?_⟩
      rw [Harmless, hmsg]
      exact Or.inl hargs
    | false =>
      have hsep := separated_redactions message.toList
      have hsealed := sealed_redactions message.toList
      have hformat' := format_of_getMessage record message hmsg hargs hformat
      rw [hides_text_iff record message hmsg hargs, redact_eq, Harmless, Uncut, hmsg]
      constructor
      · intro h
        exact safe_of_spared hsep hsealed hformat' (h.resolve_left (by simp [hargs]))
      · intro huncut h
        exact Or.inr (spared_of_safe hsep hsealed hformat' huncut h)

/-- A record of which the filter removes a password. -/
def loginRecord : LogRecord LogValue where
  msg := .text "login %d with password: hunter2 at %s"
  args := .positional [.int 1, .text "0x5f"]

theorem hides_iff_harmless_loginRecord : Hides logRenderer loginRecord ∧
    (Harmless logRenderer loginRecord ↔ Hides logRenderer loginRecord) := by
  have hformat : (loginRecord.getMessage logRenderer).isSome := by decide +kernel
  obtain ⟨hhides, hharmless⟩ := hides_iff_harmless logRenderer loginRecord hformat
  have hshown : visible logRenderer ⟨.text, loginRecord.args⟩
      (redactions "login %d with password: hunter2 at %s".toList) =
        some (⟨.text, .positional []⟩, "login 1 with password".toList.map some ++
          none :: " at 0x5f".toList.map some) := rfl
  have h : Harmless logRenderer loginRecord := by
    refine Or.inr ⟨_, _, hshown, ?_⟩
    rintro ⟨key, hkey, hinfix⟩
    have hlength := hinfix.length_le
    rw [List.length_map, length_privateKey hkey] at hlength
    exact absurd hlength (by decide)
  exact ⟨hhides h, hhides, hharmless (Or.inl rfl)⟩

/-- The record of an order that is posted in chunks. -/
def chunkRecord : LogRecord LogValue where
  msg := .text "LIVE chunk %d/%d: %s BUY $%.2f @ %.3f market=%s token=%s"
  args := .positional [.int 1, .int 2, .text "YES", .float 25, .float (1 / 2), .text "0x5f", .text "713"]

def zeroKey : String := String.ofList ('0' :: 'x' :: List.replicate 64 '0')

/-- A record with a private key as its argument. -/
def keyRecord : LogRecord LogValue where
  msg := .text "Signing with %s"
  args := .positional [.text zeroKey]

/-- Both records format as they come. The first no longer does when it has been filtered, and the second
still shows the key. -/
theorem not_hides_chunkRecord :
    (chunkRecord.getMessage logRenderer =
        some "LIVE chunk 1/2: YES BUY $25.00 @ 0.500 market=0x5f token=713" ∧
      (filter chunkRecord).1.getMessage logRenderer = none ∧ ¬ Hides logRenderer chunkRecord) ∧
    ((keyRecord.getMessage logRenderer).isSome ∧ ¬ Hides logRenderer keyRecord) := by
  have hchunk : (filter chunkRecord).1.getMessage logRenderer = none := by decide +kernel
  have hkey : (filter keyRecord).1.getMessage logRenderer = some ("Signing with " ++ zeroKey) := by
    decide +kernel
  refine ⟨⟨by decide +kernel, hchunk, ?_⟩, by decide +kernel, ?_⟩
  · rintro ⟨-, text, htext, -⟩
    cases hchunk.symm.trans htext
  · rintro ⟨-, text, htext, hcontains⟩
    cases hkey.symm.trans htext
    refine hcontains ⟨zeroKey.toList, ⟨List.replicate 64 '0', by decide +kernel, by decide, by decide⟩, ?_⟩
    rw [String.toList_append]
    exact (List.suffix_append _ _).isInfix

end PolyCortex
