import PolyCortex.Data.Persisted

/-!
# Sanitized responses

`sanitize_api_response`: what is stored under a key that looks like a secret is replaced, and what is
too deep or too long is cut off. The result does not depend on the values under such keys
(`sanitizeWithin_alike`), and it is as flat and as short as the limits say (`Sanitized`).
-/

namespace PolyCortex

/-! ### Keys of secrets -/

/-- The alternatives of `_SECRET_PATTERNS`. -/
def secretPatterns : List String :=
  ["password", "api_key", "api_secret", "passphrase", "private_key", "secret_key", "credential",
    "auth_token", "bearer", "mnemonic"]

/-- A letter as `re.IGNORECASE` compares it with the letters of a pattern: beside the capitals, the
dotted and the dotless i, the long s and the sign of the kelvin. -/
def ignoreCase (c : Char) : Char :=
  if 'A' ≤ c ∧ c ≤ 'Z' then c.toLower
  else if c.toNat = 0x130 ∨ c.toNat = 0x131 then 'i'
  else if c.toNat = 0x17f then 's'
  else if c.toNat = 0x212a then 'k'
  else c

/-- `_SECRET_PATTERNS.search(key)`. -/
def isSecretKey (key : String) : Bool :=
  secretPatterns.any fun word => word.toList <:+: key.toList.map ignoreCase

example : isSecretKey "X-Api_Key" ∧ isSecretKey "PASſWORD_2" ∧ ¬ isSecretKey "api key" := by
  decide +kernel

/-! ### Sanitizing -/

def maxStringLen : ℕ := 10000

def maxListLen : ℕ := 1000

/-- The redaction marker. -/
def redacted : PersistedValue := .str "***REDACTED***"

/-- A text, cut off when it is too long. -/
def truncateText (text : String) : String :=
  if maxStringLen < text.length then
    String.ofList (text.toList.take maxStringLen) ++
      ("...<truncated, total " ++ toString text.length ++ " chars>")
  else text

/-- `_sanitize`, where the depth is what is left of the maximum. -/
def sanitizeWithin : ℕ → PersistedValue → PersistedValue
  | 0, _ => .str "<truncated: max depth exceeded>"
  | depth + 1, .obj fields =>
    .obj (fields.map fun field =>
      (field.1, if isSecretKey field.1 then redacted else sanitizeWithin depth field.2))
  | depth + 1, .arr items => .arr ((items.take maxListLen).map (sanitizeWithin depth))
  | _ + 1, .str text => .str (truncateText text)
  | _ + 1, value => value

/-- `_sanitize`. -/
def sanitize (data : PersistedValue) (maxDepth currentDepth : ℕ) : PersistedValue :=
  sanitizeWithin (maxDepth - currentDepth) data

/-- `sanitize_api_response`. -/
def sanitizeApiResponse (data : PersistedValue) (maxDepth : ℕ) : PersistedValue :=
  match data with
  | .null => .null
  | data => sanitize data maxDepth 0

/-! ### Noninterference -/

mutual

/-- Two values that differ only in what is stored under keys that look like secrets. -/
inductive Alike : PersistedValue → PersistedValue → Prop
  | same (value : PersistedValue) : Alike value value
  | arr {items items' : List PersistedValue} (h : AlikeItems items items') :
      Alike (.arr items) (.arr items')
  | obj {fields fields' : List (String × PersistedValue)} (h : AlikeFields fields fields') :
      Alike (.obj fields) (.obj fields')

inductive AlikeItems : List PersistedValue → List PersistedValue → Prop
  | nil : AlikeItems [] []
  | cons {value value' : PersistedValue} {items items' : List PersistedValue}
      (h : Alike value value') (hrest : AlikeItems items items') :
      AlikeItems (value :: items) (value' :: items')

inductive AlikeFields : List (String × PersistedValue) → List (String × PersistedValue) → Prop
  | nil : AlikeFields [] []
  | secret {key : String} {fields fields' : List (String × PersistedValue)}
      (hkey : isSecretKey key = true) (value value' : PersistedValue)
      (hrest : AlikeFields fields fields') :
      AlikeFields ((key, value) :: fields) ((key, value') :: fields')
  | field (key : String) {value value' : PersistedValue}
      {fields fields' : List (String × PersistedValue)} (h : Alike value value')
      (hrest : AlikeFields fields fields') :
      AlikeFields ((key, value) :: fields) ((key, value') :: fields')

end

variable {value value' : PersistedValue} {items items' : List PersistedValue}
  {fields fields' : List (String × PersistedValue)} {depth : ℕ}

lemma AlikeItems.map_take (h : AlikeItems items items')
    (hdepth : ∀ {value value'}, Alike value value' →
      sanitizeWithin depth value = sanitizeWithin depth value') (n : ℕ) :
    (items.take n).map (sanitizeWithin depth) = (items'.take n).map (sanitizeWithin depth) := by
  induction n generalizing items items' with
  | zero => rfl
  | succ n ih =>
    cases h with
    | nil => rfl
    | cons h hrest => rw [List.take_succ_cons, List.take_succ_cons, List.map_cons, List.map_cons,
        hdepth h, ih hrest]

lemma AlikeFields.map (h : AlikeFields fields fields')
    (hdepth : ∀ {value value'}, Alike value value' →
      sanitizeWithin depth value = sanitizeWithin depth value') :
    (fields.map fun field =>
        (field.1, if isSecretKey field.1 then redacted else sanitizeWithin depth field.2)) =
      fields'.map fun field =>
        (field.1, if isSecretKey field.1 then redacted else sanitizeWithin depth field.2) := by
  induction fields generalizing fields' with
  | nil =>
    cases h with
    | nil => rfl
  | cons field fields ih =>
    cases h with
    | secret hkey value value' hrest => simp [hkey, ih hrest]
    | field key h hrest => simp [hdepth h, ih hrest]

/-- At every depth, since a secret is replaced before it is looked at. -/
lemma sanitizeWithin_alike (h : Alike value value') :
    sanitizeWithin depth value = sanitizeWithin depth value' := by
  induction depth generalizing value value' with
  | zero => rfl
  | succ depth ih =>
    cases h with
    | same => rfl
    | arr h =>
      rw [sanitizeWithin, sanitizeWithin]
      exact congrArg PersistedValue.arr (h.map_take ih maxListLen)
    | obj h =>
      rw [sanitizeWithin, sanitizeWithin]
      exact congrArg PersistedValue.obj (h.map ih)

lemma sanitizeApiResponse_alike (h : Alike value value') (maxDepth : ℕ) :
    sanitizeApiResponse value maxDepth = sanitizeApiResponse value' maxDepth := by
  cases h with
  | same => rfl
  | arr h => exact sanitizeWithin_alike (.arr h)
  | obj h => exact sanitizeWithin_alike (.obj h)

/-! ### Limits -/

/-- Arrays and objects are nested at most `depth` times. -/
def NestedWithin : ℕ → PersistedValue → Prop
  | 0, .arr _ => False
  | 0, .obj _ => False
  | depth + 1, .arr items => ∀ item ∈ items, NestedWithin depth item
  | depth + 1, .obj fields => ∀ field ∈ fields, NestedWithin depth field.2
  | _, _ => True

/-- A value and everything in it. -/
inductive PartOf (part : PersistedValue) : PersistedValue → Prop
  | self : PartOf part part
  | item {items : List PersistedValue} {item : PersistedValue} (hmem : item ∈ items)
      (h : PartOf part item) : PartOf part (.arr items)
  | field {fields : List (String × PersistedValue)} {field : String × PersistedValue}
      (hmem : field ∈ fields) (h : PartOf part field.2) : PartOf part (.obj fields)

/-- No array is too long, and nothing but the marker stands under a key that looks like a secret. -/
structure Tidy (value : PersistedValue) : Prop where
  length_le : ∀ items, value = .arr items → items.length ≤ maxListLen
  redacted : ∀ fields, value = .obj fields →
    ∀ field ∈ fields, isSecretKey field.1 = true → field.2 = PolyCortex.redacted

lemma nestedWithin_str (depth : ℕ) (text : String) : NestedWithin depth (.str text) := by
  cases depth <;> exact trivial

lemma nestedWithin_sanitizeWithin (depth : ℕ) (value : PersistedValue) :
    NestedWithin depth (sanitizeWithin depth value) := by
  induction depth generalizing value with
  | zero => exact trivial
  | succ depth ih =>
    cases value with
    | arr items =>
      rw [sanitizeWithin, NestedWithin, List.forall_mem_map]
      exact fun item _ => ih item
    | obj fields =>
      rw [sanitizeWithin, NestedWithin, List.forall_mem_map]
      intro field _
      dsimp only
      split_ifs
      · exact nestedWithin_str depth _
      · exact ih field.2
    | _ => exact trivial

lemma tidy_str (text : String) : Tidy (.str text) where
  length_le items h := by simp at h
  redacted fields h := by simp at h

lemma tidy_sanitizeWithin (depth : ℕ) (value : PersistedValue) : Tidy (sanitizeWithin depth value) := by
  cases depth with
  | zero => exact tidy_str _
  | succ depth =>
    cases value with
    | arr items =>
      constructor
      · rintro items' h
        rw [sanitizeWithin, PersistedValue.arr.injEq] at h
        rw [← h, List.length_map, List.length_take]
        exact min_le_left _ _
      · intro fields h
        simp [sanitizeWithin] at h
    | obj fields =>
      constructor
      · intro items h
        simp [sanitizeWithin] at h
      · rintro fields' h
        rw [sanitizeWithin, PersistedValue.obj.injEq] at h
        rw [← h, List.forall_mem_map]
        exact fun field _ hkey => if_pos hkey
    | str text => exact tidy_str _
    | _ =>
      constructor
      · intro items h
        simp [sanitizeWithin] at h
      · intro fields h
        simp [sanitizeWithin] at h

/-- What is in a result is the result for something, or the marker. -/
lemma tidy_of_partOf {part : PersistedValue} (h : PartOf part (sanitizeWithin depth value)) :
    Tidy part := by
  induction depth generalizing value with
  | zero =>
    cases h with
    | self => exact tidy_str _
  | succ depth ih =>
    generalize hresult : sanitizeWithin (depth + 1) value = result at h
    cases h with
    | self => exact hresult ▸ tidy_sanitizeWithin (depth + 1) value
    | item hmem h =>
      cases value with
      | arr items =>
        rw [sanitizeWithin, PersistedValue.arr.injEq] at hresult
        subst hresult
        obtain ⟨item, -, rfl⟩ := List.mem_map.mp hmem
        exact ih h
      | _ => simp [sanitizeWithin] at hresult
    | field hmem h =>
      cases value with
      | obj fields =>
        rw [sanitizeWithin, PersistedValue.obj.injEq] at hresult
        subst hresult
        obtain ⟨field, -, rfl⟩ := List.mem_map.mp hmem
        dsimp only at h
        split_ifs at h
        · cases h with
          | self => exact tidy_str _
        · exact ih h
      | _ => simp [sanitizeWithin] at hresult

/-- What no secret can change: the result, within its limits. -/
structure Sanitized (maxDepth : ℕ) (result : PersistedValue) : Prop where
  nested : NestedWithin maxDepth result
  tidy : ∀ part, PartOf part result → Tidy part

lemma sanitized_sanitizeApiResponse (value : PersistedValue) (maxDepth : ℕ) :
    Sanitized maxDepth (sanitizeApiResponse value maxDepth) := by
  have hwithin : Sanitized maxDepth (sanitizeWithin maxDepth value) :=
    ⟨nestedWithin_sanitizeWithin maxDepth value, fun _ => tidy_of_partOf⟩
  cases value with
  | null =>
    have hnull : sanitizeApiResponse .null maxDepth = .null := rfl
    rw [hnull]
    constructor
    · cases maxDepth <;> exact trivial
    · intro part h
      cases h with
      | self => exact ⟨fun items h => by simp at h, fun fields h => by simp at h⟩
  | _ => exact hwithin

/-- Two values that differ in their secrets only give one result, and a tidy one. -/
theorem sanitizeApiResponse_noninterference (h : Alike value value') (maxDepth : ℕ) :
    sanitizeApiResponse value maxDepth = sanitizeApiResponse value' maxDepth ∧
      Sanitized maxDepth (sanitizeApiResponse value maxDepth) :=
  ⟨sanitizeApiResponse_alike h maxDepth, sanitized_sanitizeApiResponse value maxDepth⟩

/-- An answer with a list of two accounts and a password for the second. -/
def accountsWith (password : PersistedValue) : PersistedValue :=
  .obj [("count", .int 2), ("accounts", .arr [.null, .obj [("Password", password)]])]

theorem sanitizeApiResponse_noninterference_accounts :
    sanitizeApiResponse (accountsWith (.str "hunter2")) 10 =
        sanitizeApiResponse (accountsWith (.arr [.int 1])) 10 ∧
      Sanitized 10 (sanitizeApiResponse (accountsWith (.str "hunter2")) 10) := by
  have haccount : Alike (.obj [("Password", .str "hunter2")])
      (.obj [("Password", .arr [.int 1])]) :=
    .obj (.secret (by decide +kernel) _ _ .nil)
  have haccounts : Alike (accountsWith (.str "hunter2")) (accountsWith (.arr [.int 1])) :=
    .obj (.field "count" (.same _) (.field "accounts"
      (.arr (.cons (.same _) (.cons haccount .nil))) .nil))
  exact sanitizeApiResponse_noninterference haccounts 10

end PolyCortex
