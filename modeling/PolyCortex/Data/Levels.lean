import PolyCortex.Data.JsonValue

/-!
# Levels of a received order book

Both clients read the sides of a book in one way: a loop over what the server has sent, in which every
entry is asked for its price and its size. A `ValueError` or `TypeError` skips the entry, and everything
else that is raised leaves the loop. They differ in what they `keep`.
-/

namespace PolyCortex

variable {α : Type} (py : PyConversions) (keep : PyFloat → PyFloat → Option α)

/-- `float(entry.get(key, 0))`. -/
def floatAt (entry : PersistedValue) (key : String) : Except ReadError PyFloat := do
  let value ← entry.get key (.int 0)
  (value.toFloat py).mapError .raised

/-- The price and the size of an entry. -/
def readLevel (entry : PersistedValue) : Except ReadError (PyFloat × PyFloat) := do
  let price ← floatAt py entry "price"
  let size ← floatAt py entry "size"
  pure (price, size)

/-- `except (ValueError, TypeError)`. -/
def ReadError.skipped : ReadError → Bool
  | .raised .valueError | .raised .typeError => true
  | _ => false

/-- A round of the loop. -/
def parseEntry (entry : PersistedValue) : Except ReadError (Option α) :=
  match readLevel py entry with
  | .ok (price, size) => .ok (keep price size)
  | .error e => if e.skipped then .ok none else .error e

def parseEntries : List PersistedValue → Except ReadError (List α)
  | [] => .ok []
  | entry :: entries => do
    let level ← parseEntry py keep entry
    let levels ← parseEntries entries
    pure (level.toList ++ levels)

/-- The loop of `_parse_levels`. -/
def parseLevels (rawLevels : PersistedValue) : Except ReadError (List α) := do
  let entries ← rawLevels.iterate.mapError .raised
  parseEntries py keep entries

/-! ### What can be read -/

/-- The number is too large for a float. -/
def PersistedValue.overflows : PersistedValue → Bool
  | .int z => decide (floatOverflow ≤ |z|)
  | _ => false

/-- The entry is an object, and no number of it that is read is too large for a float. The size is read
when the price is a number. -/
def Legible : PersistedValue → Prop
  | .obj fields =>
    let price := (fields.lookup "price").getD (.int 0)
    let size := (fields.lookup "size").getD (.int 0)
    price.overflows = false ∧ ((price.toFloat py).isOk = true → size.overflows = false)
  | _ => False

/-- What is kept of an entry; a malformed one is not kept. -/
def keptOf (entry : PersistedValue) : Option α :=
  match readLevel py entry with
  | .ok (price, size) => keep price size
  | .error _ => none

/-- What is kept of a side. -/
def keptLevels (entries : List PersistedValue) : List α := entries.filterMap (keptOf py keep)

/-! ### Sides -/

/-- `data.get(key)` of an object. -/
def field (fields : List (String × PersistedValue)) (key : String) : PersistedValue :=
  (fields.lookup key).getD .null

/-- The entries of a side; what is no array has none. -/
def entriesOf (fields : List (String × PersistedValue)) (key : String) : List PersistedValue :=
  match field fields key with
  | .arr entries => entries
  | _ => []

/-- The side is left out or empty, or it is an array of legible entries. -/
def LegibleSide (fields : List (String × PersistedValue)) (key : String) : Prop :=
  (field fields key).truthy = false ∨
    ∃ entries, field fields key = .arr entries ∧ ∀ entry ∈ entries, Legible py entry

/-- What is kept of the entries of a side. -/
def keptSide (fields : List (String × PersistedValue)) (key : String) : List α :=
  keptLevels py keep (entriesOf fields key)

variable {py keep}

/-! ### The loop -/

/-- A conversion to a float fails in a way that skips the entry, unless the number is too large. -/
lemma toFloat_error {value : PersistedValue} {e : PyError} (h : value.toFloat py = .error e) :
    (ReadError.raised e).skipped = !value.overflows := by
  cases value with
  | int z =>
    rw [PersistedValue.toFloat] at h
    split_ifs at h with hz
    obtain rfl := Except.error.inj h
    simp [ReadError.skipped, PersistedValue.overflows, not_lt.mp hz]
  | str s =>
    rw [PersistedValue.toFloat] at h
    split at h
    · simp at h
    · obtain rfl := Except.error.inj h
      rfl
  | null | arr | obj =>
    obtain rfl := Except.error.inj h
    rfl
  | bool | float => simp [PersistedValue.toFloat] at h

lemma toFloat_ok {value : PersistedValue} {x : PyFloat} (h : value.toFloat py = .ok x) :
    value.overflows = false := by
  cases value with
  | int z =>
    rw [PersistedValue.toFloat] at h
    split_ifs at h with hz
    simpa [PersistedValue.overflows] using hz
  | _ => rfl

variable (py keep) in
/-- A legible entry is kept or skipped; another one raises. -/
lemma parseEntry_cases (entry : PersistedValue) :
    (Legible py entry ∧ parseEntry py keep entry = .ok (keptOf py keep entry)) ∨
      (¬ Legible py entry ∧ ∃ e, parseEntry py keep entry = .error e) := by
  cases entry with
  | obj fields =>
    have hread : readLevel py (.obj fields) = (do
        let price ← (((fields.lookup "price").getD (.int 0)).toFloat py).mapError ReadError.raised
        let size ← (((fields.lookup "size").getD (.int 0)).toFloat py).mapError ReadError.raised
        pure (price, size)) := rfl
    rw [parseEntry, keptOf, hread, Legible]
    cases hprice : ((fields.lookup "price").getD (.int 0)).toFloat py with
    | error e =>
      have hskip := toFloat_error hprice
      cases hover : ((fields.lookup "price").getD (.int 0)).overflows <;>
        simp_all [Except.mapError, bind, Except.bind, Except.isOk, Except.toBool]
    | ok price =>
      have hno := toFloat_ok hprice
      cases hsize : ((fields.lookup "size").getD (.int 0)).toFloat py with
      | error e =>
        have hskip := toFloat_error hsize
        cases hover : ((fields.lookup "size").getD (.int 0)).overflows <;>
          simp_all [Except.mapError, bind, Except.bind, Except.isOk, Except.toBool]
      | ok size =>
        have hno' := toFloat_ok hsize
        simp_all [Except.mapError, bind, Except.bind, Except.isOk, Except.toBool, pure, Except.pure]
  | _ => exact Or.inr ⟨id, _, rfl⟩

lemma parseEntries_of_legible {entries : List PersistedValue} (h : ∀ entry ∈ entries, Legible py entry) :
    parseEntries py keep entries = .ok (keptLevels py keep entries) := by
  induction entries with
  | nil => rfl
  | cons entry entries ih =>
    simp only [List.mem_cons, forall_eq_or_imp] at h
    rcases parseEntry_cases py keep entry with ⟨-, hentry⟩ | ⟨hnot, -⟩
    · rw [parseEntries, hentry, ih h.2]
      cases hkept : keptOf py keep entry <;> simp [keptLevels, hkept, bind, Except.bind, pure, Except.pure]
    · exact absurd h.1 hnot

/-- The loop gets through the entries when all of them are legible, and then it has what is kept of
them. -/
lemma parseEntries_eq_ok {entries : List PersistedValue} {levels : List α} :
    parseEntries py keep entries = .ok levels ↔
      (∀ entry ∈ entries, Legible py entry) ∧ levels = keptLevels py keep entries := by
  constructor
  · intro h
    have hlegible : ∀ entry ∈ entries, Legible py entry := by
      induction entries generalizing levels with
      | nil => simp
      | cons entry entries ih =>
        rw [parseEntries] at h
        rcases parseEntry_cases py keep entry with ⟨hentry, hok⟩ | ⟨-, e, he⟩
        · rw [hok] at h
          cases hrest : parseEntries py keep entries with
          | error e => simp [hrest, bind, Except.bind] at h
          | ok rest =>
            simp only [List.mem_cons, forall_eq_or_imp]
            exact ⟨hentry, ih hrest⟩
        · simp [he, bind, Except.bind] at h
    rw [parseEntries_of_legible hlegible] at h
    exact ⟨hlegible, (Except.ok.inj h).symm⟩
  · rintro ⟨hlegible, rfl⟩
    exact parseEntries_of_legible hlegible

variable (py keep) in
/-- Texts have no levels. -/
lemma parseEntries_texts_ne_ok {texts : List PersistedValue} (hne : texts ≠ [])
    (htexts : ∀ entry ∈ texts, ∃ s, entry = .str s) (levels : List α) :
    parseEntries py keep texts ≠ .ok levels := by
  intro h
  obtain ⟨entry, rest, rfl⟩ := List.exists_cons_of_ne_nil hne
  obtain ⟨s, rfl⟩ := htexts entry List.mem_cons_self
  exact (parseEntries_eq_ok.mp h).1 _ List.mem_cons_self

/-- What is sent as the levels of a side, when it is not empty, has to be an array of legible entries. -/
lemma parseLevels_eq_ok {rawLevels : PersistedValue} (htruthy : rawLevels.truthy = true)
    {levels : List α} :
    parseLevels py keep rawLevels = .ok levels ↔ ∃ entries, rawLevels = .arr entries ∧
      (∀ entry ∈ entries, Legible py entry) ∧ levels = keptLevels py keep entries := by
  cases rawLevels with
  | arr entries =>
    have hparse : parseLevels py keep (.arr entries) = parseEntries py keep entries := rfl
    simp [hparse, parseEntries_eq_ok]
  | str s =>
    have hne : s.toList ≠ [] := by simpa [PersistedValue.truthy] using htruthy
    have hchars : ∀ entry ∈ s.toList.map fun c => PersistedValue.str c.toString, ∃ s, entry = .str s := by
      simp
    have htexts := parseEntries_texts_ne_ok py keep (by simpa using hne) hchars levels
    exact ⟨fun h => absurd h htexts, by simp⟩
  | obj fields =>
    have hne : fields ≠ [] := by simpa [PersistedValue.truthy] using htruthy
    have hkeys : ∀ entry ∈ fields.map fun field => PersistedValue.str field.1, ∃ s, entry = .str s := by
      intro entry hentry
      obtain ⟨field, -, rfl⟩ := List.mem_map.mp hentry
      exact ⟨field.1, rfl⟩
    have htexts := parseEntries_texts_ne_ok py keep (by simpa using hne) hkeys levels
    exact ⟨fun h => absurd h htexts, by simp⟩
  | _ => simp [parseLevels, PersistedValue.iterate, Except.mapError, bind, Except.bind]

variable (py keep) in
/-- A legible side gives what is kept of it; another one raises. -/
lemma parseSide_cases (fields : List (String × PersistedValue)) (key : String) :
    (LegibleSide py fields key ∧
        parseLevels py keep ((field fields key).or (.arr [])) = .ok (keptSide py keep fields key)) ∨
      (¬ LegibleSide py fields key ∧
        ∃ e, parseLevels py keep ((field fields key).or (.arr [])) = .error e) := by
  cases htruthy : (field fields key).truthy with
  | false =>
    have hnone : entriesOf fields key = [] := by
      rw [entriesOf]
      split
      · rename_i entries harr
        rw [harr] at htruthy
        simpa [PersistedValue.truthy] using htruthy
      · rfl
    refine Or.inl ⟨Or.inl htruthy, ?_⟩
    rw [keptSide, hnone, PersistedValue.or, htruthy]
    rfl
  | true =>
    have hor : (field fields key).or (.arr []) = field fields key := by
      rw [PersistedValue.or, htruthy, if_pos rfl]
    rw [hor]
    cases hparse : parseLevels py keep (field fields key) with
    | ok levels =>
      obtain ⟨entries, harr, hlegible, rfl⟩ := (parseLevels_eq_ok htruthy).mp hparse
      refine Or.inl ⟨Or.inr ⟨entries, harr, hlegible⟩, ?_⟩
      rw [keptSide, entriesOf, harr]
    | error e =>
      refine Or.inr ⟨?_, e, rfl⟩
      rintro (hfalse | ⟨entries, harr, hlegible⟩)
      · exact absurd htruthy (by simp [hfalse])
      · have hok : parseLevels py keep (field fields key) = .ok _ :=
          (parseLevels_eq_ok htruthy).mpr ⟨entries, harr, hlegible, rfl⟩
        rw [hparse] at hok
        exact absurd hok (by simp)

end PolyCortex
