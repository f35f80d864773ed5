import Mathlib.Data.Nat.Digits.Defs
import PolyCortex.Data.Persisted

/-!
# Datetimes as texts

A datetime in UTC by its fields, and the text that `isoformat` makes of it. The text is read back as the
datetime it was written for (`fromIsoformat_isoformat`).
-/

namespace PolyCortex

/-! ### Numbers with leading zeros -/

/-- The last `n` decimal digits of a number. -/
def pad : ℕ → ℕ → List Char
  | 0, _ => []
  | n + 1, v => (v / 10 ^ n % 10).digitChar :: pad n v

/-- Read `n` decimal digits, after the number that has been read so far. -/
def readNat : ℕ → ℕ → List Char → Option (ℕ × List Char)
  | 0, v, cs => some (v, cs)
  | _ + 1, _, [] => none
  | n + 1, v, c :: cs => if c.isDigit then readNat n (10 * v + (c.toNat - '0'.toNat)) cs else none

/-- Read one character. -/
def expect (c : Char) : List Char → Option (List Char)
  | [] => none
  | c' :: cs => if c' = c then some cs else none

lemma toNat_digitChar {d : ℕ} (h : d < 10) : d.digitChar.toNat - '0'.toNat = d := by
  interval_cases d <;> rfl

lemma readNat_pad_mod (n v w : ℕ) (cs : List Char) :
    readNat n v (pad n w ++ cs) = some (v * 10 ^ n + w % 10 ^ n, cs) := by
  induction n generalizing v with
  | zero => simp [readNat, pad, Nat.mod_one]
  | succ n ih =>
    have hdigit : w / 10 ^ n % 10 < 10 := Nat.mod_lt _ (by norm_num)
    rw [pad, List.cons_append, readNat, if_pos (by simpa [Nat.isDigit_digitChar] using hdigit),
      toNat_digitChar hdigit, ih, Nat.mod_pow_succ]
    congr 2
    ring

/-- A number is read back from its digits. -/
@[simp] lemma readNat_pad {n w : ℕ} (h : w < 10 ^ n) (cs : List Char) :
    readNat n 0 (pad n w ++ cs) = some (w, cs) := by
  rw [readNat_pad_mod, Nat.mod_eq_of_lt h, Nat.zero_mul, Nat.zero_add]

@[simp] lemma expect_cons (c : Char) (cs : List Char) : expect c (c :: cs) = some cs := by
  simp [expect]

/-! ### Years -/

/-- The first day of a year of the Gregorian calendar, counted from 1970-01-01. -/
def newYear (year : ℤ) : ℤ :=
  365 * (year - 1970) + (year - 1) / 4 - (year - 1) / 100 + (year - 1) / 400 - 477

/-- The year a day is in; by the mean length of a year it is found to one year. -/
def yearOf (day : ℤ) : ℤ :=
  let guess := 400 * day / 146097 + 1970
  if day < newYear guess then guess - 1
  else if newYear (guess + 1) ≤ day then guess + 1
  else guess

lemma newYear_yearOf (day : ℤ) : newYear (yearOf day) ≤ day ∧ day < newYear (yearOf day + 1) := by
  unfold yearOf
  dsimp only
  set guess := 400 * day / 146097 + 1970 with hguess
  split_ifs with hlt hle
  · rw [sub_add_cancel]
    refine ⟨?_, hlt⟩
    unfold newYear
    omega
  · refine ⟨hle, ?_⟩
    unfold newYear
    omega
  · exact ⟨not_lt.mp hlt, not_le.mp hle⟩

lemma newYear_strictMono : StrictMono newYear :=
  strictMono_int_of_lt_succ fun year => by
    unfold newYear
    omega

/-- The year of a day is the one it lies between the new years of. -/
lemma yearOf_eq_iff {day year : ℤ} :
    yearOf day = year ↔ newYear year ≤ day ∧ day < newYear (year + 1) := by
  constructor
  · rintro rfl
    exact newYear_yearOf day
  · rintro ⟨hle, hlt⟩
    obtain ⟨hle', hlt'⟩ := newYear_yearOf day
    have h := newYear_strictMono.lt_iff_lt.mp (hle.trans_lt hlt')
    have h' := newYear_strictMono.lt_iff_lt.mp (hle'.trans_lt hlt)
    omega

example : yearOf 20454 = 2026 ∧ yearOf 20453 = 2025 := by decide

/-! ### Datetimes -/

/-- `calendar.monthrange(year, month)[1]`. -/
def daysInMonth (year month : ℕ) : ℕ :=
  if month = 2 then
    if year % 4 = 0 ∧ (year % 100 ≠ 0 ∨ year % 400 = 0) then 29 else 28
  else if month ∈ [4, 6, 9, 11] then 30 else 31

/-- The fields of a datetime. -/
structure DateTimeFields where
  year : ℕ
  month : ℕ
  day : ℕ
  hour : ℕ
  minute : ℕ
  second : ℕ
  microsecond : ℕ
  deriving DecidableEq, Repr

/-- What `datetime` accepts. -/
structure DateTimeFields.Valid (f : DateTimeFields) : Prop where
  year : 1 ≤ f.year ∧ f.year ≤ 9999
  month : 1 ≤ f.month ∧ f.month ≤ 12
  day : 1 ≤ f.day ∧ f.day ≤ daysInMonth f.year f.month
  hour : f.hour < 24
  minute : f.minute < 60
  second : f.second < 60
  microsecond : f.microsecond < 1000000

instance (f : DateTimeFields) : Decidable f.Valid :=
  decidable_of_iff
    ((1 ≤ f.year ∧ f.year ≤ 9999) ∧ (1 ≤ f.month ∧ f.month ≤ 12) ∧
      (1 ≤ f.day ∧ f.day ≤ daysInMonth f.year f.month) ∧ f.hour < 24 ∧ f.minute < 60 ∧
      f.second < 60 ∧ f.microsecond < 1000000)
    ⟨fun ⟨h₁, h₂, h₃, h₄, h₅, h₆, h₇⟩ => ⟨h₁, h₂, h₃, h₄, h₅, h₆, h₇⟩,
      fun h => ⟨h.year, h.month, h.day, h.hour, h.minute, h.second, h.microsecond⟩⟩

/-- A datetime in UTC. -/
abbrev DateTime := {f : DateTimeFields // f.Valid}

namespace DateTime

/-- The characters of `isoformat`; microseconds are left out when there are none. -/
def isoChars (t : DateTime) : List Char :=
  pad 4 t.1.year ++ '-' :: (pad 2 t.1.month ++ '-' :: (pad 2 t.1.day ++ 'T' ::
    (pad 2 t.1.hour ++ ':' :: (pad 2 t.1.minute ++ ':' :: (pad 2 t.1.second ++
      if t.1.microsecond = 0 then "+00:00".toList
      else '.' :: (pad 6 t.1.microsecond ++ "+00:00".toList))))))

/-- `isoformat`. -/
def isoformat (t : DateTime) : String := String.ofList t.isoChars

/-- The microseconds, if there are any, and the offset of UTC. -/
def readTail : List Char → Option ℕ
  | '.' :: cs => do
    let (microsecond, cs) ← readNat 6 0 cs
    if cs = "+00:00".toList then some microsecond else none
  | cs => if cs = "+00:00".toList then some 0 else none

/-- The fields in a text of the form `isoformat` gives. -/
def readFields (cs : List Char) : Option DateTimeFields := do
  let (year, cs) ← readNat 4 0 cs
  let (month, cs) ← readNat 2 0 (← expect '-' cs)
  let (day, cs) ← readNat 2 0 (← expect '-' cs)
  let (hour, cs) ← readNat 2 0 (← expect 'T' cs)
  let (minute, cs) ← readNat 2 0 (← expect ':' cs)
  let (second, cs) ← readNat 2 0 (← expect ':' cs)
  let microsecond ← readTail cs
  some ⟨year, month, day, hour, minute, second, microsecond⟩

/-- `datetime.fromisoformat`. The texts of other forms that it knows are left to `others`. -/
def fromIsoformat (others : String → Except PyError DateTime) : PersistedValue →
    Except PyError DateTime
  | .str s =>
    match readFields s.toList with
    | some f => if h : f.Valid then .ok ⟨f, h⟩ else .error .valueError
    | none => others s
  | _ => .error .typeError

lemma readTail_dot (cs : List Char) :
    readTail ('.' :: cs) = (readNat 6 0 cs).bind fun read =>
      if read.2 = "+00:00".toList then some read.1 else none := rfl

lemma readTail_isoTail (microsecond : ℕ) (h : microsecond < 1000000) :
    readTail (if microsecond = 0 then "+00:00".toList
      else '.' :: (pad 6 microsecond ++ "+00:00".toList)) = some microsecond := by
  split_ifs with hzero
  · rw [hzero]
    rfl
  · have hdigits : microsecond < 10 ^ 6 := by omega
    rw [readTail_dot]
    generalize "+00:00".toList = zone
    rw [readNat_pad hdigits, Option.bind_some, if_pos rfl]

lemma daysInMonth_le (year month : ℕ) : daysInMonth year month ≤ 31 := by
  unfold daysInMonth
  split_ifs <;> norm_num

lemma readFields_isoChars (t : DateTime) : readFields t.isoChars = some t.1 := by
  obtain ⟨f, hf⟩ := t
  have hyear : f.year < 10 ^ 4 := by have := hf.year; omega
  have hmonth : f.month < 10 ^ 2 := by have := hf.month; omega
  have hday : f.day < 10 ^ 2 := by have := hf.day; have := daysInMonth_le f.year f.month; omega
  have hhour : f.hour < 10 ^ 2 := by have := hf.hour; omega
  have hminute : f.minute < 10 ^ 2 := by have := hf.minute; omega
  have hsecond : f.second < 10 ^ 2 := by have := hf.second; omega
  simp only [readFields, isoChars, readNat_pad hyear, readNat_pad hmonth, readNat_pad hday,
    readNat_pad hhour, readNat_pad hminute, readNat_pad hsecond, expect_cons,
    readTail_isoTail _ hf.microsecond, Option.bind_eq_bind, Option.bind_some]

/-- What `isoformat` has written is read back. -/
@[simp] lemma fromIsoformat_isoformat (others : String → Except PyError DateTime) (t : DateTime) :
    fromIsoformat others (.str t.isoformat) = .ok t := by
  simp [fromIsoformat, isoformat, readFields_isoChars, t.2]

end DateTime
end PolyCortex
