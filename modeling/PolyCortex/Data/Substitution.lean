import Mathlib.Data.List.Infix
import Mathlib.Tactic

/-!
# Substitution in a text

What a regular expression finds in a text is replaced, from left to right. `subParts` keeps what was
replaced beside what it was replaced with, so that the two texts can be compared. A forbidden word can be
in the new text only where no text was put in, when what is put in `Seals` it out.
-/

namespace Substitution

/-- What was found, and what stands for it: the lead of it is kept. -/
structure Match where
  lead : List Char
  removed : List Char
  inserted : List Char
  deriving DecidableEq, Repr

inductive Part where
  | plain (c : Char)
  | masked (found : Match)
  deriving DecidableEq, Repr

def Part.before : Part → List Char
  | .plain c => [c]
  | .masked found => found.lead ++ found.removed

def Part.after : Part → List Char
  | .plain c => [c]
  | .masked found => found.lead ++ found.inserted

/-- The text before the substitution. -/
def original (parts : List Part) : List Char := parts.flatMap Part.before

/-- The text after the substitution. -/
def replaced (parts : List Part) : List Char := parts.flatMap Part.after

/-- Replace what is found, after the first characters, which belong to what has been found already. -/
def subParts (find : List Char → Option Match) : ℕ → List Char → List Part
  | _, [] => []
  | skip + 1, _ :: text => subParts find skip text
  | 0, c :: text =>
    match find (c :: text) with
    | none => .plain c :: subParts find 0 text
    | some found =>
      .masked found :: subParts find ((found.lead ++ found.removed).length - 1) text

/-- `re.sub`. -/
def sub (find : List Char → Option Match) (text : List Char) : List Char :=
  replaced (subParts find 0 text)

@[simp] lemma original_nil : original [] = [] := rfl

@[simp] lemma original_cons (part : Part) (parts : List Part) :
    original (part :: parts) = part.before ++ original parts := rfl

@[simp] lemma replaced_nil : replaced [] = [] := rfl

@[simp] lemma replaced_cons (part : Part) (parts : List Part) :
    replaced (part :: parts) = part.after ++ replaced parts := rfl

@[simp] lemma Part.before_plain (c : Char) : (Part.plain c).before = [c] := rfl

@[simp] lemma Part.before_masked (found : Match) :
    (Part.masked found).before = found.lead ++ found.removed := rfl

@[simp] lemma Part.after_plain (c : Char) : (Part.plain c).after = [c] := rfl

@[simp] lemma Part.after_masked (found : Match) :
    (Part.masked found).after = found.lead ++ found.inserted := rfl

variable {find : List Char → Option Match} {text : List Char} {c : Char} {found : Match}

lemma subParts_skip (find : List Char → Option Match) (skip : ℕ) (text : List Char) :
    subParts find skip text = subParts find 0 (text.drop skip) := by
  induction skip generalizing text with
  | zero => rfl
  | succ skip ih =>
    cases text with
    | nil => rfl
    | cons c text => exact ih text

/-- Something is found at the beginning of the text, and it is not empty. -/
def Sound (find : List Char → Option Match) : Prop :=
  ∀ text found, find text = some found →
    found.lead ++ found.removed <+: text ∧ found.lead ++ found.removed ≠ []

lemma subParts_of_none (h : find (c :: text) = none) :
    subParts find 0 (c :: text) = .plain c :: subParts find 0 text := by
  rw [subParts, h]

lemma subParts_of_some (hsound : Sound find) (h : find text = some found) :
    subParts find 0 text =
      .masked found :: subParts find 0 (text.drop (found.lead ++ found.removed).length) := by
  obtain ⟨hpre, hne⟩ := hsound text found h
  cases text with
  | nil => exact absurd (List.prefix_nil.mp hpre) hne
  | cons c text =>
    have hlength : (found.lead ++ found.removed).length =
        (found.lead ++ found.removed).length - 1 + 1 :=
      (Nat.sub_add_cancel (List.length_pos_of_ne_nil hne)).symm
    rw [subParts, h]
    show Part.masked found :: subParts find ((found.lead ++ found.removed).length - 1) text = _
    rw [subParts_skip, hlength, List.drop_succ_cons, Nat.add_sub_cancel]

lemma sub_of_none (h : find (c :: text) = none) : sub find (c :: text) = c :: sub find text := by
  rw [sub, subParts_of_none h]
  rfl

lemma sub_of_some (hsound : Sound find) (h : find text = some found) :
    sub find text =
      found.lead ++ found.inserted ++ sub find (text.drop (found.lead ++ found.removed).length) := by
  rw [sub, subParts_of_some hsound h]
  rfl

/-- The induction over what a substitution does: nothing is left, a character is kept, or something is
found. -/
lemma subParts_induction {motive : List Char → Prop} (hsound : Sound find) (text : List Char)
    (nil : motive [])
    (plain : ∀ c text, find (c :: text) = none → motive text → motive (c :: text))
    (masked : ∀ text found, find text = some found →
      motive (text.drop (found.lead ++ found.removed).length) → motive text) : motive text := by
  induction hlength : text.length using Nat.strong_induction_on generalizing text with
  | _ n ih =>
    cases text with
    | nil => exact nil
    | cons c text =>
      cases h : find (c :: text) with
      | none => exact plain c text h (ih text.length (by simp [← hlength]) text rfl)
      | some found =>
        have hpos := List.length_pos_of_ne_nil (hsound _ _ h).2
        refine masked _ found h (ih _ ?_ _ rfl)
        rw [List.length_drop, hlength]
        have : 0 < n := by simp [← hlength]
        omega

lemma original_subParts (hsound : Sound find) (text : List Char) :
    original (subParts find 0 text) = text := by
  induction text using subParts_induction hsound with
  | nil => rfl
  | plain c text h ih => rw [subParts_of_none h, original_cons, ih, Part.before_plain, List.singleton_append]
  | masked text found h ih =>
    rw [subParts_of_some hsound h, original_cons, ih, Part.before_masked]
    obtain ⟨rest, hrest⟩ := (hsound text found h).1
    conv_lhs => rw [← hrest, List.drop_left]
    exact hrest

lemma exists_find_of_mem (hsound : Sound find) (h : .masked found ∈ subParts find 0 text) :
    ∃ rest, find rest = some found := by
  induction text using subParts_induction hsound with
  | nil => cases h
  | plain c text hnone ih =>
    rw [subParts_of_none hnone, List.mem_cons] at h
    exact ih (h.resolve_left nofun)
  | masked text found' hfound ih =>
    rw [subParts_of_some hsound hfound, List.mem_cons] at h
    rcases h with heq | hmem
    · cases heq
      exact ⟨text, hfound⟩
    · exact ih hmem

/-- Where nothing is found from within a text on, whatever follows it, that text is kept. -/
lemma sub_append {before after : List Char}
    (h : ∀ rest, rest <:+ before → rest ≠ [] → find (rest ++ after) = none) :
    sub find (before ++ after) = before ++ sub find after := by
  induction before with
  | nil => rfl
  | cons c before ih =>
    have hnone : find (c :: (before ++ after)) = none :=
      h (c :: before) List.suffix_rfl (List.cons_ne_nil c before)
    rw [List.cons_append, sub_of_none hnone,
      ih fun rest hrest => h rest (hrest.trans (List.suffix_cons c before)), List.cons_append]

/-! ### Forbidden words -/

/-- One of the words is in the text. -/
def Contains (words : Set (List Char)) (text : List Char) : Prop := ∃ word ∈ words, word <:+: text

/-- One of the words is in what is left of a text where nothing has been put in. -/
def Shows (words : Set (List Char)) (shown : List (Option Char)) : Prop :=
  ∃ word ∈ words, word.map some <:+: shown

/-- A text that is no part of a word, and ends every word beside it. -/
def Seals (words : Set (List Char)) (inserted : List Char) : Prop :=
  ∃ first middle last, inserted = first :: (middle ++ [last]) ∧
    ∀ word ∈ words, first ∉ word ∧ last ∉ word ∧ middle.length < word.length

/-- A text that shows what `shown` shows, and where `shown` shows nothing has something put in. -/
inductive Fills (words : Set (List Char)) : List (Option Char) → List Char → Prop
  | nil : Fills words [] []
  | plain (c : Char) {shown : List (Option Char)} {text : List Char} (h : Fills words shown text) :
      Fills words (some c :: shown) (c :: text)
  | masked {inserted : List Char} (hseals : Seals words inserted) {shown : List (Option Char)}
      {text : List Char} (h : Fills words shown text) :
      Fills words (none :: shown) (inserted ++ text)

variable {words : Set (List Char)} {shown : List (Option Char)} {word before after : List Char}

section Separators

variable {α : Type*} {a : α} {part l m : List α}

lemma prefix_of_not_mem (ha : a ∉ part) (h : part <+: l ++ a :: m) : part <+: l := by
  induction l generalizing part with
  | nil =>
    cases part with
    | nil => exact List.nil_prefix
    | cons b part => exact absurd ((List.cons_prefix_cons.mp h).1 ▸ List.mem_cons_self) ha
  | cons b l ih =>
    cases part with
    | nil => exact List.nil_prefix
    | cons d part =>
      obtain ⟨rfl, hpre⟩ := List.cons_prefix_cons.mp h
      exact List.cons_prefix_cons.mpr ⟨rfl, ih (List.not_mem_of_not_mem_cons ha) hpre⟩

lemma infix_or_infix_of_not_mem (ha : a ∉ part) (h : part <:+: l ++ a :: m) :
    part <:+: l ∨ part <:+: m := by
  induction l with
  | nil =>
    rcases List.infix_cons_iff.mp h with hpre | hinfix
    · exact Or.inl (prefix_of_not_mem ha hpre).isInfix
    · exact Or.inr hinfix
  | cons b l ih =>
    rw [List.cons_append, List.infix_cons_iff] at h
    rcases h with hpre | hinfix
    · exact Or.inl (prefix_of_not_mem ha hpre).isInfix
    · exact (ih hinfix).imp_left fun h => h.trans (List.suffix_cons b l).isInfix

end Separators

lemma infix_of_seals (hword : word ∈ words) (hseals : Seals words before)
    (h : word <:+: before ++ after) : word <:+: after := by
  obtain ⟨first, middle, last, rfl, hout⟩ := hseals
  obtain ⟨hfirst, hlast, hlength⟩ := hout word hword
  have hparts : first :: (middle ++ [last]) ++ after = [] ++ first :: (middle ++ last :: after) := by
    simp
  rw [hparts] at h
  rcases infix_or_infix_of_not_mem hfirst h with hnil | h
  · rw [List.infix_nil.mp hnil]
    exact List.nil_infix
  · rcases infix_or_infix_of_not_mem hlast h with hmiddle | hafter
    · exact absurd hmiddle.length_le (not_le.mpr hlength)
    · exact hafter

namespace Fills

lemma append {shown' : List (Option Char)} {text' : List Char} (h : Fills words shown text)
    (h' : Fills words shown' text') : Fills words (shown ++ shown') (text ++ text') := by
  induction h with
  | nil => exact h'
  | plain c _ ih => exact .plain c ih
  | masked hseals _ ih =>
    rw [List.append_assoc]
    exact .masked hseals ih

lemma map_some (words : Set (List Char)) (text : List Char) :
    Fills words (text.map some) text := by
  induction text with
  | nil => exact .nil
  | cons c text ih => exact .plain c ih

lemma prefix_iff (h : Fills words shown text) (hword : word ∈ words) :
    ∀ {rest}, rest <:+ word → (rest <+: text ↔ rest.map some <+: shown) := by
  intro rest hrest
  induction h generalizing rest with
  | nil => simp
  | plain c _ ih =>
    cases rest with
    | nil => simp
    | cons d rest =>
      rw [List.map_cons, List.cons_prefix_cons, List.cons_prefix_cons, Option.some.injEq,
        ih ((List.suffix_cons d rest).trans hrest)]
  | @masked inserted hseals shown text _ ih =>
    cases rest with
    | nil => simp
    | cons d rest =>
      obtain ⟨first, middle, last, rfl, hout⟩ := hseals
      constructor
      · intro h
        obtain ⟨rfl, -⟩ := List.cons_prefix_cons.mp h
        exact absurd (hrest.subset List.mem_cons_self) (hout word hword).1
      · intro h
        cases (List.cons_prefix_cons.mp h).1

lemma infix_iff (h : Fills words shown text) (hword : word ∈ words) :
    word <:+: text ↔ word.map some <:+: shown := by
  induction h with
  | nil => simp
  | plain c h ih =>
    rw [List.infix_cons_iff, List.infix_cons_iff, ih,
      (Fills.plain c h).prefix_iff hword List.suffix_rfl]
  | masked hseals h ih =>
    rw [List.infix_cons_iff, ← ih]
    constructor
    · exact fun h => Or.inr (infix_of_seals hword hseals h)
    · rintro (hpre | hinfix)
      · exact ((Fills.masked hseals h).prefix_iff hword List.suffix_rfl).mpr hpre |>.isInfix
      · exact hinfix.trans (List.suffix_append _ _).isInfix

/-- A word is in the new text where it is shown, and nowhere else. -/
lemma contains_iff (h : Fills words shown text) : Contains words text ↔ Shows words shown :=
  exists_congr fun _ => and_congr_right fun hword => h.infix_iff hword

end Fills

/-! ### What a substitution shows -/

/-- What is kept of a text, and where something is put in. -/
def kept : List Part → List (Option Char)
  | [] => []
  | .plain c :: parts => some c :: kept parts
  | .masked found :: parts => found.lead.map some ++ none :: kept parts

/-- What is put in seals the words out. -/
def Sealed (words : Set (List Char)) (parts : List Part) : Prop :=
  ∀ found, .masked found ∈ parts → Seals words found.inserted

variable {part : Part} {parts : List Part}

lemma Sealed.of_cons (h : Sealed words (part :: parts)) : Sealed words parts :=
  fun found hfound => h found (List.mem_cons_of_mem _ hfound)

lemma fills_kept (h : Sealed words parts) : Fills words (kept parts) (replaced parts) := by
  induction parts with
  | nil => exact .nil
  | cons part parts ih =>
    cases part with
    | plain c => exact .plain c (ih h.of_cons)
    | masked found =>
      rw [replaced_cons, Part.after_masked, List.append_assoc]
      exact (Fills.map_some words found.lead).append
        (.masked (h found List.mem_cons_self) (ih h.of_cons))

lemma prefix_original_of_kept (h : word.map some <+: kept parts) : word <+: original parts := by
  induction parts generalizing word with
  | nil => simpa [kept] using h
  | cons part parts ih =>
    cases part with
    | plain c =>
      cases word with
      | nil => exact List.nil_prefix
      | cons d word =>
        obtain ⟨hd, hpre⟩ := List.cons_prefix_cons.mp h
        rw [original_cons, Part.before_plain, List.singleton_append]
        exact List.cons_prefix_cons.mpr ⟨Option.some_injective _ hd, ih hpre⟩
    | masked found =>
      have hlead : word.map some <+: found.lead.map some := prefix_of_not_mem (by simp) h
      rw [original_cons, Part.before_masked, List.append_assoc]
      exact ((List.prefix_map_iff_of_injective (Option.some_injective _)).mp hlead).trans
        (List.prefix_append _ _)

/-- Where every word is found, none is kept: each lead is shorter than a word. -/
lemma not_shows_kept (hsound : Sound find)
    (hfind : ∀ text, ∀ word ∈ words, word <+: text → find text ≠ none)
    (hlead : ∀ text found, find text = some found → ∀ word ∈ words, found.lead.length < word.length)
    (text : List Char) : ¬ Shows words (kept (subParts find 0 text)) := by
  rintro ⟨word, hword, h⟩
  induction text using subParts_induction hsound with
  | nil =>
    have hnil : word = [] := by simpa [subParts, kept] using h
    obtain ⟨found, hfound⟩ := Option.ne_none_iff_exists'.mp
      (hfind [] word hword (hnil ▸ List.nil_prefix))
    exact (hsound [] found hfound).2 (List.prefix_nil.mp (hsound [] found hfound).1)
  | plain c text hnone ih =>
    have horiginal := original_subParts hsound (c :: text)
    rw [subParts_of_none hnone] at h horiginal
    rcases List.infix_cons_iff.mp h with hpre | hinfix
    · exact hfind (c :: text) word hword (horiginal ▸ prefix_original_of_kept hpre) hnone
    · exact ih hinfix
  | masked text found hfound ih =>
    rw [subParts_of_some hsound hfound] at h
    rcases infix_or_infix_of_not_mem (by simp) h with hinfix | hinfix
    · have hlength := hinfix.length_le
      rw [List.length_map, List.length_map] at hlength
      exact absurd hlength (not_le.mpr (hlead text found hfound word hword))
    · exact ih hinfix

end Substitution
