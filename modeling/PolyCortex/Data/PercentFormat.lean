import Mathlib.Data.List.Basic
import Mathlib.Tactic

/-!
# Percent formatting

The `%` of a format string and its arguments, as an automaton that reads the format from left to right
and takes an argument whenever a placeholder asks for one. How a value is printed is left to a
`Renderer`, so what is shown here holds of values of every type.
-/

namespace PercentFormat

/-! ### Placeholders -/

/-- How far the placeholder that is being read has got. -/
inductive Stage where
  | flags
  | width
  | starWidth
  | point
  | precision
  | starPrecision
  | length
  deriving DecidableEq, Repr

def digits : List Char := "0123456789".toList

def lengths : List Char := ['h', 'l', 'L']

/-- The stage after a character, unless the character is the conversion. -/
def Stage.next (stage : Stage) (c : Char) : Option Stage :=
  match stage with
  | .flags =>
    -- a zero before the width is a flag
    if c ∈ "-+ #0".toList then some .flags
    else if c = '*' then some .starWidth
    else if c ∈ digits then some .width
    else if c = '.' then some .point
    else if c ∈ lengths then some .length
    else none
  | .width =>
    if c ∈ digits then some .width
    else if c = '.' then some .point
    else if c ∈ lengths then some .length
    else none
  | .starWidth =>
    if c = '.' then some .point else if c ∈ lengths then some .length else none
  | .point =>
    if c = '*' then some .starPrecision
    else if c ∈ digits then some .precision
    else if c ∈ lengths then some .length
    else none
  | .precision =>
    if c ∈ digits then some .precision else if c ∈ lengths then some .length else none
  | .starPrecision => if c ∈ lengths then some .length else none
  | .length => none

/-- The conversions of values. -/
def conversions : List Char := "sraidouxXeEfFgGc".toList

/-- The characters a placeholder may hold before its conversion. -/
def modifiers : List Char := "-+ #0123456789*.hlL".toList

/-- A placeholder without its conversion, and the arguments that its stars have taken. -/
structure Spec where
  text : List Char
  stars : List ℤ
  deriving DecidableEq, Repr

/-! ### Arguments -/

/-- What a format is given: values in their order, or a mapping. A placeholder takes from a mapping what
was looked up last, which at first is the mapping itself. -/
inductive Arguments (A : Type*) where
  | positional (values : List A)
  | mapping (lookup : List Char → Option A) (current : Option A)

namespace Arguments

variable {A : Type*}

def take : Arguments A → Option (A × Arguments A)
  | .positional [] => none
  | .positional (value :: values) => some (value, .positional values)
  | .mapping _ none => none
  | .mapping lookup (some value) => some (value, .mapping lookup none)

/-- Look up the value under a key. -/
def select (key : List Char) : Arguments A → Option (Arguments A)
  | .positional _ => none
  | .mapping lookup _ => (lookup key).map fun value => .mapping lookup (some value)

/-- How many values have not been taken. A mapping is not counted. -/
def left : Arguments A → ℕ
  | .positional values => values.length
  | .mapping _ _ => 0

def isPositional : Arguments A → Bool
  | .positional _ => true
  | .mapping _ _ => false

/-- The same arguments, but that nothing may have been taken from the mapping yet. -/
inductive Covers : Arguments A → Arguments A → Prop
  | refl (args : Arguments A) : Covers args args
  | untaken (lookup : List Char → Option A) (current : Option A) :
      Covers (.mapping lookup current) (.mapping lookup none)

variable {args args' : Arguments A} {value : A}

lemma take_positional {values : List A} (h : (positional values).take = some (value, args)) :
    ∃ rest, values = value :: rest ∧ args = .positional rest := by
  cases values with
  | nil => cases h
  | cons value rest =>
    cases h
    exact ⟨rest, rfl, rfl⟩

lemma take_mapping {lookup : List Char → Option A} {current : Option A}
    (h : (mapping lookup current).take = some (value, args)) : args = .mapping lookup none := by
  cases current with
  | none => cases h
  | some value =>
    cases h
    rfl

lemma Covers.trans {args'' : Arguments A} (h : args.Covers args') (h' : args'.Covers args'') :
    args.Covers args'' := by
  cases h with
  | refl => exact h'
  | untaken lookup current =>
    cases h' with
    | refl => exact .untaken lookup current
    | untaken => exact .untaken lookup current

lemma Covers.left_eq (h : Covers args args') : args.left = args'.left := by
  cases h <;> rfl

end Arguments

/-! ### Formatting -/

/-- What formatting takes from the values: the width a star stands for, and the text of a value. -/
structure Renderer (A : Type*) where
  star : A → Option ℤ
  render : Spec → Char → A → Option (List Char)

inductive Mode where
  | text
  | percent
  | key (depth : ℕ) (name : List Char)
  | spec (stage : Stage) (spec : Spec)
  deriving DecidableEq, Repr

structure State (A : Type*) where
  mode : Mode
  args : Arguments A

variable {A : Type*}

/-- Read a character of a placeholder. -/
def specStep (r : Renderer A) (stage : Stage) (spec : Spec) (args : Arguments A) (c : Char) :
    Option (State A × List Char) :=
  match stage.next c with
  | some next =>
    if c = '*' then
      args.take.bind fun taken => (r.star taken.1).map fun n =>
        (⟨.spec next ⟨spec.text ++ [c], spec.stars ++ [n]⟩, taken.2⟩, [])
    else some (⟨.spec next ⟨spec.text ++ [c], spec.stars⟩, args⟩, [])
  | none =>
    if c ∈ conversions then
      args.take.bind fun taken => (r.render spec c taken.1).map fun out => (⟨.text, taken.2⟩, out)
    else none

/-- Read a character of the format. -/
def step (r : Renderer A) (σ : State A) (c : Char) : Option (State A × List Char) :=
  match σ.mode with
  | .text => if c = '%' then some (⟨.percent, σ.args⟩, []) else some (⟨.text, σ.args⟩, [c])
  | .percent =>
    if c = '%' then some (⟨.text, σ.args⟩, ['%'])
    else if c = '(' then
      -- values in their order have no keys
      if σ.args.isPositional then none else some (⟨.key 0 [], σ.args⟩, [])
    else specStep r .flags ⟨[], []⟩ σ.args c
  | .key depth name =>
    -- the parentheses in a key are balanced
    if c = '(' then some (⟨.key (depth + 1) (name ++ [c]), σ.args⟩, [])
    else if c = ')' then
      match depth with
      | 0 => (σ.args.select name).map fun args => (⟨.spec .flags ⟨[], []⟩, args⟩, [])
      | depth + 1 => some (⟨.key depth (name ++ [c]), σ.args⟩, [])
    else some (⟨.key depth (name ++ [c]), σ.args⟩, [])
  | .spec stage spec => specStep r stage spec σ.args c

def run (r : Renderer A) : State A → List Char → Option (State A × List Char)
  | σ, [] => some (σ, [])
  | σ, c :: format =>
    (step r σ c).bind fun next =>
      (run r next.1 format).map fun final => (final.1, next.2 ++ final.2)

/-- The format has been read to its end, and every value has been used. -/
def State.finished (σ : State A) : Bool := σ.mode = .text && σ.args.left = 0

/-- `format % args`. -/
def format (r : Renderer A) (template : List Char) (args : Arguments A) : Option (List Char) :=
  (run r ⟨.text, args⟩ template).bind fun final =>
    if final.1.finished then some final.2 else none

/-! ### What a step does -/

variable {r : Renderer A} {σ σ' τ : State A} {stage next : Stage} {spec : Spec} {mode : Mode}
  {args args' : Arguments A} {c : Char} {out : List Char} {template rest : List Char}

lemma mem_modifiers_of_next (h : stage.next c = some next) : c ∈ modifiers := by
  have hflags : "-+ #0".toList ⊆ modifiers := by decide
  have hdigits : digits ⊆ modifiers := by decide
  have hlengths : lengths ⊆ modifiers := by decide
  have hstar : '*' ∈ modifiers := by decide
  have hpoint : '.' ∈ modifiers := by decide
  cases stage <;> simp only [Stage.next] at h <;> (try split_ifs at h) <;>
    first
    | exact hflags ‹_›
    | exact hdigits ‹_›
    | exact hlengths ‹_›
    | exact ‹c = '*'› ▸ hstar
    | exact ‹c = '.'› ▸ hpoint
    | cases h

/-- The three things a character of a placeholder does: it is a modifier, or a star, or the conversion. -/
inductive SpecStep (r : Renderer A) (stage : Stage) (spec : Spec) (args : Arguments A) (c : Char) :
    State A → List Char → Prop
  | modifier {next : Stage} (hnext : stage.next c = some next) (hstar : c ≠ '*') :
      SpecStep r stage spec args c ⟨.spec next ⟨spec.text ++ [c], spec.stars⟩, args⟩ []
  | star {next : Stage} {value : A} {args' : Arguments A} {n : ℤ}
      (hnext : stage.next c = some next) (hstar : c = '*') (htake : args.take = some (value, args'))
      (hn : r.star value = some n) :
      SpecStep r stage spec args c ⟨.spec next ⟨spec.text ++ [c], spec.stars ++ [n]⟩, args'⟩ []
  | conversion {value : A} {args' : Arguments A} {out : List Char} (hnext : stage.next c = none)
      (hmem : c ∈ conversions) (htake : args.take = some (value, args'))
      (hout : r.render spec c value = some out) :
      SpecStep r stage spec args c ⟨.text, args'⟩ out

lemma specStep_eq_some_iff :
    specStep r stage spec args c = some (σ, out) ↔ SpecStep r stage spec args c σ out := by
  constructor
  · intro h
    cases hnext : stage.next c with
    | some next =>
      by_cases hstar : c = '*'
      · subst hstar
        simp only [specStep, hnext, if_true, Option.bind_eq_some_iff, Option.map_eq_some_iff,
          Prod.mk.injEq] at h
        obtain ⟨⟨value, args'⟩, htake, n, hn, rfl, rfl⟩ := h
        exact .star hnext rfl htake hn
      · simp only [specStep, hnext, if_neg hstar, Option.some.injEq, Prod.mk.injEq] at h
        obtain ⟨rfl, rfl⟩ := h
        exact .modifier hnext hstar
    | none =>
      simp only [specStep, hnext, Option.ite_none_right_eq_some, Option.bind_eq_some_iff,
        Option.map_eq_some_iff, Prod.mk.injEq] at h
      obtain ⟨hmem, ⟨value, args'⟩, htake, _, hout, rfl, rfl⟩ := h
      exact .conversion hnext hmem htake hout
  · intro h
    cases h with
    | modifier hnext hstar => simp [specStep, hnext, hstar]
    | star hnext hstar htake hn =>
      subst hstar
      simp [specStep, hnext, htake, hn]
    | conversion hnext hmem htake hout => simp [specStep, hnext, hmem, htake, hout]

/-- A placeholder cannot hold a percent sign. -/
lemma SpecStep.ne_percent (h : SpecStep r stage spec args c σ out) : c ≠ '%' := by
  have hmodifiers : '%' ∉ modifiers := by decide
  have hconversions : '%' ∉ conversions := by decide
  cases h with
  | modifier hnext => exact fun hc => hmodifiers (hc ▸ mem_modifiers_of_next hnext)
  | star hnext => exact fun hc => hmodifiers (hc ▸ mem_modifiers_of_next hnext)
  | conversion _ hmem => exact fun hc => hconversions (hc ▸ hmem)

@[simp] lemma run_nil (r : Renderer A) (σ : State A) : run r σ [] = some (σ, []) := rfl

lemma run_cons_eq_some_iff : run r σ (c :: template) = some (σ', out) ↔
    ∃ τ first later, step r σ c = some (τ, first) ∧ run r τ template = some (σ', later) ∧
      first ++ later = out := by
  simp only [run, Option.bind_eq_some_iff, Option.map_eq_some_iff, Prod.mk.injEq, Prod.exists]
  constructor
  · rintro ⟨τ, first, hstep, _, later, hrun, rfl, rfl⟩
    exact ⟨τ, first, later, hstep, hrun, rfl⟩
  · rintro ⟨τ, first, later, hstep, hrun, rfl⟩
    exact ⟨τ, first, hstep, σ', later, hrun, rfl, rfl⟩

lemma run_append_eq_some_iff : run r σ (template ++ rest) = some (σ', out) ↔
    ∃ τ first later, run r σ template = some (τ, first) ∧ run r τ rest = some (σ', later) ∧
      first ++ later = out := by
  induction template generalizing σ out with
  | nil => simp
  | cons c template ih =>
    rw [List.cons_append, run_cons_eq_some_iff]
    constructor
    · rintro ⟨τ, first, _, hstep, hrun, rfl⟩
      obtain ⟨υ, middle, later, hmiddle, hlater, rfl⟩ := ih.mp hrun
      exact ⟨υ, first ++ middle, later, run_cons_eq_some_iff.mpr ⟨τ, first, middle, hstep, hmiddle, rfl⟩,
        hlater, List.append_assoc ..⟩
    · rintro ⟨υ, _, later, hfirst, hlater, rfl⟩
      obtain ⟨τ, first, middle, hstep, hmiddle, rfl⟩ := run_cons_eq_some_iff.mp hfirst
      exact ⟨τ, first, middle ++ later, hstep, ih.mpr ⟨υ, middle, later, hmiddle, hlater, rfl⟩,
        (List.append_assoc ..).symm⟩

/-- A text without a percent sign is copied. -/
lemma run_text (h : '%' ∉ template) :
    run r ⟨.text, args⟩ template = some (⟨.text, args⟩, template) := by
  induction template with
  | nil => rfl
  | cons c template ih =>
    rw [List.mem_cons, not_or] at h
    rw [run_cons_eq_some_iff]
    exact ⟨⟨.text, args⟩, [c], template, by simp [step, Ne.symm h.1], ih h.2, rfl⟩

lemma percent_mem_of_run (h : run r ⟨.text, args⟩ template = some (σ, out)) (hmode : σ.mode ≠ .text) :
    '%' ∈ template := by
  by_contra hpercent
  rw [run_text hpercent] at h
  cases h
  exact hmode rfl

/-! ### More of a mapping -/

lemma SpecStep.covers (h : SpecStep r stage spec args c σ out) (hcovers : args'.Covers args) :
    ∃ args'', SpecStep r stage spec args' c ⟨σ.mode, args''⟩ out ∧ args''.Covers σ.args := by
  cases hcovers with
  | refl => exact ⟨σ.args, h, .refl _⟩
  | untaken lookup current =>
    cases h with
    | modifier hnext hstar => exact ⟨_, .modifier hnext hstar, .untaken lookup current⟩
    | star _ _ htake => cases htake
    | conversion _ _ htake => cases htake

lemma step_percent (r : Renderer A) (args : Arguments A) (hpercent : c ≠ '%') (hparen : c ≠ '(') :
    step r ⟨.percent, args⟩ c = specStep r .flags ⟨[], []⟩ args c := by
  simp [step, hpercent, hparen]

/-- What a mapping of which a value has been taken still formats, a mapping of which none has been taken
formats as well. -/
lemma step_covers (h : step r ⟨mode, args⟩ c = some (σ, out)) (hcovers : args'.Covers args) :
    ∃ args'', step r ⟨mode, args'⟩ c = some (⟨σ.mode, args''⟩, out) ∧ args''.Covers σ.args := by
  cases hcovers with
  | refl => exact ⟨σ.args, h, .refl _⟩
  | untaken lookup current =>
    have hspec : ∀ {stage spec}, specStep r stage spec (.mapping lookup none) c = some (σ, out) →
        ∃ args'', specStep r stage spec (.mapping lookup current) c = some (⟨σ.mode, args''⟩, out) ∧
          args''.Covers σ.args := fun h => by
      obtain ⟨args'', hstep, hcovers⟩ := (specStep_eq_some_iff.mp h).covers (.untaken lookup current)
      exact ⟨args'', specStep_eq_some_iff.mpr hstep, hcovers⟩
    cases mode with
    | text =>
      simp only [step] at h ⊢
      split_ifs at h ⊢ <;> cases h <;> exact ⟨_, rfl, .untaken lookup current⟩
    | percent =>
      by_cases hpercent : c = '%'
      · subst hpercent
        cases h
        exact ⟨_, rfl, .untaken lookup current⟩
      · by_cases hparen : c = '('
        · subst hparen
          cases h
          exact ⟨_, rfl, .untaken lookup current⟩
        · rw [step_percent r _ hpercent hparen] at h ⊢
          exact hspec h
    | key depth name =>
      simp only [step, Arguments.select] at h ⊢
      split_ifs at h ⊢ with hopen hclose
      · cases h
        exact ⟨_, rfl, .untaken lookup current⟩
      · cases depth with
        | zero =>
          simp only [Option.map_map, Option.map_eq_some_iff] at h ⊢
          obtain ⟨value, hvalue, hσ⟩ := h
          cases hσ
          exact ⟨_, ⟨value, hvalue, rfl⟩, .refl _⟩
        | succ depth =>
          cases h
          exact ⟨_, rfl, .untaken lookup current⟩
      · cases h
        exact ⟨_, rfl, .untaken lookup current⟩
    | spec stage spec => exact hspec h

lemma run_covers (h : run r ⟨mode, args⟩ template = some (σ, out)) (hcovers : args'.Covers args) :
    ∃ args'', run r ⟨mode, args'⟩ template = some (⟨σ.mode, args''⟩, out) ∧
      args''.Covers σ.args := by
  induction template generalizing mode args args' out with
  | nil =>
    cases h
    exact ⟨args', rfl, hcovers⟩
  | cons c template ih =>
    obtain ⟨τ, first, later, hstep, hrun, rfl⟩ := run_cons_eq_some_iff.mp h
    obtain ⟨args₁, hstep', hcovers₁⟩ := step_covers hstep hcovers
    obtain ⟨args₂, hrun', hcovers₂⟩ := ih hrun hcovers₁
    exact ⟨args₂, run_cons_eq_some_iff.mpr ⟨_, first, later, hstep', hrun', rfl⟩, hcovers₂⟩

lemma finished_of_covers (h : args'.Covers args) :
    (⟨mode, args'⟩ : State A).finished = (⟨mode, args⟩ : State A).finished := by
  simp [State.finished, h.left_eq]

/-! ### Values in their order -/

/-- Before the values, with no key of a mapping being read. -/
inductive Keyless : State A → List A → Prop
  | text (values : List A) : Keyless ⟨.text, .positional values⟩ values
  | percent (values : List A) : Keyless ⟨.percent, .positional values⟩ values
  | spec (stage : Stage) (spec : Spec) (values : List A) :
      Keyless ⟨.spec stage spec, .positional values⟩ values

variable {values values' : List A}

lemma SpecStep.keyless (h : SpecStep r stage spec (.positional values) c σ out) :
    ∃ values', Keyless σ values' ∧ values' <:+ values := by
  cases h with
  | modifier => exact ⟨values, .spec .., List.suffix_rfl⟩
  | star _ _ htake =>
    obtain ⟨rest, rfl, rfl⟩ := Arguments.take_positional htake
    exact ⟨rest, .spec .., List.suffix_cons ..⟩
  | conversion _ _ htake =>
    obtain ⟨rest, rfl, rfl⟩ := Arguments.take_positional htake
    exact ⟨rest, .text _, List.suffix_cons ..⟩

lemma step_percent_positional (hpercent : c ≠ '%')
    (h : step r ⟨.percent, .positional values⟩ c = some (σ, out)) :
    SpecStep r .flags ⟨[], []⟩ (.positional values) c σ out := by
  by_cases hparen : c = '('
  · subst hparen
    cases h
  · rw [step_percent r _ hpercent hparen] at h
    exact specStep_eq_some_iff.mp h

lemma Keyless.step (hσ : Keyless σ values) (h : step r σ c = some (σ', out)) :
    ∃ values', Keyless σ' values' ∧ values' <:+ values := by
  cases hσ with
  | text =>
    simp only [PercentFormat.step] at h
    split_ifs at h <;> cases h
    · exact ⟨values, .percent _, List.suffix_rfl⟩
    · exact ⟨values, .text _, List.suffix_rfl⟩
  | percent =>
    by_cases hpercent : c = '%'
    · subst hpercent
      cases h
      exact ⟨values, .text _, List.suffix_rfl⟩
    · exact (step_percent_positional hpercent h).keyless
  | spec => exact (specStep_eq_some_iff.mp h).keyless

lemma Keyless.run (hσ : Keyless σ values) (h : run r σ template = some (σ', out)) :
    ∃ values', Keyless σ' values' ∧ values' <:+ values := by
  induction template generalizing σ values out with
  | nil =>
    cases h
    exact ⟨values, hσ, List.suffix_rfl⟩
  | cons c template ih =>
    obtain ⟨τ, first, later, hstep, hrun, rfl⟩ := run_cons_eq_some_iff.mp h
    obtain ⟨values₁, hτ, hsuffix⟩ := hσ.step hstep
    obtain ⟨values₂, hσ', hsuffix'⟩ := ih hτ hrun
    exact ⟨values₂, hσ', hsuffix'.trans hsuffix⟩

/-- What is no modifier ends a placeholder. -/
lemma Keyless.mode_of_not_mem_modifiers (hσ : Keyless σ values) (hpercent : c ≠ '%')
    (hc : c ∉ modifiers) (h : PercentFormat.step r σ c = some (σ', out)) : σ'.mode = .text := by
  have hspec : ∀ {stage spec}, SpecStep r stage spec (.positional values) c σ' out →
      σ'.mode = .text := fun h => by
    cases h with
    | modifier hnext => exact absurd (mem_modifiers_of_next hnext) hc
    | star hnext => exact absurd (mem_modifiers_of_next hnext) hc
    | conversion => rfl
  cases hσ with
  | text =>
    simp only [PercentFormat.step, if_neg hpercent] at h
    cases h
    rfl
  | percent => exact hspec (step_percent_positional hpercent h)
  | spec => exact hspec (specStep_eq_some_iff.mp h)

/-- A piece of a format after which no placeholder is being read, whatever there was before. -/
def Settles (template : List Char) : Prop :=
  '%' ∉ template ∧ ∃ c ∈ template, c ∉ modifiers

lemma Keyless.run_settles (hσ : Keyless σ values) (hsettles : Settles template)
    (h : PercentFormat.run r σ template = some (σ', out)) :
    ∃ values', σ' = ⟨.text, .positional values'⟩ ∧ values' <:+ values := by
  obtain ⟨hpercent, c, hc, hmodifiers⟩ := hsettles
  obtain ⟨before, after, rfl⟩ := List.append_of_mem hc
  simp only [List.mem_append, List.mem_cons, not_or] at hpercent
  obtain ⟨τ, first, _, hbefore, hafter, -⟩ := run_append_eq_some_iff.mp h
  obtain ⟨υ, second, _, hstep, hrun, -⟩ := run_cons_eq_some_iff.mp hafter
  obtain ⟨values₁, hτ, hsuffix₁⟩ := hσ.run hbefore
  have hmode := hτ.mode_of_not_mem_modifiers (Ne.symm hpercent.2.1) hmodifiers hstep
  obtain ⟨values₂, hυ, hsuffix₂⟩ := hτ.step hstep
  cases hυ with
  | text =>
    rw [run_text hpercent.2.2] at hrun
    cases hrun
    exact ⟨values₂, rfl, hsuffix₂.trans hsuffix₁⟩
  | percent => cases hmode
  | spec => cases hmode

/-! ### What is taken from a mapping -/

/-- A state that reading a format may come to with a mapping: what was looked up is there only while the
placeholder that asked for it is read. -/
inductive Mapped (lookup : List Char → Option A) (current : Option A) : State A → Prop
  | untaken (mode : Mode) : Mapped lookup current ⟨mode, .mapping lookup current⟩
  | taken (mode : Mode) : Mapped lookup current ⟨mode, .mapping lookup none⟩
  | selected (stage : Stage) (spec : Spec) (value : A) :
      Mapped lookup current ⟨.spec stage spec, .mapping lookup (some value)⟩

variable {lookup : List Char → Option A} {current current' : Option A}

lemma SpecStep.mapped (h : SpecStep r stage spec (.mapping lookup current') c σ out)
    (hcurrent : Mapped lookup current ⟨.spec stage spec, .mapping lookup current'⟩) :
    Mapped lookup current σ := by
  cases h with
  | modifier =>
    cases hcurrent with
    | untaken => exact .untaken _
    | taken => exact .taken _
    | selected => exact .selected ..
  | star _ _ htake => exact Arguments.take_mapping htake ▸ .taken _
  | conversion _ _ htake => exact Arguments.take_mapping htake ▸ .taken _

lemma Mapped.step (hσ : Mapped lookup current ⟨mode, .mapping lookup current'⟩)
    (h : PercentFormat.step r ⟨mode, .mapping lookup current'⟩ c = some (σ, out)) :
    Mapped lookup current σ := by
  have hmode : (∀ stage spec, mode ≠ .spec stage spec) →
      ∀ mode', Mapped lookup current ⟨mode', .mapping lookup current'⟩ := fun hne mode' => by
    cases hσ with
    | untaken => exact .untaken _
    | taken => exact .taken _
    | selected stage spec => exact absurd rfl (hne stage spec)
  cases mode with
  | text =>
    simp only [PercentFormat.step] at h
    split_ifs at h <;> cases h <;> exact hmode (fun _ _ => nofun) _
  | percent =>
    by_cases hpercent : c = '%'
    · subst hpercent
      cases h
      exact hmode (fun _ _ => nofun) _
    · by_cases hparen : c = '('
      · subst hparen
        cases h
        exact hmode (fun _ _ => nofun) _
      · rw [step_percent r _ hpercent hparen] at h
        exact (specStep_eq_some_iff.mp h).mapped (hmode (fun _ _ => nofun) _)
  | key depth name =>
    simp only [PercentFormat.step, Arguments.select] at h
    split_ifs at h with hopen hclose
    · cases h
      exact hmode (fun _ _ => nofun) _
    · cases depth with
      | zero =>
        simp only [Option.map_map, Option.map_eq_some_iff] at h
        obtain ⟨value, -, hσ'⟩ := h
        cases hσ'
        exact .selected ..
      | succ depth =>
        cases h
        exact hmode (fun _ _ => nofun) _
    · cases h
      exact hmode (fun _ _ => nofun) _
  | spec stage spec => exact (specStep_eq_some_iff.mp h).mapped hσ

lemma Mapped.args_eq (h : Mapped lookup current σ) :
    ∃ current', σ = ⟨σ.mode, .mapping lookup current'⟩ := by
  cases h with
  | untaken => exact ⟨current, rfl⟩
  | taken => exact ⟨none, rfl⟩
  | selected _ _ value => exact ⟨some value, rfl⟩

lemma Mapped.run (hσ : Mapped lookup current σ)
    (h : PercentFormat.run r σ template = some (σ', out)) : Mapped lookup current σ' := by
  induction template generalizing σ out with
  | nil =>
    cases h
    exact hσ
  | cons c template ih =>
    obtain ⟨τ, first, later, hstep, hrun, rfl⟩ := run_cons_eq_some_iff.mp h
    obtain ⟨current', hargs⟩ := hσ.args_eq
    rw [hargs] at hσ hstep
    exact ih (hσ.step hstep) hrun

/-- From text to text: no value has been taken, or the arguments are a mapping. -/
lemma covers_of_run (h : PercentFormat.run r ⟨.text, args⟩ template = some (σ, out))
    (hmode : σ.mode = .text) (hleft : σ.args.left = args.left) : args.Covers σ.args := by
  match args with
  | .positional values =>
    obtain ⟨values', hσ, hsuffix⟩ := (Keyless.text values).run h
    have hvalues : values' = values := by
      refine hsuffix.eq_of_length ?_
      cases hσ <;> exact hleft
    subst hvalues
    cases hσ <;> exact .refl _
  | .mapping lookup current =>
    have hmapped : Mapped lookup current ⟨.text, .mapping lookup current⟩ := .untaken _
    match σ, hmapped.run h with
    | _, .untaken _ => exact .refl _
    | _, .taken _ => exact .untaken lookup current
    | _, .selected .. => cases hmode

/-! ### Two readers of a format -/

/-- Reading the same format, the second has more values left than the first, or it will have them once
the first has ended the placeholder that the second does not know of. -/
inductive Ahead : State A → State A → Prop
  | text {values values' : List A} (h : values.length < values'.length) :
      Ahead ⟨.text, .positional values⟩ ⟨.text, .positional values'⟩
  | percent {values values' : List A} (h : values.length < values'.length) :
      Ahead ⟨.percent, .positional values⟩ ⟨.percent, .positional values'⟩
  | spec {values values' : List A} {stage : Stage} {spec spec' : Spec}
      (h : values.length < values'.length) :
      Ahead ⟨.spec stage spec, .positional values⟩ ⟨.spec stage spec', .positional values'⟩
  | opened {values values' : List A} (h : values.length ≤ values'.length) :
      Ahead ⟨.percent, .positional values⟩ ⟨.text, .positional values'⟩
  | inside {values values' : List A} {stage : Stage} {spec : Spec}
      (h : values.length ≤ values'.length) :
      Ahead ⟨.spec stage spec, .positional values⟩ ⟨.text, .positional values'⟩

/-- The first has just read a percent sign that the second does not know of. -/
def Opened (σ τ : State A) : Prop := σ.mode = .percent ∧ τ.mode = .text

variable {τ' : State A} {spec' : Spec} {out' : List Char}

lemma not_opened (h : σ.mode ≠ .percent) : ¬ Opened σ τ := fun hopened => h hopened.1

lemma SpecStep.ahead (hσ : SpecStep r stage spec (.positional values) c σ out)
    (hτ : SpecStep r stage spec' (.positional values') c τ out')
    (h : values.length < values'.length) : Ahead σ τ ∧ ¬ Opened σ τ := by
  cases hσ with
  | modifier hnext hstar =>
    cases hτ with
    | modifier hnext' =>
      cases hnext.symm.trans hnext'
      exact ⟨.spec h, not_opened nofun⟩
    | star _ hstar' => exact absurd hstar' hstar
    | conversion hnext' => cases hnext.symm.trans hnext'
  | star hnext hstar hargs =>
    cases hτ with
    | modifier _ hstar' => exact absurd hstar hstar'
    | star hnext' _ hargs' =>
      cases hnext.symm.trans hnext'
      obtain ⟨rest, rfl, rfl⟩ := Arguments.take_positional hargs
      obtain ⟨rest', rfl, rfl⟩ := Arguments.take_positional hargs'
      exact ⟨.spec (Nat.lt_of_succ_lt_succ h), not_opened nofun⟩
    | conversion hnext' => cases hnext.symm.trans hnext'
  | conversion hnext _ hargs =>
    cases hτ with
    | modifier hnext' => cases hnext.symm.trans hnext'
    | star hnext' => cases hnext.symm.trans hnext'
    | conversion _ _ hargs' =>
      obtain ⟨rest, rfl, rfl⟩ := Arguments.take_positional hargs
      obtain ⟨rest', rfl, rfl⟩ := Arguments.take_positional hargs'
      exact ⟨.text (Nat.lt_of_succ_lt_succ h), not_opened nofun⟩

lemma SpecStep.inside (hσ : SpecStep r stage spec (.positional values) c σ out)
    (hτ : step r ⟨.text, .positional values'⟩ c = some (τ, out'))
    (h : values.length ≤ values'.length) : Ahead σ τ ∧ ¬ Opened σ τ := by
  simp only [step, if_neg hσ.ne_percent] at hτ
  cases hτ
  cases hσ with
  | modifier => exact ⟨.inside h, not_opened nofun⟩
  | star _ _ htake =>
    obtain ⟨rest, rfl, rfl⟩ := Arguments.take_positional htake
    exact ⟨.inside (Nat.le_of_succ_le h), not_opened nofun⟩
  | conversion _ _ htake =>
    obtain ⟨rest, rfl, rfl⟩ := Arguments.take_positional htake
    exact ⟨.text h, not_opened nofun⟩

lemma Ahead.step (h : Ahead σ τ) (hopened : Opened σ τ → c ≠ '%')
    (hσ : step r σ c = some (σ', out)) (hτ : PercentFormat.step r τ c = some (τ', out')) :
    Ahead σ' τ' ∧ ¬ Opened σ' τ' := by
  cases h with
  | text h =>
    simp only [PercentFormat.step] at hσ hτ
    split_ifs at hσ hτ <;> cases hσ <;> cases hτ
    · exact ⟨.percent h, fun hopened => nomatch hopened.2⟩
    · exact ⟨.text h, not_opened nofun⟩
  | percent h =>
    by_cases hpercent : c = '%'
    · subst hpercent
      cases hσ
      cases hτ
      exact ⟨.text h, not_opened nofun⟩
    · exact (step_percent_positional hpercent hσ).ahead (step_percent_positional hpercent hτ) h
  | spec h => exact (specStep_eq_some_iff.mp hσ).ahead (specStep_eq_some_iff.mp hτ) h
  | opened h => exact (step_percent_positional (hopened ⟨rfl, rfl⟩) hσ).inside hτ h
  | inside h => exact (specStep_eq_some_iff.mp hσ).inside hτ h

lemma Ahead.run (h : Ahead σ τ) (hpercent : '%' ∉ template)
    (hσ : run r σ template = some (σ', out)) (hτ : PercentFormat.run r τ template = some (τ', out')) :
    Ahead σ' τ' := by
  induction template generalizing σ τ out out' with
  | nil =>
    cases hσ
    cases hτ
    exact h
  | cons c template ih =>
    rw [List.mem_cons, not_or] at hpercent
    obtain ⟨σ₁, _, _, hstepσ, hrunσ, -⟩ := run_cons_eq_some_iff.mp hσ
    obtain ⟨τ₁, _, _, hstepτ, hrunτ, -⟩ := run_cons_eq_some_iff.mp hτ
    exact ih (h.step (fun _ => Ne.symm hpercent.1) hstepσ hstepτ).1 hpercent.2 hrunσ hrunτ

lemma Ahead.keyless (h : Ahead σ τ) : ∃ values, Keyless σ values := by
  cases h with
  | text => exact ⟨_, .text _⟩
  | percent => exact ⟨_, .percent _⟩
  | spec => exact ⟨_, .spec ..⟩
  | opened => exact ⟨_, .percent _⟩
  | inside => exact ⟨_, .spec ..⟩

/-- A piece that only the first has read, and that has taken a value or left a placeholder open. -/
lemma Keyless.ahead (hσ : Keyless σ values) (hle : values.length ≤ values'.length)
    (hlt : σ.mode = .text → values.length < values'.length) :
    Ahead σ ⟨.text, .positional values'⟩ := by
  cases hσ with
  | text => exact .text (hlt rfl)
  | percent => exact .opened hle
  | spec => exact .inside hle

/-- Not both have used all their values. -/
lemma Ahead.not_finished (h : Ahead σ τ) (hσ : σ.finished) : τ.finished = false := by
  cases h with
  | text h => simpa [State.finished, Arguments.left] using List.ne_nil_of_length_pos (Nat.zero_lt_of_lt h)
  | percent => cases hσ
  | spec => cases hσ
  | opened => cases hσ
  | inside => cases hσ

end PercentFormat
