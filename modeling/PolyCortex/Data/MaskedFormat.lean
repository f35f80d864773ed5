import PolyCortex.Data.PercentFormat
import PolyCortex.Data.Substitution

/-!
# Formats of which a part is masked

A format is formatted with the same arguments before and after a substitution in it. `visible` reads the
format before the substitution and fails where what is removed is not plain text of the format. With
values in their order, the new format can be used if and only if `visible` does not fail
(`visible_of_finished`), and then the formatted text shows what was to be seen of the old one.
-/

namespace MaskedFormat

open PercentFormat Substitution

variable {A : Type*} {r : Renderer A} {σ σ' τ τ' : State A} {values values' : List A}
  {args args' : Arguments A} {mode : Mode} {parts : List Part} {found : Match} {c : Char}
  {text out out' new : List Char} {shown : List (Option Char)} {words : Set (List Char)}

/-- What can be seen of a formatted text when parts of its format are masked: each of them begins and
ends outside every placeholder and takes no value. (From a mapping it may take one, since a mapping does
not have to be used up.) -/
def visible (r : Renderer A) : State A → List Part → Option (State A × List (Option Char))
  | σ, [] => some (σ, [])
  | σ, .plain c :: parts =>
    (step r σ c).bind fun next =>
      (visible r next.1 parts).map fun final => (final.1, next.2.map some ++ final.2)
  | σ, .masked found :: parts =>
    (run r σ found.lead).bind fun before =>
      (run r before.1 found.removed).bind fun after =>
        if before.1.mode = .text ∧ after.1.mode = .text ∧ after.1.args.left = before.1.args.left then
          (visible r after.1 parts).map fun final => (final.1, before.2.map some ++ none :: final.2)
        else none

/-- Every lead ends what placeholder there is, and no percent sign is parted from its placeholder by
what is removed before it. -/
def Separated : List Part → Prop
  | [] => True
  | .plain _ :: parts => Separated parts
  | .masked found :: parts =>
    Settles found.lead ∧ '%' ∉ found.inserted ∧
      ('%' ∈ found.removed → (original parts).head? ≠ some '%') ∧ Separated parts

lemma visible_plain_eq_some_iff : visible r σ (.plain c :: parts) = some (σ', shown) ↔
    ∃ τ first later, step r σ c = some (τ, first) ∧ visible r τ parts = some (σ', later) ∧
      first.map some ++ later = shown := by
  simp only [visible, Option.bind_eq_some_iff, Option.map_eq_some_iff, Prod.mk.injEq, Prod.exists]
  constructor
  · rintro ⟨τ, first, hstep, _, later, hvisible, rfl, rfl⟩
    exact ⟨τ, first, later, hstep, hvisible, rfl⟩
  · rintro ⟨τ, first, later, hstep, hvisible, rfl⟩
    exact ⟨τ, first, hstep, σ', later, hvisible, rfl, rfl⟩

lemma visible_masked_eq_some_iff : visible r σ (.masked found :: parts) = some (σ', shown) ↔
    ∃ before after first hidden later, run r σ found.lead = some (before, first) ∧
      run r before found.removed = some (after, hidden) ∧ before.mode = .text ∧ after.mode = .text ∧
      after.args.left = before.args.left ∧ visible r after parts = some (σ', later) ∧
      first.map some ++ none :: later = shown := by
  simp only [visible, Option.bind_eq_some_iff, Option.map_eq_some_iff,
    Option.ite_none_right_eq_some, Prod.mk.injEq, Prod.exists]
  constructor
  · rintro ⟨before, first, hlead, after, hidden, hremoved, ⟨hbefore, hafter, hleft⟩, _, later,
      hvisible, rfl, rfl⟩
    exact ⟨before, after, first, hidden, later, hlead, hremoved, hbefore, hafter, hleft, hvisible, rfl⟩
  · rintro ⟨before, after, first, hidden, later, hlead, hremoved, hbefore, hafter, hleft, hvisible,
      rfl⟩
    exact ⟨before, first, hlead, after, hidden, hremoved, ⟨hbefore, hafter, hleft⟩, σ', later,
      hvisible, rfl, rfl⟩

lemma run_original_of_visible (h : visible r σ parts = some (σ', shown)) :
    ∃ out, run r σ (original parts) = some (σ', out) := by
  induction parts generalizing σ shown with
  | nil =>
    cases h
    exact ⟨[], rfl⟩
  | cons part parts ih =>
    cases part with
    | plain c =>
      obtain ⟨τ, first, later, hstep, hvisible, rfl⟩ := visible_plain_eq_some_iff.mp h
      obtain ⟨out, hrun⟩ := ih hvisible
      exact ⟨first ++ out, run_cons_eq_some_iff.mpr ⟨τ, first, out, hstep, hrun, rfl⟩⟩
    | masked found =>
      obtain ⟨before, after, first, hidden, later, hlead, hremoved, -, -, -, hvisible, rfl⟩ :=
        visible_masked_eq_some_iff.mp h
      obtain ⟨out, hrun⟩ := ih hvisible
      refine ⟨first ++ hidden ++ out, ?_⟩
      exact run_append_eq_some_iff.mpr ⟨after, first ++ hidden, out,
        run_append_eq_some_iff.mpr ⟨before, first, hidden, hlead, hremoved, rfl⟩, hrun, rfl⟩

/-! ### The new format can be used -/

lemma run_replaced_of_visible (hsep : Separated parts) (hsealed : Sealed words parts)
    (h : visible r ⟨mode, args⟩ parts = some (σ, shown)) (hcovers : args'.Covers args) :
    ∃ args'' new, run r ⟨mode, args'⟩ (replaced parts) = some (⟨σ.mode, args''⟩, new) ∧
      args''.Covers σ.args ∧ Fills words shown new := by
  induction parts generalizing mode args args' shown with
  | nil =>
    cases h
    exact ⟨args', [], rfl, hcovers, .nil⟩
  | cons part parts ih =>
    cases part with
    | plain c =>
      obtain ⟨τ, first, later, hstep, hvisible, rfl⟩ := visible_plain_eq_some_iff.mp h
      obtain ⟨args₁, hstep', hcovers₁⟩ := step_covers hstep hcovers
      obtain ⟨args₂, new, hrun, hcovers₂, hfills⟩ := ih hsep hsealed.of_cons hvisible hcovers₁
      refine ⟨args₂, first ++ new, ?_, hcovers₂, (Fills.map_some words first).append hfills⟩
      exact run_cons_eq_some_iff.mpr ⟨_, first, new, hstep', hrun, rfl⟩
    | masked found =>
      obtain ⟨-, hpercent, -, hsep⟩ := hsep
      obtain ⟨⟨_, args₁⟩, ⟨_, args₂⟩, first, hidden, later, hlead, hremoved, rfl, rfl, hleft, hvisible,
        rfl⟩ := visible_masked_eq_some_iff.mp h
      obtain ⟨args₁', hlead', hcovers₁⟩ := run_covers hlead hcovers
      have hcovers₂ := hcovers₁.trans (covers_of_run hremoved rfl hleft)
      obtain ⟨args₃, new, hrun, hcovers₃, hfills⟩ := ih hsep hsealed.of_cons hvisible hcovers₂
      refine ⟨args₃, first ++ found.inserted ++ new, ?_, hcovers₃, ?_⟩
      · exact run_append_eq_some_iff.mpr ⟨_, first ++ found.inserted, new,
          run_append_eq_some_iff.mpr ⟨_, first, found.inserted, hlead', run_text hpercent, rfl⟩,
          hrun, rfl⟩
      · rw [List.append_assoc]
        exact (Fills.map_some words first).append (.masked (hsealed found List.mem_cons_self) hfills)

/-! ### The new format cannot be used -/

/-- A masked part and what follows it, read piece by piece. -/
lemma run_pieces {lead middle rest : List Char}
    (h : run r σ (lead ++ middle ++ rest) = some (σ', out)) :
    ∃ before after first second later, run r σ lead = some (before, first) ∧
      run r before middle = some (after, second) ∧ run r after rest = some (σ', later) := by
  obtain ⟨after, _, later, hpieces, hrest, -⟩ := run_append_eq_some_iff.mp h
  obtain ⟨before, first, second, hlead, hmiddle, -⟩ := run_append_eq_some_iff.mp hpieces
  exact ⟨before, after, first, second, later, hlead, hmiddle, hrest⟩

/-- Once the new format has more values left than the old one, not both use all their values. -/
lemma not_finished_of_ahead (hsep : Separated parts) (h : Ahead σ τ)
    (hopened : Opened σ τ → (original parts).head? ≠ some '%')
    (hσ : run r σ (original parts) = some (σ', out))
    (hτ : run r τ (replaced parts) = some (τ', out')) (hfinished : σ'.finished) :
    τ'.finished = false := by
  induction parts generalizing σ τ out out' with
  | nil =>
    cases hσ
    cases hτ
    exact h.not_finished hfinished
  | cons part parts ih =>
    cases part with
    | plain c =>
      obtain ⟨σ₁, _, _, hstepσ, hrunσ, -⟩ := run_cons_eq_some_iff.mp hσ
      obtain ⟨τ₁, _, _, hstepτ, hrunτ, -⟩ := run_cons_eq_some_iff.mp hτ
      obtain ⟨hahead, hclosed⟩ := h.step (fun h => by simpa using hopened h) hstepσ hstepτ
      exact ih hsep hahead (fun h => absurd h hclosed) hrunσ hrunτ
    | masked found =>
      obtain ⟨hsettles, hpercent, hnext, hsep⟩ := hsep
      obtain ⟨σ₁, σ₂, _, _, _, hleadσ, hremoved, hrunσ⟩ := run_pieces hσ
      obtain ⟨τ₁, τ₂, _, _, _, hleadτ, hinserted, hrunτ⟩ := run_pieces hτ
      obtain ⟨values, hkeyless⟩ := h.keyless
      obtain ⟨values₁, rfl, -⟩ := hkeyless.run_settles hsettles hleadσ
      cases h.run hsettles.1 hleadσ hleadτ with
      | text hlt =>
        rw [run_text hpercent] at hinserted
        cases hinserted
        obtain ⟨values₂, hσ₂, hsuffix⟩ := (Keyless.text values₁).run hremoved
        have hlt₂ := hsuffix.length_le.trans_lt hlt
        refine ih hsep (hσ₂.ahead hlt₂.le fun _ => hlt₂) (fun hopened => ?_) hrunσ hrunτ
        exact hnext (percent_mem_of_run hremoved fun htext => by cases hopened.1.symm.trans htext)

/-- With values in their order, formats that use them up before and after the substitution agree on
which of them each placeholder takes: none of the removed texts takes one. -/
lemma visible_of_finished (hsep : Separated parts) (h : Keyless σ values)
    (hσ : run r σ (original parts) = some (σ', out)) (hfinished : σ'.finished)
    (hτ : run r σ (replaced parts) = some (τ', out')) (hfinished' : τ'.finished) :
    ∃ shown, visible r σ parts = some (σ', shown) := by
  induction parts generalizing σ values out out' with
  | nil =>
    cases hσ
    exact ⟨[], rfl⟩
  | cons part parts ih =>
    cases part with
    | plain c =>
      obtain ⟨σ₁, first, _, hstepσ, hrunσ, -⟩ := run_cons_eq_some_iff.mp hσ
      obtain ⟨τ₁, _, _, hstepτ, hrunτ, -⟩ := run_cons_eq_some_iff.mp hτ
      cases hstepσ.symm.trans hstepτ
      obtain ⟨values₁, hkeyless, -⟩ := h.step hstepσ
      obtain ⟨shown, hvisible⟩ := ih hsep hkeyless hrunσ hrunτ
      exact ⟨_, visible_plain_eq_some_iff.mpr ⟨σ₁, first, shown, hstepσ, hvisible, rfl⟩⟩
    | masked found =>
      obtain ⟨hsettles, hpercent, hnext, hsep⟩ := hsep
      obtain ⟨σ₁, σ₂, first, hidden, _, hleadσ, hremoved, hrunσ⟩ := run_pieces hσ
      obtain ⟨τ₁, τ₂, _, _, _, hleadτ, hinserted, hrunτ⟩ := run_pieces hτ
      cases hleadσ.symm.trans hleadτ
      obtain ⟨values₁, rfl, -⟩ := h.run_settles hsettles hleadσ
      rw [run_text hpercent] at hinserted
      cases hinserted
      obtain ⟨values₂, hσ₂, hsuffix⟩ := (Keyless.text values₁).run hremoved
      by_cases huntaken : σ₂.mode = .text ∧ values₂.length = values₁.length
      · obtain ⟨htext, hlength⟩ := huntaken
        cases hsuffix.eq_of_length hlength
        cases hσ₂ with
        | text =>
          obtain ⟨shown, hvisible⟩ := ih hsep (.text values₁) hrunσ hrunτ
          exact ⟨_, visible_masked_eq_some_iff.mpr ⟨_, _, first, hidden, shown, hleadσ, hremoved, rfl,
            rfl, rfl, hvisible, rfl⟩⟩
        | percent => cases htext
        | spec => cases htext
      · have hahead := hσ₂.ahead hsuffix.length_le fun htext =>
          lt_of_le_of_ne hsuffix.length_le fun hlength => huntaken ⟨htext, hlength⟩
        have hunfinished := not_finished_of_ahead hsep hahead
          (fun hopened => hnext (percent_mem_of_run hremoved fun htext => by
            cases hopened.1.symm.trans htext)) hrunσ hrunτ hfinished
        exact absurd hfinished' (by simp [hunfinished])

/-! ### The formatted text -/

lemma format_eq_some_iff : format r text args = some out ↔
    ∃ σ, run r ⟨.text, args⟩ text = some (σ, out) ∧ σ.finished := by
  simp only [format, Option.bind_eq_some_iff, Prod.exists, Option.ite_none_right_eq_some,
    Option.some.injEq]
  constructor
  · rintro ⟨σ, _, hrun, hfinished, rfl⟩
    exact ⟨σ, hrun, hfinished⟩
  · rintro ⟨σ, hrun, hfinished⟩
    exact ⟨σ, out, hrun, hfinished, rfl⟩

/-- No forbidden word can be seen, and nothing of a placeholder has been removed. -/
def Spared (r : Renderer A) (words : Set (List Char)) (parts : List Part) (args : Arguments A) : Prop :=
  ∃ σ shown, visible r ⟨.text, args⟩ parts = some (σ, shown) ∧ ¬ Shows words shown

/-- The new format can be used and shows no forbidden word. -/
def Safe (r : Renderer A) (words : Set (List Char)) (text : List Char) (args : Arguments A) : Prop :=
  ∃ out, format r text args = some out ∧ ¬ Contains words out

lemma format_replaced_of_visible (hsep : Separated parts) (hsealed : Sealed words parts)
    (hformat : (format r (original parts) args).isSome)
    (hvisible : visible r ⟨.text, args⟩ parts = some (σ, shown)) :
    ∃ new, format r (replaced parts) args = some new ∧ Fills words shown new := by
  obtain ⟨out, hout⟩ := Option.isSome_iff_exists.mp hformat
  obtain ⟨σ', hrun, hfinished⟩ := format_eq_some_iff.mp hout
  obtain ⟨out', hrun'⟩ := run_original_of_visible hvisible
  cases hrun.symm.trans hrun'
  obtain ⟨args', new, hnew, hcovers, hfills⟩ :=
    run_replaced_of_visible hsep hsealed hvisible (.refl args)
  refine ⟨new, format_eq_some_iff.mpr ⟨_, hnew, ?_⟩, hfills⟩
  rw [finished_of_covers hcovers]
  exact hfinished

theorem safe_of_spared (hsep : Separated parts) (hsealed : Sealed words parts)
    (hformat : (format r (original parts) args).isSome) (h : Spared r words parts args) :
    Safe r words (replaced parts) args := by
  obtain ⟨σ, shown, hvisible, hshows⟩ := h
  obtain ⟨new, hnew, hfills⟩ := format_replaced_of_visible hsep hsealed hformat hvisible
  exact ⟨new, hnew, fun hcontains => hshows (hfills.contains_iff.mp hcontains)⟩

/-- The converse, for values in their order and where nothing of a placeholder has been removed. -/
theorem spared_of_safe (hsep : Separated parts) (hsealed : Sealed words parts)
    (hformat : (format r (original parts) args).isSome)
    (hargs : args.isPositional ∨ (visible r ⟨.text, args⟩ parts).isSome)
    (h : Safe r words (replaced parts) args) : Spared r words parts args := by
  obtain ⟨new, hnew, hcontains⟩ := h
  have hvisible : ∃ σ shown, visible r ⟨.text, args⟩ parts = some (σ, shown) := by
    rcases hargs with hpositional | hvisible
    · match args with
      | .positional values =>
        obtain ⟨out, hout⟩ := Option.isSome_iff_exists.mp hformat
        obtain ⟨σ, hσ, hfinished⟩ := format_eq_some_iff.mp hout
        obtain ⟨τ, hτ, hfinished'⟩ := format_eq_some_iff.mp hnew
        exact ⟨σ, visible_of_finished hsep (.text values) hσ hfinished hτ hfinished'⟩
    · obtain ⟨⟨σ, shown⟩, h⟩ := Option.isSome_iff_exists.mp hvisible
      exact ⟨σ, shown, h⟩
  obtain ⟨σ, shown, hvisible⟩ := hvisible
  obtain ⟨new', hnew', hfills⟩ := format_replaced_of_visible hsep hsealed hformat hvisible
  cases hnew.symm.trans hnew'
  exact ⟨σ, shown, hvisible, fun hshows => hcontains (hfills.contains_iff.mpr hshows)⟩

end MaskedFormat
