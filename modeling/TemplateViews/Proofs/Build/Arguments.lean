import Mathlib.Data.List.Infix
import TemplateViews.Build.Builder

/-! The arguments of a compiler. Most of them are pairs of an option and its value, so what stands
behind the option for a link is the text of a link. -/

namespace TemplateViews

section Pairs

variable {α β : Type} {a b option : α} {front back : List α} {items : List β} {value : β → α}

/-- Neighbours in two lists are neighbours in one of them if the second does not start with the
right one. -/
theorem pair_infix_append_iff (h : back.head? ≠ some b) :
    [a, b] <:+: front ++ back ↔ [a, b] <:+: front ∨ [a, b] <:+: back := by
  induction front with
  | nil => simp
  | cons first front ih =>
    have hstart : [a, b] <+: first :: front ++ back ↔ [a, b] <+: first :: front := by
      cases front with
      | nil =>
        cases back with
        | nil => simp
        | cons c back =>
          have hne : b ≠ c := fun he => h (by rw [he]; rfl)
          simp [List.cons_prefix_cons, hne]
      | cons second front => simp [List.cons_prefix_cons]
    rw [List.cons_append, List.infix_cons_iff, ih, List.infix_cons_iff, ← List.cons_append, hstart,
      or_assoc]

theorem head?_flatMap_pairs_ne (h : b ≠ option) :
    (items.flatMap fun item => [option, value item]).head? ≠ some b := by
  cases items with
  | nil => simp
  | cons item items => simpa using h.symm

/-- A value has its own option in front. -/
theorem pair_infix_flatMap_iff (h : b ≠ option) :
    [a, b] <:+: items.flatMap (fun item => [option, value item]) ↔
      a = option ∧ ∃ item ∈ items, b = value item := by
  induction items with
  | nil => simp
  | cons item items ih =>
    have hpair : [a, b] <:+: [option, value item] ↔ a = option ∧ b = value item := by
      simp [List.infix_cons_iff, List.cons_prefix_cons]
    rw [List.flatMap_cons, pair_infix_append_iff (head?_flatMap_pairs_ne h), hpair, ih, ← and_or_left]
    simp

end Pairs

namespace Builder

variable {builder : Builder} {names : BuildNames} {links : Links} {text : String}

/-- A text that is no option stands behind that for a link exactly if it is the text of one. -/
theorem extern_infix_arguments_iff (hoption : text.toList.head? ≠ some '-')
    (hsource : names.source.text ≠ text) :
    ["--extern", text] <:+: builder.arguments names links ↔
      ∃ module ∈ links.modules, text = module.name ++ "=" ++ module.location.text := by
  have hne {option : String} (hdash : option.toList.head? = some '-') : text ≠ option := by
    rintro rfl
    exact hoption hdash
  have hsourceOnly : ¬ ["--extern", text] <:+: [names.source.text] := by
    simp [List.infix_cons_iff, List.cons_prefix_cons]
  have hfront : ¬ ["--extern", text] <:+: ["--crate-type", "cdylib", "--crate-name", names.crateName,
      "--edition", builder.edition, "--error-format=json", "-C", "debuginfo=0", "-o",
      names.library.text] := by
    have hedition : text ≠ "--edition" := hne rfl
    have hformat : text ≠ "--error-format=json" := hne rfl
    simp [List.infix_cons_iff, List.cons_prefix_cons, hedition, hformat]
  have hlinks : text ≠ "--extern" := hne rfl
  have hdirs : text ≠ "-L" := hne rfl
  rw [arguments, pair_infix_append_iff (by simpa using hsource), or_iff_left hsourceOnly,
    pair_infix_append_iff (head?_flatMap_pairs_ne hdirs), pair_infix_flatMap_iff hdirs,
    Links.arguments, ← List.append_assoc, pair_infix_append_iff (head?_flatMap_pairs_ne hdirs),
    pair_infix_flatMap_iff hdirs, pair_infix_append_iff (head?_flatMap_pairs_ne hlinks),
    pair_infix_flatMap_iff hlinks]
  simp [hfront]

end Builder

end TemplateViews
