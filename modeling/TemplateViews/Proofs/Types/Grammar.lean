import TemplateViews.Proofs.Text.NamePath
import TemplateViews.Proofs.Text.Trim
import TemplateViews.Proofs.Types.Brackets

/-! The grammar of type names. The texts of a name are balanced, so the commas between
its arguments are the ones it is cut at, and its brackets nest as deep as its arguments. -/

namespace TemplateViews

/-- A path behind any number of double colons, between blanks. -/
inductive SpellsPath : List Char → List Char → Prop
  | intro {before path after : List Char} (count : Nat) (hbefore : ∀ c ∈ before, isBlank c = true)
      (hpath : IsNamePath [':', ':'] path) (hafter : ∀ c ∈ after, isBlank c = true) :
      SpellsPath (before ++ (colons count ++ path) ++ after) path

/-- The texts of a type name. -/
inductive Spells : List Char → TypeName → Prop
  | plain {cs path : List Char} (hpath : SpellsPath cs path) :
      Spells cs (.named (String.ofList path) [])
  | generic {cs path last : List Char} {args : List (List Char × TypeName)}
      (hpath : SpellsPath cs path) (hne : args ≠ []) (hargs : ∀ arg ∈ args, Spells arg.1 arg.2)
      (hlast : ∀ c ∈ last, isBlank c = true) :
      Spells (cs ++ '<' :: (joinWith [','] (args.map Prod.fst) ++ ['>']) ++ last)
        (.named (String.ofList path) (args.map Prod.snd))

namespace TypeName

mutual

/-- How deep the arguments of a name nest. -/
def depth : TypeName → Nat
  | malformed _ => 0
  | named _ [] => 0
  | named _ (arg :: args) => max arg.depth (deepest args) + 1

def deepest : List TypeName → Nat
  | [] => 0
  | arg :: args => max arg.depth (deepest args)

end

/-- All of the name could be read. -/
inductive WellFormed : TypeName → Prop
  | named {base : String} {args : List TypeName} (hargs : ∀ arg ∈ args, arg.WellFormed) :
      WellFormed (.named base args)

theorem depth_named {base : String} {args : List TypeName} (h : args ≠ []) :
    (named base args).depth = deepest args + 1 := by
  cases args with
  | nil => exact absurd rfl h
  | cons arg args => simp only [depth, deepest]

end TypeName

theorem nests_joinWith {args : List (List Char × TypeName)}
    (h : ∀ arg ∈ args, Nests arg.2.depth arg.1) :
    Nests (TypeName.deepest (args.map Prod.snd)) (joinWith [','] (args.map Prod.fst)) := by
  have hcomma : Nests 0 [','] := nests_singleton (by decide) (by decide)
  induction args with
  | nil => exact nests_nil
  | cons arg args ih =>
    have harg := h arg (by simp)
    have hrest := ih fun a ha => h a (by simp [ha])
    by_cases hnil : args = []
    · subst hnil
      simpa [TypeName.deepest, joinWith] using harg
    · rw [List.map_cons, List.map_cons, joinWith_cons (by simpa using hnil)]
      simpa [TypeName.deepest] using (harg.append hcomma).append hrest

theorem isTypePath_iff {cs : List Char} : isTypePath cs = true ↔ IsNamePath [':', ':'] cs := by
  have hcolon {name : List Char} (hname : isIdentifier name = true) : ':' ∉ name :=
    not_mem_identifier hname (by decide)
  constructor
  · intro h
    rw [← joinWith_splitColons cs]
    exact isNamePath_joinWith (splitColons_ne_nil cs) (List.all_eq_true.mp h)
  · intro h
    rw [isTypePath]
    induction h with
    | single hname => simp [splitColons_of_not_mem (hcolon hname), hname]
    | cons hname _ ih =>
      rw [splitColons_append _ (hcolon hname), List.all_cons, hname, ih]
      rfl

namespace SpellsPath

variable {cs path : List Char}

theorem isNamePath (h : SpellsPath cs path) : IsNamePath [':', ':'] path := by
  cases h with
  | intro count hbefore hpath hafter => exact hpath

theorem not_mem (h : SpellsPath cs path) {c : Char} (hblank : isBlank c = false)
    (hpart : isNamePart c = false) (hcolon : c ≠ ':') : c ∉ cs := by
  cases h with
  | intro count hbefore hpath hafter =>
    simp only [List.mem_append, not_or]
    have hnotBlank {ds : List Char} (hds : ∀ d ∈ ds, isBlank d = true) : c ∉ ds := by
      intro hc
      rw [hds c hc] at hblank
      cases hblank
    exact ⟨⟨hnotBlank hbefore, fun hc => hcolon (mem_colons hc),
      hpath.not_mem hpart (by simpa using hcolon)⟩, hnotBlank hafter⟩

theorem plain (h : SpellsPath cs path) : ∀ c ∈ cs, c ≠ '<' ∧ c ≠ '>' ∧ c ≠ ',' := by
  intro c hc
  refine ⟨?_, ?_, ?_⟩ <;> rintro rfl <;>
    exact h.not_mem (by decide) (by decide) (by decide) hc

theorem pad (h : SpellsPath cs path) {before after : List Char}
    (hbefore : ∀ c ∈ before, isBlank c = true) (hafter : ∀ c ∈ after, isBlank c = true) :
    SpellsPath (before ++ cs ++ after) path := by
  cases h with
  | @intro before' _ after' count hbefore' hpath hafter' =>
    have hassoc : before ++ (before' ++ (colons count ++ path) ++ after') ++ after =
        before ++ before' ++ (colons count ++ path) ++ (after' ++ after) := by simp
    rw [hassoc]
    exact .intro count (List.forall_mem_append.mpr ⟨hbefore, hbefore'⟩) hpath
      (List.forall_mem_append.mpr ⟨hafter', hafter⟩)

end SpellsPath

theorem IsNamePath.spellsPath {path : List Char} (h : IsNamePath [':', ':'] path) :
    SpellsPath path path := by
  have hpath := SpellsPath.intro 0 (List.forall_mem_nil _) h (List.forall_mem_nil _)
  rwa [List.nil_append, List.append_nil] at hpath

theorem passes_of_blank {cs : List Char} (h : ∀ c ∈ cs, isBlank c = true) : Passes 0 cs := by
  refine passes_of_plain fun c hc => ⟨?_, ?_, ?_⟩ <;> rintro rfl <;>
    exact absurd (h _ hc) (by decide)

theorem nests_of_blank {cs : List Char} (h : ∀ c ∈ cs, isBlank c = true) : Nests 0 cs := by
  refine nests_of_plain fun c hc => ⟨?_, ?_⟩ <;> rintro rfl <;> exact absurd (h _ hc) (by decide)

namespace Spells

variable {cs : List Char} {name : TypeName}

theorem passes (h : Spells cs name) : Passes 0 cs := by
  induction h with
  | plain hpath => exact passes_of_plain hpath.plain
  | generic hpath _ _ hlast ih =>
    have hargs := passes_joinWith (List.forall_mem_map.mpr ih)
    exact ((passes_of_plain hpath.plain).append hargs.bracket).append (passes_of_blank hlast)

theorem nests (h : Spells cs name) : Nests name.depth cs := by
  induction h with
  | plain hpath =>
    exact nests_of_plain fun c hc => ⟨(hpath.plain c hc).1, (hpath.plain c hc).2.1⟩
  | @generic _ _ _ args hpath hne _ hlast ih =>
    have hfront := nests_of_plain fun c hc => ⟨(hpath.plain c hc).1, (hpath.plain c hc).2.1⟩
    have hargs := nests_joinWith ih
    have hall := (hfront.append hargs.bracket).append (nests_of_blank hlast)
    rw [TypeName.depth_named (by simpa using hne)]
    simpa using hall

theorem wellFormed (h : Spells cs name) : name.WellFormed := by
  induction h with
  | plain hpath => exact .named (by simp)
  | generic _ _ _ _ ih => exact .named (List.forall_mem_map.mpr ih)

theorem pad (h : Spells cs name) {before after : List Char}
    (hbefore : ∀ c ∈ before, isBlank c = true) (hafter : ∀ c ∈ after, isBlank c = true) :
    Spells (before ++ cs ++ after) name := by
  cases h with
  | plain hpath => exact .plain (hpath.pad hbefore hafter)
  | @generic front path last args hpath hne hargs hlast =>
    have hfront : SpellsPath (before ++ front) path := by
      rw [← List.append_nil (before ++ front)]
      exact hpath.pad hbefore (by simp)
    have hspells := generic hfront hne hargs (List.forall_mem_append.mpr ⟨hlast, hafter⟩)
    simpa only [List.append_assoc] using hspells

theorem of_trim (h : Spells (trim cs) name) : Spells cs name := by
  obtain ⟨before, after, hbefore, hafter, hcs⟩ := exists_blanks_trim cs
  have hpad := h.pad hbefore hafter
  rwa [← hcs] at hpad

end Spells

end TemplateViews
