import Mathlib.Data.List.Flatten
import TemplateViews.Compiler
import TemplateViews.Proofs.Source.Constants
import TemplateViews.Proofs.Source.Page
import TemplateViews.Proofs.Source.Signature

/-! The path at which generated source declares its view. The headers of the modules around the
view's struct name the pieces of the scope that are not empty, so the name that is exported is
this path unless the scope has empty pieces. -/

namespace TemplateViews

def readModule (text : List Char) : Option (List Char) :=
  between? "pub mod ".toList " \x7b".toList text

def readStruct (text : List Char) : Option (List Char) :=
  between? "pub struct ".toList [';'] text

/-- The modules that are open where the first struct without fields stands, and its name. -/
def declaredPath (opened : List (List Char)) : List (List Char) → Option (List (List Char))
  | [] => none
  | text :: texts =>
    match readStruct text, readModule text with
    | some type, _ => some (opened ++ [type])
    | none, some module => declaredPath (opened ++ [module]) texts
    | none, none => declaredPath (if text = ['}'] then opened.dropLast else opened) texts

/-- The path that lines of code declare, however they are indented. -/
def pathOfView (code : List (List Char)) : Option (List (List Char)) :=
  declaredPath [] (code.map trim)

def textsOf (lines : List SourceLine) : List (List Char) :=
  lines.map fun line => trim line.text.toList

theorem trim_chars (line : SourceLine) : trim line.chars = trim line.text.toList := by
  obtain ⟨before, hbefore, hchars⟩ := exists_blanks_chars line
  rw [hchars, trim_append_lineFeed, trim, trim, trimStart, trimStart,
    List.dropWhile_append_of_pos hbefore]

theorem map_trim_chars (lines : List SourceLine) :
    (lines.map SourceLine.chars).map trim = textsOf lines := by
  rw [textsOf, List.map_map]
  exact List.map_congr_left fun line _ => trim_chars line

theorem textsOf_block (header : String) (lines : List SourceLine) :
    textsOf (block header lines) = trim (header ++ " \x7b").toList :: (textsOf lines ++ [['}']]) := by
  have hclose : trim ("\x7d" ++ "").toList = ['}'] := by decide
  simp only [textsOf, block, List.map_append, List.map_cons, List.map_map, List.map_nil, scaffold,
    hclose, List.cons_append]
  rfl

theorem textsOf_append (lines more : List SourceLine) :
    textsOf (lines ++ more) = textsOf lines ++ textsOf more := List.map_append

/-- A text that neither opens nor closes a module and declares no struct. -/
structure Passed (text : List Char) : Prop where
  struct : readStruct text = none
  module : readModule text = none
  close : text ≠ ['}']

instance (text : List Char) : Decidable (Passed text) :=
  decidable_of_iff (readStruct text = none ∧ readModule text = none ∧ text ≠ ['}'])
    ⟨fun h => ⟨h.1, h.2.1, h.2.2⟩, fun h => ⟨h.struct, h.module, h.close⟩⟩

section Path

variable {opened path : List (List Char)} {text inner : List Char} {texts more : List (List Char)}

theorem declaredPath_append (h : declaredPath opened texts = some path) :
    declaredPath opened (texts ++ more) = some path := by
  induction texts generalizing opened with
  | nil => cases h
  | cons text texts ih =>
    rw [List.cons_append]
    unfold declaredPath at h ⊢
    split at h
    · exact h
    · exact ih h
    · exact ih h

theorem declaredPath_passed (h : ∀ text ∈ texts, Passed text) :
    declaredPath opened (texts ++ more) = declaredPath opened more := by
  induction texts with
  | nil => rfl
  | cons text texts ih =>
    obtain ⟨htext, htexts⟩ := List.forall_mem_cons.mp h
    rw [List.cons_append, declaredPath, htext.struct, htext.module]
    dsimp only
    rw [if_neg htext.close, ih htexts]

theorem trim_between {front back : String} {first last : Char} (inner : String)
    (hfirst : front.toList.head? = some first) (hlast : back.toList.getLast? = some last)
    (hfirstVisible : isBlank first = false) (hlastVisible : isBlank last = false) :
    trim (front ++ inner ++ back).toList = (front ++ inner ++ back).toList := by
  rw [String.toList_append, String.toList_append, List.append_assoc]
  apply trim_of_ends
  · refine ⟨first, ?_, hfirstVisible⟩
    rw [List.head?_append, hfirst]
    rfl
  · intro c hc
    rw [List.getLast?_append, List.getLast?_append, hlast] at hc
    obtain rfl := Option.some.inj hc
    exact hlastVisible

theorem declaredPath_module (module : String) :
    declaredPath opened (trim ("pub mod " ++ module ++ " \x7b").toList :: texts) =
      declaredPath (opened ++ [module.toList]) texts := by
  have htrim : trim ("pub mod " ++ module ++ " \x7b").toList =
      ("pub mod " ++ module ++ " \x7b").toList := trim_between module rfl rfl (by decide) (by decide)
  have hmodule : readModule ("pub mod " ++ module ++ " \x7b").toList = some module.toList :=
    between?_eq_some_iff.mpr (by simp)
  have hstruct : readStruct ("pub mod " ++ module ++ " \x7b").toList = none :=
    between?_of_not_prefix (by simp)
  rw [htrim, declaredPath, hstruct, hmodule]

theorem declaredPath_struct (type : String) :
    declaredPath opened (trim ("pub struct " ++ type ++ ";").toList :: texts) =
      some (opened ++ [type.toList]) := by
  have htrim : trim ("pub struct " ++ type ++ ";").toList = ("pub struct " ++ type ++ ";").toList :=
    trim_between type rfl rfl (by decide) (by decide)
  have hstruct : readStruct ("pub struct " ++ type ++ ";").toList = some type.toList :=
    between?_eq_some_iff.mpr (by simp)
  rw [htrim, declaredPath, hstruct]

theorem declaredPath_viewLines (type : String) (inputs : Inputs) (body : List SourceLine) :
    declaredPath opened (textsOf (viewLines type inputs body)) = some (opened ++ [type.toList]) := by
  have hfront : ∀ text ∈ textsOf [scaffold "use ::std::fmt::Write as _;", emptyLine],
      Passed text := by decide +kernel
  have hlines : viewLines type inputs body =
      [scaffold "use ::std::fmt::Write as _;", emptyLine] ++
        scaffold ("pub struct " ++ type ++ ";") :: (viewLines type inputs body).drop 3 := rfl
  rw [hlines, textsOf_append, declaredPath_passed hfront]
  exact declaredPath_struct type

theorem declaredPath_inModules {lines : List SourceLine} (modules : List String) (type : List Char)
    (h : ∀ opened, declaredPath opened (textsOf lines) = some (opened ++ [type])) :
    declaredPath opened (textsOf (inModules modules lines)) =
      some (opened ++ modules.map String.toList ++ [type]) := by
  induction modules generalizing opened with
  | nil => simpa [inModules] using h opened
  | cons module modules ih =>
    have hblock : inModules (module :: modules) lines =
        block ("pub mod " ++ module) (inModules modules lines) := rfl
    rw [hblock, textsOf_block, declaredPath_module, declaredPath_append ih, List.map_cons,
      List.append_assoc opened, List.singleton_append]

end Path

theorem pathOfView_crateLines (name : ViewName) (inputs : Inputs) (body : List SourceLine) :
    pathOfView ((crateLines name inputs body).map SourceLine.chars) =
      some (name.modules.map String.toList ++ [name.type.toList]) := by
  have hhead : ∀ text ∈ textsOf [scaffold "// Generated by simpleview. Do not edit.",
      scaffold "#![allow(unused, non_snake_case, non_camel_case_types)]", emptyLine],
      Passed text := by decide +kernel
  have hmodules : declaredPath [] (textsOf (inModules name.modules
      (viewLines name.type inputs body))) =
        some ([] ++ name.modules.map String.toList ++ [name.type.toList]) :=
    declaredPath_inModules _ _ fun opened => declaredPath_viewLines name.type inputs body
  rw [pathOfView, map_trim_chars, crateLines, List.append_assoc, List.append_assoc, textsOf_append,
    declaredPath_passed hhead, textsOf_append, declaredPath_append hmodules, List.nil_append]

/-- Pieces are lost from a path exactly if some are empty. -/
theorem flatMap_filter_eq_iff {separator : List Char} (hseparator : separator ≠ [])
    (pieces : List (List Char)) :
    (pieces.filter (· ≠ [])).flatMap (· ++ separator) = pieces.flatMap (· ++ separator) ↔
      [] ∉ pieces := by
  have hle (pieces : List (List Char)) :
      ((pieces.filter (· ≠ [])).flatMap (· ++ separator)).length ≤
        (pieces.flatMap (· ++ separator)).length :=
    (List.filter_sublist.flatMap _).length_le
  induction pieces with
  | nil => simp
  | cons piece pieces ih =>
    by_cases hpiece : piece = []
    · have hne : ((piece :: pieces).filter (· ≠ [])).flatMap (· ++ separator) ≠
          (piece :: pieces).flatMap (· ++ separator) := by
        intro he
        have hlength := congrArg List.length he
        have hpos := List.length_pos_iff.mpr hseparator
        have hrest := hle pieces
        rw [List.filter_cons_of_neg (by simpa using hpiece), List.flatMap_cons, List.length_append,
          List.length_append] at hlength
        omega
      exact iff_of_false hne (by simp [hpiece])
    · rw [List.filter_cons_of_pos (by simpa using hpiece), List.flatMap_cons, List.flatMap_cons,
        List.append_cancel_left_eq, List.mem_cons, not_or]
      exact ih.trans ⟨fun h => ⟨Ne.symm hpiece, h⟩, And.right⟩

theorem ViewName.map_toList_modules (name : ViewName) :
    name.modules.map String.toList = (splitColons name.scope.toList).filter (· ≠ []) := by
  simp [modules]

theorem ViewName.toList_qualified {name : ViewName} (h : name.scope ≠ "") :
    name.qualified.toList =
      joinWith [':', ':'] (splitColons name.scope.toList ++ [name.type.toList]) := by
  rw [joinWith_concat (splitColons_ne_nil _), joinWith_splitColons, qualified, if_neg h]
  simp

/-- The modules and the type make up the qualified name unless the scope has empty pieces. -/
theorem ViewName.joinWith_modules_iff (name : ViewName) :
    joinWith [':', ':'] (name.modules.map String.toList ++ [name.type.toList]) =
      name.qualified.toList ↔ name.scope = "" ∨ [] ∉ splitColons name.scope.toList := by
  rw [name.map_toList_modules]
  by_cases hscope : name.scope = ""
  · have hpath : joinWith [':', ':'] ((splitColons name.scope.toList).filter (· ≠ []) ++
        [name.type.toList]) = name.qualified.toList := by
      rw [qualified, hscope]
      rfl
    exact iff_of_true hpath (.inl hscope)
  · rw [toList_qualified hscope, ← flatMap_append_eq_joinWith, ← flatMap_append_eq_joinWith,
      List.append_cancel_right_eq, flatMap_filter_eq_iff (by simp), or_iff_right hscope]

/-- Lines of a crate that declare a view, and the name under which they export and call it. The
name is the declared path unless the scope has empty pieces. -/
structure DeclaresView (name : ViewName) (inputs : Inputs) (lines : List SourceLine) : Prop where
  path : pathOfView (lines.map SourceLine.chars) =
    some (name.modules.map String.toList ++ [name.type.toList])
  exported : (constantsIn (lines.map SourceLine.chars)).lookup "__NAME" =
    some name.qualified.toList
  expected : (Engine.forName name).name = name.qualified
  called : (shownIn name lines).arguments = [inputs.arguments.toList]
  named : ∀ path, pathOfView (lines.map SourceLine.chars) = some path →
    (joinWith [':', ':'] path = name.qualified.toList ↔
      name.scope = "" ∨ [] ∉ splitColons name.scope.toList)

theorem declaresView_crateLines (name : ViewName) (inputs : Inputs) {body : List SourceLine}
    (hbody : ∀ line ∈ body, ∃ n, line.origin = some n) :
    DeclaresView name inputs (crateLines name inputs body) where
  path := pathOfView_crateLines name inputs body
  exported := by
    rw [constantsIn_crateLines]
    rfl
  expected := rfl
  called := by rw [shownIn_crateLines name inputs hbody]
  named := fun path hpath => by
    obtain rfl := Option.some.inj ((pathOfView_crateLines name inputs body).symm.trans hpath)
    exact name.joinWith_modules_iff

/-- Every view that is generated is declared in the modules of its scope; whether its name leads
there depends on the scope alone. -/
theorem declaresView_of_generate {name : ViewName} {inputs : Inputs} {template : String}
    {source : ViewSource} (h : generate name inputs template = .ok source) :
    ∃ lines, source = .ofLines name.qualified lines ∧
      (StayOnLine name inputs → linesOf source.code.toList = lines.map SourceLine.chars) ∧
      DeclaresView name inputs lines := by
  obtain ⟨body, hbody, rfl⟩ := generate_eq_ok_iff.mp h
  refine ⟨crateLines name inputs body, rfl, fun hname => ?_, ?_⟩
  · exact linesOf_ofLines (onOneLine_crateLines hname hbody.onOneLine)
  · exact declaresView_crateLines name inputs fun line hline =>
      (hbody.origin_of_mem hline).imp fun n => And.right

/-- Two modules are opened around the view, and its name leads through both. -/
theorem declaresView_of_generate_nested :
    ∃ source, generate ⟨"app::pages", "Home"⟩ {} "hi" = .ok source ∧
      ∃ lines, source = .ofLines "app::pages::Home" lines ∧
        DeclaresView ⟨"app::pages", "Home"⟩ {} lines ∧
        pathOfView (lines.map SourceLine.chars) =
          some ["app".toList, "pages".toList, "Home".toList] := by
  have hname : (generate ⟨"app::pages", "Home"⟩ {} "hi").map ViewSource.name =
      .ok "app::pages::Home" := by decide +kernel
  obtain ⟨source, hsource, -⟩ := map_eq_ok_iff.mp hname
  obtain ⟨lines, hlines, -, hview⟩ := declaresView_of_generate hsource
  have hmodules : (ViewName.mk "app::pages" "Home").modules.map String.toList ++ ["Home".toList] =
      ["app".toList, "pages".toList, "Home".toList] := by decide +kernel
  exact ⟨source, hsource, lines, hlines, hview, by rw [hview.path, ← hmodules]⟩

/-- Double colons at the end of a scope stand in the name and open no module. -/
theorem trailing_colons_not_declared :
    ∃ source, generate ⟨"a::", "View"⟩ {} "hi" = .ok source ∧
      pathOfView (linesOf source.code.toList) = some ["a".toList, "View".toList] ∧
      source.name = "a::::View" ∧
      (constantsIn (linesOf source.code.toList)).lookup "__NAME" = some "a::::View".toList ∧
      joinWith [':', ':'] ["a".toList, "View".toList] ≠ "a::::View".toList := by
  have hname : (generate ⟨"a::", "View"⟩ {} "hi").map ViewSource.name = .ok "a::::View" := by
    decide +kernel
  obtain ⟨source, hsource, -⟩ := map_eq_ok_iff.mp hname
  obtain ⟨body, hbody, rfl⟩ := generate_eq_ok_iff.mp hsource
  have hline : StayOnLine ⟨"a::", "View"⟩ {} :=
    { scope := by decide, type := by decide, model := by decide, handler := by decide }
  have hlines : linesOf (ViewSource.ofBody ⟨"a::", "View"⟩ {} body).code.toList =
      (crateLines ⟨"a::", "View"⟩ {} body).map SourceLine.chars :=
    linesOf_ofLines (onOneLine_crateLines hline hbody.onOneLine)
  have hview : DeclaresView ⟨"a::", "View"⟩ {} (crateLines ⟨"a::", "View"⟩ {} body) :=
    declaresView_crateLines _ _ fun line hline => (hbody.origin_of_mem hline).imp fun n => And.right
  have hmodules : (ViewName.mk "a::" "View").modules.map String.toList ++ ["View".toList] =
      ["a".toList, "View".toList] := by decide
  refine ⟨_, hsource, ?_, rfl, ?_, by decide⟩
  · rw [hlines, hview.path, ← hmodules]
  · rw [hlines, hview.exported]
    rfl

end TemplateViews
