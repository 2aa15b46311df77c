import Mathlib.Data.List.Infix
import TemplateViews.Proofs.Source.Mapped
import TemplateViews.Proofs.Source.Statements

/-! What generated source shows of a view's inputs. Its scaffold has one render function, takes
values from pointers and calls the function with them. -/

namespace TemplateViews

/-- What stands between two marks. -/
def between? (front back cs : List Char) : Option (List Char) := do
  let rest ← front.isPrefixOf? cs
  back.isSuffixOf? rest

/-- The parameters of the render function that a line opens. -/
def readParameters (line : List Char) : Option (List Char) :=
  between? "pub fn render(".toList ") -> ::std::fmt::Result \x7b".toList line

/-- A value that is taken from a pointer of the same name, and its type. -/
def readValue (line : List Char) : Option (String × String) := do
  let rest ← between? "let ".toList ") \x7d;".toList line
  let name := rest.takeWhile (· ≠ ' ')
  let type ← (" = unsafe \x7b &*(".toList ++ name ++ " as *const ".toList).isPrefixOf?
    (rest.dropWhile (· ≠ ' '))
  return (String.ofList name, String.ofList type)

/-- The arguments with which a line calls the render function of a view. -/
def readArguments (name : ViewName) (line : List Char) : Option (List Char) :=
  between? (name.qualified.toList ++ "::render(".toList) [')'] line

/-- What lines show of a view's inputs: the parameters of render functions, values with their
types, and the arguments of calls. -/
structure Shown where
  parameters : List (List Char)
  values : List (String × String)
  arguments : List (List Char)

namespace Shown

def nothing : Shown := ⟨[], [], []⟩

def append (shown more : Shown) : Shown :=
  ⟨shown.parameters ++ more.parameters, shown.values ++ more.values,
    shown.arguments ++ more.arguments⟩

@[simp] theorem append_nothing (shown : Shown) : shown.append nothing = shown := by
  simp [append, nothing]

@[simp] theorem nothing_append (shown : Shown) : nothing.append shown = shown := by
  simp [append, nothing]

end Shown

/-- The texts of the lines that no template line stands behind. -/
def scaffoldTexts (lines : List SourceLine) : List (List Char) :=
  (lines.filter (·.origin.isNone)).map (·.text.toList)

def shownIn (name : ViewName) (lines : List SourceLine) : Shown where
  parameters := (scaffoldTexts lines).filterMap readParameters
  values := (scaffoldTexts lines).filterMap readValue
  arguments := (scaffoldTexts lines).filterMap (readArguments name)

section Between

variable {front back cs inner : List Char}

theorem between?_eq_some_iff :
    between? front back cs = some inner ↔ front ++ inner ++ back = cs := by
  unfold between?
  simp only [Option.bind_eq_bind, Option.bind_eq_some_iff, List.isPrefixOf?_eq_some_iff_append_eq,
    List.isSuffixOf?_eq_some_iff_append_eq]
  constructor
  · rintro ⟨rest, rfl, rfl⟩
    rw [List.append_assoc]
  · rintro rfl
    exact ⟨inner ++ back, by rw [List.append_assoc], rfl⟩

theorem between?_of_not_prefix (h : ¬ front <+: cs) : between? front back cs = none := by
  refine Option.eq_none_iff_forall_ne_some.mpr fun inner hinner => h ?_
  rw [← between?_eq_some_iff.mp hinner, List.append_assoc]
  exact List.prefix_append _ _

theorem between?_of_not_suffix (h : ¬ back <:+ cs) : between? front back cs = none := by
  refine Option.eq_none_iff_forall_ne_some.mpr fun inner hinner => h ?_
  rw [← between?_eq_some_iff.mp hinner]
  exact List.suffix_append _ _

theorem not_isSuffix_append (text : String) {tail : String} {c last : Char}
    (hback : back.getLast? = some c) (htail : tail.toList.getLast? = some last) (hne : last ≠ c) :
    ¬ back <:+ (text ++ tail).toList := by
  rintro ⟨front, hfront⟩
  have hlast := congrArg List.getLast? hfront
  rw [String.toList_append, List.getLast?_append, List.getLast?_append, hback, htail] at hlast
  exact hne (Option.some.inj hlast).symm

end Between

/-- A text that is none of the lines that show something. -/
structure Silent (cs : List Char) : Prop where
  opens : ¬ "pub fn ".toList <+: cs
  takes : ¬ ("let ".toList <+: cs ∧ ") \x7d;".toList <:+ cs)
  calls : ¬ ([')'] <:+ cs ∧ "::render(".toList <:+: cs)

instance (cs : List Char) : Decidable (Silent cs) :=
  decidable_of_iff (¬ "pub fn ".toList <+: cs ∧
      ¬ ("let ".toList <+: cs ∧ ") \x7d;".toList <:+ cs) ∧
      ¬ ([')'] <:+ cs ∧ "::render(".toList <:+: cs))
    ⟨fun h => ⟨h.1, h.2.1, h.2.2⟩, fun h => ⟨h.opens, h.takes, h.calls⟩⟩

namespace Silent

variable {name : ViewName} {cs : List Char}

theorem readParameters (h : Silent cs) : readParameters cs = none := by
  refine between?_of_not_prefix fun hprefix => h.opens (List.IsPrefix.trans ?_ hprefix)
  decide +kernel

theorem readValue (h : Silent cs) : readValue cs = none := by
  have hbetween : between? "let ".toList ") \x7d;".toList cs = none := by
    refine Option.eq_none_iff_forall_ne_some.mpr fun inner hinner => h.takes ?_
    rw [← between?_eq_some_iff.mp hinner]
    exact ⟨⟨_, (List.append_assoc _ _ _).symm⟩, List.suffix_append _ _⟩
  rw [TemplateViews.readValue, hbetween]
  rfl

theorem readArguments (h : Silent cs) : readArguments name cs = none := by
  refine Option.eq_none_iff_forall_ne_some.mpr fun inner hinner => h.calls ?_
  rw [← between?_eq_some_iff.mp hinner]
  refine ⟨List.suffix_append _ _, name.qualified.toList, inner ++ [')'], ?_⟩
  simp only [List.append_assoc]

end Silent

section Shows

variable {name : ViewName} {lines more : List SourceLine}

theorem shownIn_append : shownIn name (lines ++ more) =
    (shownIn name lines).append (shownIn name more) := by
  simp only [shownIn, scaffoldTexts, Shown.append, List.filter_append, List.map_append,
    List.filterMap_append]

theorem shownIn_of_silent (h : ∀ line ∈ lines, Silent line.text.toList) :
    shownIn name lines = .nothing := by
  have htexts : ∀ text ∈ scaffoldTexts lines, Silent text := by
    intro text htext
    obtain ⟨line, hline, rfl⟩ := List.mem_map.mp htext
    exact h line (List.mem_filter.mp hline).1
  unfold shownIn Shown.nothing
  rw [List.filterMap_eq_nil_iff.mpr fun text htext => (htexts text htext).readParameters,
    List.filterMap_eq_nil_iff.mpr fun text htext => (htexts text htext).readValue,
    List.filterMap_eq_nil_iff.mpr fun text htext => (htexts text htext).readArguments]

theorem shownIn_of_origin (h : ∀ line ∈ lines, ∃ n, line.origin = some n) :
    shownIn name lines = .nothing := by
  have hnone : lines.filter (·.origin.isNone) = [] := by
    refine List.filter_eq_nil_iff.mpr fun line hline => ?_
    obtain ⟨n, hn⟩ := h line hline
    simp [hn]
  unfold shownIn scaffoldTexts Shown.nothing
  rw [hnone]
  rfl

theorem shownIn_map_indent : shownIn name (lines.map SourceLine.indent) = shownIn name lines := by
  have htexts : scaffoldTexts (lines.map SourceLine.indent) = scaffoldTexts lines := by
    rw [scaffoldTexts, List.filter_map, List.map_map]
    rfl
  rw [shownIn, htexts, shownIn]

theorem shownIn_block (header tail : String) : shownIn name (block header lines tail) =
    ((shownIn name [scaffold (header ++ " \x7b")]).append (shownIn name lines)).append
      (shownIn name [scaffold ("\x7d" ++ tail)]) := by
  rw [block, ← List.singleton_append, shownIn_append, shownIn_append, shownIn_map_indent]

theorem shownIn_scaffold {text : String} (h : Silent text.toList) :
    shownIn name [scaffold text] = .nothing :=
  shownIn_of_silent (List.forall_mem_singleton.mpr h)

end Shows

section Ends

variable {name : ViewName} {text tail : String} {last : Char}

theorem readParameters_append (h : tail.toList.getLast? = some last) (hne : last ≠ '\x7b') :
    readParameters (text ++ tail).toList = none := by
  refine between?_of_not_suffix (not_isSuffix_append text ?_ h hne)
  rw [String.toList_ofList]
  rfl

theorem readValue_append (h : tail.toList.getLast? = some last) (hne : last ≠ ';') :
    readValue (text ++ tail).toList = none := by
  have hbetween : between? "let ".toList ") \x7d;".toList (text ++ tail).toList = none :=
    between?_of_not_suffix (not_isSuffix_append text rfl h hne)
  rw [readValue, hbetween]
  rfl

theorem readArguments_append (h : tail.toList.getLast? = some last) (hne : last ≠ ')') :
    readArguments name (text ++ tail).toList = none :=
  between?_of_not_suffix (not_isSuffix_append text rfl h hne)

/-- A text that begins with no mark and does not end a call. -/
theorem silent_append (h : tail.toList.getLast? = some last) (hne : last ≠ ')')
    (hopens : ¬ "pub fn ".toList <+: (text ++ tail).toList)
    (htakes : ¬ "let ".toList <+: (text ++ tail).toList) : Silent (text ++ tail).toList :=
  ⟨hopens, fun htext => htakes htext.1,
    fun htext => not_isSuffix_append text rfl h hne htext.1⟩

theorem silent_header_iff {header : String} : Silent (header ++ " \x7b").toList ↔
    ¬ "pub fn ".toList <+: (header ++ " \x7b").toList := by
  refine ⟨Silent.opens, fun h => ⟨h, fun htext => ?_, fun htext => ?_⟩⟩
  · exact not_isSuffix_append (c := ';') header rfl rfl (by decide) htext.2
  · exact not_isSuffix_append (c := ')') header rfl rfl (by decide) htext.1

end Ends

section Lines

variable (name : ViewName)

theorem shownIn_singleton (text : String) : shownIn name [scaffold text] =
    ⟨(readParameters text.toList).toList, (readValue text.toList).toList,
      (readArguments name text.toList).toList⟩ := by
  have hsingle {α : Type} (read : List Char → Option α) (cs : List Char) :
      [cs].filterMap read = (read cs).toList := by
    cases hread : read cs <;> simp [hread]
  have htexts : scaffoldTexts [scaffold text] = [text.toList] := rfl
  simp only [shownIn, htexts, hsingle]

theorem shownIn_render (parameters : String) :
    shownIn name [scaffold ("pub fn render(" ++ parameters ++ ") -> ::std::fmt::Result" ++
      " \x7b")] = ⟨[parameters.toList], [], []⟩ := by
  have htext : ("pub fn render(" ++ parameters ++ ") -> ::std::fmt::Result" ++ " \x7b").toList =
      "pub fn render(".toList ++ parameters.toList ++ ") -> ::std::fmt::Result \x7b".toList := by
    simp
  rw [shownIn_singleton, readParameters, between?_eq_some_iff.mpr htext.symm,
    readValue_append rfl (by decide), readArguments_append rfl (by decide)]
  rfl

theorem readValue_cast {value : String} (hvalue : ' ' ∉ value.toList) (type : String) :
    readValue ("let " ++ value ++ " = unsafe \x7b &*(" ++ value ++ " as *const " ++ type ++
      ") \x7d;").toList = some (value, type) := by
  have htext : ("let " ++ value ++ " = unsafe \x7b &*(" ++ value ++ " as *const " ++ type ++
      ") \x7d;").toList = "let ".toList ++ (value.toList ++ ' ' :: ("= unsafe \x7b &*(".toList ++
        value.toList ++ " as *const ".toList ++ type.toList)) ++ ") \x7d;".toList := by
    simp
  have htaken : ' ' :: ("= unsafe \x7b &*(".toList ++ value.toList ++ " as *const ".toList ++
      type.toList) = " = unsafe \x7b &*(".toList ++ value.toList ++ " as *const ".toList ++
        type.toList := by
    simp
  -- the value ends at the first blank, and the pointer must have the same name
  obtain ⟨htake, hdrop⟩ := cut_at_mark hvalue ("= unsafe \x7b &*(".toList ++ value.toList ++
    " as *const ".toList ++ type.toList)
  unfold readValue
  rw [between?_eq_some_iff.mpr htext.symm, Option.bind_eq_bind, Option.bind_some]
  dsimp only
  rw [htake, hdrop, htaken, isPrefixOf?_append]
  simp

theorem shownIn_cast {value : String} (hvalue : ' ' ∉ value.toList) (type : String) :
    shownIn name [scaffold ("let " ++ value ++ " = unsafe \x7b &*(" ++ value ++ " as *const " ++
      type ++ ") \x7d;")] = ⟨[], [(value, type)], []⟩ := by
  rw [shownIn_singleton, readParameters_append rfl (by decide), readValue_cast hvalue,
    readArguments_append rfl (by decide)]
  rfl

theorem shownIn_call (arguments : String) :
    shownIn name [scaffold (name.qualified ++ "::render(" ++ arguments ++ ")")] =
      ⟨[], [], [arguments.toList]⟩ := by
  have htext : (name.qualified ++ "::render(" ++ arguments ++ ")").toList =
      name.qualified.toList ++ "::render(".toList ++ arguments.toList ++ [')'] := by
    simp
  have harguments : readArguments name (name.qualified ++ "::render(" ++ arguments ++ ")").toList =
      some arguments.toList := between?_eq_some_iff.mpr htext.symm
  rw [shownIn_singleton, readParameters_append rfl (by decide), readValue_append rfl (by decide),
    harguments]
  rfl

theorem silent_block_iff {header tail : String} {lines : List SourceLine} :
    (∀ line ∈ block header lines tail, Silent line.text.toList) ↔
      ¬ "pub fn ".toList <+: (header ++ " \x7b").toList ∧
        (∀ line ∈ lines, Silent line.text.toList) ∧ Silent ("\x7d" ++ tail).toList := by
  rw [block, List.forall_mem_append, List.forall_mem_cons, List.forall_mem_map,
    List.forall_mem_singleton, and_assoc]
  exact and_congr_left fun _ => silent_header_iff

/-- What closes a block shows nothing. -/
theorem silent_close : Silent ("\x7d" ++ "").toList ∧ Silent ("\x7d" ++ "]);").toList ∧
    Silent ("\x7d" ++ "));").toList := by
  decide

/-- A block shows what its lines show, unless its header opens a function. -/
theorem shownIn_block_of_header {header tail : String} {lines : List SourceLine}
    (hheader : ¬ "pub fn ".toList <+: (header ++ " \x7b").toList)
    (htail : Silent ("\x7d" ++ tail).toList) :
    shownIn name (block header lines tail) = shownIn name lines := by
  rw [shownIn_block, shownIn_scaffold (silent_header_iff.mpr hheader), shownIn_scaffold htail,
    Shown.nothing_append, Shown.append_nothing]

end Lines

/-- The values that a view takes, by the names of its parameters, with their types. -/
def Inputs.values (inputs : Inputs) : List (String × String) :=
  (inputs.model.map ("model", ·)).toList ++ (inputs.handler.map ("handler", ·)).toList

theorem Inputs.parameters_eq (inputs : Inputs) : inputs.parameters =
    ", ".intercalate (inputs.values.map (fun value => value.1 ++ ": &" ++ value.2) ++
      ["__out: &mut dyn ::std::fmt::Write"]) := by
  obtain ⟨model, handler⟩ := inputs
  cases model <;> cases handler <;> rfl

theorem Inputs.arguments_eq (inputs : Inputs) : inputs.arguments =
    ", ".intercalate (inputs.values.map Prod.fst ++ ["&mut __sink"]) := by
  obtain ⟨model, handler⟩ := inputs
  cases model <;> cases handler <;> rfl

section Crate

variable (name : ViewName) (inputs : Inputs) {body : List SourceLine}

theorem shownIn_inputLines {input : String} (hinput : ' ' ∉ input.toList) (type : Option String)
    (missing : Status) : shownIn name (inputLines input type missing) =
      ⟨[], (type.map (input, ·)).toList, []⟩ := by
  cases type with
  | none => rfl
  | some type =>
    have hnull : Silent ("if " ++ input ++ ".is_null() \x7b return " ++ toString missing.code ++
        "; \x7d").toList := silent_append rfl (by decide) (by simp) (by simp)
    rw [inputLines, ← List.singleton_append, shownIn_append, shownIn_scaffold hnull,
      shownIn_cast name hinput, Shown.nothing_append]
    rfl

theorem shownIn_inModules (modules : List String) (lines : List SourceLine) :
    shownIn name (inModules modules lines) = shownIn name lines := by
  induction modules with
  | nil => rfl
  | cons module modules ih =>
    rw [← ih]
    exact shownIn_block_of_header name (by simp) silent_close.1

theorem shownIn_viewLines (type : String) (hbody : ∀ line ∈ body, ∃ n, line.origin = some n) :
    shownIn name (viewLines type inputs body) = ⟨[inputs.parameters.toList], [], []⟩ := by
  have hstruct : Silent ("pub struct " ++ type ++ ";").toList :=
    silent_append rfl (by decide) (by simp) (by simp)
  have hfront : shownIn name [scaffold "use ::std::fmt::Write as _;", emptyLine,
      scaffold ("pub struct " ++ type ++ ";"), emptyLine] = .nothing := by
    have huse : Silent "use ::std::fmt::Write as _;".toList := by
      rw [String.toList_ofList]
      decide +kernel
    refine shownIn_of_silent ?_
    simp only [List.forall_mem_cons]
    exact ⟨huse, by decide, hstruct, by decide, List.forall_mem_nil _⟩
  have hresult : Silent "::std::result::Result::Ok(())".toList := by
    rw [String.toList_ofList]
    decide +kernel
  rw [viewLines, shownIn_append, hfront, Shown.nothing_append,
    shownIn_block_of_header _ (by simp) silent_close.1, shownIn_block, shownIn_append,
    shownIn_of_origin hbody, shownIn_scaffold hresult, shownIn_render,
    shownIn_scaffold silent_close.1]
  rfl

theorem shownIn_wrapperLines : shownIn name (wrapperLines name inputs) =
    ⟨[], inputs.values, [inputs.arguments.toList]⟩ := by
  have hfront : ∀ line ∈ [scaffold "unsafe extern \"C\" fn __simple_view_render("] ++
      [scaffold "model: *const ::std::ffi::c_void,", scaffold "handler: *const ::std::ffi::c_void,",
        scaffold "sink: *mut ::std::ffi::c_void,",
        scaffold "write: SimpleViewWriteFn,"].map SourceLine.indent, Silent line.text.toList := by
    simp only [List.forall_mem_append, List.forall_mem_cons, List.forall_mem_map,
      SourceLine.indent, scaffold, List.not_mem_nil, false_implies, implies_true, and_true]
    and_intros
    all_goals
      rw [String.toList_ofList]
      decide +kernel
  have hsink : Silent "let mut __sink = __Sink \x7b sink, write \x7d;".toList := by
    rw [String.toList_ofList]
    decide +kernel
  have hresult : ∀ line ∈ block "match result" [
      statusLine "::std::result::Result::Ok(::std::result::Result::Ok(()))" .ok,
      statusLine "::std::result::Result::Ok(::std::result::Result::Err(_))" .formatError,
      statusLine "::std::result::Result::Err(_)" .panicked], Silent line.text.toList := by
    rw [silent_block_iff]
    simp only [List.forall_mem_cons]
    refine ⟨by simp, ⟨?_, ?_, ?_, List.forall_mem_nil _⟩, silent_close.1⟩
    all_goals exact silent_append rfl (by decide) (by simp) (by simp)
  rw [wrapperLines, shownIn_append, shownIn_of_silent hfront, Shown.nothing_append,
    shownIn_block_of_header _ (by simp) silent_close.1, shownIn_append, shownIn_of_silent hresult,
    Shown.append_nothing, shownIn_append, shownIn_append, shownIn_append, shownIn_scaffold hsink,
    shownIn_inputLines name (by decide), shownIn_inputLines name (by decide),
    shownIn_block_of_header _ (by simp) silent_close.2.2, shownIn_call]
  simp only [Shown.append, Shown.nothing, Inputs.values, List.nil_append, List.append_nil]

theorem shownIn_interfaceLines : shownIn name (interfaceLines name inputs) =
    ⟨[], inputs.values, [inputs.arguments.toList]⟩ := by
  have hconstant (constantName value : String) :
      Silent ("const " ++ constantName ++ ": &str = " ++ quoted value ++ ";").toList :=
    silent_append rfl (by decide) (by simp) (by simp)
  have hfront : ∀ line ∈ signatureLines ++ [emptyLine] ++ tableLines ++ [emptyLine] ++
      constantLines name inputs ++ [emptyLine] ++ exportLines ++ [emptyLine] ++ sinkLines ++
      [emptyLine], Silent line.text.toList := by
    simp only [signatureLines, tableLines, constantLines, exportLines, sinkLines,
      List.forall_mem_append, List.forall_mem_cons, silent_block_iff, scaffold, emptyLine,
      constant, hconstant, silent_close, List.not_mem_nil, false_implies, implies_true, and_true]
    and_intros
    all_goals
      rw [String.toList_ofList]
      decide +kernel
  rw [interfaceLines, shownIn_append, shownIn_of_silent hfront, Shown.nothing_append,
    shownIn_wrapperLines]

theorem shownIn_crateLines (hbody : ∀ line ∈ body, ∃ n, line.origin = some n) :
    shownIn name (crateLines name inputs body) =
      ⟨[inputs.parameters.toList], inputs.values, [inputs.arguments.toList]⟩ := by
  have hhead : ∀ line ∈ [scaffold "// Generated by simpleview. Do not edit.",
      scaffold "#![allow(unused, non_snake_case, non_camel_case_types)]", emptyLine],
      Silent line.text.toList := by
    simp only [List.forall_mem_cons]
    refine ⟨?_, ?_, by decide, List.forall_mem_nil _⟩ <;> decide +kernel
  rw [crateLines, shownIn_append, shownIn_append, shownIn_append, shownIn_of_silent hhead,
    shownIn_inModules, shownIn_viewLines name inputs _ hbody, emptyLine,
    shownIn_scaffold (by decide), shownIn_interfaceLines]
  rfl

end Crate

end TemplateViews
