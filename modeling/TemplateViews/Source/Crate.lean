import TemplateViews.Source.Body
import TemplateViews.View.Interface

/-! The crate of a view: its type with the render function, in the modules of its
name, and the exports through which a host finds and calls it. -/

namespace TemplateViews

def Inputs.parameters (inputs : Inputs) : String :=
  ", ".intercalate
    ((inputs.model.map ("model: &" ++ ·)).toList ++
      (inputs.handler.map ("handler: &" ++ ·)).toList ++
      ["__out: &mut dyn ::std::fmt::Write"])

def Inputs.arguments (inputs : Inputs) : String :=
  ", ".intercalate
    ((inputs.model.map fun _ => "model").toList ++
      (inputs.handler.map fun _ => "handler").toList ++ ["&mut __sink"])

def signatureLines : List SourceLine := [
  scaffold "pub type SimpleViewWriteFn = unsafe extern \"C\" fn(*mut ::std::ffi::c_void, *const u8, usize);",
  scaffold "pub type SimpleViewRenderFn = unsafe extern \"C\" fn(*const ::std::ffi::c_void, *const ::std::ffi::c_void, *mut ::std::ffi::c_void, SimpleViewWriteFn) -> i32;"]

def tableLines : List SourceLine :=
  [scaffold "#[repr(C)]"] ++
  block "pub struct SimpleViewExport" [
    scaffold "pub name: *const u8,",
    scaffold "pub name_len: usize,",
    scaffold "pub model_type: *const u8,",
    scaffold "pub model_type_len: usize,",
    scaffold "pub handler_type: *const u8,",
    scaffold "pub handler_type_len: usize,",
    scaffold "pub render: SimpleViewRenderFn,"] ++
  [emptyLine, scaffold "#[repr(C)]"] ++
  block "pub struct SimpleViewExportTable" [
    scaffold "pub entries: *const SimpleViewExport,",
    scaffold "pub len: usize,"] ++
  [emptyLine,
    scaffold "struct __Exports([SimpleViewExport; 1]);",
    scaffold "unsafe impl Sync for __Exports \x7b\x7d"]

def constant (name value : String) : SourceLine :=
  scaffold ("const " ++ name ++ ": &str = " ++ quoted value ++ ";")

def constantLines (name : ViewName) (inputs : Inputs) : List SourceLine := [
  constant "__NAME" name.qualified,
  constant "__MODEL" (inputs.model.getD ""),
  constant "__HANDLER" (inputs.handler.getD "")]

def exportLines : List SourceLine :=
  block "static __EXPORTS: __Exports = __Exports([SimpleViewExport" [
    scaffold "name: __NAME.as_ptr(),",
    scaffold "name_len: __NAME.len(),",
    scaffold "model_type: __MODEL.as_ptr(),",
    scaffold "model_type_len: __MODEL.len(),",
    scaffold "handler_type: __HANDLER.as_ptr(),",
    scaffold "handler_type_len: __HANDLER.len(),",
    scaffold "render: __simple_view_render,"] "]);" ++
  [emptyLine, scaffold "#[no_mangle]"] ++
  block ("pub extern \"C\" fn " ++ exportsSymbol ++ "() -> SimpleViewExportTable") [
    scaffold "SimpleViewExportTable \x7b entries: __EXPORTS.0.as_ptr(), len: __EXPORTS.0.len() \x7d"]

def sinkLines : List SourceLine :=
  block "struct __Sink" [
    scaffold "sink: *mut ::std::ffi::c_void,",
    scaffold "write: SimpleViewWriteFn,"] ++
  [emptyLine] ++
  block "impl ::std::fmt::Write for __Sink"
    (block "fn write_str(&mut self, s: &str) -> ::std::fmt::Result" [
      scaffold "unsafe \x7b (self.write)(self.sink, s.as_ptr(), s.len()) \x7d;",
      scaffold "::std::result::Result::Ok(())"])

/-- Turns a pointer from the host into an input, unless it is missing. -/
def inputLines (input : String) (type : Option String) (missing : Status) : List SourceLine :=
  match type with
  | none => []
  | some type => [
      scaffold ("if " ++ input ++ ".is_null() \x7b return " ++ toString missing.code ++ "; \x7d"),
      scaffold ("let " ++ input ++ " = unsafe \x7b &*(" ++ input ++ " as *const " ++ type ++
        ") \x7d;")]

def statusLine (pattern : String) (status : Status) : SourceLine :=
  scaffold (pattern ++ " => " ++ toString status.code ++ ",")

def wrapperLines (name : ViewName) (inputs : Inputs) : List SourceLine :=
  [scaffold "unsafe extern \"C\" fn __simple_view_render("] ++
  ([ scaffold "model: *const ::std::ffi::c_void,",
    scaffold "handler: *const ::std::ffi::c_void,",
    scaffold "sink: *mut ::std::ffi::c_void,",
    scaffold "write: SimpleViewWriteFn,"].map SourceLine.indent) ++
  block ") -> i32"
    (inputLines "model" inputs.model .missingModel ++
      inputLines "handler" inputs.handler .missingHandler ++
      [scaffold "let mut __sink = __Sink \x7b sink, write \x7d;"] ++
      block "let result = ::std::panic::catch_unwind(::std::panic::AssertUnwindSafe(||"
        [scaffold (name.qualified ++ "::render(" ++ inputs.arguments ++ ")")] "));" ++
      block "match result" [
        statusLine "::std::result::Result::Ok(::std::result::Result::Ok(()))" .ok,
        statusLine "::std::result::Result::Ok(::std::result::Result::Err(_))" .formatError,
        statusLine "::std::result::Result::Err(_)" .panicked])

/-- The part of the crate that does not depend on the template's text. -/
def interfaceLines (name : ViewName) (inputs : Inputs) : List SourceLine :=
  signatureLines ++ [emptyLine] ++ tableLines ++ [emptyLine] ++
    constantLines name inputs ++ [emptyLine] ++ exportLines ++ [emptyLine] ++
    sinkLines ++ [emptyLine] ++ wrapperLines name inputs

def viewLines (type : String) (inputs : Inputs) (body : List SourceLine) : List SourceLine :=
  [scaffold "use ::std::fmt::Write as _;", emptyLine,
    scaffold ("pub struct " ++ type ++ ";"), emptyLine] ++
  block ("impl " ++ type)
    (block ("pub fn render(" ++ inputs.parameters ++ ") -> ::std::fmt::Result")
      (body ++ [scaffold "::std::result::Result::Ok(())"]))

/-- Opens a module for each name, the first outermost. -/
def inModules (modules : List String) (lines : List SourceLine) : List SourceLine :=
  modules.foldr (fun module lines => block ("pub mod " ++ module) lines) lines

def crateLines (name : ViewName) (inputs : Inputs) (body : List SourceLine) : List SourceLine :=
  [scaffold "// Generated by simpleview. Do not edit.",
    scaffold "#![allow(unused, non_snake_case, non_camel_case_types)]", emptyLine] ++
  inModules name.modules (viewLines name.type inputs body) ++
  [emptyLine] ++ interfaceLines name inputs

def ViewSource.ofBody (name : ViewName) (inputs : Inputs) (body : List SourceLine) : ViewSource :=
  ofLines name.qualified (crateLines name inputs body)

def generate (name : ViewName) (inputs : Inputs) (template : String) :
    Except MarkupError ViewSource :=
  (bodyLines template).map (ViewSource.ofBody name inputs)

end TemplateViews
