import TemplateViews.Failure
import TemplateViews.Text.Identifier
import TemplateViews.Text.Quoted

/-! Loading views. A library shows its views in a table of exports; a view can be
rendered once the table has been read and the expected name stands in it. -/

namespace TemplateViews

inductive ForeignText
  | null (length : Nat)
  | bytes (content : List UInt8)
  deriving DecidableEq, Repr

/-- A text without length is empty, wherever it points. -/
def ForeignText.read : ForeignText → Except LoadFault String
  | .null 0 => .ok ""
  | .null _ => .error .nullText
  | .bytes content =>
    match Utf8.decode content with
    | .ok cs => .ok (String.ofList cs)
    | .error e => .error (.invalidText e)

structure Rendering where
  fragments : List (List UInt8)
  status : Int
  deriving DecidableEq, Repr

abbrev RenderFunction := Bool → Bool → Rendering

structure Export where
  name : ForeignText
  model : ForeignText
  handler : ForeignText
  render : RenderFunction

structure ExportTable where
  /-- None if the library gives no pointer to entries. -/
  entries : Option (List Export)

/-- A library that opened; none if it has no symbol for its exports. -/
structure Library where
  exports : Option ExportTable

/-- What a loader replaces in a path, behind a dollar sign, by texts of its own. -/
def loaderTokens : List String := ["ORIGIN", "PLATFORM", "LIB"]

/-- Whether a text starts with a token, in braces or with no part of a name behind it. -/
def startsWithToken (cs : List Char) : Bool :=
  loaderTokens.any fun token =>
    ('{' :: token.toList ++ ['}']).isPrefixOf cs ||
      (token.toList.isPrefixOf? cs).any fun rest => !rest.head?.any isNamePart

def mentionsToken : List Char → Bool
  | [] => false
  | c :: rest => (c == '$' && startsWithToken rest) || mentionsToken rest

/-- Whether a path leads a loader to the file it names. A path without a slash is looked
for among the system's libraries, and one with a token becomes another path. -/
def Path.isLoadable (path : Path) : Bool :=
  path.text.toList.contains '/' && !mentionsToken path.text.toList

/-- How libraries are opened. -/
structure Linker where
  /-- What the bytes of a file give, if they are a library. -/
  inspect : List UInt8 → Option Library
  /-- Whether a path leads to the file it names. This is for the system to say; the rule given here
  is the usual one, and no theorem depends on it. -/
  reaches : Path → Bool := Path.isLoadable

def Linker.open? (linker : Linker) (files : Files) (path : Path) : Option Library :=
  if linker.reaches path then
    match files.read path with
    | .ok content => linker.inspect content
    | .error _ => none
  else none

structure View where
  name : String
  model : Option String
  handler : Option String
  library : Path
  render : RenderFunction

namespace View

def nonEmpty (text : String) : Option String := if text = "" then none else some text

def ofExport (library : Path) (entry : Export) : Except LoadFault View :=
  match entry.name.read with
  | .error fault => .error fault
  | .ok name =>
    match entry.model.read with
    | .error fault => .error fault
    | .ok model =>
      match entry.handler.read with
      | .error fault => .error fault
      | .ok handler => .ok ⟨name, nonEmpty model, nonEmpty handler, library, entry.render⟩

def ofTable (library : Path) (expected : String) (table : ExportTable) :
    Except Failure View :=
  match table.entries with
  | none => .error (.unloadable library .noViews)
  | some [] => .error (.unloadable library .noViews)
  | some entries =>
    match entries.mapM (ofExport library) with
    | .error fault => .error (.unloadable library fault)
    | .ok views =>
      if views.any (·.name == expected) then
        match views.head? with
        | some view => .ok view
        | none => .error (.unloadable library .noViews)
      else .error (.missingView expected (views.map View.name))

/-- The first view of a library that exports one of the expected name. -/
def load (linker : Linker) (files : Files) (library : Path) (expected : String) :
    Except Failure View :=
  match linker.open? files library with
  | none => .error (.unloadable library .notOpened)
  | some ⟨none⟩ => .error (.unloadable library .noExports)
  | some ⟨some table⟩ => ofTable library expected table

def statusFault (view : View) (status : Int) : RenderFault :=
  if status = Status.missingModel.code then .missingModel view.name view.model
  else if status = Status.missingHandler.code then .missingHandler view.name view.handler
  else if status = Status.formatError.code then .unformatted view.name
  else if status = Status.panicked.code then .panicked view.name
  else .unknownStatus view.name status

/-- Renders the page; each fragment is read as text on its own. -/
def page (view : View) (model : Bool := false) (handler : Bool := false) :
    Except Failure String :=
  let rendering := view.render model handler
  if rendering.status = Status.ok.code then
    .ok (String.ofList (rendering.fragments.flatMap Utf8.decodeLossy))
  else .error (.render (view.statusFault rendering.status))

def describeType (type : Option String) : String :=
  match type with
  | none => "None"
  | some type => "Some(" ++ quoted type ++ ")"

def description (view : View) : String :=
  "EntryType \x7b name: " ++ quoted view.name ++ ", model_type: " ++ describeType view.model ++
    ", handler_type: " ++ describeType view.handler ++ ", library_path: " ++
    quoted view.library.text ++ " \x7d"

end View

end TemplateViews
