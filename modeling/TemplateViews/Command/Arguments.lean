import TemplateViews.Path
import TemplateViews.Text.Split

/-! Arguments of the command line. They are read from the left; the first one that
asks for help or the version, or that cannot be right, decides. -/

namespace TemplateViews

inductive Flag
  /-- Print the source and stop. -/
  | emitSource
  | render
  | purge
  | verbose
  deriving DecidableEq, Repr

structure Arguments where
  template : Path
  manifest : Option Path := none
  flags : List Flag := []
  deriving DecidableEq, Repr

def Arguments.has (arguments : Arguments) (flag : Flag) : Bool := arguments.flags.contains flag

inductive Request
  | run (arguments : Arguments)
  | help
  | version
  | misuse
  deriving DecidableEq, Repr

namespace Request

structure Draft where
  template : Option String := none
  manifest : Option String := none
  flags : List Flag := []
  deriving DecidableEq, Repr

inductive Step
  | go (draft : Draft)
  /-- The next argument is the manifest. -/
  | awaitManifest (draft : Draft)
  | stop (request : Request)
  deriving DecidableEq, Repr

/-- No value is empty, and none is given twice. -/
def setTemplate (draft : Draft) (value : String) : Step :=
  if value = "" ∨ draft.template.isSome then .stop .misuse
  else .go { draft with template := some value }

def setManifest (draft : Draft) (value : String) : Step :=
  if value = "" ∨ draft.manifest.isSome then .stop .misuse
  else .go { draft with manifest := some value }

def setFlag (draft : Draft) (flag : Flag) : Step :=
  if flag ∈ draft.flags then .stop .misuse
  else .go { draft with flags := draft.flags ++ [flag] }

/-- Reads letters behind a dash. A manifest takes the rest of them as its value. -/
def readLetters (draft : Draft) : List Char → Step
  | [] => .go draft
  | letter :: rest =>
    if letter = 'm' then
      match rest with
      | [] => .awaitManifest draft
      | c :: value => setManifest draft (String.ofList (if c = '=' then value else c :: value))
    else if letter = 'v' then
      match setFlag draft .verbose with
      | .go draft => readLetters draft rest
      | step => step
    else if letter = 'h' then .stop .help
    else if letter = 'V' then .stop .version
    else .stop .misuse

def namedFlag? (name : String) : Option Flag :=
  if name = "emit-source" then some .emitSource
  else if name = "render" then some .render
  else if name = "purge" then some .purge
  else if name = "verbose" then some .verbose
  else none

/-- Reads a name behind two dashes, with a value if an equals sign follows it. -/
def readNamed (draft : Draft) (cs : List Char) : Step :=
  let name := String.ofList (cs.takeWhile (· ≠ '='))
  match cs.dropWhile (· ≠ '=') with
  | _ :: value =>
    if name = "modules" then setManifest draft (String.ofList value) else .stop .misuse
  | [] =>
    if name = "modules" then .awaitManifest draft
    else if name = "help" then .stop .help
    else if name = "version" then .stop .version
    else
      match namedFlag? name with
      | some flag => setFlag draft flag
      | none => .stop .misuse

/-- Whether an argument can be a value; a dash alone can. -/
def isValue (cs : List Char) : Bool :=
  match cs with
  | '-' :: _ :: _ => false
  | _ => true

def readArgument (draft : Draft) (argument : String) : Step :=
  match argument.toList with
  | '-' :: '-' :: name => readNamed draft name
  | '-' :: letter :: letters => readLetters draft (letter :: letters)
  | _ => setTemplate draft argument

/-- Reads what follows two dashes alone: nothing but values. -/
def readValues (draft : Draft) : List String → Request
  | [] =>
    match draft.template with
    | some template => .run ⟨⟨template⟩, draft.manifest.map Path.mk, draft.flags⟩
    | none => .misuse
  | argument :: rest =>
    match setTemplate draft argument with
    | .go draft => readValues draft rest
    | _ => .misuse

def readFrom (draft : Draft) : List String → Request
  | [] => readValues draft []
  | argument :: rest =>
    if argument = "--" then readValues draft rest
    else
      match readArgument draft argument with
      | .go draft => readFrom draft rest
      | .stop request => request
      | .awaitManifest draft =>
        match rest with
        | [] => .misuse
        | value :: rest =>
          if isValue value.toList then
            match setManifest draft value with
            | .go draft => readFrom draft rest
            | _ => .misuse
          else .misuse

def ofArguments (arguments : List String) : Request := readFrom {} arguments

end Request

end TemplateViews
