import TemplateViews.Json.Value
import TemplateViews.Text.Quoted

/-! Decoding JSON into records. A document is decoded in the order of its text, and
the first problem counts, whether the text is no JSON or not what is expected. A record
is an object or an array of its fields in order. -/

namespace TemplateViews.Json

inductive DecodeError
  /-- The text ends too early. -/
  | ended
  | malformed
  /-- The JSON is not what is expected. -/
  | data (message : String)
  deriving DecidableEq, Repr

def Fault.error : Fault → DecodeError
  | .ended => .ended
  | .malformed => .malformed

def Number.described : Number → String
  | .integer n => s!"integer `{n}`"
  | .float negative d =>
    "floating point `" ++ (if negative then "-" else "") ++ d.text ++ "`"

def mismatch (found expected : String) : DecodeError :=
  .data ("invalid type: " ++ found ++ ", expected " ++ expected)

/-- Why a value is not the kind of value that is expected. -/
def Value.refuse (expected : String) : Value → DecodeError
  | .null => mismatch "null" expected
  | .bool b => mismatch s!"boolean `{b}`" expected
  | .number (some n) => mismatch n.described expected
  | .number none => .malformed
  | .string (some text) => mismatch ("string " ++ quoted text) expected
  | .string none => .malformed
  | .array _ => mismatch "sequence" expected
  | .object _ => mismatch "map" expected
  | .broken wanted _ => wanted.error

abbrev Decoder (α : Type) := Value → Except DecodeError α

def decodeString (expected : String := "a string") : Decoder String
  | .string (some text) => .ok text
  | value => .error (value.refuse expected)

def decodeBool : Decoder Bool
  | .bool b => .ok b
  | value => .error (value.refuse "a boolean")

/-- A number that is not negative and fits into a word. -/
def decodeNat : Decoder Nat
  | .number (some (.integer n)) =>
    if 0 ≤ n then .ok n.toNat
    else .error (.data s!"invalid value: integer `{n}`, expected usize")
  | value => .error (value.refuse "usize")

def decodeOption {α : Type} (decode : Decoder α) : Decoder (Option α)
  | .null => .ok none
  | value => (decode value).map some

def decodeItems {α : Type} (decode : Decoder α) : Items → Except DecodeError (List α)
  | .close => .ok []
  | .cut fault => .error fault.error
  | .dangling fault => .error fault.error
  | .item value rest =>
    match decode value with
    | .error e => .error e
    | .ok a => (decodeItems decode rest).map (a :: ·)

def decodeList {α : Type} (decode : Decoder α) : Decoder (List α)
  | .array items => decodeItems decode items
  | value => .error (value.refuse "a sequence")

inductive Need
  | required
  /-- It may be left out of an object, but not of an array. -/
  | named
  | free
  deriving DecidableEq, Repr

structure Field (α : Type) where
  name : String
  need : Need
  put : Value → α → Except DecodeError α

/-- A field whose value is decoded and put into the draft. -/
def Field.of {α β : Type} (name : String) (need : Need) (decode : Decoder β) (put : β → α → α) :
    Field α where
  name := name
  need := need
  put := fun value draft => (decode value).map fun b => put b draft

/-- A record with its fields in order; a strict one has no others. -/
structure Record (α : Type) where
  name : String
  strict : Bool
  draft : α
  fields : List (Field α)

namespace Record

variable {α : Type}

def listNames (names : List String) : String :=
  match names.map fun name => "`" ++ name ++ "`" with
  | [] => "there are no fields"
  | [a] => "expected " ++ a
  | [a, b] => "expected " ++ a ++ " or " ++ b
  | names => "expected one of " ++ ", ".intercalate names

def unknownField (record : Record α) (key : String) : DecodeError :=
  .data ("unknown field `" ++ key ++ "`, " ++ listNames (record.fields.map Field.name))

def duplicateField (key : String) : DecodeError := .data ("duplicate field `" ++ key ++ "`")

def missingField (key : String) : DecodeError := .data ("missing field `" ++ key ++ "`")

def wrongLength (record : Record α) (length : Nat) : DecodeError :=
  let size := record.fields.length
  .data (s!"invalid length {length}, expected struct " ++ record.name ++
    s!" with {size} element" ++ (if size = 1 then "" else "s"))

/-- Takes up members; `seen` holds the names of the fields that were given. -/
def decodeMembers (record : Record α) (seen : List String) (draft : α) :
    Members → Except DecodeError α
  | .close =>
    match record.fields.find? fun field => field.need == .required && !seen.contains field.name with
    | some field => .error (missingField field.name)
    | none => .ok draft
  | .cut wanted _ => .error wanted.error
  | .member none _ _ => .error .malformed
  | .member (some key) value rest =>
    match record.fields.find? (·.name == key) with
    | none =>
      if record.strict then .error (record.unknownField key)
      else
        match value.skip with
        | some fault => .error fault.error
        | none => record.decodeMembers seen draft rest
    | some field =>
      if seen.contains key then .error (duplicateField key)
      else
        match field.put value draft with
        | .error e => .error e
        | .ok draft => record.decodeMembers (key :: seen) draft rest

/-- Takes up items for the fields that are left; more items than fields are malformed. -/
def decodeInOrder (record : Record α) (index : Nat) :
    List (Field α) → α → Items → Except DecodeError α
  | [], draft, .close => .ok draft
  | [], _, .cut fault => .error fault.error
  | [], _, .dangling _ => .error .malformed
  | [], _, .item _ _ => .error .malformed
  | field :: fields, draft, .close =>
    if field.need = .free then record.decodeInOrder (index + 1) fields draft .close
    else .error (record.wrongLength index)
  | _ :: _, _, .cut fault => .error fault.error
  | _ :: _, _, .dangling fault => .error fault.error
  | field :: fields, draft, .item value rest =>
    match field.put value draft with
    | .error e => .error e
    | .ok draft => record.decodeInOrder (index + 1) fields draft rest

def decode (record : Record α) : Decoder α
  | .object members => record.decodeMembers [] record.draft members
  | .array items => record.decodeInOrder 0 record.fields record.draft items
  | value => .error (value.refuse ("struct " ++ record.name))

end Record

def Document.decode {α : Type} (decode : Decoder α) (document : Document) :
    Except DecodeError α :=
  match decode document.value with
  | .error e => .error e
  | .ok a => if document.trailing then .error .malformed else .ok a

end TemplateViews.Json
