import TemplateViews.Decimal.Shortest

/-! JSON values as they are read. A text that is no JSON has a value too: it goes as
far as the text can be read and ends with the fault, so that a decoder meets what does
not fit and what is no JSON in the order of the text. Some faults are met only by a
reader that wants the value, not by one that skips it. -/

namespace TemplateViews.Json

inductive Fault
  /-- The text ends too early. -/
  | ended
  | malformed
  deriving DecidableEq, Repr

/-- A number is an integer if it is written as one and fits into a word of 64 bits. -/
inductive Number
  | integer (value : Int)
  | float (negative : Bool) (magnitude : Double)
  deriving DecidableEq, Repr

mutual

inductive Value
  | null
  | bool (value : Bool)
  /-- None if the number lies outside of the doubles. -/
  | number (value : Option Number)
  /-- None if half of a surrogate pair is escaped in the text. -/
  | string (text : Option String)
  | array (items : Items)
  | object (members : Members)
  | broken (wanted skipped : Fault)

inductive Items
  | close
  | cut (fault : Fault)
  /-- No item follows a comma. -/
  | dangling (fault : Fault)
  | item (value : Value) (rest : Items)

inductive Members
  | close
  | cut (wanted skipped : Fault)
  | member (key : Option String) (value : Value) (rest : Members)

end

mutual

/-- The fault that a reader meets who skips the value. -/
def Value.skip : Value → Option Fault
  | .array items => items.skip
  | .object members => members.skip
  | .broken _ skipped => some skipped
  | _ => none

def Items.skip : Items → Option Fault
  | .close => none
  | .cut fault => some fault
  | .dangling fault => some fault
  | .item value rest => value.skip <|> rest.skip

def Members.skip : Members → Option Fault
  | .close => none
  | .cut _ skipped => some skipped
  | .member _ value rest => value.skip <|> rest.skip

end

structure Document where
  value : Value
  /-- Something other than white space follows the value. -/
  trailing : Bool

end TemplateViews.Json
