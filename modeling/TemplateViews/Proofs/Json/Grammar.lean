import TemplateViews.Json.Read
import TemplateViews.Proofs.Json.Numerals
import TemplateViews.Proofs.Json.Strings
import TemplateViews.Proofs.Text.Split

/-! The grammar of JSON: the texts of a value, with white space wherever it does not count. -/

namespace TemplateViews.Json

def Items.ofList : List Value → Items
  | [] => .close
  | value :: values => .item value (ofList values)

def Members.ofList : List (Option String × Value) → Members
  | [] => .close
  | (key, value) :: members => .member key value (ofList members)

def Spaces (cs : List Char) : Prop := ∀ c ∈ cs, isSpace c = true

inductive SpelledKey : List Char → Option String → Prop
  | intro {before core after : List Char} {key : Option String} (hbefore : Spaces before)
      (h : SpelledString core key) (hafter : Spaces after) : SpelledKey (before ++ core ++ after) key

/-- A member of an object and its texts. -/
structure Member where
  keyText : List Char
  key : Option String
  valueText : List Char
  value : Value

def Member.text (member : Member) : List Char := member.keyText ++ ':' :: member.valueText

/-- The texts of a value. -/
inductive Spelled : List Char → Value → Prop
  | null : Spelled ['n', 'u', 'l', 'l'] .null
  | yes : Spelled ['t', 'r', 'u', 'e'] (.bool true)
  | no : Spelled ['f', 'a', 'l', 's', 'e'] (.bool false)
  | number {cs : List Char} {numeral : Numeral} (h : SpelledNumeral cs numeral) :
      Spelled cs (.number numeral.number?)
  | string {cs : List Char} {text : Option String} (h : SpelledString cs text) :
      Spelled cs (.string text)
  | array {inside : List Char} {items : List (List Char × Value)} (hinside : Spaces inside)
      (hitems : ∀ item ∈ items, Spelled item.1 item.2) :
      Spelled ('[' :: (inside ++ joinWith [','] (items.map Prod.fst) ++ [']']))
        (.array (.ofList (items.map Prod.snd)))
  | object {inside : List Char} {members : List Member} (hinside : Spaces inside)
      (hkeys : ∀ member ∈ members, SpelledKey member.keyText member.key)
      (hvalues : ∀ member ∈ members, Spelled member.valueText member.value) :
      Spelled ('\x7b' :: (inside ++ joinWith [','] (members.map Member.text) ++ ['\x7d']))
        (.object (.ofList (members.map fun member => (member.key, member.value))))
  | pad {before cs after : List Char} {value : Value} (hbefore : Spaces before)
      (h : Spelled cs value) (hafter : Spaces after) : Spelled (before ++ cs ++ after) value

theorem Spelled.count {n : Nat} (h : n < wordLimit) :
    Spelled (Nat.toDigits 10 n) (.number (some (.integer n))) := by
  obtain ⟨numeral, hnumeral, hnumber⟩ := spelled_count h
  exact hnumber ▸ .number hnumeral

theorem Items.skip_ofList {values : List Value} :
    (ofList values).skip = none ↔ ∀ value ∈ values, value.skip = none := by
  induction values with
  | nil => simp [ofList, skip]
  | cons value values ih =>
    rw [ofList, skip, List.forall_mem_cons, ← ih]
    cases value.skip <;> simp

theorem Members.skip_ofList {members : List (Option String × Value)} :
    (ofList members).skip = none ↔ ∀ member ∈ members, member.2.skip = none := by
  induction members with
  | nil => simp [ofList, skip]
  | cons member members ih =>
    rw [ofList, skip, List.forall_mem_cons, ← ih]
    cases member.2.skip <;> simp

/-- Who skips a value of the grammar meets no fault. -/
theorem Spelled.skip_eq_none {cs : List Char} {value : Value} (h : Spelled cs value) :
    value.skip = none := by
  induction h with
  | null | yes | no | number | string => simp [Value.skip]
  | array _ _ ih =>
    rw [Value.skip, Items.skip_ofList]
    exact List.forall_mem_map.mpr ih
  | object _ _ _ ih =>
    rw [Value.skip, Members.skip_ofList]
    exact List.forall_mem_map.mpr ih
  | pad _ _ _ ih => exact ih

end TemplateViews.Json
