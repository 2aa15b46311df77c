import Mathlib.Tactic.Choose
import TemplateViews.Proofs.Json.Records
import TemplateViews.Proofs.Text.Literal

/-! Whatever can be shown has a text. -/

namespace TemplateViews.Json

/-- Some text of JSON shows it. -/
def Written {α : Type} (Shows : Value → α → Prop) (a : α) : Prop :=
  ∃ cs value, Spelled cs value ∧ Shows value a

theorem exists_spelledChar (c : Char) : ∃ cs, SpelledChar cs c := by
  by_cases hquote : c = '"'
  · exact ⟨['\\', '"'], .escape (by rw [hquote]; rfl)⟩
  by_cases hslash : c = '\\'
  · exact ⟨['\\', '\\'], .escape (by rw [hslash]; rfl)⟩
  by_cases hcontrol : 0x20 ≤ c.toNat
  · exact ⟨_, .plain hcontrol hquote hslash⟩
  · have hunit := SpelledUnit.intro (a := '0') (b := '0') rfl rfl
      (hexDigit?_digitChar (show c.toNat / 16 < 16 by omega))
      (hexDigit?_digitChar (show c.toNat % 16 < 16 by omega))
    have hvalue : ((0 * 16 + 0) * 16 + c.toNat / 16) * 16 + c.toNat % 16 = c.toNat := by omega
    exact ⟨_, .unit (hvalue ▸ hunit)⟩

theorem exists_spelledString (text : String) : ∃ cs, SpelledString cs (some text) := by
  have hchars : ∃ cs, SpelledText cs text.toList := by
    induction text.toList with
    | nil => exact ⟨[], .nil⟩
    | cons c rest ih =>
      obtain ⟨cs, hchar⟩ := exists_spelledChar c
      obtain ⟨ds, hrest⟩ := ih
      exact ⟨cs ++ ds, .cons hchar hrest⟩
  obtain ⟨cs, hcs⟩ := hchars
  have hstring := SpelledString.text hcs
  rw [String.ofList_toList] at hstring
  exact ⟨_, hstring⟩

theorem exists_spelledKey (key : String) : ∃ cs, SpelledKey cs (some key) := by
  obtain ⟨cs, hcs⟩ := exists_spelledString key
  exact ⟨_, .intro (List.forall_mem_nil _) hcs (List.forall_mem_nil _)⟩

theorem written_text (text : String) : Written ShowsText text := by
  obtain ⟨cs, hcs⟩ := exists_spelledString text
  exact ⟨cs, _, .string hcs, rfl⟩

theorem written_count {n : Nat} (h : n < wordLimit) : Written ShowsCount n := ⟨_, _, .count h, rfl⟩

section Parts

variable {α : Type} {Shows : Value → α → Prop}

theorem written_option {a : Option α} (h : ∀ b ∈ a, Written Shows b) :
    Written (ShowsOption Shows) a := by
  cases a with
  | none => exact ⟨_, _, .null, rfl⟩
  | some a => exact h a rfl

theorem written_list {as : List α} (h : ∀ a ∈ as, Written Shows a) : Written (ShowsList Shows) as := by
  have hitems : ∃ items : List (List Char × Value), (∀ item ∈ items, Spelled item.1 item.2) ∧
      List.Forall₂ Shows (items.map Prod.snd) as := by
    induction as with
    | nil => exact ⟨[], List.forall_mem_nil _, .nil⟩
    | cons a as ih =>
      obtain ⟨⟨cs, value, hspelled, hshows⟩, hrest⟩ := List.forall_mem_cons.mp h
      obtain ⟨items, hitems, hshow⟩ := ih hrest
      exact ⟨(cs, value) :: items, List.forall_mem_cons.mpr ⟨hspelled, hitems⟩, .cons hshows hshow⟩
  obtain ⟨items, hspelled, hshows⟩ := hitems
  exact ⟨_, _, .array (List.forall_mem_nil _) hspelled, _, rfl, hshows⟩

/-- A record is shown by an object with all its parts. -/
theorem written_shape {shape : Shape α} (hnames : shape.names.Nodup) {a : α}
    (h : ∀ slot ∈ shape.slots, Written slot.Shows (slot.get a)) : Written shape.Shows a := by
  have : Nonempty Value := ⟨.null⟩
  choose! text value hspelled hshows using h
  choose keyText hkey using exists_spelledKey
  let members := shape.slots.map fun slot => (slot.name, value slot)
  let written (slot : Slot α) : Member :=
    ⟨keyText slot.name, some slot.name, text slot, value slot⟩
  have hkeys : ∀ member ∈ shape.slots.map written, SpelledKey member.keyText member.key :=
    List.forall_mem_map.mpr fun slot _ => hkey slot.name
  have hvalues : ∀ member ∈ shape.slots.map written, Spelled member.valueText member.value :=
    List.forall_mem_map.mpr hspelled
  refine ⟨_, _, .object (List.forall_mem_nil _) hkeys hvalues, members, ?_, ?_, ?_, ?_, ?_⟩
  · simp only [objectOf, members, List.map_map]
    rfl
  · intro slot hslot member hmember hname
    obtain ⟨other, hother, rfl⟩ := List.mem_map.mp hmember
    obtain rfl := List.inj_on_of_nodup_map hnames hother hslot hname
    exact hshows other hother
  · have hkeys : keysOf members = shape.names := by simp [keysOf, members, Shape.names]
    rw [Shape.known, hkeys]
    exact hnames.filter _
  · intro slot hslot
    exact .inl (List.mem_map.mpr ⟨_, List.mem_map_of_mem hslot, rfl⟩)
  · intro _ member hmember
    obtain ⟨slot, hslot, rfl⟩ := List.mem_map.mp hmember
    exact List.mem_map_of_mem hslot

end Parts

end TemplateViews.Json
