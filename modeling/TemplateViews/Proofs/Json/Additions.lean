import TemplateViews.Proofs.Json.Records

/-! Members that a record does not know. A member with such a key and with any value of JSON is
passed over, so an object is decoded as it was without it, or is refused as it was; the same holds
of what is added further inside, as long as the decoder of the part that is changed agrees. -/

namespace TemplateViews.Json

/-- An object that has a member more, with a key that is not among some names. -/
inductive Joined (names : List String) : Value → Value → Prop
  | intro {front back : List (Option String × Value)} {key : String} {value : Value}
      {text : List Char} (hkey : key ∉ names) (hvalue : Spelled text value) :
      Joined names (.object (.ofList (front ++ back)))
        (.object (.ofList (front ++ (some key, value) :: back)))

inductive MemberChanged (key : String) (Changed : Value → Value → Prop) : Value → Value → Prop
  | intro {front back : List (Option String × Value)} {value value' : Value}
      (h : Changed value value') :
      MemberChanged key Changed (.object (.ofList (front ++ (some key, value) :: back)))
        (.object (.ofList (front ++ (some key, value') :: back)))

inductive ItemChanged (Changed : Value → Value → Prop) : Value → Value → Prop
  | intro {front back : List Value} {value value' : Value} (h : Changed value value') :
      ItemChanged Changed (.array (.ofList (front ++ value :: back)))
        (.array (.ofList (front ++ value' :: back)))

/-- A decoder that does not see a change. -/
def Overlooks {α : Type} (decode : Decoder α) (Changed : Value → Value → Prop) : Prop :=
  ∀ value value', Changed value value' → decode value = decode value'

section Members

variable {α : Type} {record : Record α} {shape : Shape α}

/-- Members in front are taken up in the same way, whatever stands behind them. -/
theorem Record.decodeMembers_congr {back back' : List (Option String × Value)}
    (h : ∀ seen draft, record.decodeMembers seen draft (.ofList back) =
      record.decodeMembers seen draft (.ofList back'))
    (front : List (Option String × Value)) (seen : List String) (draft : α) :
    record.decodeMembers seen draft (.ofList (front ++ back)) =
      record.decodeMembers seen draft (.ofList (front ++ back')) := by
  induction front generalizing seen draft with
  | nil => exact h seen draft
  | cons member front ih =>
    obtain ⟨key, value⟩ := member
    cases key with
    | none => rfl
    | some key =>
      rw [List.cons_append, List.cons_append, Members.ofList, Members.ofList]
      simp only [Record.decodeMembers, ih]

theorem Record.overlooks_joined (hfits : record.Fits shape) (hopen : shape.closed = false) :
    Overlooks record.decode (Joined shape.names) := by
  rintro _ _ ⟨hkey, hvalue⟩
  refine Record.decodeMembers_congr (fun seen draft => ?_) _ _ _
  exact (Record.decodeMembers_unknown hfits hopen hkey hvalue.skip_eq_none _).symm

theorem Record.overlooks_memberChanged {β : Type} {name : String} {need : Need}
    {decode : Decoder β} {put : β → α → α} {Changed : Value → Value → Prop}
    (hnames : (record.fields.map Field.name).Nodup)
    (hfield : Field.of name need decode put ∈ record.fields) (h : Overlooks decode Changed) :
    Overlooks record.decode (MemberChanged name Changed) := by
  rintro _ _ @⟨front, back, value, value', hchanged⟩
  have hput (draft : α) : (Field.of name need decode put).put value draft =
      (Field.of name need decode put).put value' draft := by
    change (decode value).map _ = (decode value').map _
    rw [h value value' hchanged]
  refine Record.decodeMembers_congr (fun seen draft => ?_) _ _ _
  rw [Members.ofList, Members.ofList, Record.decodeMembers, Record.decodeMembers]
  cases hfind : record.fields.find? (·.name == name) with
  | none => exact absurd (beq_self_eq_true name) (List.find?_eq_none.mp hfind _ hfield)
  | some field =>
    have hname := List.find?_some hfind
    obtain rfl := List.inj_on_of_nodup_map hnames (List.mem_of_find?_eq_some hfind) hfield
      (eq_of_beq hname)
    simp only [hput]

end Members

section Parts

variable {α : Type} {decode : Decoder α} {Changed : Value → Value → Prop}

theorem overlooks_option {names : List String} (h : Overlooks decode (Joined names)) :
    Overlooks (decodeOption decode) (Joined names) := by
  intro value value' hchanged
  have hsame := h value value' hchanged
  cases hchanged
  change (decode _).map some = (decode _).map some
  rw [hsame]

theorem overlooks_list (h : Overlooks decode Changed) :
    Overlooks (decodeList decode) (ItemChanged Changed) := by
  rintro _ _ @⟨front, back, value, value', hchanged⟩
  change decodeItems decode _ = decodeItems decode _
  induction front with
  | nil =>
    rw [List.nil_append, List.nil_append, Items.ofList, Items.ofList, decodeItems, decodeItems,
      h value value' hchanged]
  | cons item front ih =>
    rw [List.cons_append, List.cons_append, Items.ofList, Items.ofList, decodeItems, decodeItems, ih]

end Parts

end TemplateViews.Json
