import Mathlib.Data.List.Forall2
import Mathlib.Data.List.Nodup
import TemplateViews.Json.Decode
import TemplateViews.Proofs.Json.Grammar
import TemplateViews.Proofs.Outcome

/-! Records shown by objects. What a field may be left out as, and which values show it, is said by
a shape; a decoder that fits the shape takes up the members in any order, since each field is set
once and leaves the others as they were. -/

namespace TemplateViews.Json

/-- A part of a record: what it is when nothing is said of it, and the values that show it. -/
structure Slot (α : Type) where
  {Part : Type}
  name : String
  get : α → Part
  default? : Option Part := none
  Shows : Value → Part → Prop

structure Shape (α : Type) where
  /-- There are no other members. -/
  closed : Bool
  slots : List (Slot α)

/-- An object whose keys are all proper texts. -/
def objectOf (members : List (String × Value)) : Value :=
  .object (.ofList (members.map fun member => (some member.1, member.2)))

/-- The members of objects and the keys of a shape. -/
def keysOf (members : List (String × Value)) : List String := members.map Prod.fst

namespace Shape

variable {α : Type}

def names (shape : Shape α) : List String := shape.slots.map Slot.name

/-- The keys of members that the shape knows. -/
def known (shape : Shape α) (members : List (String × Value)) : List String :=
  (keysOf members).filter (· ∈ shape.names)

/-- Members in any order that show a record. -/
structure MembersShow (shape : Shape α) (members : List (String × Value)) (a : α) : Prop where
  shown : ∀ slot ∈ shape.slots, ∀ member ∈ members, member.1 = slot.name →
    slot.Shows member.2 (slot.get a)
  once : (shape.known members).Nodup
  given : ∀ slot ∈ shape.slots, slot.name ∈ keysOf members ∨ slot.default? = some (slot.get a)
  only : shape.closed = true → ∀ member ∈ members, member.1 ∈ shape.names

def Shows (shape : Shape α) (value : Value) (a : α) : Prop :=
  ∃ members, value = objectOf members ∧ shape.MembersShow members a

/-- Other members say nothing, where there may be others. -/
theorem MembersShow.insert {shape : Shape α} (hopen : shape.closed = false)
    {front back : List (String × Value)} {key : String} {a : α} (hkey : key ∉ shape.names)
    (h : shape.MembersShow (front ++ back) a) (value : Value) :
    shape.MembersShow (front ++ (key, value) :: back) a where
  shown := by
    intro slot hslot member hmember hname
    rw [List.mem_append, List.mem_cons] at hmember
    rcases hmember with hfront | rfl | hback
    · exact h.shown slot hslot member (List.mem_append_left _ hfront) hname
    · exact absurd (List.mem_map.mpr ⟨slot, hslot, hname.symm⟩) hkey
    · exact h.shown slot hslot member (List.mem_append_right _ hback) hname
  once := by
    have hknown : shape.known (front ++ (key, value) :: back) = shape.known (front ++ back) := by
      simp [known, keysOf, hkey]
    exact hknown ▸ h.once
  given := by
    intro slot hslot
    refine (h.given slot hslot).imp_left fun hgiven => ?_
    rw [keysOf, List.map_append, List.mem_append] at hgiven ⊢
    exact hgiven.imp_right (List.mem_cons_of_mem _)
  only := by
    rw [hopen]
    exact nofun

end Shape

theorem skip_objectOf {members : List (String × Value)} :
    (objectOf members).skip = none ↔ ∀ member ∈ members, member.2.skip = none := by
  rw [objectOf, Value.skip, Members.skip_ofList, List.forall_mem_map]

theorem Members.ofList_injective : Function.Injective ofList := by
  intro members members' h
  induction members generalizing members' with
  | nil =>
    cases members' with
    | nil => rfl
    | cons member' members' => cases h
  | cons member members ih =>
    cases members' with
    | nil => cases h
    | cons member' members' =>
      obtain ⟨hkey, hvalue, hrest⟩ := Members.member.inj h
      rw [ih hrest, Prod.ext hkey hvalue]

theorem objectOf_injective : Function.Injective objectOf := by
  intro members members' h
  have hpairs := Members.ofList_injective (Value.object.inj h)
  refine List.map_injective_iff.mpr (fun member member' hmember => ?_) hpairs
  obtain ⟨hkey, hvalue⟩ := Prod.mk.inj hmember
  exact Prod.ext (Option.some.inj hkey) hvalue

def ShowsText (value : Value) (text : String) : Prop := value = .string (some text)

def ShowsCount (value : Value) (n : Nat) : Prop := value = .number (some (.integer n))

/-- Nothing is shown by null. -/
def ShowsOption {α : Type} (Shows : Value → α → Prop) (value : Value) : Option α → Prop
  | none => value = .null
  | some a => Shows value a

def ShowsList {α : Type} (Shows : Value → α → Prop) (value : Value) (as : List α) : Prop :=
  ∃ values, value = .array (.ofList values) ∧ List.Forall₂ Shows values as

section Decoders

variable {α : Type} {Shows : Value → α → Prop} {decode : Decoder α} {value : Value}

theorem decodeString_of_shows {text : String} (expected : String) (h : ShowsText value text) :
    decodeString expected value = .ok text := by
  rw [h]
  rfl

theorem decodeNat_of_shows {n : Nat} (h : ShowsCount value n) : decodeNat value = .ok n := by
  rw [h, decodeNat, if_pos (Int.natCast_nonneg n), Int.toNat_natCast]

theorem decodeOption_of_shows (hdecode : ∀ a, Shows value a → decode value = .ok a)
    (hnull : ∀ a, ¬ Shows .null a) {a : Option α} (h : ShowsOption Shows value a) :
    decodeOption decode value = .ok a := by
  cases a with
  | none =>
    rw [show value = .null from h]
    rfl
  | some a =>
    have hvalue : value ≠ .null := by
      rintro rfl
      exact hnull a h
    rw [decodeOption, hdecode a h]
    · rfl
    · exact hvalue

theorem decodeList_of_shows
    (hdecode : ∀ value a, Shows value a → value.skip = none → decode value = .ok a) {as : List α}
    (h : ShowsList Shows value as) (hskip : value.skip = none) : decodeList decode value = .ok as := by
  obtain ⟨values, rfl, hvalues⟩ := h
  rw [Value.skip, Items.skip_ofList] at hskip
  rw [decodeList]
  induction hvalues with
  | nil => rfl
  | cons hvalue _ ih =>
    obtain ⟨hfirst, hrest⟩ := List.forall_mem_cons.mp hskip
    rw [Items.ofList, decodeItems, hdecode _ _ hvalue hfirst]
    dsimp only
    rw [ih hrest]
    rfl

end Decoders

section Fits

variable {α : Type}

/-- A field sets its part of the record from what shows it, and no other part. -/
structure Field.Sets (shape : Shape α) (field : Field α) (slot : Slot α) : Prop where
  name : field.name = slot.name
  need : field.need = .required ↔ slot.default? = none
  put : ∀ value b, slot.Shows value b → value.skip = none → ∀ draft, ∃ next,
    field.put value draft = .ok next ∧ slot.get next = b ∧
    ∀ other ∈ shape.slots, other.name ≠ slot.name → other.get next = other.get draft

theorem Field.sets_of {β : Type} {shape : Shape α} {name : String} {need : Need} {decode : Decoder β}
    {put : β → α → α} {get : α → β} {default? : Option β} {Shows : Value → β → Prop}
    (hneed : need = .required ↔ default? = none)
    (hdecode : ∀ value b, Shows value b → value.skip = none → decode value = .ok b)
    (hget : ∀ b draft, get (put b draft) = b)
    (hframe : ∀ b draft, ∀ other ∈ shape.slots, other.name ≠ name →
      other.get (put b draft) = other.get draft) :
    (Field.of name need decode put).Sets shape ⟨name, get, default?, Shows⟩ where
  name := rfl
  need := hneed
  put := by
    intro value b hshows hskip draft
    refine ⟨put b draft, ?_, hget b draft, hframe b draft⟩
    change (decode value).map (put · draft) = _
    rw [hdecode value b hshows hskip]
    rfl

/-- A decoder of records that a shape describes. -/
structure Record.Fits (record : Record α) (shape : Shape α) : Prop where
  strict : record.strict = shape.closed
  fields : List.Forall₂ (Field.Sets shape) record.fields shape.slots
  names : shape.names.Nodup
  draft : ∀ slot ∈ shape.slots, ∀ b, slot.default? = some b → slot.get record.draft = b
  ext : ∀ a b, (∀ slot ∈ shape.slots, slot.get a = slot.get b) → a = b

variable {shape : Shape α} {fields : List (Field α)} {slots : List (Slot α)}

theorem names_of_sets (h : List.Forall₂ (Field.Sets shape) fields slots) :
    fields.map Field.name = slots.map Slot.name := by
  induction h with
  | nil => rfl
  | cons hfield _ ih => rw [List.map_cons, List.map_cons, hfield.name, ih]

theorem find_field_eq_none {key : String} (h : key ∉ fields.map Field.name) :
    fields.find? (·.name == key) = none := by
  refine List.find?_eq_none.mpr fun field hfield hname => h ?_
  rw [← eq_of_beq hname]
  exact List.mem_map_of_mem hfield

theorem exists_find_field (h : List.Forall₂ (Field.Sets shape) fields slots)
    (hnames : (slots.map Slot.name).Nodup) {slot : Slot α} (hslot : slot ∈ slots) :
    ∃ field, fields.find? (·.name == slot.name) = some field ∧ field.Sets shape slot := by
  induction h with
  | nil => cases hslot
  | @cons field first fields slots hfield _ ih =>
    rw [List.map_cons, List.nodup_cons] at hnames
    rcases List.mem_cons.mp hslot with rfl | hslot
    · exact ⟨field, by rw [List.find?_cons_of_pos (by simp [hfield.name])], hfield⟩
    · have hother : field.name ≠ slot.name := by
        rw [hfield.name]
        intro hsame
        exact hnames.1 (hsame ▸ List.mem_map_of_mem hslot)
      obtain ⟨found, hfound, hsets⟩ := ih hnames.2 hslot
      exact ⟨found, by rw [List.find?_cons_of_neg (by simpa using hother), hfound], hsets⟩

theorem exists_slot_of_field {R : Field α → Slot α → Prop} (h : List.Forall₂ R fields slots)
    {field : Field α} (hfield : field ∈ fields) : ∃ slot ∈ slots, R field slot := by
  induction h with
  | nil => cases hfield
  | cons hfirst _ ih =>
    rcases List.mem_cons.mp hfield with rfl | hfield
    · exact ⟨_, List.mem_cons_self, hfirst⟩
    · obtain ⟨slot, hslot, hrelated⟩ := ih hfield
      exact ⟨slot, List.mem_cons_of_mem _ hslot, hrelated⟩

end Fits

namespace Record

variable {α : Type} {record : Record α} {shape : Shape α} {a draft : α} {seen : List String}

/-- A draft agrees with a record in the parts that were seen, and with the draft of an empty object
in all others. -/
structure Agrees (record : Record α) (shape : Shape α) (a : α) (seen : List String) (draft : α) :
    Prop where
  given : ∀ slot ∈ shape.slots, slot.name ∈ seen → slot.get draft = slot.get a
  missing : ∀ slot ∈ shape.slots, slot.name ∉ seen → slot.get draft = slot.get record.draft

theorem decodeMembers_unknown (hfits : record.Fits shape) (hopen : shape.closed = false)
    {key : String} (hkey : key ∉ shape.names) {value : Value} (hskip : value.skip = none)
    (rest : Members) : record.decodeMembers seen draft (.member (some key) value rest) =
      record.decodeMembers seen draft rest := by
  have hfind : record.fields.find? (·.name == key) = none :=
    find_field_eq_none (names_of_sets hfits.fields ▸ hkey)
  rw [decodeMembers, hfind, hfits.strict, hopen, hskip]
  rfl

theorem agrees_of_set (hfits : record.Fits shape) {slot : Slot α} (hslot : slot ∈ shape.slots)
    {next : α} (hpart : slot.get next = slot.get a)
    (hframe : ∀ other ∈ shape.slots, other.name ≠ slot.name → other.get next = other.get draft)
    (h : Agrees record shape a seen draft) : Agrees record shape a (slot.name :: seen) next where
  given := by
    intro other hother hseen
    by_cases hname : other.name = slot.name
    · obtain rfl := List.inj_on_of_nodup_map hfits.names hother hslot hname
      exact hpart
    · rw [hframe other hother hname]
      exact h.given other hother ((List.mem_cons.mp hseen).resolve_left hname)
  missing := by
    intro other hother hunseen
    rw [List.mem_cons, not_or] at hunseen
    rw [hframe other hother hunseen.1, h.missing other hother hunseen.2]

/-- A step over a member that shows its part. -/
theorem decodeMembers_shown (hfits : record.Fits shape) {slot : Slot α} (hslot : slot ∈ shape.slots)
    (hunseen : slot.name ∉ seen) {value : Value} (hshows : slot.Shows value (slot.get a))
    (hskip : value.skip = none) (draft : α) (rest : Members) : ∃ next,
    record.decodeMembers seen draft (.member (some slot.name) value rest) =
      record.decodeMembers (slot.name :: seen) next rest ∧
    (Agrees record shape a seen draft → Agrees record shape a (slot.name :: seen) next) := by
  obtain ⟨field, hfind, hsets⟩ := exists_find_field hfits.fields hfits.names hslot
  obtain ⟨next, hput, hpart, hframe⟩ := hsets.put value _ hshows hskip draft
  have hnew : seen.contains slot.name = false := by simpa using hunseen
  refine ⟨next, ?_, agrees_of_set hfits hslot hpart hframe⟩
  rw [decodeMembers, hfind]
  simp only [hnew, Bool.false_eq_true, if_false, hput]

theorem known_cons_of_mem {key : String} (h : key ∈ shape.names) (value : Value)
    (members : List (String × Value)) : shape.known ((key, value) :: members) = key :: shape.known members :=
  List.filter_cons_of_pos (by simpa using h)

/-- The run over members that show their parts, whatever stands behind them. -/
theorem decodeMembers_append (hfits : record.Fits shape) {members : List (String × Value)}
    (hshown : ∀ slot ∈ shape.slots, ∀ member ∈ members, member.1 = slot.name →
      slot.Shows member.2 (slot.get a))
    (honce : (shape.known members ++ seen).Nodup)
    (honly : shape.closed = true → ∀ member ∈ members, member.1 ∈ shape.names)
    (hskip : ∀ member ∈ members, member.2.skip = none) (draft : α) (rest : List (String × Value)) :
    ∃ next, record.decodeMembers seen draft (.ofList ((members ++ rest).map fun m => (some m.1, m.2))) =
      record.decodeMembers ((shape.known members).reverse ++ seen) next
        (.ofList (rest.map fun m => (some m.1, m.2))) ∧
    (Agrees record shape a seen draft →
      Agrees record shape a ((shape.known members).reverse ++ seen) next) := by
  induction members generalizing seen draft with
  | nil => exact ⟨draft, rfl, id⟩
  | cons member members ih =>
    obtain ⟨key, value⟩ := member
    have hshown' : ∀ slot ∈ shape.slots, ∀ member ∈ members, member.1 = slot.name →
        slot.Shows member.2 (slot.get a) :=
      fun slot hslot member hmember => hshown slot hslot member (List.mem_cons_of_mem _ hmember)
    have honly' : shape.closed = true → ∀ member ∈ members, member.1 ∈ shape.names :=
      fun hclosed member hmember => honly hclosed member (List.mem_cons_of_mem _ hmember)
    obtain ⟨hvalue, hskip'⟩ := List.forall_mem_cons.mp hskip
    rw [List.cons_append, List.map_cons, Members.ofList]
    by_cases hkey : key ∈ shape.names
    · have hknown := known_cons_of_mem hkey value members
      rw [hknown, List.cons_append, ← List.nodup_middle] at honce
      obtain ⟨slot, hslot, rfl⟩ := List.mem_map.mp hkey
      have hunseen : slot.name ∉ seen := (List.nodup_cons.mp (List.nodup_append.mp honce).2.1).1
      obtain ⟨next, hstep, hnext⟩ := decodeMembers_shown hfits hslot hunseen
        (hshown slot hslot _ List.mem_cons_self rfl) hvalue draft
        (.ofList ((members ++ rest).map fun m => (some m.1, m.2)))
      obtain ⟨last, hrun, hlast⟩ := ih hshown' honce honly' hskip' next
      refine ⟨last, ?_, fun hagrees => ?_⟩
      · rw [hstep, hrun, hknown, List.reverse_cons, List.append_assoc, List.singleton_append]
      · rw [hknown, List.reverse_cons, List.append_assoc, List.singleton_append]
        exact hlast (hnext hagrees)
    · have hknown : shape.known ((key, value) :: members) = shape.known members :=
        List.filter_cons_of_neg (by simpa using hkey)
      have hopen : shape.closed = false := by
        rw [← Bool.not_eq_true]
        exact fun hclosed => hkey (honly hclosed _ List.mem_cons_self)
      rw [hknown] at honce ⊢
      rw [decodeMembers_unknown hfits hopen hkey hvalue]
      exact ih hshown' honce honly' hskip' draft

theorem agrees_draft : Agrees record shape a [] record.draft where
  given := fun _ _ hmem => absurd hmem List.not_mem_nil
  missing := fun _ _ _ => rfl

theorem mem_known_iff {members : List (String × Value)} {key : String} :
    key ∈ shape.known members ↔ key ∈ keysOf members ∧ key ∈ shape.names := by
  simp [Shape.known]

/-- What the members of an object show is what the object is decoded as. -/
theorem decode_of_shows (hfits : record.Fits shape) {value : Value} (h : shape.Shows value a)
    (hskip : value.skip = none) : record.decode value = .ok a := by
  obtain ⟨members, rfl, hmembers⟩ := h
  rw [skip_objectOf] at hskip
  have honce : (shape.known members ++ []).Nodup := by
    rw [List.append_nil]
    exact hmembers.once
  obtain ⟨last, hrun, hagrees⟩ := decodeMembers_append hfits hmembers.shown honce hmembers.only hskip
    record.draft []
  rw [List.append_nil, List.append_nil] at hrun
  rw [List.append_nil] at hagrees
  have hagrees := hagrees agrees_draft
  have hseen {slot : Slot α} (hslot : slot ∈ shape.slots) :
      slot.name ∈ (shape.known members).reverse ↔ slot.name ∈ keysOf members := by
    rw [List.mem_reverse, mem_known_iff]
    exact and_iff_left (List.mem_map_of_mem hslot)
  have hneed : record.fields.find? (fun field => field.need == .required &&
      !(shape.known members).reverse.contains field.name) = none := by
    refine List.find?_eq_none.mpr fun field hfield => ?_
    obtain ⟨slot, hslot, hsets⟩ := exists_slot_of_field hfits.fields hfield
    rcases hmembers.given slot hslot with hgiven | hdefault
    · have hmem := (hseen hslot).mpr hgiven
      simp [hsets.name, List.mem_reverse.mp hmem]
    · have hfree : field.need ≠ .required := by
        rw [Ne, hsets.need, hdefault]
        simp
      simp [hfree]
  have hlast : last = a := by
    refine hfits.ext last a fun slot hslot => ?_
    by_cases hmem : slot.name ∈ (shape.known members).reverse
    · exact hagrees.given slot hslot hmem
    · have hdefault := (hmembers.given slot hslot).resolve_left fun hgiven => hmem ((hseen hslot).mpr hgiven)
      rw [hagrees.missing slot hslot hmem, hfits.draft slot hslot _ hdefault]
  rw [objectOf, decode, hrun, List.map_nil, Members.ofList, decodeMembers, hneed, hlast]

section Refusals

variable {front back : List (String × Value)} {key : String} {value : Value}

theorem known_append : shape.known (front ++ back) = shape.known front ++ shape.known back := by
  simp [Shape.known, keysOf]

theorem decodeMembers_unknownField (hfits : record.Fits shape) (hclosed : shape.closed = true)
    (hkey : key ∉ shape.names) (rest : Members) :
    record.decodeMembers seen draft (.member (some key) value rest) =
      .error (record.unknownField key) := by
  have hfind : record.fields.find? (·.name == key) = none :=
    find_field_eq_none (names_of_sets hfits.fields ▸ hkey)
  rw [decodeMembers, hfind, hfits.strict, hclosed]
  rfl

theorem decodeMembers_duplicateField (hfits : record.Fits shape) (hkey : key ∈ shape.names)
    (hseen : key ∈ seen) (rest : Members) :
    record.decodeMembers seen draft (.member (some key) value rest) = .error (duplicateField key) := by
  obtain ⟨slot, hslot, rfl⟩ := List.mem_map.mp hkey
  obtain ⟨field, hfind, -⟩ := exists_find_field hfits.fields hfits.names hslot
  have hagain : seen.contains slot.name = true := by simpa using hseen
  rw [decodeMembers, hfind]
  simp only [hagain, if_true]

/-- The members in front of a place are taken up before the member at the place is looked at. -/
theorem decode_append (hfits : record.Fits shape) (h : shape.MembersShow (front ++ back) a)
    (hskip : ∀ member ∈ front, member.2.skip = none) (rest : List (String × Value)) : ∃ next,
    record.decode (objectOf (front ++ rest)) =
      record.decodeMembers (shape.known front).reverse next
        (.ofList (rest.map fun m => (some m.1, m.2))) := by
  have honce : (shape.known front ++ []).Nodup := by
    rw [List.append_nil]
    exact (List.nodup_append.mp (known_append ▸ h.once)).1
  obtain ⟨next, hrun, -⟩ := decodeMembers_append hfits
    (fun slot hslot member hmember => h.shown slot hslot member (List.mem_append_left _ hmember)) honce
    (fun hclosed member hmember => h.only hclosed member (List.mem_append_left _ hmember)) hskip
    record.draft rest
  rw [List.append_nil] at hrun
  exact ⟨next, hrun⟩

/-- A value that a field may refuse for what it is, but not because it is no JSON. -/
def Weighs (record : Record α) (key : String) (value : Value) : Prop :=
  ∀ field ∈ record.fields, field.name = key → ∀ draft e, field.put value draft = .error e →
    ∃ message, e = .data message

theorem weighs_of_shows (hfits : record.Fits shape) {slot : Slot α} (hslot : slot ∈ shape.slots)
    {b : slot.Part} (h : slot.Shows value b) (hskip : value.skip = none) :
    record.Weighs slot.name value := by
  intro field hfield hname draft e he
  obtain ⟨other, hother, hsets⟩ := exists_slot_of_field hfits.fields hfield
  obtain rfl := List.inj_on_of_nodup_map hfits.names hother hslot (hsets.name.symm.trans hname)
  obtain ⟨next, hput, -⟩ := hsets.put value b h hskip draft
  rw [hput] at he
  cases he

/-- A second member for a key is refused when the first one of the two was taken up. -/
theorem decodeMembers_repeated (hfits : record.Fits shape) (hkey : key ∈ shape.names)
    (h : shape.MembersShow (front ++ back) a) (hback : key ∈ keysOf back)
    (hskip : ∀ member ∈ back, member.2.skip = none) :
    record.decodeMembers (key :: (shape.known front).reverse) draft
      (.ofList (back.map fun m => (some m.1, m.2))) = .error (duplicateField key) := by
  obtain ⟨⟨key', again⟩, hmember, hsame⟩ := List.mem_map.mp hback
  obtain rfl : key' = key := hsame
  obtain ⟨middle, rest, rfl⟩ := List.append_of_mem hmember
  have honce := h.once
  rw [known_append, known_append, known_cons_of_mem hkey] at honce
  have hmiddle : (shape.known middle ++ key' :: (shape.known front).reverse).Nodup := by
    grind
  obtain ⟨next, hrun, -⟩ := decodeMembers_append (a := a) hfits
    (fun slot hslot member hmember => h.shown slot hslot member (by simp [hmember])) hmiddle
    (fun hclosed member hmember => h.only hclosed member (by simp [hmember]))
    (fun member hmember => hskip member (by simp [hmember])) draft ((key', again) :: rest)
  rw [hrun, List.map_cons, Members.ofList]
  exact decodeMembers_duplicateField hfits hkey (by simp) _

/-- Members of a closed record that has one member too many, with a key that is unknown or there
already. -/
theorem decode_inserted (hfits : record.Fits shape) (hclosed : shape.closed = true)
    (h : shape.MembersShow (front ++ back) a)
    (hkey : key ∉ shape.names ∨ key ∈ keysOf (front ++ back))
    (hskip : ∀ member ∈ front ++ back, member.2.skip = none) : ∃ e,
    record.decode (objectOf (front ++ (key, value) :: back)) = .error e ∧
      ((key ∈ keysOf back → record.Weighs key value) → ∃ message, e = .data message) := by
  obtain ⟨hfront, hback⟩ := List.forall_mem_append.mp hskip
  obtain ⟨next, hrun⟩ := decode_append hfits h hfront ((key, value) :: back)
  rw [hrun, List.map_cons, Members.ofList]
  by_cases hknown : key ∈ shape.names
  · by_cases hseen : key ∈ (shape.known front).reverse
    · exact ⟨_, decodeMembers_duplicateField hfits hknown hseen _, fun _ => ⟨_, rfl⟩⟩
    · have hlater : key ∈ keysOf back := by
        have hmem := hkey.resolve_left (not_not_intro hknown)
        rw [keysOf, List.map_append, List.mem_append] at hmem
        refine hmem.resolve_left fun hfront => hseen ?_
        exact List.mem_reverse.mpr (mem_known_iff.mpr ⟨hfront, hknown⟩)
      obtain ⟨slot, hslot, rfl⟩ := List.mem_map.mp hknown
      obtain ⟨field, hfind, hsets⟩ := exists_find_field hfits.fields hfits.names hslot
      have hnew : (shape.known front).reverse.contains slot.name = false := by simpa using hseen
      rw [decodeMembers, hfind]
      simp only [hnew, Bool.false_eq_true, if_false]
      cases hput : field.put value next with
      | error e =>
        exact ⟨e, rfl, fun hweighs => hweighs hlater field (List.mem_of_find?_eq_some hfind)
          hsets.name next e hput⟩
      | ok taken =>
        exact ⟨_, decodeMembers_repeated hfits hknown h hlater hback, fun _ => ⟨_, rfl⟩⟩
  · exact ⟨_, decodeMembers_unknownField hfits hclosed hknown _, fun _ => ⟨_, rfl⟩⟩

/-- A member that is refused makes the object refused for the same reason. -/
theorem decode_refused (hfits : record.Fits shape) {slot : Slot α} (hslot : slot ∈ shape.slots)
    {good : Value} (h : shape.MembersShow (front ++ (slot.name, good) :: back) a)
    (hskip : ∀ member ∈ front, member.2.skip = none) {e : DecodeError}
    (hrefuse : ∀ field ∈ record.fields, field.name = slot.name →
      ∀ draft, field.put value draft = .error e) :
    record.decode (objectOf (front ++ (slot.name, value) :: back)) = .error e := by
  obtain ⟨next, hrun⟩ := decode_append hfits h hskip ((slot.name, value) :: back)
  obtain ⟨field, hfind, hsets⟩ := exists_find_field hfits.fields hfits.names hslot
  have hnew : (shape.known front).reverse.contains slot.name = false := by
    have honce := h.once
    rw [known_append, known_cons_of_mem (List.mem_map_of_mem hslot)] at honce
    simp only [List.contains_eq_mem, List.mem_reverse, decide_eq_false_iff_not]
    grind
  rw [hrun, List.map_cons, Members.ofList, decodeMembers, hfind]
  simp only [hnew, Bool.false_eq_true, if_false,
    hrefuse field (List.mem_of_find?_eq_some hfind) hsets.name]

end Refusals

end Record

end TemplateViews.Json
