import TemplateViews.Proofs.Json.Records

/-! Decoders that take what shows something and nothing else. A record is taken from an object or
from an array of its parts in order, and from each as what it shows. -/

namespace TemplateViews.Json

def ShowsBool (value : Value) (b : Bool) : Prop := value = .bool b

/-- Values that show the parts of a record in order. Parts at the end may be left out. -/
inductive ShowInOrder {α : Type} (a : α) : List (Slot α) → List Value → Prop
  | nil : ShowInOrder a [] []
  | left {slot : Slot α} {slots : List (Slot α)} (h : slot.default? = some (slot.get a))
      (hrest : ShowInOrder a slots []) : ShowInOrder a (slot :: slots) []
  | given {slot : Slot α} {slots : List (Slot α)} {value : Value} {values : List Value}
      (h : slot.Shows value (slot.get a)) (hrest : ShowInOrder a slots values) :
      ShowInOrder a (slot :: slots) (value :: values)

def Shape.ShowsEither {α : Type} (shape : Shape α) (value : Value) (a : α) : Prop :=
  shape.Shows value a ∨ ∃ values, value = .array (.ofList values) ∧ ShowInOrder a shape.slots values

/-- A decoder gives what a value shows, and gives nothing for other values. -/
def Exactly {α : Type} (decode : Decoder α) (Shows : Value → α → Prop) : Prop :=
  ∀ value a, decode value = .ok a ↔ value.skip = none ∧ Shows value a

section Decoders

variable {α : Type} {Shows : Value → α → Prop} {decode : Decoder α}

theorem exactly_string (expected : String) : Exactly (decodeString expected) ShowsText := by
  intro value text
  constructor
  · intro h
    unfold decodeString at h
    split at h
    · obtain rfl := Except.ok.inj h
      exact ⟨rfl, rfl⟩
    · cases h
  · exact fun h => decodeString_of_shows expected h.2

theorem exactly_bool : Exactly decodeBool ShowsBool := by
  intro value b
  constructor
  · intro h
    unfold decodeBool at h
    split at h
    · obtain rfl := Except.ok.inj h
      exact ⟨rfl, rfl⟩
    · cases h
  · rintro ⟨-, h⟩
    rw [show value = .bool b from h]
    rfl

theorem exactly_nat : Exactly decodeNat ShowsCount := by
  intro value n
  constructor
  · intro h
    unfold decodeNat at h
    split at h
    · next i =>
      split at h
      · next hpos =>
        obtain rfl := Except.ok.inj h
        exact ⟨rfl, by rw [ShowsCount, Int.toNat_of_nonneg hpos]⟩
      · cases h
    · cases h
  · exact fun h => decodeNat_of_shows h.2

theorem exactly_option (h : Exactly decode Shows) (hnull : ∀ a, ¬ Shows .null a) :
    Exactly (decodeOption decode) (ShowsOption Shows) := by
  intro value a
  constructor
  · intro hread
    unfold decodeOption at hread
    split at hread
    · obtain rfl := Except.ok.inj hread
      exact ⟨rfl, rfl⟩
    · obtain ⟨b, hb, rfl⟩ := map_eq_ok_iff.mp hread
      exact (h _ b).mp hb
  · rintro ⟨hskip, hshows⟩
    exact decodeOption_of_shows (fun b hb => (h value b).mpr ⟨hskip, hb⟩) hnull hshows

theorem exists_of_decodeItems (h : Exactly decode Shows) {items : Items} {as : List α}
    (hread : decodeItems decode items = .ok as) :
    ∃ values, items = .ofList values ∧ (∀ value ∈ values, value.skip = none) ∧
      List.Forall₂ Shows values as := by
  induction as generalizing items with
  | nil =>
    cases items with
    | close => exact ⟨[], rfl, List.forall_mem_nil _, .nil⟩
    | cut | dangling => cases hread
    | item value rest =>
      rw [decodeItems] at hread
      split at hread
      · cases hread
      · obtain ⟨_, _, hcons⟩ := map_eq_ok_iff.mp hread
        cases hcons
  | cons a as ih =>
    cases items with
    | close | cut | dangling => cases hread
    | item value rest =>
      rw [decodeItems] at hread
      split at hread
      · cases hread
      · next b hb =>
        obtain ⟨bs, hbs, hcons⟩ := map_eq_ok_iff.mp hread
        obtain ⟨rfl, rfl⟩ := List.cons.inj hcons
        obtain ⟨values, rfl, hskip, hshows⟩ := ih hbs
        obtain ⟨hvalue, hfirst⟩ := (h value b).mp hb
        exact ⟨value :: values, rfl, List.forall_mem_cons.mpr ⟨hvalue, hskip⟩, .cons hfirst hshows⟩

theorem exactly_list (h : Exactly decode Shows) :
    Exactly (decodeList decode) (ShowsList Shows) := by
  intro value as
  constructor
  · intro hread
    unfold decodeList at hread
    split at hread
    · obtain ⟨values, rfl, hskip, hshows⟩ := exists_of_decodeItems h hread
      exact ⟨Items.skip_ofList.mpr hskip, values, rfl, hshows⟩
    · cases hread
  · rintro ⟨hskip, hshows⟩
    exact decodeList_of_shows (fun value a hshow hvalue => (h value a).mpr ⟨hvalue, hshow⟩) hshows
      hskip

theorem Document.decode_eq_ok_iff {document : Document} {a : α} :
    document.decode decode = .ok a ↔ decode document.value = .ok a ∧ document.trailing = false := by
  unfold Document.decode
  cases decode document.value with
  | error e => simp
  | ok b => cases document.trailing <;> simp

end Decoders

/-- A field that takes what shows its part and nothing else. -/
structure Field.Exact {α : Type} (shape : Shape α) (field : Field α) (slot : Slot α) : Prop
    extends Field.Sets shape field slot where
  /-- What may be left out of an object may be left out of an array. -/
  unnamed : field.need ≠ .named
  shown : ∀ value draft next, field.put value draft = .ok next →
    value.skip = none ∧ slot.Shows value (slot.get next)

theorem Field.exact_of {α β : Type} {shape : Shape α} {name : String} {need : Need}
    {decode : Decoder β} {put : β → α → α} {get : α → β} {default? : Option β}
    {Shows : Value → β → Prop} (hneed : need = .required ↔ default? = none)
    (hunnamed : need ≠ .named) (hdecode : Exactly decode Shows)
    (hget : ∀ b draft, get (put b draft) = b)
    (hframe : ∀ b draft, ∀ other ∈ shape.slots, other.name ≠ name →
      other.get (put b draft) = other.get draft) :
    (Field.of name need decode put).Exact shape ⟨name, get, default?, Shows⟩ where
  toSets := Field.sets_of hneed (fun value b hshows hskip => (hdecode value b).mpr ⟨hskip, hshows⟩)
    hget hframe
  unnamed := hunnamed
  shown := by
    intro value draft next hput
    obtain ⟨b, hb, rfl⟩ := map_eq_ok_iff.mp hput
    obtain ⟨hskip, hshows⟩ := (hdecode value b).mp hb
    refine ⟨hskip, ?_⟩
    change Shows value (get (put b draft))
    rwa [hget]

structure Record.Exact {α : Type} (record : Record α) (shape : Shape α) : Prop
    extends Record.Fits record shape where
  exact : List.Forall₂ (Field.Exact shape) record.fields shape.slots

namespace Record

variable {α : Type} {record : Record α} {shape : Shape α} {a draft : α} {seen : List String}

theorem Exact.of {record : Record α} {shape : Shape α} (hstrict : record.strict = shape.closed)
    (hfields : List.Forall₂ (Field.Exact shape) record.fields shape.slots)
    (hnames : shape.names.Nodup)
    (hdraft : ∀ slot ∈ shape.slots, ∀ b, slot.default? = some b → slot.get record.draft = b)
    (hext : ∀ a b, (∀ slot ∈ shape.slots, slot.get a = slot.get b) → a = b) :
    record.Exact shape where
  strict := hstrict
  fields := hfields.imp fun _ _ h => h.toSets
  names := hnames
  draft := hdraft
  ext := hext
  exact := hfields

/-- What is known of members that were taken up, of what they were put into and of what came out. -/
structure Taken (shape : Shape α) (seen : List String) (draft : α)
    (members : List (String × Value)) (a : α) : Prop where
  shown : ∀ slot ∈ shape.slots, ∀ member ∈ members, member.1 = slot.name →
    slot.Shows member.2 (slot.get a)
  once : (shape.known members).Nodup
  unseen : ∀ key ∈ shape.known members, key ∉ seen
  given : ∀ slot ∈ shape.slots, slot.name ∈ keysOf members ∨ slot.name ∈ seen ∨
    slot.default?.isSome = true
  same : ∀ slot ∈ shape.slots, slot.name ∉ keysOf members → slot.get a = slot.get draft
  only : shape.closed = true → ∀ member ∈ members, member.1 ∈ shape.names
  skip : ∀ member ∈ members, member.2.skip = none

theorem taken_nil (hexact : record.Exact shape) (hnone : record.fields.find?
    (fun field => field.need == .required && !seen.contains field.name) = none) :
    Taken shape seen draft [] draft := by
  refine ⟨by simp, by simp [Shape.known, keysOf], by simp [Shape.known, keysOf], ?_, by simp,
    by simp, by simp⟩
  intro slot hslot
  obtain ⟨field, hfind, hsets⟩ := exists_find_field hexact.fields hexact.names hslot
  have hmem := List.find?_eq_none.mp hnone field (List.mem_of_find?_eq_some hfind)
  by_cases hseen : slot.name ∈ seen
  · exact .inr (.inl hseen)
  · have hfree : field.need ≠ .required := by
      simpa [hsets.name, hseen] using hmem
    rw [Ne, hsets.need] at hfree
    exact .inr (.inr (Option.isSome_iff_ne_none.mpr hfree))

theorem taken_unknown {key : String} {value : Value} {members : List (String × Value)}
    (hkey : key ∉ shape.names) (hopen : shape.closed = false) (hskip : value.skip = none)
    (h : Taken shape seen draft members a) : Taken shape seen draft ((key, value) :: members) a := by
  have hknown : shape.known ((key, value) :: members) = shape.known members :=
    List.filter_cons_of_neg (by simpa using hkey)
  refine ⟨?_, hknown ▸ h.once, hknown ▸ h.unseen, ?_, ?_, by simp [hopen],
    List.forall_mem_cons.mpr ⟨hskip, h.skip⟩⟩
  · intro slot hslot member hmember hname
    rcases List.mem_cons.mp hmember with rfl | hmember
    · exact absurd (List.mem_map.mpr ⟨slot, hslot, hname.symm⟩) hkey
    · exact h.shown slot hslot member hmember hname
  · exact fun slot hslot => (h.given slot hslot).imp_left (List.mem_cons_of_mem _)
  · exact fun slot hslot hmissing =>
      h.same slot hslot fun hmem => hmissing (List.mem_cons_of_mem _ hmem)

theorem taken_known {slot : Slot α} {value : Value} {next : α} {members : List (String × Value)}
    (hnames : shape.names.Nodup) (hslot : slot ∈ shape.slots) (hunseen : slot.name ∉ seen)
    (hshows : slot.Shows value (slot.get next)) (hskip : value.skip = none)
    (hframe : ∀ other ∈ shape.slots, other.name ≠ slot.name → other.get next = other.get draft)
    (h : Taken shape (slot.name :: seen) next members a) :
    Taken shape seen draft ((slot.name, value) :: members) a := by
  have hname : slot.name ∈ shape.names := List.mem_map_of_mem hslot
  have hknown := known_cons_of_mem hname value members
  -- the name was seen when the other members were taken up, so none of them has it
  have hother : slot.name ∉ shape.known members := fun hmem =>
    h.unseen _ hmem List.mem_cons_self
  have hmissing : slot.name ∉ keysOf members := fun hmem => hother (mem_known_iff.mpr ⟨hmem, hname⟩)
  refine ⟨?_, ?_, ?_, ?_, ?_, ?_, List.forall_mem_cons.mpr ⟨hskip, h.skip⟩⟩
  · intro other hslot' member hmember hsame
    rcases List.mem_cons.mp hmember with rfl | hmember
    · obtain rfl := List.inj_on_of_nodup_map hnames hslot hslot' hsame
      rwa [h.same _ hslot hmissing]
    · exact h.shown other hslot' member hmember hsame
  · rw [hknown]
    exact List.nodup_cons.mpr ⟨hother, h.once⟩
  · rw [hknown]
    refine List.forall_mem_cons.mpr ⟨hunseen, fun key hkey hseen => ?_⟩
    exact h.unseen key hkey (List.mem_cons_of_mem _ hseen)
  · intro other hslot'
    by_cases hsame : other.name = slot.name
    · exact .inl (hsame ▸ List.mem_cons_self)
    · refine (h.given other hslot').imp (List.mem_cons_of_mem _) (Or.imp_left fun hseen => ?_)
      exact (List.mem_cons.mp hseen).resolve_left hsame
  · intro other hslot' hunsaid
    have hdiffers : other.name ≠ slot.name := fun hsame =>
      hunsaid (hsame ▸ List.mem_cons_self)
    rw [h.same other hslot' fun hmem => hunsaid (List.mem_cons_of_mem _ hmem),
      hframe other hslot' hdiffers]
  · exact fun hclosed => List.forall_mem_cons.mpr ⟨hname, h.only hclosed⟩

/-- A step for each member: one that is known is put into the draft, any other is passed over. -/
theorem exists_taken (hexact : record.Exact shape) {members : Members}
    (h : record.decodeMembers seen draft members = .ok a) :
    ∃ list : List (String × Value),
      members = .ofList (list.map fun m => (some m.1, m.2)) ∧ Taken shape seen draft list a := by
  fun_induction record.decodeMembers seen draft members with
  | case1 | case3 | case4 | case5 | case6 | case8 | case9 => cases h
  | case2 seen draft hnone =>
    obtain rfl := Except.ok.inj h
    exact ⟨[], rfl, taken_nil hexact hnone⟩
  | case7 seen draft key value rest hfind hopen hskip ih =>
    obtain ⟨list, rfl, htaken⟩ := ih h
    have hkey : key ∉ shape.names := by
      intro hkey
      obtain ⟨slot, hslot, rfl⟩ := List.mem_map.mp hkey
      obtain ⟨field, hfound, -⟩ := exists_find_field hexact.fields hexact.names hslot
      rw [hfind] at hfound
      cases hfound
    rw [hexact.strict, Bool.not_eq_true] at hopen
    exact ⟨(key, value) :: list, rfl, taken_unknown hkey hopen hskip htaken⟩
  | case10 seen draft key value rest field hfind hunseen next hput ih =>
    obtain ⟨list, rfl, htaken⟩ := ih h
    have hname := List.find?_some hfind
    obtain ⟨slot, hslot, hfield⟩ :=
      exists_slot_of_field hexact.exact (List.mem_of_find?_eq_some hfind)
    obtain rfl : slot.name = key := hfield.name.symm.trans (eq_of_beq hname)
    obtain ⟨hskip, hshows⟩ := hfield.shown value draft next hput
    obtain ⟨next', hput', -, hframe⟩ := hfield.put value _ hshows hskip draft
    obtain rfl := Except.ok.inj (hput.symm.trans hput')
    exact ⟨(slot.name, value) :: list, rfl,
      taken_known hexact.names hslot (by simpa using hunseen) hshows hskip hframe htaken⟩

theorem defaults_of_frame {slot : Slot α} {slots : List (Slot α)} {next : α}
    (hslots : ∀ other ∈ slots, other ∈ shape.slots) (hname : slot.name ∉ slots.map Slot.name)
    (hframe : ∀ other ∈ shape.slots, other.name ≠ slot.name → other.get next = other.get draft)
    (hdraft : ∀ other ∈ slots, ∀ b, other.default? = some b → other.get draft = b) :
    ∀ other ∈ slots, ∀ b, other.default? = some b → other.get next = b := by
  intro other hother b hb
  have hdiffers : other.name ≠ slot.name := fun hsame => hname (hsame ▸ List.mem_map_of_mem hother)
  rw [hframe other (hslots other hother) hdiffers]
  exact hdraft other hother b hb

/-- Items in the order of the fields. A field puts its part and leaves the others as they were. -/
theorem exists_of_decodeInOrder {index : Nat} {fields : List (Field α)} {slots : List (Slot α)}
    {items : Items} (hexact : List.Forall₂ (Field.Exact shape) fields slots)
    (hslots : ∀ slot ∈ slots, slot ∈ shape.slots) (hnames : (slots.map Slot.name).Nodup)
    (hdraft : ∀ slot ∈ slots, ∀ b, slot.default? = some b → slot.get draft = b)
    (h : record.decodeInOrder index fields draft items = .ok a) :
    ∃ values, items = .ofList values ∧ (∀ value ∈ values, value.skip = none) ∧
      ShowInOrder a slots values ∧
      ∀ slot ∈ shape.slots, slot.name ∉ slots.map Slot.name → slot.get a = slot.get draft := by
  fun_induction record.decodeInOrder index fields draft items generalizing slots with
  | case2 | case3 | case4 | case6 | case7 | case8 | case9 => cases h
  | case1 index draft =>
    cases hexact
    obtain rfl := Except.ok.inj h
    exact ⟨[], rfl, List.forall_mem_nil _, .nil, fun _ _ _ => rfl⟩
  | case5 index field fields draft hfree ih =>
    cases hexact with
    | @cons _ slot _ slots hfield hfields =>
      obtain ⟨hslot, hslots⟩ := List.forall_mem_cons.mp hslots
      obtain ⟨hname, hnames⟩ := List.nodup_cons.mp hnames
      obtain ⟨hdefault, hdraft⟩ := List.forall_mem_cons.mp hdraft
      obtain ⟨values, hitems, hskip, hshow, hsame⟩ := ih hfields hslots hnames hdraft h
      cases values with
      | cons value values => cases hitems
      | nil =>
        have hneed : field.need ≠ .required := by
          rw [hfree]
          exact nofun
        rw [Ne, hfield.need, ← Ne, Option.ne_none_iff_exists'] at hneed
        obtain ⟨b, hb⟩ := hneed
        -- the fields that come later leave this part as it is in the draft
        refine ⟨[], rfl, hskip, .left ?_ hshow, fun other hother hmissing => ?_⟩
        · rw [hb, hsame slot hslot hname, hdefault b hb]
        · exact hsame other hother fun hmem => hmissing (List.mem_cons_of_mem _ hmem)
  | case10 index field fields draft value rest next hput ih =>
    cases hexact with
    | @cons _ slot _ slots hfield hfields =>
      obtain ⟨hslot, hslots⟩ := List.forall_mem_cons.mp hslots
      obtain ⟨hname, hnames⟩ := List.nodup_cons.mp hnames
      obtain ⟨hskip, hshows⟩ := hfield.shown value draft next hput
      obtain ⟨next', hput', -, hframe⟩ := hfield.put value _ hshows hskip draft
      obtain rfl := Except.ok.inj (hput.symm.trans hput')
      have hdraft' := defaults_of_frame hslots hname hframe (List.forall_mem_cons.mp hdraft).2
      obtain ⟨values, rfl, hskips, hshow, hsame⟩ := ih hfields hslots hnames hdraft' h
      refine ⟨value :: values, rfl, List.forall_mem_cons.mpr ⟨hskip, hskips⟩, .given ?_ hshow,
        fun other hother hmissing => ?_⟩
      · rwa [hsame slot hslot hname]
      · rw [List.map_cons, List.mem_cons, not_or] at hmissing
        rw [hsame other hother hmissing.2, hframe other hother hmissing.1]

theorem exists_decodeInOrder (index : Nat) {fields : List (Field α)} {slots : List (Slot α)}
    {values : List Value} (hexact : List.Forall₂ (Field.Exact shape) fields slots)
    (hslots : ∀ slot ∈ slots, slot ∈ shape.slots) (hnames : (slots.map Slot.name).Nodup)
    (hdraft : ∀ slot ∈ slots, ∀ b, slot.default? = some b → slot.get draft = b)
    (hskip : ∀ value ∈ values, value.skip = none) (h : ShowInOrder a slots values) :
    ∃ next, record.decodeInOrder index fields draft (.ofList values) = .ok next ∧
      (∀ slot ∈ slots, slot.get next = slot.get a) ∧
      ∀ slot ∈ shape.slots, slot.name ∉ slots.map Slot.name → slot.get next = slot.get draft := by
  induction h generalizing index fields draft with
  | nil =>
    cases hexact
    exact ⟨draft, rfl, List.forall_mem_nil _, fun _ _ _ => rfl⟩
  | @left slot slots hleft _ ih =>
    cases hexact with
    | @cons field _ fields _ hfield hfields =>
      obtain ⟨hslot, hslots⟩ := List.forall_mem_cons.mp hslots
      obtain ⟨hname, hnames⟩ := List.nodup_cons.mp hnames
      obtain ⟨hdefault, hdraft⟩ := List.forall_mem_cons.mp hdraft
      obtain ⟨next, hread, hparts, hsame⟩ := ih (index + 1) hfields hslots hnames hdraft hskip
      have hfree : field.need = .free := by
        have hneed : field.need ≠ .required := by
          rw [Ne, hfield.need, hleft]
          exact nofun
        have hunnamed := hfield.unnamed
        cases hcase : field.need <;> simp_all
      refine ⟨next, ?_, List.forall_mem_cons.mpr ⟨?_, hparts⟩, fun other hother hmissing => ?_⟩
      · rw [Items.ofList, decodeInOrder, if_pos hfree]
        exact hread
      · rw [hsame slot hslot hname, hdefault _ hleft]
      · exact hsame other hother fun hmem => hmissing (List.mem_cons_of_mem _ hmem)
  | @given slot slots value values hshows _ ih =>
    cases hexact with
    | @cons field _ fields _ hfield hfields =>
      obtain ⟨hslot, hslots⟩ := List.forall_mem_cons.mp hslots
      obtain ⟨hname, hnames⟩ := List.nodup_cons.mp hnames
      obtain ⟨hvalue, hskip⟩ := List.forall_mem_cons.mp hskip
      obtain ⟨taken, hput, hpart, hframe⟩ := hfield.put value _ hshows hvalue draft
      have hdraft' := defaults_of_frame hslots hname hframe (List.forall_mem_cons.mp hdraft).2
      obtain ⟨next, hread, hparts, hsame⟩ := ih (index + 1) hfields hslots hnames hdraft' hskip
      refine ⟨next, ?_, List.forall_mem_cons.mpr ⟨?_, hparts⟩, fun other hother hmissing => ?_⟩
      · rw [Items.ofList, decodeInOrder, hput]
        exact hread
      · rw [hsame slot hslot hname, hpart]
      · rw [List.map_cons, List.mem_cons, not_or] at hmissing
        rw [hsame other hother hmissing.2, hframe other hother hmissing.1]

theorem Exact.exactly (hexact : record.Exact shape) : Exactly record.decode shape.ShowsEither := by
  intro value a
  have hdraft := hexact.draft
  constructor
  · intro h
    unfold decode at h
    split at h
    · obtain ⟨list, rfl, htaken⟩ := exists_taken hexact h
      refine ⟨skip_objectOf.mpr htaken.skip, .inl ⟨list, rfl, ?_⟩⟩
      refine ⟨htaken.shown, htaken.once, fun slot hslot => ?_, htaken.only⟩
      by_cases hgiven : slot.name ∈ keysOf list
      · exact .inl hgiven
      · have hdefault := (((htaken.given slot hslot).resolve_left hgiven).resolve_left
          List.not_mem_nil)
        obtain ⟨b, hb⟩ := Option.isSome_iff_exists.mp hdefault
        refine .inr ?_
        rw [hb, htaken.same slot hslot hgiven, hdraft slot hslot b hb]
    · obtain ⟨values, rfl, hskip, hshow, -⟩ :=
        exists_of_decodeInOrder hexact.exact (fun _ => id) hexact.names hdraft h
      exact ⟨Items.skip_ofList.mpr hskip, .inr ⟨values, rfl, hshow⟩⟩
    · cases h
  · rintro ⟨hskip, hobject | ⟨values, rfl, hshow⟩⟩
    · exact decode_of_shows hexact.toFits hobject hskip
    · obtain ⟨next, hread, hparts, -⟩ := exists_decodeInOrder 0 hexact.exact (fun _ => id)
        hexact.names hdraft (Items.skip_ofList.mp hskip) hshow
      obtain rfl := hexact.ext next a hparts
      exact hread

end Record

end TemplateViews.Json
