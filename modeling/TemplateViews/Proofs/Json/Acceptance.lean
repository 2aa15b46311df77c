import TemplateViews.Proofs.Json.Leaves
import TemplateViews.Proofs.Json.Reading

/-! The reader accepts the texts of the grammar and no others. What is read without a fault is
spelled by the text in front of what is left; white space around an item belongs to the item. -/

namespace TemplateViews.Json

def StartsValue (cs : List Char) (value : Value) (rest : List Char) : Prop :=
  ∃ text, cs = text ++ rest ∧ Spelled text value

/-- What follows an item: more of them behind commas, and the end of the array. -/
def MoreItems (cs : List Char) (items : Items) (rest : List Char) : Prop :=
  ∃ (after : List Char) (list : List (List Char × Value)), Spaces after ∧
    cs = after ++ ((list.map Prod.fst).flatMap (',' :: ·) ++ ']' :: rest) ∧
    items = .ofList (list.map Prod.snd) ∧ ∀ item ∈ list, Spelled item.1 item.2

def MoreMembers (cs : List Char) (members : Members) (rest : List Char) : Prop :=
  ∃ (after : List Char) (list : List Member), Spaces after ∧
    cs = after ++ ((list.map Member.text).flatMap (',' :: ·) ++ '\x7d' :: rest) ∧
    members = .ofList (list.map fun member => (member.key, member.value)) ∧
    (∀ member ∈ list, SpelledKey member.keyText member.key) ∧
    ∀ member ∈ list, Spelled member.valueText member.value

def StartsMember (cs : List Char) (members : Members) (rest : List Char) : Prop :=
  ∃ (member : Member) (behind : List Char) (others : Members), cs = member.text ++ behind ∧
    members = .member member.key member.value others ∧ MoreMembers behind others rest ∧
    SpelledKey member.keyText member.key ∧ Spelled member.valueText member.value

section Space

variable {cs rest : List Char}

theorem exists_spaces (cs : List Char) : ∃ before, Spaces before ∧ cs = before ++ skipSpace cs :=
  ⟨cs.takeWhile isSpace, fun _ hc => List.mem_takeWhile_imp hc,
    List.takeWhile_append_dropWhile.symm⟩

theorem exists_spaces_of_skipSpace {c : Char} {behind : List Char}
    (h : skipSpace cs = c :: behind) : ∃ before, Spaces before ∧ cs = before ++ c :: behind := by
  obtain ⟨before, hbefore, hcs⟩ := exists_spaces cs
  exact ⟨before, hbefore, h ▸ hcs⟩

theorem StartsValue.pad {value : Value} {before : List Char} (h : StartsValue cs value rest)
    (hbefore : Spaces before) : StartsValue (before ++ cs) value rest := by
  obtain ⟨text, rfl, htext⟩ := h
  refine ⟨before ++ text ++ [], by simp, .pad hbefore htext (List.forall_mem_nil _)⟩

theorem SpelledKey.pad {key : Option String} {before : List Char} (h : SpelledKey cs key)
    (hbefore : Spaces before) : SpelledKey (before ++ cs) key := by
  cases h with
  | intro hfront hcore hafter =>
    rw [← List.append_assoc, ← List.append_assoc]
    exact .intro (List.forall_mem_append.mpr ⟨hbefore, hfront⟩) hcore hafter

theorem StartsMember.pad {members : Members} {before : List Char}
    (h : StartsMember cs members rest) (hbefore : Spaces before) :
    StartsMember (before ++ cs) members rest := by
  obtain ⟨member, behind, others, rfl, hmembers, hmore, hkey, hvalue⟩ := h
  refine ⟨{ member with keyText := before ++ member.keyText }, behind, others, ?_, hmembers, hmore,
    hkey.pad hbefore, hvalue⟩
  simp [Member.text]

theorem StartsValue.more {value : Value} {items : Items} {behind : List Char}
    (h : StartsValue cs value behind) (hmore : MoreItems behind items rest) :
    ∃ (text : List Char) (list : List (List Char × Value)),
      cs = text ++ ((list.map Prod.fst).flatMap (',' :: ·) ++ ']' :: rest) ∧
      items = .ofList (list.map Prod.snd) ∧ Spelled text value ∧
      ∀ item ∈ list, Spelled item.1 item.2 := by
  obtain ⟨text, rfl, htext⟩ := h
  obtain ⟨after, list, hafter, rfl, hitems, hlist⟩ := hmore
  refine ⟨[] ++ text ++ after, list, by simp, hitems, ?_, hlist⟩
  exact .pad (List.forall_mem_nil _) htext hafter

theorem StartsMember.more {members : Members} (h : StartsMember cs members rest) :
    ∃ (member : Member) (list : List Member),
      cs = member.text ++ ((list.map Member.text).flatMap (',' :: ·) ++ '\x7d' :: rest) ∧
      members = .ofList ((member :: list).map fun member => (member.key, member.value)) ∧
      (∀ other ∈ member :: list, SpelledKey other.keyText other.key) ∧
      ∀ other ∈ member :: list, Spelled other.valueText other.value := by
  obtain ⟨member, behind, others, rfl, rfl, ⟨after, list, hafter, rfl, rfl, hkeys, hvalues⟩, hkey,
    hvalue⟩ := h
  refine ⟨{ member with valueText := [] ++ member.valueText ++ after }, list, by simp [Member.text],
    rfl, List.forall_mem_cons.mpr ⟨hkey, hkeys⟩, List.forall_mem_cons.mpr ⟨?_, hvalues⟩⟩
  exact .pad (List.forall_mem_nil _) hvalue hafter

end Space

section Readers

variable {cs rest : List Char} {fuel : Nat}

/-- What the readers of a text take from it, as far as they get with some fuel. -/
structure Accepts (fuel : Nat) : Prop where
  value : ∀ cs value rest, readValue fuel cs = (value, rest) → value.skip = none →
    StartsValue cs value rest
  items : ∀ cs items rest, readItems fuel cs = (items, rest) → items.skip = none →
    StartsValue ('[' :: cs) (.array items) rest
  moreItems : ∀ cs items rest, readMoreItems fuel cs = (items, rest) → items.skip = none →
    MoreItems cs items rest
  members : ∀ cs members rest, readMembers fuel cs = (members, rest) → members.skip = none →
    StartsValue ('\x7b' :: cs) (.object members) rest
  member : ∀ cs members rest, readMember fuel cs = (members, rest) → members.skip = none →
    StartsMember ('"' :: cs) members rest
  moreMembers : ∀ cs members rest, readMoreMembers fuel cs = (members, rest) →
    members.skip = none → MoreMembers cs members rest

theorem readWord_eq {value found : Value} {word : List Char}
    (h : readWord value word cs = (found, rest)) (hskip : found.skip = none) :
    cs = word ++ rest ∧ found = value := by
  induction word generalizing cs with
  | nil =>
    obtain ⟨rfl, rfl⟩ := Prod.mk.inj h
    exact ⟨rfl, rfl⟩
  | cons c word ih =>
    cases cs with
    | nil =>
      obtain ⟨rfl, -⟩ := Prod.mk.inj h
      cases hskip
    | cons d cs =>
      rw [readWord] at h
      split at h
      · next hc =>
        obtain ⟨rfl, hfound⟩ := ih h
        rw [hc]
        exact ⟨rfl, hfound⟩
      · obtain ⟨rfl, -⟩ := Prod.mk.inj h
        cases hskip

theorem startsValue_of_readValue (haccepts : Accepts fuel) {value : Value}
    (h : readValue (fuel + 1) cs = (value, rest)) (hskip : value.skip = none) :
    StartsValue cs value rest := by
  obtain ⟨before, hbefore, hcs⟩ := exists_spaces cs
  rw [hcs]
  refine StartsValue.pad ?_ hbefore
  rw [readValue] at h
  split at h
  · obtain ⟨rfl, -⟩ := Prod.mk.inj h
    cases hskip
  · next c behind hc =>
    rw [hc]
    split_ifs at h with hnull htrue hfalse hstring harray hobject hnumber
    · obtain ⟨rfl, rfl⟩ := readWord_eq h hskip
      exact ⟨_, hnull ▸ rfl, .null⟩
    · obtain ⟨rfl, rfl⟩ := readWord_eq h hskip
      exact ⟨_, htrue ▸ rfl, .yes⟩
    · obtain ⟨rfl, rfl⟩ := readWord_eq h hskip
      exact ⟨_, hfalse ▸ rfl, .no⟩
    · split at h
      · next hread =>
        obtain ⟨rfl, rfl⟩ := Prod.mk.inj h
        obtain ⟨inner, rfl, hinner⟩ := exists_of_readString hread
        exact ⟨_, by rw [hstring]; simp, .string hinner⟩
      · obtain ⟨rfl, -⟩ := Prod.mk.inj h
        cases hskip
    · obtain ⟨rfl, rfl⟩ := Prod.mk.inj h
      rw [harray]
      exact haccepts.items behind _ _ rfl hskip
    · obtain ⟨rfl, rfl⟩ := Prod.mk.inj h
      rw [hobject]
      exact haccepts.members behind _ _ rfl hskip
    · split at h
      · next hread =>
        obtain ⟨rfl, rfl⟩ := Prod.mk.inj h
        obtain ⟨text, htext, hnumeral⟩ := exists_of_readNumeral hread
        exact ⟨text, htext, .number hnumeral⟩
      · obtain ⟨rfl, -⟩ := Prod.mk.inj h
        cases hskip
    · obtain ⟨rfl, -⟩ := Prod.mk.inj h
      cases hskip

theorem skip_item {value : Value} {items : Items} (h : (Items.item value items).skip = none) :
    value.skip = none ∧ items.skip = none := by
  revert h
  rw [Items.skip]
  cases value.skip <;> simp

theorem skip_member {key : Option String} {value : Value} {members : Members}
    (h : (Members.member key value members).skip = none) :
    value.skip = none ∧ members.skip = none := by
  revert h
  rw [Members.skip]
  cases value.skip <;> simp

theorem startsValue_of_readItems (haccepts : Accepts fuel) {items : Items}
    (h : readItems (fuel + 1) cs = (items, rest)) (hskip : items.skip = none) :
    StartsValue ('[' :: cs) (.array items) rest := by
  rw [readItems] at h
  split at h
  · obtain ⟨rfl, -⟩ := Prod.mk.inj h
    cases hskip
  · next c behind hc =>
    obtain ⟨before, hbefore, rfl⟩ := exists_spaces_of_skipSpace hc
    split_ifs at h with hclose
    · obtain ⟨rfl, rfl⟩ := Prod.mk.inj h
      have hempty := @Spelled.array before [] hbefore (List.forall_mem_nil _)
      exact ⟨_, by rw [hclose]; simp [joinWith], hempty⟩
    · obtain ⟨rfl, rfl⟩ := Prod.mk.inj h
      obtain ⟨hvalue, hitems⟩ := skip_item hskip
      have hfirst := (haccepts.value _ _ _ rfl hvalue).pad hbefore
      obtain ⟨text, list, hcs, hrest, htext, hlist⟩ :=
        hfirst.more (haccepts.moreItems _ _ _ rfl hitems)
      have harray := @Spelled.array [] ((text, _) :: list) (List.forall_mem_nil _)
        (List.forall_mem_cons.mpr ⟨htext, hlist⟩)
      rw [hcs, hrest]
      refine ⟨_, ?_, harray⟩
      rw [List.map_cons, joinWith_eq_flatMap]
      simp

theorem moreItems_of_readMoreItems (haccepts : Accepts fuel) {items : Items}
    (h : readMoreItems (fuel + 1) cs = (items, rest)) (hskip : items.skip = none) :
    MoreItems cs items rest := by
  rw [readMoreItems] at h
  split at h
  · obtain ⟨rfl, -⟩ := Prod.mk.inj h
    cases hskip
  · next c behind hc =>
    obtain ⟨before, hbefore, rfl⟩ := exists_spaces_of_skipSpace hc
    split_ifs at h with hclose hcomma
    · obtain ⟨rfl, rfl⟩ := Prod.mk.inj h
      exact ⟨before, [], hbefore, by rw [hclose]; rfl, rfl, List.forall_mem_nil _⟩
    · split at h
      · obtain ⟨rfl, -⟩ := Prod.mk.inj h
        cases hskip
      · next d behind' hd =>
        obtain ⟨gap, hgap, rfl⟩ := exists_spaces_of_skipSpace hd
        split_ifs at h with hclose'
        · obtain ⟨rfl, -⟩ := Prod.mk.inj h
          cases hskip
        · obtain ⟨rfl, rfl⟩ := Prod.mk.inj h
          obtain ⟨hvalue, hitems⟩ := skip_item hskip
          have hfirst := (haccepts.value _ _ _ rfl hvalue).pad hgap
          obtain ⟨text, list, hcs, hrest, htext, hlist⟩ :=
            hfirst.more (haccepts.moreItems _ _ _ rfl hitems)
          refine ⟨before, (text, _) :: list, hbefore, ?_, by rw [hrest]; rfl,
            List.forall_mem_cons.mpr ⟨htext, hlist⟩⟩
          rw [hcs, hcomma]
          simp
    · obtain ⟨rfl, -⟩ := Prod.mk.inj h
      cases hskip

theorem startsValue_of_readMembers (haccepts : Accepts fuel) {members : Members}
    (h : readMembers (fuel + 1) cs = (members, rest)) (hskip : members.skip = none) :
    StartsValue ('\x7b' :: cs) (.object members) rest := by
  rw [readMembers] at h
  split at h
  · obtain ⟨rfl, -⟩ := Prod.mk.inj h
    cases hskip
  · next c behind hc =>
    obtain ⟨before, hbefore, rfl⟩ := exists_spaces_of_skipSpace hc
    split_ifs at h with hclose hquote
    · obtain ⟨rfl, rfl⟩ := Prod.mk.inj h
      have hempty := @Spelled.object before [] hbefore (List.forall_mem_nil _)
        (List.forall_mem_nil _)
      exact ⟨_, by rw [hclose]; simp [joinWith], hempty⟩
    · have hfirst := (haccepts.member _ _ _ h hskip).pad hbefore
      obtain ⟨member, list, hcs, rfl, hkeys, hvalues⟩ := hfirst.more
      rw [hquote, hcs]
      refine ⟨_, ?_, @Spelled.object [] (member :: list) (List.forall_mem_nil _) hkeys hvalues⟩
      rw [List.map_cons, joinWith_eq_flatMap]
      simp
    · obtain ⟨rfl, -⟩ := Prod.mk.inj h
      cases hskip

theorem startsMember_of_readMember (haccepts : Accepts fuel) {members : Members}
    (h : readMember (fuel + 1) cs = (members, rest)) (hskip : members.skip = none) :
    StartsMember ('"' :: cs) members rest := by
  rw [readMember] at h
  split at h
  · obtain ⟨rfl, -⟩ := Prod.mk.inj h
    cases hskip
  · next key behind hread =>
    obtain ⟨inner, rfl, hinner⟩ := exists_of_readString hread
    split at h
    · obtain ⟨rfl, -⟩ := Prod.mk.inj h
      cases hskip
    · next c behind' hc =>
      obtain ⟨after, hafter, rfl⟩ := exists_spaces_of_skipSpace hc
      split_ifs at h with hcolon
      · obtain ⟨rfl, rfl⟩ := Prod.mk.inj h
        obtain ⟨hvalue, hmembers⟩ := skip_member hskip
        obtain ⟨text, htext, hspelled⟩ := haccepts.value _ _ _ rfl hvalue
        have hkey := SpelledKey.intro (List.forall_mem_nil _) hinner hafter
        refine ⟨⟨_, _, text, _⟩, _, _, ?_, rfl, haccepts.moreMembers _ _ _ rfl hmembers, hkey,
          hspelled⟩
        rw [hcolon]
        simp [Member.text, ← htext]
      · obtain ⟨rfl, -⟩ := Prod.mk.inj h
        cases hskip

theorem moreMembers_of_readMoreMembers (haccepts : Accepts fuel) {members : Members}
    (h : readMoreMembers (fuel + 1) cs = (members, rest)) (hskip : members.skip = none) :
    MoreMembers cs members rest := by
  rw [readMoreMembers] at h
  split at h
  · obtain ⟨rfl, -⟩ := Prod.mk.inj h
    cases hskip
  · next c behind hc =>
    obtain ⟨before, hbefore, rfl⟩ := exists_spaces_of_skipSpace hc
    split_ifs at h with hclose hcomma
    · obtain ⟨rfl, rfl⟩ := Prod.mk.inj h
      exact ⟨before, [], hbefore, by rw [hclose]; rfl, rfl, List.forall_mem_nil _,
        List.forall_mem_nil _⟩
    · split at h
      · obtain ⟨rfl, -⟩ := Prod.mk.inj h
        cases hskip
      · next d behind' hd =>
        obtain ⟨gap, hgap, rfl⟩ := exists_spaces_of_skipSpace hd
        split_ifs at h with hquote
        · have hfirst := (haccepts.member _ _ _ h hskip).pad hgap
          obtain ⟨member, list, hcs, rfl, hkeys, hvalues⟩ := hfirst.more
          refine ⟨before, member :: list, hbefore, ?_, rfl, hkeys, hvalues⟩
          rw [hcomma, hquote, hcs]
          simp
        · obtain ⟨rfl, -⟩ := Prod.mk.inj h
          cases hskip
    · obtain ⟨rfl, -⟩ := Prod.mk.inj h
      cases hskip

/-- Without fuel nothing is read; with more of it each reader calls the others with less. -/
theorem accepts (fuel : Nat) : Accepts fuel := by
  induction fuel with
  | zero =>
    constructor <;> intro cs found rest h hskip <;>
      simp only [readValue, readItems, readMoreItems, readMembers, readMember,
        readMoreMembers] at h <;>
      obtain ⟨rfl, -⟩ := Prod.mk.inj h <;> cases hskip
  | succ fuel ih =>
    exact {
      value := fun _ _ _ => startsValue_of_readValue ih
      items := fun _ _ _ => startsValue_of_readItems ih
      moreItems := fun _ _ _ => moreItems_of_readMoreItems ih
      members := fun _ _ _ => startsValue_of_readMembers ih
      member := fun _ _ _ => startsMember_of_readMember ih
      moreMembers := fun _ _ _ => moreMembers_of_readMoreMembers ih }

end Readers

/-- The first character that is no space tells objects from all else. -/
theorem Spelled.exists_first {cs : List Char} {value : Value} (h : Spelled cs value) :
    ∃ before c behind, Spaces before ∧ cs = before ++ c :: behind ∧ isSpace c = false ∧
      (c = '\x7b' ↔ ∃ members, value = .object members) := by
  induction h with
  | null | yes | no | array | object =>
    exact ⟨[], _, _, List.forall_mem_nil _, rfl, by decide, by simp⟩
  | number h =>
    obtain ⟨c, behind, rfl, hc, hspace⟩ := h.opens
    refine ⟨[], c, behind, List.forall_mem_nil _, rfl, hspace, ?_⟩
    have hother : c ≠ '\x7b' := by
      rintro rfl
      revert hc
      decide
    simp [hother]
  | string h =>
    cases h <;> exact ⟨[], _, _, List.forall_mem_nil _, rfl, by decide, by simp⟩
  | @pad before _ after _ hbefore _ _ ih =>
    obtain ⟨front, c, behind, hfront, rfl, hspace, hobject⟩ := ih
    exact ⟨before ++ front, c, behind ++ after, List.forall_mem_append.mpr ⟨hbefore, hfront⟩,
      by simp, hspace, hobject⟩

theorem isBlank_of_isSpace {c : Char} (h : isSpace c = true) : isBlank c = true := by
  simp only [isSpace, Bool.or_eq_true, beq_iff_eq] at h
  rcases h with ((rfl | rfl) | rfl) | rfl <;> decide

theorem Spelled.head?_trim_iff {line : List Char} {value : Value} (h : Spelled (trim line) value) :
    (trim line).head? = some '\x7b' ↔ ∃ members, value = .object members := by
  obtain ⟨before, c, behind, hbefore, hline, -, hobject⟩ := h.exists_first
  cases before with
  | nil =>
    rw [hline, ← hobject]
    exact Option.some_inj
  | cons space before =>
    have hblank := isBlank_of_isSpace (hbefore space List.mem_cons_self)
    have hvisible := not_blank_of_mem_head?_trim space (by rw [hline]; rfl)
    rw [hblank] at hvisible
    cases hvisible

/-- A document without a fault is a text of its value, and every text of a value is read so. -/
theorem Document.ofText_eq_iff_spelled {text : String} {value : Value} :
    ofText text = ⟨value, false⟩ ∧ value.skip = none ↔ Spelled text.toList value := by
  constructor
  · rintro ⟨h, hskip⟩
    rw [ofText] at h
    generalize hread : readValue (2 * text.toList.length + 2) text.toList = read at h
    obtain ⟨found, rest⟩ := read
    obtain ⟨rfl, htrailing⟩ := Document.mk.inj h
    obtain ⟨cs, hcs, hspelled⟩ := (accepts _).value _ _ _ hread hskip
    -- what the reader left is white space, which belongs to the text of the value
    obtain ⟨after, hafter, hrest⟩ := exists_spaces rest
    have hend : skipSpace rest = [] := by simpa using htrailing
    rw [hend, List.append_nil] at hrest
    rw [hcs, hrest]
    exact .pad (List.forall_mem_nil _) hspelled hafter
  · exact fun h => ⟨ofText_spelled h, h.skip_eq_none⟩

end TemplateViews.Json
