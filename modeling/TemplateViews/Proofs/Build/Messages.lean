import Mathlib.Logic.Relation
import TemplateViews.Build.Report
import TemplateViews.Proofs.Json.Acceptance
import TemplateViews.Proofs.Json.Additions
import TemplateViews.Proofs.Json.Exactness

/-! Messages of a compiler as lines of JSON. A line is a message if it spells an object of the
expected shape, and members that are unknown say nothing, wherever in the message they are added. -/

namespace TemplateViews

open Json

def Span.shape : Shape Span where
  closed := false
  slots := [
    ⟨"file_name", file, none, ShowsText⟩,
    ⟨"line_start", line, none, ShowsCount⟩,
    ⟨"column_start", column, none, ShowsCount⟩,
    ⟨"is_primary", primary, some false, ShowsBool⟩]

def codeShape : Shape String where
  closed := false
  slots := [⟨"code", id, none, ShowsText⟩]

def CompilerMessage.shape : Shape CompilerMessage where
  closed := false
  slots := [
    ⟨"$message_type", kind, some none, ShowsOption ShowsText⟩,
    ⟨"message", message, none, ShowsText⟩,
    ⟨"level", level, none, ShowsText⟩,
    ⟨"code", code, some none, ShowsOption codeShape.ShowsEither⟩,
    ⟨"spans", spans, some [], ShowsList Span.shape.ShowsEither⟩]

theorem Span.record_exact : Span.record.Exact Span.shape := by
  refine .of rfl ?_ (by decide) (by simp [shape, record]) ?_
  · refine .cons (Field.exact_of (by simp) (by simp) (exactly_string _) (by simp) ?_)
      (.cons (Field.exact_of (by simp) (by simp) exactly_nat (by simp) ?_)
      (.cons (Field.exact_of (by simp) (by simp) exactly_nat (by simp) ?_)
      (.cons (Field.exact_of (by simp) (by simp) exactly_bool (by simp) ?_) .nil))) <;> simp [shape]
  · rintro ⟨⟩ ⟨⟩ h
    simpa [shape] using h

theorem codeRecord_exact : codeRecord.Exact codeShape := by
  refine .of rfl ?_ (by decide) (by simp [codeShape]) (by simp [codeShape])
  refine .cons (Field.exact_of (by simp) (by simp) (exactly_string _) (by simp) ?_) .nil
  simp [codeShape]

theorem codeShape_not_null (code : String) : ¬ codeShape.ShowsEither .null code := by
  rintro (⟨_, h, -⟩ | ⟨_, h, -⟩) <;> cases h

namespace CompilerMessage

theorem record_exact : record.Exact shape := by
  have hkind := exactly_option (exactly_string "a string") fun _ => nofun
  have hcode := exactly_option codeRecord_exact.exactly codeShape_not_null
  have hspans := exactly_list Span.record_exact.exactly
  refine .of rfl ?_ (by decide) (by simp [shape, record]) ?_
  · refine .cons (Field.exact_of (by simp) (by simp) hkind (by simp) ?_)
      (.cons (Field.exact_of (by simp) (by simp) (exactly_string _) (by simp) ?_)
      (.cons (Field.exact_of (by simp) (by simp) (exactly_string _) (by simp) ?_)
      (.cons (Field.exact_of (by simp) (by simp) hcode (by simp) ?_)
      (.cons (Field.exact_of (by simp) (by simp) hspans (by simp) ?_) .nil)))) <;> simp [shape]
  · rintro ⟨⟩ ⟨⟩ h
    simpa [shape] using h

/-- A value with an unknown member more: in the message, in its code or in one of its spans. -/
inductive Extended : Value → Value → Prop
  | message {value value' : Value} (h : Joined shape.names value value') : Extended value value'
  | code {value value' : Value} (h : MemberChanged "code" (Joined codeShape.names) value value') :
      Extended value value'
  | span {value value' : Value}
      (h : MemberChanged "spans" (ItemChanged (Joined Span.shape.names)) value value') :
      Extended value value'

theorem overlooks_extended : Overlooks record.decode Extended := by
  have hnames : (record.fields.map Field.name).Nodup := by decide
  have hcode := overlooks_option (Record.overlooks_joined codeRecord_exact.toFits rfl)
  have hspans := overlooks_list (Record.overlooks_joined Span.record_exact.toFits rfl)
  intro value value' h
  cases h with
  | message h => exact Record.overlooks_joined record_exact.toFits rfl value value' h
  | code h =>
    exact Record.overlooks_memberChanged hnames (List.mem_of_getElem? (i := 3) rfl) hcode
      value value' h
  | span h =>
    exact Record.overlooks_memberChanged hnames (List.mem_of_getElem? (i := 4) rfl) hspans
      value value' h

section Lines

variable {line : List Char} {m : CompilerMessage}

theorem ofLine?_of_spelled {members : Members} (h : Spelled (trim line) (.object members)) :
    ofLine? (trim line) = (record.decode (.object members)).toOption := by
  have hdocument : Document.ofText (String.ofList (trim line)) = ⟨.object members, false⟩ :=
    Document.ofText_spelled (by rwa [String.toList_ofList])
  rw [ofLine?, if_pos (h.head?_trim_iff.mpr ⟨members, rfl⟩), hdocument]
  cases hread : record.decode (.object members) <;> simp [Document.decode, hread]

/-- A line spells an object that shows the message. -/
def WrittenOn (m : CompilerMessage) (line : List Char) : Prop :=
  ∃ value, Spelled (trim line) value ∧ shape.Shows value m

theorem ofLine?_eq_some_iff : ofLine? (trim line) = some m ↔ m.WrittenOn line := by
  constructor
  · intro h
    unfold ofLine? at h
    split at h
    · next hhead =>
      generalize hdocument : Document.ofText (String.ofList (trim line)) = document at h
      obtain ⟨value, trailing⟩ := document
      cases hread : (Document.mk value trailing).decode record.decode with
      | error e =>
        rw [hread] at h
        cases h
      | ok found =>
        rw [hread] at h
        obtain rfl : found = m := Option.some.inj h
        obtain ⟨hdecode, rfl⟩ := Document.decode_eq_ok_iff.mp hread
        obtain ⟨hskip, hshows⟩ := (record_exact.exactly value found).mp hdecode
        have hspelled := Document.ofText_eq_iff_spelled.mp ⟨hdocument, hskip⟩
        rw [String.toList_ofList] at hspelled
        rcases hshows with hobject | ⟨values, rfl, -⟩
        · exact ⟨value, hspelled, hobject⟩
        · obtain ⟨members, hmembers⟩ := hspelled.head?_trim_iff.mp hhead
          cases hmembers
    · cases h
  · rintro ⟨value, hspelled, hshows⟩
    have hdecode := (record_exact.exactly value m).mpr ⟨hspelled.skip_eq_none, .inl hshows⟩
    obtain ⟨members, rfl, -⟩ := hshows
    change record.decode (.object _) = _ at hdecode
    rw [ofLine?_of_spelled hspelled, hdecode]
    rfl

/-- The same line, or a line that spells the message with unknown members more. -/
def ExtendedLine (line line' : List Char) : Prop :=
  line = line' ∨ ∃ value value', Spelled (trim line) value ∧ Spelled (trim line') value' ∧
    Relation.TransGen Extended value value'

theorem Extended.objects {value value' : Value} (h : Extended value value') :
    (∃ members, value = .object members) ∧ ∃ members, value' = .object members := by
  cases h with
  | message h | code h | span h =>
    cases h
    exact ⟨⟨_, rfl⟩, _, rfl⟩

theorem decode_of_transGen {value value' : Value} (h : Relation.TransGen Extended value value') :
    ((∃ members, value = .object members) ∧ ∃ members, value' = .object members) ∧
      record.decode value = record.decode value' := by
  induction h with
  | single h => exact ⟨h.objects, overlooks_extended _ _ h⟩
  | tail _ h ih =>
    obtain ⟨⟨hfirst, -⟩, hsame⟩ := ih
    exact ⟨⟨hfirst, h.objects.2⟩, hsame.trans (overlooks_extended _ _ h)⟩

theorem ofLine?_of_extendedLine {line' : List Char} (h : ExtendedLine line line') :
    ofLine? (trim line) = ofLine? (trim line') := by
  rcases h with rfl | ⟨value, value', hvalue, hvalue', hextended⟩
  · rfl
  · obtain ⟨⟨⟨members, rfl⟩, members', rfl⟩, hsame⟩ := decode_of_transGen hextended
    rw [ofLine?_of_spelled hvalue, ofLine?_of_spelled hvalue', hsame]

end Lines

end CompilerMessage

end TemplateViews
