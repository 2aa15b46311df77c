import TemplateViews.Proofs.Json.Grammar

/-! Reading JSON follows its grammar: a text of a value is read as this value, whatever stands
behind it that can stand behind a value. -/

namespace TemplateViews.Json

/-- What may stand behind a value. -/
def EndsValue (c : Char) : Prop := isSpace c = true ∨ c = ',' ∨ c = ']' ∨ c = '\x7d'

/-- Reading takes the text of a value and leaves what stands behind it, apart from white space. -/
def ReadAs (cs : List Char) (value : Value) : Prop :=
  ∀ fuel rest, cs.length < fuel → (∀ c ∈ rest.head?, EndsValue c) →
    ∃ left, readValue fuel (cs ++ rest) = (value, left) ∧ skipSpace left = skipSpace rest

/-- Behind white space the text goes on with something that closes no array. -/
def Opens (cs : List Char) : Prop :=
  ∃ before c ds, cs = before ++ c :: ds ∧ Spaces before ∧ isSpace c = false ∧ c ≠ ']'

section Space

variable {cs ds : List Char}

theorem skipSpace_append (h : Spaces cs) (rest : List Char) : skipSpace (cs ++ rest) = skipSpace rest :=
  List.dropWhile_append_of_pos h

theorem skipSpace_cons {c : Char} (h : isSpace c = false) (rest : List Char) :
    skipSpace (c :: rest) = c :: rest := by
  rw [skipSpace, List.dropWhile_cons, h]
  rfl

theorem skipSpace_skipSpace (cs : List Char) : skipSpace (skipSpace cs) = skipSpace cs :=
  dropWhile_append_of_head (List.forall_mem_nil _) head_dropWhile

variable (fuel : Nat)

theorem readValue_congr (h : skipSpace cs = skipSpace ds) : readValue fuel cs = readValue fuel ds := by
  cases fuel with
  | zero => rw [readValue, readValue]
  | succ fuel => rw [readValue, readValue, h]

theorem readItems_congr (h : skipSpace cs = skipSpace ds) : readItems fuel cs = readItems fuel ds := by
  cases fuel with
  | zero => rw [readItems, readItems]
  | succ fuel => rw [readItems, readItems, h]

theorem readMoreItems_congr (h : skipSpace cs = skipSpace ds) :
    readMoreItems fuel cs = readMoreItems fuel ds := by
  cases fuel with
  | zero => rw [readMoreItems, readMoreItems]
  | succ fuel => rw [readMoreItems, readMoreItems, h]

theorem readMembers_congr (h : skipSpace cs = skipSpace ds) :
    readMembers fuel cs = readMembers fuel ds := by
  cases fuel with
  | zero => rw [readMembers, readMembers]
  | succ fuel => rw [readMembers, readMembers, h]

theorem readMoreMembers_congr (h : skipSpace cs = skipSpace ds) :
    readMoreMembers fuel cs = readMoreMembers fuel ds := by
  cases fuel with
  | zero => rw [readMoreMembers, readMoreMembers]
  | succ fuel => rw [readMoreMembers, readMoreMembers, h]

end Space

theorem EndsValue.endsNumeral {c : Char} (h : EndsValue c) : EndsNumeral c := by
  unfold EndsNumeral
  rcases h with h | rfl | rfl | rfl
  · simp only [isSpace, Bool.or_eq_true, beq_iff_eq] at h
    rcases h with ((rfl | rfl) | rfl) | rfl <;> decide
  all_goals decide

theorem Opens.skipSpace {cs : List Char} (h : Opens cs) (rest : List Char) :
    ∃ c ds, Json.skipSpace (cs ++ rest) = c :: ds ∧ c ≠ ']' := by
  obtain ⟨before, c, ds, rfl, hbefore, hspace, hc⟩ := h
  rw [List.append_assoc, skipSpace_append hbefore, List.cons_append, skipSpace_cons hspace]
  exact ⟨c, _, rfl, hc⟩

theorem Opens.length_pos {cs : List Char} (h : Opens cs) : 0 < cs.length := by
  obtain ⟨before, c, ds, rfl, -⟩ := h
  simp only [List.length_append, List.length_cons]
  omega

theorem SpelledNumeral.opens {cs : List Char} {numeral : Numeral} (h : SpelledNumeral cs numeral) :
    ∃ c ds, cs = c :: ds ∧ (c = '-' ∨ c.isDigit = true) ∧ isSpace c = false := by
  obtain ⟨c, hc, hfirst⟩ := h.head
  obtain ⟨ds, rfl⟩ := List.head?_eq_some_iff.mp hc
  refine ⟨c, ds, rfl, hfirst, ?_⟩
  cases hspace : isSpace c with
  | false => rfl
  | true =>
    simp only [isSpace, Bool.or_eq_true, beq_iff_eq] at hspace
    rcases hspace with ((rfl | rfl) | rfl) | rfl <;> revert hfirst <;> decide

theorem Spelled.opens {cs : List Char} {value : Value} (h : Spelled cs value) : Opens cs := by
  have hfirst {c : Char} {ds : List Char} (hspace : isSpace c = false) (hc : c ≠ ']') :
      Opens (c :: ds) := ⟨[], c, ds, rfl, List.forall_mem_nil _, hspace, hc⟩
  induction h with
  | null | yes | no | array | object => exact hfirst (by decide) (by decide)
  | number h =>
    obtain ⟨c, ds, rfl, hc, hspace⟩ := h.opens
    refine hfirst hspace ?_
    rintro rfl
    revert hc
    decide
  | string h => cases h <;> exact hfirst (by decide) (by decide)
  | @pad before _ after _ hbefore _ _ ih =>
    obtain ⟨front, c, ds, rfl, hfront, hc⟩ := ih
    exact ⟨before ++ front, c, ds ++ after, by simp, List.forall_mem_append.mpr ⟨hbefore, hfront⟩, hc⟩

section Items

variable {items : List (List Char × Value)} {rest : List Char}

theorem joinWith_eq_flatMap (piece : List Char) (pieces : List (List Char)) :
    joinWith [','] (piece :: pieces) = piece ++ pieces.flatMap (',' :: ·) := by
  induction pieces generalizing piece with
  | nil => simp [joinWith]
  | cons next pieces ih =>
    rw [joinWith_cons (by simp), ih, List.flatMap_cons, List.append_assoc]
    rfl

/-- Behind an item comes a comma or what closes the array or object. -/
theorem endsValue_of_head {close : Char} (hclose : EndsValue close) (pieces : List (List Char))
    (rest : List Char) :
    ∀ c ∈ (pieces.flatMap (',' :: ·) ++ close :: rest).head?, EndsValue c := by
  intro c hc
  cases pieces with
  | nil =>
    obtain rfl := Option.some.inj hc
    exact hclose
  | cons piece pieces =>
    obtain rfl := Option.some.inj hc
    exact .inr (.inl rfl)

theorem readMoreItems_close {fuel : Nat} : readMoreItems (fuel + 1) (']' :: rest) = (.close, rest) := by
  rw [readMoreItems, skipSpace_cons (by decide)]
  rfl

/-- A step of the reader: an item behind a comma. -/
theorem readMoreItems_cons {fuel : Nat} {cs tail : List Char} {value : Value} (hopens : Opens cs)
    (hreads : ReadAs cs value) (hfuel : cs.length < fuel) (htail : ∀ c ∈ tail.head?, EndsValue c) :
    readMoreItems (fuel + 1) (',' :: (cs ++ tail)) =
      (.item value (readMoreItems fuel tail).1, (readMoreItems fuel tail).2) := by
  obtain ⟨left, hread, hleft⟩ := hreads fuel tail hfuel htail
  obtain ⟨c, ds, hskip, hc⟩ := hopens.skipSpace tail
  have hsame : readValue fuel (c :: ds) = readValue fuel (cs ++ tail) :=
    readValue_congr fuel (by rw [← hskip, skipSpace_skipSpace])
  rw [readMoreItems, skipSpace_cons (by decide)]
  simp only [show (',' = ']') = False by decide, if_false, if_true, hskip, if_neg hc, hsame, hread,
    readMoreItems_congr fuel hleft]

theorem readMoreItems_spelled (fuel : Nat) (rest : List Char) (hopens : ∀ item ∈ items, Opens item.1)
    (hreads : ∀ item ∈ items, ReadAs item.1 item.2)
    (hfuel : ((items.map Prod.fst).flatMap (',' :: ·)).length < fuel) :
    readMoreItems fuel ((items.map Prod.fst).flatMap (',' :: ·) ++ ']' :: rest) =
      (.ofList (items.map Prod.snd), rest) := by
  induction items generalizing fuel with
  | nil =>
    cases fuel with
    | zero => simp at hfuel
    | succ fuel => exact readMoreItems_close
  | cons item items ih =>
    obtain ⟨hopen, hopens⟩ := List.forall_mem_cons.mp hopens
    obtain ⟨hread, hreads⟩ := List.forall_mem_cons.mp hreads
    rw [List.map_cons, List.flatMap_cons, List.length_append, List.length_cons] at hfuel
    obtain ⟨fuel, rfl⟩ := Nat.exists_eq_add_one_of_ne_zero (Nat.ne_zero_of_lt hfuel)
    have hmore := ih fuel hopens hreads (by omega)
    have hends := endsValue_of_head (.inr (.inr (.inl rfl))) (items.map Prod.fst) rest
    rw [List.map_cons, List.flatMap_cons, List.cons_append, List.cons_append, List.append_assoc,
      readMoreItems_cons hopen hread (by omega) hends, hmore]
    rfl

theorem readItems_spelled (fuel : Nat) (rest : List Char) {inside : List Char} (hinside : Spaces inside)
    (hopens : ∀ item ∈ items, Opens item.1) (hreads : ∀ item ∈ items, ReadAs item.1 item.2)
    (hfuel : (joinWith [','] (items.map Prod.fst)).length + 1 < fuel) :
    readItems fuel (inside ++ (joinWith [','] (items.map Prod.fst) ++ ']' :: rest)) =
      (.ofList (items.map Prod.snd), rest) := by
  rw [readItems_congr fuel (skipSpace_append hinside _)]
  obtain ⟨fuel, rfl⟩ := Nat.exists_eq_add_one_of_ne_zero (Nat.ne_zero_of_lt hfuel)
  cases items with
  | nil =>
    rw [List.map_nil, joinWith, List.nil_append, readItems, skipSpace_cons (by decide)]
    rfl
  | cons item items =>
    obtain ⟨hopen, hopens⟩ := List.forall_mem_cons.mp hopens
    obtain ⟨hread, hreads⟩ := List.forall_mem_cons.mp hreads
    rw [List.map_cons, joinWith_eq_flatMap] at hfuel ⊢
    rw [List.length_append] at hfuel
    have hends := endsValue_of_head (.inr (.inr (.inl rfl))) (items.map Prod.fst) rest
    obtain ⟨left, hvalue, hleft⟩ := hread fuel _ (by omega) hends
    obtain ⟨c, ds, hskip, hc⟩ := hopen.skipSpace
      ((items.map Prod.fst).flatMap (',' :: ·) ++ ']' :: rest)
    have hsame : readValue fuel (c :: ds) =
        readValue fuel (item.1 ++ ((items.map Prod.fst).flatMap (',' :: ·) ++ ']' :: rest)) :=
      readValue_congr fuel (by rw [← hskip, skipSpace_skipSpace])
    have hpos := hopen.length_pos
    have hmore := readMoreItems_spelled fuel rest hopens hreads (by omega)
    rw [List.append_assoc, readItems, hskip]
    simp only [if_neg hc, hsame, hvalue, readMoreItems_congr fuel hleft, hmore]
    rfl

end Items

section Members

variable {member : Member} {members : List Member} {rest tail : List Char} {fuel : Nat}

theorem SpelledKey.behind {cs : List Char} {key : Option String} (h : SpelledKey cs key)
    (rest : List Char) : ∃ inner after, Spaces after ∧
      skipSpace (cs ++ rest) = '"' :: (inner ++ (after ++ rest)) ∧
      ∀ more, readString (inner ++ more) = .closed key more := by
  cases h with
  | @intro before core after _ hbefore hcore hafter =>
    obtain ⟨inner, rfl, hstring⟩ := readString_spelled hcore
    refine ⟨inner, after, hafter, ?_, hstring⟩
    have htext : before ++ '"' :: inner ++ after ++ rest =
        before ++ '"' :: (inner ++ (after ++ rest)) := by simp
    change skipSpace (before ++ '"' :: inner ++ after ++ rest) = _
    rw [htext, skipSpace_append hbefore, skipSpace_cons (by decide)]

/-- A step of the reader: a member, read behind the opening quote of its key. -/
theorem readMember_spelled (fuel : Nat) (hkey : SpelledKey member.keyText member.key)
    (hread : ReadAs member.valueText member.value) (hfuel : member.valueText.length < fuel)
    (htail : ∀ c ∈ tail.head?, EndsValue c) :
    ∃ behind, skipSpace (member.text ++ tail) = '"' :: behind ∧
      readMember (fuel + 1) behind = (.member member.key member.value (readMoreMembers fuel tail).1,
        (readMoreMembers fuel tail).2) := by
  obtain ⟨inner, after, hafter, hskip, hstring⟩ := hkey.behind (':' :: (member.valueText ++ tail))
  obtain ⟨left, hvalue, hleft⟩ := hread fuel tail hfuel htail
  rw [Member.text, List.append_assoc, List.cons_append, hskip]
  refine ⟨_, rfl, ?_⟩
  rw [readMember, hstring]
  simp only [skipSpace_append hafter, skipSpace_cons (c := ':') (by decide), if_true, hvalue,
    readMoreMembers_congr fuel hleft]

theorem readMoreMembers_cons (hkey : SpelledKey member.keyText member.key)
    (hread : ReadAs member.valueText member.value) (hfuel : member.valueText.length < fuel)
    (htail : ∀ c ∈ tail.head?, EndsValue c) :
    readMoreMembers (fuel + 2) (',' :: (member.text ++ tail)) =
      (.member member.key member.value (readMoreMembers fuel tail).1,
        (readMoreMembers fuel tail).2) := by
  obtain ⟨behind, hskip, hmember⟩ := readMember_spelled fuel hkey hread hfuel htail
  rw [readMoreMembers, skipSpace_cons (by decide)]
  simp only [show (',' = '\x7d') = False by decide, if_false, if_true, hskip, hmember]

theorem readMoreMembers_spelled (fuel : Nat) (rest : List Char)
    (hkeys : ∀ member ∈ members, SpelledKey member.keyText member.key)
    (hreads : ∀ member ∈ members, ReadAs member.valueText member.value)
    (hfuel : ((members.map Member.text).flatMap (',' :: ·)).length < fuel) :
    readMoreMembers fuel ((members.map Member.text).flatMap (',' :: ·) ++ '\x7d' :: rest) =
      (.ofList (members.map fun member => (member.key, member.value)), rest) := by
  induction members generalizing fuel with
  | nil =>
    cases fuel with
    | zero => simp at hfuel
    | succ fuel =>
      rw [List.map_nil, List.flatMap_nil, List.nil_append, readMoreMembers, skipSpace_cons (by decide)]
      rfl
  | cons member members ih =>
    obtain ⟨hkey, hkeys⟩ := List.forall_mem_cons.mp hkeys
    obtain ⟨hread, hreads⟩ := List.forall_mem_cons.mp hreads
    rw [List.map_cons, List.flatMap_cons, List.length_append, List.length_cons, Member.text,
      List.length_append, List.length_cons] at hfuel
    obtain ⟨fuel, rfl⟩ := Nat.exists_eq_add_of_le' (show 2 ≤ fuel by omega)
    have hmore := ih fuel hkeys hreads (by omega)
    have hends := endsValue_of_head (.inr (.inr (.inr rfl))) (members.map Member.text) rest
    rw [List.map_cons, List.flatMap_cons, List.cons_append, List.cons_append, List.append_assoc,
      readMoreMembers_cons hkey hread (by omega) hends, hmore]
    rfl

theorem readMembers_spelled (fuel : Nat) (rest : List Char) {inside : List Char} (hinside : Spaces inside)
    (hkeys : ∀ member ∈ members, SpelledKey member.keyText member.key)
    (hreads : ∀ member ∈ members, ReadAs member.valueText member.value)
    (hfuel : (joinWith [','] (members.map Member.text)).length + 1 < fuel) :
    readMembers fuel (inside ++ (joinWith [','] (members.map Member.text) ++ '\x7d' :: rest)) =
      (.ofList (members.map fun member => (member.key, member.value)), rest) := by
  rw [readMembers_congr fuel (skipSpace_append hinside _)]
  obtain ⟨fuel, rfl⟩ := Nat.exists_eq_add_of_le' (show 2 ≤ fuel by omega)
  cases members with
  | nil =>
    rw [List.map_nil, joinWith, List.nil_append, readMembers, skipSpace_cons (by decide)]
    rfl
  | cons member members =>
    obtain ⟨hkey, hkeys⟩ := List.forall_mem_cons.mp hkeys
    obtain ⟨hread, hreads⟩ := List.forall_mem_cons.mp hreads
    rw [List.map_cons, joinWith_eq_flatMap] at hfuel ⊢
    rw [List.length_append, Member.text, List.length_append, List.length_cons] at hfuel
    have hends := endsValue_of_head (.inr (.inr (.inr rfl))) (members.map Member.text) rest
    obtain ⟨behind, hskip, hmember⟩ := readMember_spelled fuel hkey hread (by omega) hends
    have hmore := readMoreMembers_spelled fuel rest hkeys hreads (by omega)
    rw [List.append_assoc, readMembers, hskip]
    simp only [show ('"' = '\x7d') = False by decide, if_false, if_true, hmember, hmore]
    rfl

end Members

section Values

variable {cs : List Char} {value : Value}

/-- Read from its first character, as long as nothing of the text is left out. -/
theorem readAs_of_first {c : Char}
    (h : ∀ fuel rest, cs.length < fuel → (∀ d ∈ rest.head?, EndsValue d) →
      readValue (fuel + 1) (c :: (cs ++ rest)) = (value, rest)) : ReadAs (c :: cs) value := by
  intro fuel rest hfuel hrest
  rw [List.length_cons] at hfuel
  obtain ⟨fuel, rfl⟩ := Nat.exists_eq_add_one_of_ne_zero (Nat.ne_zero_of_lt hfuel)
  exact ⟨rest, h fuel rest (by omega) hrest, rfl⟩

theorem readAs_number {numeral : Numeral} (h : SpelledNumeral cs numeral) :
    ReadAs cs (.number numeral.number?) := by
  obtain ⟨c, ds, rfl, hc, hspace⟩ := h.opens
  refine readAs_of_first fun fuel rest _ hrest => ?_
  have hread := readNumeral_spelled h fun d hd => (hrest d hd).endsNumeral
  rw [List.cons_append] at hread
  have hother {d : Char} (hd : ¬ (d = '-' ∨ d.isDigit = true)) : c ≠ d := by
    rintro rfl
    exact hd hc
  rw [readValue, skipSpace_cons hspace]
  simp only [if_neg (hother (d := 'n') (by decide)), if_neg (hother (d := 't') (by decide)),
    if_neg (hother (d := 'f') (by decide)), if_neg (hother (d := '"') (by decide)),
    if_neg (hother (d := '[') (by decide)), if_neg (hother (d := '\x7b') (by decide)), if_pos hc, hread]

theorem readAs_string {text : Option String} (h : SpelledString cs text) :
    ReadAs cs (.string text) := by
  obtain ⟨inner, rfl, hstring⟩ := readString_spelled h
  refine readAs_of_first fun fuel rest _ _ => ?_
  rw [readValue, skipSpace_cons (by decide)]
  simp [hstring]

theorem ReadAs.pad {before after : List Char} (hbefore : Spaces before) (h : ReadAs cs value)
    (hafter : Spaces after) : ReadAs (before ++ cs ++ after) value := by
  intro fuel rest hfuel hrest
  have hends : ∀ c ∈ (after ++ rest).head?, EndsValue c :=
    forall_head?_append (fun c hc => .inl (hafter c (List.mem_of_mem_head? hc))) hrest
  rw [List.length_append, List.length_append] at hfuel
  obtain ⟨left, hread, hleft⟩ := h fuel (after ++ rest) (by omega) hends
  refine ⟨left, ?_, hleft.trans (skipSpace_append hafter rest)⟩
  rw [List.append_assoc, List.append_assoc, readValue_congr fuel (skipSpace_append hbefore _), hread]

/-- Every text of a value is read as this value. -/
theorem Spelled.readAs (h : Spelled cs value) : ReadAs cs value := by
  induction h with
  | null | yes | no =>
    refine readAs_of_first fun fuel rest _ _ => ?_
    rw [readValue, skipSpace_cons (by decide)]
    simp [readWord]
  | number h => exact readAs_number h
  | string h => exact readAs_string h
  | @array inside items hinside hitems ih =>
    refine readAs_of_first fun fuel rest hfuel _ => ?_
    simp only [List.length_append, List.length_singleton] at hfuel
    have hread := readItems_spelled fuel rest hinside
      (fun item hitem => (hitems item hitem).opens) ih (by omega)
    rw [readValue, skipSpace_cons (by decide), List.append_assoc, List.singleton_append]
    simp [hread]
  | @object inside members hinside hkeys hvalues ih =>
    refine readAs_of_first fun fuel rest hfuel _ => ?_
    simp only [List.length_append, List.length_singleton] at hfuel
    have hread := readMembers_spelled fuel rest hinside hkeys ih (by omega)
    rw [readValue, skipSpace_cons (by decide), List.append_assoc, List.singleton_append]
    simp [hread]
  | pad hbefore _ hafter ih => exact ih.pad hbefore hafter

theorem Document.ofText_spelled {text : String} (h : Spelled text.toList value) :
    Document.ofText text = ⟨value, false⟩ := by
  obtain ⟨left, hread, hleft⟩ := h.readAs (2 * text.toList.length + 2) [] (by omega) (by simp)
  rw [List.append_nil] at hread
  have hend : skipSpace left = [] := hleft
  rw [Document.ofText, hread]
  simp [hend]

end Values

end TemplateViews.Json
