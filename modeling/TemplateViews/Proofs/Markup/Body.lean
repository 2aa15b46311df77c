import TemplateViews.Markup.Piece

/-! Where the body of a construct ends: at the first closing delimiter at depth zero,
when only the delimiters outside of string literals are counted. -/

namespace TemplateViews.Markup

/-- A string literal behind its opening quote, with the quote that closes it. -/
inductive Literal : List Char → Prop
  | close : Literal ['"']
  | escape (c : Char) {cs : List Char} (h : Literal cs) : Literal ('\\' :: c :: cs)
  | plain {c : Char} {cs : List Char} (hquote : c ≠ '"') (hslash : c ≠ '\\')
      (h : Literal cs) : Literal (c :: cs)

/-- A text that ends outside of string literals, and what of it stands outside. -/
inductive Outside : List Char → List Char → Prop
  | nil : Outside [] []
  | plain {c : Char} {cs bare : List Char} (hquote : c ≠ '"') (h : Outside cs bare) :
      Outside (c :: cs) (c :: bare)
  | literal {inner cs bare : List Char} (hinner : Literal inner) (h : Outside cs bare) :
      Outside ('"' :: (inner ++ cs)) bare

/-- A text that starts at a depth ends at depth zero. -/
def Level (opening closing : Char) (depth : Nat) (cs : List Char) : Prop :=
  ∃ bare, Outside cs bare ∧ depth + bare.count opening = bare.count closing

/-- A text in front of the first closing delimiter at depth zero. -/
structure IsBody (opening closing : Char) (depth : Nat) (body : List Char) : Prop where
  level : Level opening closing depth body
  first : ∀ early late, body = early ++ closing :: late → ¬ Level opening closing depth early

theorem Literal.prefix_free {cs ds a b : List Char} (hc : Literal cs) (hd : Literal ds)
    (h : cs ++ a = ds ++ b) : cs = ds ∧ a = b := by
  induction hc generalizing ds with
  | close =>
    cases hd with
    | close => exact ⟨rfl, by simpa using h⟩
    | escape c hd => simp at h
    | plain hquote _ hd => exact absurd (by simpa using congrArg List.head? h) (Ne.symm hquote)
  | escape c hc ih =>
    cases hd with
    | close => simp at h
    | escape d hd =>
      simp only [List.cons_append, List.cons.injEq, true_and] at h
      obtain ⟨hcs, hab⟩ := ih hd h.2
      exact ⟨by rw [h.1, hcs], hab⟩
    | plain _ hslash hd =>
      exact absurd (by simpa using congrArg List.head? h) (Ne.symm hslash)
  | plain hquote hslash hc ih =>
    cases hd with
    | close => exact absurd (by simpa using congrArg List.head? h) hquote
    | escape d hd => exact absurd (by simpa using congrArg List.head? h) hslash
    | plain _ _ hd =>
      simp only [List.cons_append, List.cons.injEq] at h
      obtain ⟨hcs, hab⟩ := ih hd h.2
      exact ⟨by rw [h.1, hcs], hab⟩

theorem outside_cons_iff {c : Char} {cs bare : List Char} (hc : c ≠ '"') :
    Outside (c :: cs) bare ↔ ∃ bare', bare = c :: bare' ∧ Outside cs bare' := by
  constructor
  · intro h
    cases h with
    | plain _ h => exact ⟨_, rfl, h⟩
    | literal _ _ => exact absurd rfl hc
  · rintro ⟨bare', rfl, h⟩
    exact .plain hc h

theorem outside_literal_iff {inner cs bare : List Char} (hinner : Literal inner) :
    Outside ('"' :: (inner ++ cs)) bare ↔ Outside cs bare := by
  constructor
  · intro h
    generalize he : '"' :: (inner ++ cs) = text at h
    cases h with
    | nil => cases he
    | plain hquote _ => exact absurd (List.cons.inj he).1.symm hquote
    | literal hother h =>
      obtain ⟨-, rfl⟩ := hinner.prefix_free hother (List.cons.inj he).2
      exact h
  · exact .literal hinner

theorem level_cons_iff {opening closing c : Char} {depth depth' : Nat} {cs : List Char}
    (hc : c ≠ '"')
    (hdepth : ∀ bare : List Char, depth + (c :: bare).count opening = (c :: bare).count closing ↔
      depth' + bare.count opening = bare.count closing) :
    Level opening closing depth (c :: cs) ↔ Level opening closing depth' cs := by
  constructor
  · rintro ⟨bare, hout, hcount⟩
    obtain ⟨bare', rfl, hout'⟩ := (outside_cons_iff hc).mp hout
    exact ⟨bare', hout', (hdepth bare').mp hcount⟩
  · rintro ⟨bare, hout, hcount⟩
    exact ⟨c :: bare, .plain hc hout, (hdepth bare).mpr hcount⟩

theorem level_literal_iff {opening closing : Char} {depth : Nat} {inner cs : List Char}
    (hinner : Literal inner) :
    Level opening closing depth ('"' :: (inner ++ cs)) ↔ Level opening closing depth cs := by
  simp only [Level, outside_literal_iff hinner]

theorem level_nil_iff {opening closing : Char} {depth : Nat} :
    Level opening closing depth [] ↔ depth = 0 := by
  constructor
  · rintro ⟨bare, hout, hcount⟩
    cases hout
    simpa using hcount
  · rintro rfl
    exact ⟨[], .nil, rfl⟩

theorem isBody_nil_iff {opening closing : Char} {depth : Nat} :
    IsBody opening closing depth [] ↔ depth = 0 := by
  constructor
  · intro h
    exact level_nil_iff.mp h.level
  · intro h
    exact ⟨level_nil_iff.mpr h, fun early late hbody => by simp at hbody⟩

theorem isBody_cons_iff {opening closing c : Char} {depth depth' : Nat} {cs : List Char}
    (hc : c ≠ '"') (hopen : c = closing → depth ≠ 0)
    (hdepth : ∀ bare : List Char, depth + (c :: bare).count opening = (c :: bare).count closing ↔
      depth' + bare.count opening = bare.count closing) :
    IsBody opening closing depth (c :: cs) ↔ IsBody opening closing depth' cs := by
  have hlevel (cs : List Char) :
      Level opening closing depth (c :: cs) ↔ Level opening closing depth' cs :=
    level_cons_iff hc hdepth
  constructor
  · intro h
    refine ⟨(hlevel cs).mp h.level, fun early late hbody hearly => ?_⟩
    exact h.first (c :: early) late (by simp [hbody]) ((hlevel early).mpr hearly)
  · intro h
    refine ⟨(hlevel cs).mpr h.level, fun early late hbody hearly => ?_⟩
    cases early with
    | nil => exact hopen (List.cons.inj hbody).1 (level_nil_iff.mp hearly)
    | cons e early =>
      obtain ⟨rfl, hcs⟩ := List.cons.inj hbody
      exact h.first early late hcs ((hlevel early).mp hearly)

theorem isBody_literal_iff {opening closing : Char} {depth : Nat} {inner cs : List Char}
    (hclosing : closing ≠ '"') (hinner : Literal inner) :
    IsBody opening closing depth ('"' :: (inner ++ cs)) ↔ IsBody opening closing depth cs := by
  constructor
  · intro h
    refine ⟨(level_literal_iff hinner).mp h.level, fun early late hbody hearly => ?_⟩
    exact h.first ('"' :: (inner ++ early)) late (by simp [hbody])
      ((level_literal_iff hinner).mpr hearly)
  · intro h
    refine ⟨(level_literal_iff hinner).mpr h.level, fun early late hbody hearly => ?_⟩
    obtain ⟨bare, hout, hcount⟩ := hearly
    cases hout with
    | nil => exact hclosing (List.cons.inj hbody).1.symm
    | plain hquote _ => exact hquote (List.cons.inj hbody).1.symm
    | @literal other suffix _ hother hout =>
      -- the early text closes the same literal, so the rest of it stands early in the body
      have he : inner ++ cs = other ++ (suffix ++ closing :: late) := by simpa using hbody
      obtain ⟨-, hcs⟩ := hinner.prefix_free hother he
      exact h.first suffix late hcs ⟨bare, hout, hcount⟩

/-- How a text goes on to a closing delimiter from where a reader stands. -/
def Nesting.Ends (opening closing : Char) (n : Nesting) (body : List Char) : Prop :=
  match n.quoting with
  | .outside => IsBody opening closing n.depth body
  | .inside => ∃ inner cs, Literal inner ∧ body = inner ++ cs ∧ IsBody opening closing n.depth cs
  | .escaped =>
    ∃ c inner cs, Literal inner ∧ body = c :: (inner ++ cs) ∧ IsBody opening closing n.depth cs

theorem Nesting.step_eq_none_iff {opening closing c : Char} {n : Nesting}
    (hopening : opening ≠ closing) (hclosing : closing ≠ '"') :
    n.step opening closing c = none ↔ n = {} ∧ c = closing := by
  constructor
  · intro h
    refine ⟨?_, eq_closing_of_step h⟩
    obtain ⟨depth, quoting⟩ := n
    cases quoting with
    | outside =>
      cases depth with
      | zero => rfl
      | succ depth =>
        simp only [step] at h
        repeat' split at h
        all_goals cases h
    | inside =>
      simp only [step] at h
      repeat' split at h
      all_goals cases h
    | escaped => cases h
  · rintro ⟨rfl, rfl⟩
    simp [step, hclosing, hopening.symm]

theorem Nesting.ends_nil_iff {opening closing : Char} {n : Nesting} :
    n.Ends opening closing [] ↔ n = {} := by
  obtain ⟨depth, quoting⟩ := n
  cases quoting with
  | outside => simp [Ends, isBody_nil_iff]
  | inside =>
    have hne (inner cs : List Char) (h : Literal inner) : [] ≠ inner ++ cs := by
      cases h <;> simp
    constructor
    · rintro ⟨inner, cs, hinner, hbody, -⟩
      exact absurd hbody (hne inner cs hinner)
    · intro h
      simp at h
  | escaped => simp [Ends]

theorem Nesting.not_ends_closing {opening closing : Char} {cs : List Char} :
    ¬ ({} : Nesting).Ends opening closing (closing :: cs) := by
  intro h
  exact IsBody.first h [] cs rfl (level_nil_iff.mpr rfl)

theorem ends_inside_iff {opening closing : Char} {depth : Nat} {cs : List Char}
    (hclosing : closing ≠ '"') :
    IsBody opening closing depth ('"' :: cs) ↔
      Nesting.Ends opening closing ⟨depth, .inside⟩ cs := by
  constructor
  · intro h
    obtain ⟨bare, hout, -⟩ := h.level
    cases hout with
    | plain hplain _ => exact absurd rfl hplain
    | literal hinner _ => exact ⟨_, _, hinner, rfl, (isBody_literal_iff hclosing hinner).mp h⟩
  · rintro ⟨inner, suffix, hinner, rfl, h⟩
    exact (isBody_literal_iff hclosing hinner).mpr h

theorem Nesting.ends_outside_iff {opening closing c : Char} {depth : Nat} {n' : Nesting}
    {cs : List Char} (hopening : opening ≠ closing) (hclosing : closing ≠ '"')
    (h : Nesting.step opening closing ⟨depth, .outside⟩ c = some n') :
    IsBody opening closing depth (c :: cs) ↔ n'.Ends opening closing cs := by
  simp only [step] at h
  split at h
  · next hquote =>
    obtain rfl := Option.some.inj h
    rw [hquote]
    exact ends_inside_iff hclosing
  · next hquote =>
    split at h
    · next hopen =>
      obtain rfl := Option.some.inj h
      refine isBody_cons_iff hquote (fun hc => absurd (hopen.symm.trans hc) hopening) ?_
      intro bare
      rw [hopen, List.count_cons_self, List.count_cons_of_ne hopening]
      dsimp only
      omega
    · next hopen =>
      split at h
      · next hclose =>
        cases depth with
        | zero => cases h
        | succ depth =>
          obtain rfl := Option.some.inj h
          refine isBody_cons_iff hquote (fun _ => by simp) ?_
          intro bare
          rw [hclose, List.count_cons_self, List.count_cons_of_ne hopening.symm]
          dsimp only
          omega
      · next hclose =>
        obtain rfl := Option.some.inj h
        refine isBody_cons_iff hquote (fun hc => absurd hc hclose) ?_
        intro bare
        rw [List.count_cons_of_ne hopen, List.count_cons_of_ne hclose]

theorem Nesting.ends_literal_iff {opening closing c : Char} {depth : Nat} {n' : Nesting}
    {cs : List Char} (h : Nesting.step opening closing ⟨depth, .inside⟩ c = some n') :
    Nesting.Ends opening closing ⟨depth, .inside⟩ (c :: cs) ↔ n'.Ends opening closing cs := by
  simp only [step] at h
  split at h
  · next hslash =>
    obtain rfl := Option.some.inj h
    rw [hslash]
    constructor
    · rintro ⟨inner, suffix, hinner, he, hbody⟩
      cases hinner with
      | close => simp at he
      | escape d hinner => exact ⟨d, _, suffix, hinner, by simpa using he, hbody⟩
      | plain _ hplain _ => exact absurd (List.cons.inj he).1.symm hplain
    · rintro ⟨d, inner, suffix, hinner, rfl, hbody⟩
      exact ⟨_, suffix, .escape d hinner, rfl, hbody⟩
  · next hslash =>
    split at h
    · next hquote =>
      obtain rfl := Option.some.inj h
      rw [hquote]
      constructor
      · rintro ⟨inner, suffix, hinner, he, hbody⟩
        obtain ⟨-, rfl⟩ := Literal.close.prefix_free hinner he
        exact hbody
      · intro hbody
        exact ⟨_, cs, .close, rfl, hbody⟩
    · next hquote =>
      obtain rfl := Option.some.inj h
      constructor
      · rintro ⟨inner, suffix, hinner, he, hbody⟩
        cases hinner with
        | close => exact absurd (List.cons.inj he).1 hquote
        | escape d _ => exact absurd (List.cons.inj he).1 hslash
        | plain _ _ hinner => exact ⟨_, suffix, hinner, (List.cons.inj he).2, hbody⟩
      · rintro ⟨inner, suffix, hinner, rfl, hbody⟩
        exact ⟨_, suffix, .plain hquote hslash hinner, rfl, hbody⟩

theorem Nesting.ends_cons_iff {opening closing c : Char} {n n' : Nesting} {cs : List Char}
    (hopening : opening ≠ closing) (hclosing : closing ≠ '"')
    (h : n.step opening closing c = some n') :
    n.Ends opening closing (c :: cs) ↔ n'.Ends opening closing cs := by
  obtain ⟨depth, quoting⟩ := n
  cases quoting with
  | outside => exact ends_outside_iff hopening hclosing h
  | inside => exact ends_literal_iff h
  | escaped =>
    obtain rfl := Option.some.inj h
    constructor
    · rintro ⟨d, inner, suffix, hinner, he, hbody⟩
      exact ⟨inner, suffix, hinner, (List.cons.inj he).2, hbody⟩
    · rintro ⟨inner, suffix, hinner, rfl, hbody⟩
      exact ⟨c, inner, suffix, hinner, rfl, hbody⟩

/-- Reading a body finds the first closing delimiter at depth zero, and fails without one. -/
theorem readBody_eq_some_iff {opening closing : Char} {n : Nesting} {cs body rest : List Char}
    (hopening : opening ≠ closing) (hclosing : closing ≠ '"') :
    readBody opening closing n cs = some (body, rest) ↔
      cs = body ++ closing :: rest ∧ n.Ends opening closing body := by
  induction cs generalizing n body with
  | nil => simp [readBody]
  | cons c cs ih =>
    rw [readBody]
    cases hstep : n.step opening closing c with
    | none =>
      obtain ⟨rfl, rfl⟩ := (Nesting.step_eq_none_iff hopening hclosing).mp hstep
      cases body with
      | nil => simp [Nesting.ends_nil_iff]
      | cons b body =>
        refine ⟨fun h => by simp at h, ?_⟩
        rintro ⟨he, hends⟩
        obtain ⟨rfl, -⟩ := List.cons.inj he
        exact absurd hends Nesting.not_ends_closing
    | some n' =>
      cases body with
      | nil =>
        refine ⟨fun h => by simp at h, ?_⟩
        rintro ⟨he, hends⟩
        obtain ⟨rfl, -⟩ := List.cons.inj he
        have hnone := (Nesting.step_eq_none_iff hopening hclosing).mpr
          ⟨Nesting.ends_nil_iff.mp hends, rfl⟩
        rw [hstep] at hnone
        cases hnone
      | cons b body =>
        constructor
        · intro h
          obtain ⟨⟨body', rest'⟩, hread, he⟩ := Option.map_eq_some_iff.mp h
          simp only [Prod.mk.injEq, List.cons.injEq] at he
          obtain ⟨⟨rfl, rfl⟩, rfl⟩ := he
          obtain ⟨rfl, hends⟩ := ih.mp hread
          exact ⟨rfl, (Nesting.ends_cons_iff hopening hclosing hstep).mpr hends⟩
        · rintro ⟨he, hends⟩
          obtain ⟨rfl, hcs⟩ := List.cons.inj he
          have hread := ih.mpr ⟨hcs, (Nesting.ends_cons_iff hopening hclosing hstep).mp hends⟩
          simp [hread]

end TemplateViews.Markup
