import TemplateViews.Proofs.Types.Grammar

/-! Reading follows the grammar of type names. Every text of a name is read as that name,
and whatever is read in full is one of its texts. -/

namespace TemplateViews

theorem head_colons_path {path : List Char} (count : Nat) (h : IsNamePath [':', ':'] path) :
    ∃ c ∈ (colons count ++ path).head?, isBlank c = false := by
  cases count with
  | zero =>
    obtain ⟨first, rest, rfl, hfirst⟩ := h.head
    exact ⟨first, rfl, not_isBlank_of_isNamePart (isNamePart_of_isNameStart hfirst)⟩
  | succ count => exact ⟨':', rfl, by decide⟩

namespace SpellsPath

variable {cs path : List Char}

theorem trim_eq (h : SpellsPath cs path) : ∃ count, trim cs = colons count ++ path := by
  cases h with
  | intro count hbefore hpath hafter =>
    refine ⟨count, trim_blanks hbefore hafter (head_colons_path count hpath) fun c hc => ?_⟩
    obtain ⟨front, last, rfl, hlast⟩ := hpath.getLast
    obtain rfl : last = c := by simpa [← List.append_assoc] using hc
    exact not_isBlank_of_isNamePart hlast

theorem exists_trimStart (h : SpellsPath cs path) :
    ∃ front, SpellsPath front path ∧ ∀ rest, trimStart (cs ++ rest) = front ++ rest := by
  cases h with
  | @intro before _ after count hbefore hpath hafter =>
    refine ⟨[] ++ (colons count ++ path) ++ after, .intro count (by simp) hpath hafter, fun rest => ?_⟩
    have hassoc : before ++ (colons count ++ path) ++ after ++ rest =
        before ++ ([] ++ (colons count ++ path) ++ after ++ rest) := by simp
    rw [hassoc]
    refine trimStart_blanks hbefore fun c hc => ?_
    obtain ⟨first, hfirst, hvisible⟩ := head_colons_path count hpath
    rw [List.nil_append, List.append_assoc, List.head?_append, Option.mem_def.mp hfirst] at hc
    obtain rfl : first = c := by simpa using hc
    exact hvisible

end SpellsPath

theorem spellsPath_dropColons {cs : List Char} (h : isTypePath (dropColons cs) = true) :
    SpellsPath cs (dropColons cs) := by
  obtain ⟨count, hcount⟩ := exists_colons_dropColons cs
  have hpath : SpellsPath ([] ++ (colons count ++ dropColons cs) ++ []) (dropColons cs) :=
    .intro count (by simp) (isTypePath_iff.mp h) (by simp)
  rwa [List.nil_append, List.append_nil, ← hcount] at hpath

theorem spellsPath_dropColons_trim {cs : List Char} (h : isTypePath (dropColons (trim cs)) = true) :
    SpellsPath cs (dropColons (trim cs)) := by
  obtain ⟨before, after, hbefore, hafter, hcs⟩ := exists_blanks_trim cs
  have hpath := (spellsPath_dropColons h).pad hbefore hafter
  rwa [← hcs] at hpath

theorem Spells.trim_ne_nil {cs : List Char} {name : TypeName} (h : Spells cs name) : trim cs ≠ [] := by
  intro hnil
  obtain ⟨before, after, hbefore, hafter, hcs⟩ := exists_blanks_trim cs
  have hblank : ∀ c ∈ cs, isBlank c = true := by
    rw [hcs, hnil, List.append_nil]
    exact List.forall_mem_append.mpr ⟨hbefore, hafter⟩
  obtain ⟨c, hc, hvisible⟩ : ∃ c ∈ cs, isBlank c = false := by
    cases h with
    | plain hpath =>
      cases hpath with
      | intro count _ hpath _ =>
        obtain ⟨c, rest, rfl, hstart⟩ := hpath.head
        exact ⟨c, by simp, not_isBlank_of_isNamePart (isNamePart_of_isNameStart hstart)⟩
    | generic hpath hne hargs hlast => exact ⟨'<', by simp, by decide⟩
  rw [hblank c hc] at hvisible
  cases hvisible

theorem splitName_of_plain {cs : List Char} (hopen : '<' ∉ cs) (hclose : '>' ∉ cs) :
    splitName cs = some (cs, []) := by
  have hdrop : cs.dropWhile (· ≠ '<') = [] :=
    List.dropWhile_eq_nil_iff.mpr fun c hc => decide_eq_true fun h => hopen (h ▸ hc)
  rw [splitName, hdrop]
  exact if_neg hclose

theorem dropClosing?_eq_some_iff {cs inner : List Char} :
    dropClosing? cs = some inner ↔ cs = inner ++ ['>'] := by
  constructor
  · intro h
    unfold dropClosing? at h
    split at h
    · next rest hrest =>
      obtain rfl := Option.some.inj h
      rw [← List.reverse_reverse cs, hrest, List.reverse_cons]
    · cases h
  · rintro rfl
    rw [dropClosing?, List.reverse_append, List.reverse_singleton, List.singleton_append]
    simp

theorem splitName_of_args {front inner : List Char} {pieces : List (List Char)}
    (hopen : '<' ∉ front) (hinner : splitArguments 0 inner = some pieces)
    (hblank : [] ∉ pieces.map trim) :
    splitName (front ++ '<' :: (inner ++ ['>'])) = some (trim front, pieces.map trim) := by
  have hfront : ∀ c ∈ front, decide (c ≠ '<') = true := fun c hc =>
    decide_eq_true fun h => hopen (h ▸ hc)
  have hhead : ∀ c ∈ ('<' :: (inner ++ ['>'])).head?, decide (c ≠ '<') = false := by simp
  rw [splitName, dropWhile_append_of_head hfront hhead, takeWhile_append_of_head hfront hhead]
  simp only [dropClosing?_eq_some_iff.mpr rfl, hinner, if_neg hblank]

theorem splitName_eq_some {cs base : List Char} {args : List (List Char)}
    (h : splitName cs = some (base, args)) :
    (base = cs ∧ args = []) ∨ ∃ front inner pieces,
      cs = front ++ '<' :: (inner ++ ['>']) ∧ splitArguments 0 inner = some pieces ∧
      base = trim front ∧ args = pieces.map trim := by
  unfold splitName at h
  split at h
  · split at h
    · cases h
    · simp only [Option.some.injEq, Prod.mk.injEq] at h
      exact .inl ⟨h.1.symm, h.2.symm⟩
  · next c behind hbehind =>
    split at h
    · cases h
    · next inner hinner =>
      split at h
      · cases h
      · next pieces hpieces =>
        split at h
        · cases h
        · simp only [Option.some.injEq, Prod.mk.injEq] at h
          have hopen : decide (c ≠ '<') = false := head_dropWhile c (by rw [hbehind]; rfl)
          have hc : c = '<' := by simpa using hopen
          refine .inr ⟨cs.takeWhile (· ≠ '<'), inner, pieces, ?_, hpieces, h.1.symm, h.2.symm⟩
          have hcs := List.takeWhile_append_dropWhile (p := (· ≠ '<')) (l := cs)
          rw [hbehind, hc, dropClosing?_eq_some_iff.mp hinner] at hcs
          exact hcs.symm

theorem TypeName.read_of_splitName_none {cs : List Char} (h : splitName cs = none) :
    read cs = .malformed (String.ofList cs) := by
  rw [read]
  split
  · rfl
  · next hsome => rw [hsome] at h; cases h

theorem TypeName.read_of_splitName {cs base : List Char} {args : List (List Char)}
    (h : splitName cs = some (base, args)) :
    read cs = if isTypePath (dropColons base) then
      .named (String.ofList (dropColons base)) (args.map read)
    else .malformed (String.ofList cs) := by
  rw [read]
  split
  · next hnone => rw [hnone] at h; cases h
  · next base' args' hsome =>
    rw [hsome] at h
    obtain ⟨rfl, rfl⟩ := by simpa using h
    rw [List.attach_map_val]

theorem dropColons_colons_path {path : List Char} (count : Nat) (h : IsNamePath [':', ':'] path) :
    dropColons (colons count ++ path) = path := by
  obtain ⟨c, rest, rfl, hstart⟩ := h.head
  refine dropColons_colons count fun d hd => ?_
  obtain rfl : c = d := by simpa using hd
  rintro rfl
  exact absurd hstart (by decide)

theorem TypeName.read_of_colons_path {cs path : List Char} {count : Nat} {args : List (List Char)}
    (hpath : IsNamePath [':', ':'] path) (h : splitName cs = some (colons count ++ path, args)) :
    read cs = .named (String.ofList path) (args.map read) := by
  rw [read_of_splitName h, dropColons_colons_path count hpath, if_pos (isTypePath_iff.mpr hpath)]

theorem SpellsPath.splitName_trim {cs path : List Char} (h : SpellsPath cs path) :
    ∃ count, splitName (trim cs) = some (colons count ++ path, []) := by
  obtain ⟨count, htrim⟩ := h.trim_eq
  have hopen : '<' ∉ trim cs := fun hc => (h.plain _ (mem_of_mem_trim hc)).1 rfl
  have hclose : '>' ∉ trim cs := fun hc => (h.plain _ (mem_of_mem_trim hc)).2.1 rfl
  exact ⟨count, by rw [splitName_of_plain hopen hclose, htrim]⟩

theorem SpellsPath.splitName_trim_args {cs path inner last : List Char} {pieces : List (List Char)}
    (h : SpellsPath cs path) (hinner : splitArguments 0 inner = some pieces)
    (hblank : [] ∉ pieces.map trim) (hlast : ∀ c ∈ last, isBlank c = true) :
    ∃ count, splitName (trim (cs ++ '<' :: (inner ++ ['>']) ++ last)) =
      some (colons count ++ path, pieces.map trim) := by
  obtain ⟨front, hfront, hstart⟩ := h.exists_trimStart
  obtain ⟨count, htrim⟩ := hfront.trim_eq
  have htext : trim (cs ++ '<' :: (inner ++ ['>']) ++ last) =
      front ++ '<' :: (inner ++ ['>']) := by
    rw [trim, List.append_assoc, hstart, ← List.append_assoc]
    refine trimEnd_blanks hlast fun c hc => ?_
    rw [← List.cons_append, ← List.append_assoc, List.getLast?_concat] at hc
    obtain rfl : '>' = c := Option.some.inj hc
    decide
  have hopen : '<' ∉ front := fun hc => (hfront.plain _ hc).1 rfl
  exact ⟨count, by rw [htext, splitName_of_args hopen hinner hblank, htrim]⟩

/-- Every text of a name is read as that name. -/
theorem Spells.read {cs : List Char} {name : TypeName} (h : Spells cs name) :
    TypeName.read (trim cs) = name := by
  induction h with
  | @plain cs path hpath =>
    obtain ⟨count, hsplit⟩ := hpath.splitName_trim
    exact TypeName.read_of_colons_path hpath.isNamePath hsplit
  | @generic cs path last args hpath hne hargs hlast ih =>
    have hpieces : splitArguments 0 (joinWith [','] (args.map Prod.fst)) = some (args.map Prod.fst) :=
      splitArguments_joinWith (by simpa using hne)
        (List.forall_mem_map.mpr fun arg harg => (hargs arg harg).passes)
    have hblank : [] ∉ (args.map Prod.fst).map trim := by
      rw [List.map_map]
      intro hmem
      obtain ⟨arg, harg, hnil⟩ := List.mem_map.mp hmem
      exact (hargs arg harg).trim_ne_nil hnil
    have hread : ((args.map Prod.fst).map trim).map TypeName.read = args.map Prod.snd := by
      rw [List.map_map, List.map_map]
      exact List.map_congr_left ih
    obtain ⟨count, hsplit⟩ := hpath.splitName_trim_args hpieces hblank hlast
    rw [TypeName.read_of_colons_path hpath.isNamePath hsplit, hread]

/-- What is read in full is one of the texts of the name. -/
theorem spells_read {cs : List Char} (h : (TypeName.read cs).WellFormed) :
    Spells cs (TypeName.read cs) := by
  -- The arguments are shorter than the text, so the induction is on its length.
  induction hlength : cs.length using Nat.strongRecOn generalizing cs with
  | ind length ih =>
    cases hsplit : splitName cs with
    | none =>
      rw [TypeName.read_of_splitName_none hsplit] at h
      cases h
    | some split =>
      obtain ⟨base, args⟩ := split
      have hread := TypeName.read_of_splitName hsplit
      by_cases hpath : isTypePath (dropColons base) = true
      · rw [if_pos hpath] at hread
        rw [hread] at h ⊢
        cases h with
        | named hargs =>
          have hshorter := length_lt_of_splitName hsplit
          rcases splitName_eq_some hsplit with ⟨rfl, rfl⟩ | ⟨front, inner, pieces, rfl, hpieces, rfl, rfl⟩
          · exact .plain (spellsPath_dropColons hpath)
          · have hspells : ∀ arg ∈ pieces.map fun piece => (piece, TypeName.read (trim piece)),
                Spells arg.1 arg.2 := by
              refine List.forall_mem_map.mpr fun piece hpiece => ?_
              have hmem := List.mem_map_of_mem (f := trim) hpiece
              exact .of_trim (ih _ (hlength ▸ hshorter _ hmem)
                (hargs _ (List.mem_map_of_mem hmem)) rfl)
            obtain ⟨hne, hinner⟩ := joinWith_splitArguments hpieces
            have hgeneric := Spells.generic (spellsPath_dropColons_trim hpath) (by simpa using hne)
              hspells (List.forall_mem_nil _)
            simpa [Function.comp_def, hinner] using hgeneric
      · rw [hread, if_neg hpath] at h
        cases h

theorem Spells.trimmed {cs : List Char} {name : TypeName} (h : Spells cs name) :
    Spells (trim cs) name := by
  have hspells := spells_read (h.read.symm ▸ h.wellFormed)
  rwa [h.read] at hspells

theorem spells_iff {cs : List Char} {name : TypeName} :
    Spells cs name ↔ TypeName.read (trim cs) = name ∧ name.WellFormed := by
  constructor
  · exact fun h => ⟨h.read, h.wellFormed⟩
  · rintro ⟨rfl, h⟩
    exact (spells_read h).of_trim

end TemplateViews
