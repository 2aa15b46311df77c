import TemplateViews.Build.Names
import TemplateViews.Proofs.Files.Siblings

/-! Names of builds. All files of builds in one directory lie beside each other, and builds
with different tokens have different names for them. -/

namespace TemplateViews

namespace Token

variable {token other : Token}

theorem digit_lt (token : Token) (index : Nat) : token.digit index < 16 := by
  unfold digit
  dsimp only
  split
  · decide
  split
  · omega
  · exact Nat.mod_lt _ (by decide)

theorem forall_mem_text {P : Char → Prop} (h : ∀ digit < 16, P (Nat.digitChar digit)) :
    ∀ c ∈ token.text.toList, P c := by
  intro c hc
  rw [text, String.toList_ofList] at hc
  obtain ⟨index, -, rfl⟩ := List.mem_map.mp hc
  exact h _ (token.digit_lt index)

theorem length_text : token.text.toList.length = digitCount := by
  rw [text, String.toList_ofList, List.length_map, List.length_range]

theorem length_encode_text : (Utf8.encode token.text.toList).length = digitCount := by
  have hone : ∀ c ∈ token.text.toList, (String.utf8EncodeChar c).length = 1 :=
    forall_mem_text (by decide)
  rw [Utf8.encode, List.length_flatMap, List.map_congr_left hone, List.map_const',
    List.sum_replicate_nat, length_text, Nat.mul_one]

theorem slash_not_mem_text (token : Token) : '/' ∉ token.text.toList :=
  fun hmem => forall_mem_text (P := (· ≠ '/')) (by decide) _ hmem rfl

end Token

namespace BuildNames

def sourceEnding (token : Token) : List Char := token.text.toList ++ ".rs".toList

def libraryEnding (token : Token) : List Char := token.text.toList ++ ".so".toList

def endingSize : Nat := Token.digitCount + 3

section Endings

variable {token other : Token}

theorem sourceEnding_ne (h : token.text ≠ other.text) : sourceEnding token ≠ sourceEnding other :=
  fun he => h (String.toList_inj.mp (List.append_cancel_right he))

theorem libraryEnding_ne (h : token.text ≠ other.text) :
    libraryEnding token ≠ libraryEnding other :=
  fun he => h (String.toList_inj.mp (List.append_cancel_right he))

theorem sourceEnding_ne_libraryEnding : sourceEnding token ≠ libraryEnding other := by
  intro he
  have hlength : token.text.toList.length = other.text.toList.length := by
    rw [Token.length_text, Token.length_text]
  exact absurd (List.append_inj_right he hlength) (by decide)

end Endings

/-- Where a directory and a stem put names that end in different ways. -/
theorem exists_text_join (dir : Path) (stem : String) : ∃ start, ∀ ending : List Char,
    ending ≠ [] → '/' ∉ ending →
    (dir.join ⟨stem ++ String.ofList ending⟩).text.toList = start ++ ending := by
  have habsolute : ∀ ending : List Char, ending ≠ [] → '/' ∉ ending →
      Path.isAbsolute ⟨stem ++ String.ofList ending⟩ = (stem.toList.head? == some '/') := by
    intro ending hne hslash
    cases hstem : stem.toList with
    | cons c cs => simp [Path.isAbsolute, hstem]
    | nil =>
      obtain ⟨c, ending, rfl⟩ := List.exists_cons_of_ne_nil hne
      have hc : c ≠ '/' := fun hc => hslash (by simp [hc])
      simp [Path.isAbsolute, hstem, hc]
  by_cases hstart : (stem.toList.head? == some '/' || dir.isEmpty) = true
  · refine ⟨stem.toList, fun ending hne hslash => ?_⟩
    rw [Path.join, habsolute ending hne hslash, if_pos hstart]
    simp
  by_cases hslash : dir.text.toList.getLast? = some '/'
  · refine ⟨dir.text.toList ++ stem.toList, fun ending hne hending => ?_⟩
    rw [Path.join, habsolute ending hne hending, if_neg hstart, if_pos hslash]
    simp
  · refine ⟨dir.text.toList ++ '/' :: stem.toList, fun ending hne hending => ?_⟩
    rw [Path.join, habsolute ending hne hending, if_neg hstart, if_neg hslash]
    simp

theorem endsIn_of_extension {p : Path} {start : List Char} (token : Token) {extension : List Char}
    (hextension : extension = ".rs".toList ∨ extension = ".so".toList)
    (htext : p.text.toList = start ++ (token.text.toList ++ extension)) :
    p.EndsIn start endingSize (token.text.toList ++ extension) where
  text := htext
  slash := by
    rw [List.mem_append, not_or]
    refine ⟨token.slash_not_mem_text, ?_⟩
    rcases hextension with rfl | rfl <;> decide
  nul := by
    have htoken : 0 ∉ Utf8.encode token.text.toList := by
      intro hmem
      obtain ⟨c, hc, hmem⟩ := List.mem_flatMap.mp hmem
      exact Token.forall_mem_text (P := fun c => 0 ∉ String.utf8EncodeChar c) (by decide) c hc hmem
    rw [Utf8.encode_append, List.mem_append, not_or]
    refine ⟨htoken, ?_⟩
    rcases hextension with rfl | rfl <;> decide
  length := by
    rw [Utf8.encode_append, List.length_append, Token.length_encode_text]
    rcases hextension with rfl | rfl <;> rfl

theorem exists_fileName?_of_endsIn {p : Path} {start ending : List Char} {size : Nat}
    (hsize : 2 < size) (h : p.EndsIn start size ending) : ∃ name, p.fileName? = some name := by
  obtain ⟨init, last, hsplit⟩ := exists_splitAt_append '/' start
  have hlong {piece : List Char} (hpiece : last ++ ending = piece) :
      2 < (Utf8.encode piece).length := by
    rw [← hpiece, Utf8.encode_append, List.length_append, h.length]
    omega
  have hinner : Path.Component.inner (last ++ ending) =
      some (.named (String.ofList (last ++ ending))) := by
    unfold Path.Component.inner
    split
    · next hhere =>
      rcases hhere with hnil | hhere
      · exact absurd (hlong hnil) (by decide)
      · exact absurd (hlong hhere) (by decide)
    split
    · next hup => exact absurd (hlong hup) (by decide)
    · rfl
  have hnamed : p.components.getLast? = some (.named (String.ofList (last ++ ending))) := by
    rw [Path.components, Path.pieces, h.text, hsplit ending h.slash]
    cases init with
    | nil =>
      have hfirst : Path.Component.first (last ++ ending) false =
          some (.named (String.ofList (last ++ ending))) := by
        unfold Path.Component.first
        split
        · next hnil => exact absurd (hlong hnil) (by decide)
        split
        · next hhere => exact absurd (hlong hhere) (by decide)
        · exact hinner
      simp [hfirst]
    | cons first init => simp [List.filterMap_append, hinner]
  exact ⟨_, by rw [Path.fileName?, hnamed]⟩

/-- Names that lie beside those of other builds, with a token in their endings. -/
structure Beside (start : List Char) (token : Token) (names : BuildNames) : Prop where
  source : names.source.EndsIn start endingSize (sourceEnding token)
  library : names.library.EndsIn start endingSize (libraryEnding token)

/-- All names that builds take in a directory with a stem lie beside each other. -/
theorem exists_beside_fresh (dir : Path) (stem : String) :
    ∃ start, ∀ token, (fresh dir stem token).Beside start token := by
  obtain ⟨start, hstart⟩ := exists_text_join dir stem
  have htext {token : Token} {extension : String} (hne : extension.toList ≠ [])
      (hslash : '/' ∉ extension.toList) :
      (dir.join ⟨stem ++ token.text ++ extension⟩).text.toList =
        start ++ (token.text.toList ++ extension.toList) := by
    have hname : stem ++ token.text ++ extension =
        stem ++ String.ofList (token.text.toList ++ extension.toList) := by
      rw [String.ofList_append, String.ofList_toList, String.ofList_toList, String.append_assoc]
    have hending : '/' ∉ token.text.toList ++ extension.toList := by
      rw [List.mem_append, not_or]
      exact ⟨token.slash_not_mem_text, hslash⟩
    rw [hname, hstart _ (by simp [hne]) hending]
  exact ⟨start, fun token => ⟨
    endsIn_of_extension token (.inl rfl) (htext (by decide) (by decide)),
    endsIn_of_extension token (.inr rfl) (htext (by decide) (by decide))⟩⟩

end BuildNames

end TemplateViews
