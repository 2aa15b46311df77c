import TemplateViews.Proofs.Files.Siblings

/-! Paths into a directory. A name that is joined to the path of a directory leads to its place
there, and a path leads to the same place as long as what its pieces name stays. -/

namespace TemplateViews

namespace Path

/-- A name is joined behind a slash, whether the path of the directory ends in one or not. -/
theorem exists_text_join {dir : Path} {name : String} (hdir : dir.text.toList ≠ [])
    (hname : '/' ∉ name.toList) : ∃ front,
    (dir.text.toList = front ++ ['/'] ∨ dir.text.toList = front) ∧
    (dir.join ⟨name⟩).text.toList = front ++ '/' :: name.toList := by
  have habsolute : Path.isAbsolute ⟨name⟩ = false := by
    cases htext : name.toList with
    | nil => simp [Path.isAbsolute, htext]
    | cons c cs =>
      have hc : c ≠ '/' := fun hc => hname (by simp [htext, hc])
      simp [Path.isAbsolute, htext, hc]
  have hjoin : (Path.isAbsolute ⟨name⟩ || dir.isEmpty) = false := by
    simp [habsolute, Path.isEmpty, hdir]
  rw [Path.join, hjoin, if_neg Bool.false_ne_true]
  by_cases hslash : dir.text.toList.getLast? = some '/'
  · obtain ⟨front, hfront⟩ := List.getLast?_eq_some_iff.mp hslash
    exact ⟨front, .inl hfront, by rw [if_pos hslash]; simp [hfront]⟩
  · exact ⟨_, .inr rfl, by rw [if_neg hslash]; simp⟩

end Path

namespace Files

section Walk

variable {files before after : Files} {start place : Place} {front back pieces : List FileName}

theorem walk_append (hback : back ≠ []) (h : files.walk start (front ++ back) = .ok place) :
    ∃ dir, files.walk start front = .ok dir ∧ files.walk dir back = .ok place := by
  induction front generalizing start with
  | nil => exact ⟨start, rfl, h⟩
  | cons piece front ih =>
    rw [List.cons_append, walk_cons_iff] at h
    rcases h with ⟨hhere, h⟩ | ⟨hup, h⟩ | ⟨hname, hdirectory, h⟩
    · obtain ⟨dir, hfront, hrest⟩ := ih h
      exact ⟨dir, walk_cons_iff.mpr (.inl ⟨hhere, hfront⟩), hrest⟩
    · obtain ⟨dir, hfront, hrest⟩ := ih h
      exact ⟨dir, walk_cons_iff.mpr (.inr (.inl ⟨hup, hfront⟩)), hrest⟩
    · obtain ⟨dir, hfront, hrest⟩ := ih h
      refine ⟨dir, walk_cons_iff.mpr (.inr (.inr ⟨hname, fun _ => ?_, hfront⟩)), hrest⟩
      exact hdirectory (by simp [hback])

theorem walk_mono (hmono : ∀ place, after.node? place = some .directory →
      before.node? place = some .directory) (h : after.walk start pieces = .ok place) :
    before.walk start pieces = .ok place := by
  induction pieces generalizing start with
  | nil => exact h
  | cons piece pieces ih =>
    rw [walk_cons_iff] at h ⊢
    refine h.imp (And.imp_right ih) (Or.imp (And.imp_right ih) ?_)
    rintro ⟨hname, hdirectory, h⟩
    exact ⟨hname, fun hne => hmono _ (hdirectory hne), ih h⟩

end Walk

section Locate

variable {files before after : Files} {p : Path} {place : Place}

theorem locate_mono (hbase : after.base = before.base)
    (hmono : ∀ place, after.node? place = some .directory → before.node? place = some .directory)
    (h : after.locate p = .ok place) : before.locate p = .ok place := by
  rw [locate_eq_ok_iff] at h ⊢
  obtain ⟨hnul, hpositive, hlength, hwalk⟩ := h
  rw [hbase] at hwalk
  exact ⟨hnul, hpositive, hlength, walk_mono hmono hwalk⟩

/-- A path whose last name is long leads to a place of this name. -/
theorem exists_mem_pieces_of_locate {start ending : List Char} {size : Nat} (hsize : 2 < size)
    (hp : p.EndsIn start size ending) (h : files.locate p = .ok place) :
    ∃ dir, ∃ piece ∈ p.pieces, place = dir ++ [Utf8.encode piece] := by
  obtain ⟨init, last, hpieces⟩ := Path.exists_pieces_of_endsIn start
  obtain ⟨-, -, -, hwalk⟩ := locate_eq_ok_iff.mp h
  rw [hpieces hp] at hwalk
  obtain ⟨dir, -, hlast⟩ := walk_append (by simp) hwalk
  have hlong : 2 < (last ++ Utf8.encode ending).length := by
    rw [List.length_append, hp.length]
    omega
  have hmem : last ++ Utf8.encode ending ∈ p.pieces.map Utf8.encode := by simp [hpieces hp]
  obtain ⟨piece, hpiece, hencode⟩ := List.mem_map.mp hmem
  exact ⟨dir, piece, hpiece, by rw [hencode, ((walk_singleton_iff hlong).mp hlast).2]⟩

theorem locate_join {dir : Path} {root : Place} {name : String}
    (hdir : files.locate dir = .ok root) (hname : '/' ∉ name.toList)
    (hlong : 2 < (Utf8.encode name.toList).length) (h : files.locate (dir.join ⟨name⟩) = .ok place) :
    place = root ++ [Utf8.encode name.toList] := by
  obtain ⟨-, hpositive, -, hroot⟩ := locate_eq_ok_iff.mp hdir
  obtain ⟨-, -, -, hwalk⟩ := locate_eq_ok_iff.mp h
  have hne : dir.text.toList ≠ [] := by
    intro hnil
    rw [hnil] at hpositive
    exact absurd hpositive (by decide)
  obtain ⟨front, hfront, hjoin⟩ := Path.exists_text_join hne hname
  have habsolute : (dir.join ⟨name⟩).isAbsolute = dir.isAbsolute := by
    rw [Path.isAbsolute, Path.isAbsolute, hjoin]
    rcases hfront with hfront | hfront
    · rw [hfront]
      cases front <;> rfl
    · rw [hfront] at hne ⊢
      rw [List.head?_append_of_ne_nil _ hne]
  rw [habsolute, Path.pieces, hjoin, splitAt_append_separator, splitAt_of_not_mem hname,
    List.map_append] at hwalk
  obtain ⟨inner, hinner, hlast⟩ := walk_append (by simp) hwalk
  rw [← ((walk_singleton_iff hlong).mp hlast).2]
  -- an empty piece behind a last slash leads nowhere else
  rcases hfront with hfront | hfront
  · rw [Path.pieces, hfront, splitAt_append_separator, List.map_append] at hroot
    obtain ⟨inner', hinner', hnil⟩ := walk_append (by simp [splitAt]) hroot
    obtain rfl := Except.ok.inj (hinner.symm.trans hinner')
    have hsame : inner = root := Except.ok.inj hnil
    rw [hsame]
  · rw [Path.pieces, hfront] at hroot
    rw [Except.ok.inj (hinner.symm.trans hroot)]

end Locate

end Files

end TemplateViews
