import TemplateViews.Proofs.Files.Changes
import TemplateViews.Proofs.Text.Split
import TemplateViews.Proofs.Text.Utf8

/-! Paths beside each other: their texts are a common start and an ending within the last
name. What is written at one of them leads no other one astray and leaves what stands at
another name as it is. -/

namespace TemplateViews

/-- A path with a start that it may share with others, and an ending in its last name. -/
structure Path.EndsIn (start : List Char) (size : Nat) (ending : List Char) (p : Path) : Prop where
  text : p.text.toList = start ++ ending
  slash : '/' ∉ ending
  nul : 0 ∉ Utf8.encode ending
  length : (Utf8.encode ending).length = size

namespace Path

variable {p q : Path} {start ending other : List Char} {size : Nat}

theorem EndsIn.encode_text (h : p.EndsIn start size ending) :
    Utf8.encode p.text.toList = Utf8.encode start ++ Utf8.encode ending := by
  rw [h.text, Utf8.encode_append]

theorem EndsIn.length_text_eq (hp : p.EndsIn start size ending) (hq : q.EndsIn start size other) :
    (Utf8.encode q.text.toList).length = (Utf8.encode p.text.toList).length := by
  rw [hp.encode_text, hq.encode_text, List.length_append, List.length_append, hp.length,
    hq.length]

/-- Paths that share a start are the same up to the last name. -/
theorem exists_pieces_of_endsIn (start : List Char) : ∃ init last,
    ∀ {p : Path} {size : Nat} {ending : List Char}, p.EndsIn start size ending →
      p.pieces.map Utf8.encode = init ++ [last ++ Utf8.encode ending] := by
  obtain ⟨init, last, hsplit⟩ := exists_splitAt_append '/' start
  refine ⟨init.map Utf8.encode, Utf8.encode last, fun {p size ending} h => ?_⟩
  rw [pieces, h.text, hsplit ending h.slash, List.map_append, List.map_singleton,
    Utf8.encode_append]

theorem isAbsolute_of_endsIn (hsize : 0 < size) (h : p.EndsIn start size ending) :
    p.isAbsolute = (start.head? == some '/') := by
  rw [isAbsolute, h.text]
  cases start with
  | cons c start => rfl
  | nil =>
    cases ending with
    | nil =>
      rw [← h.length] at hsize
      exact absurd hsize (by decide)
    | cons c ending =>
      have hc : c ≠ '/' := fun hc => h.slash (by simp [hc])
      simp [hc]

end Path

namespace Files

/-- What stands at one path may be another, but no directory goes, and all else is the same. -/
structure WritesOnly (p : Path) (before after : Files) : Prop where
  base : after.base = before.base
  guarded : after.guarded = before.guarded
  shortages : after.shortages = before.shortages
  directories : ∀ place, before.node? place = some .directory →
    after.node? place = some .directory
  others : ∀ place, before.locate p ≠ .ok place → after.node? place = before.node? place

theorem ChangesOnly.writesOnly {p : Path} {before after : Files}
    (h : ChangesOnly p before after) : WritesOnly p before after :=
  ⟨h.base, h.guarded, h.shortages, fun place => (h.directory place).mpr, h.others⟩

/-- A path leads to the same place of two file systems, where the same stands. -/
structure SameAt (p : Path) (files files' : Files) : Prop where
  locate : files'.locate p = files.locate p
  node : ∀ place, files.locate p = .ok place → files'.node? place = files.node? place

section Walk

variable {before after : Files} {start place : Place} {pieces : List FileName}
  {name other : FileName}

/-- A piece that is longer than those with a meaning of their own can only be a name. -/
theorem walk_singleton_iff (hname : 2 < name.length) :
    before.walk start [name] = .ok place ↔
      name.length ≤ maxNameLength ∧ start ++ [name] = place := by
  have hhere : ¬ (name = [] ∨ name = [0x2e]) := by
    rintro (rfl | rfl) <;> exact absurd hname (by decide)
  have hup : name ≠ [0x2e, 0x2e] := by
    rintro rfl
    exact absurd hname (by decide)
  rw [walk_cons_iff, or_iff_right fun h => hhere h.1, or_iff_right fun h => hup h.1]
  simp only [walk, Except.ok.injEq, ne_eq, not_true_eq_false, false_imp_iff, true_and]
  exact and_congr_left fun _ => ⟨IsName.length, fun hlength => ⟨hhere, hup, hlength⟩⟩

/-- A walk that arrives has come to a directory, where any name of the same length is a place
as long as the directories stay. -/
theorem exists_walk_sibling (hname : 2 < name.length)
    (h : before.walk start (pieces ++ [name]) = .ok place) :
    ∃ dir, place = dir ++ [name] ∧ ∀ after other, other.length = name.length →
      (∀ place, before.node? place = some .directory → after.node? place = some .directory) →
      Files.walk after start (pieces ++ [other]) = .ok (dir ++ [other]) := by
  induction pieces generalizing start with
  | nil =>
    obtain ⟨hlength, rfl⟩ := (walk_singleton_iff hname).mp h
    refine ⟨start, rfl, fun after other hother _ => ?_⟩
    exact (walk_singleton_iff (hother ▸ hname)).mpr ⟨hother ▸ hlength, rfl⟩
  | cons piece pieces ih =>
    simp only [List.cons_append, walk_cons_iff] at h ⊢
    rcases h with ⟨hhere, h⟩ | ⟨hup, h⟩ | ⟨hpiece, hdirectory, h⟩
    · obtain ⟨dir, hplace, hwalk⟩ := ih h
      exact ⟨dir, hplace, fun after other hother hstay =>
        .inl ⟨hhere, hwalk after other hother hstay⟩⟩
    · obtain ⟨dir, hplace, hwalk⟩ := ih h
      exact ⟨dir, hplace, fun after other hother hstay =>
        .inr (.inl ⟨hup, hwalk after other hother hstay⟩)⟩
    · -- the name is that of a directory, which stays
      obtain ⟨dir, hplace, hwalk⟩ := ih h
      exact ⟨dir, hplace, fun after other hother hstay =>
        .inr (.inr ⟨hpiece, fun _ => hstay _ (hdirectory (by simp)),
          hwalk after other hother hstay⟩)⟩

/-- A walk sees no more than what its pieces name. -/
theorem walk_congr_of_mem (h : ∀ dir, ∀ piece ∈ pieces,
      after.node? (dir ++ [piece]) = before.node? (dir ++ [piece])) :
    after.walk start pieces = before.walk start pieces := by
  induction pieces generalizing start with
  | nil => rfl
  | cons piece pieces ih =>
    have hrest (start : Place) : after.walk start pieces = before.walk start pieces :=
      ih fun dir other hother => h dir other (List.mem_cons_of_mem _ hother)
    simp only [walk, hrest, h start piece List.mem_cons_self]

end Walk

section Places

variable {before after before' after' : Files} {p q : Path} {place : Place}
  {start ending other : List Char} {size : Nat}

theorem locate_congr_of_mem (hbase : after.base = before.base)
    (h : ∀ dir, ∀ piece ∈ p.pieces, after.node? (dir ++ [Utf8.encode piece]) =
      before.node? (dir ++ [Utf8.encode piece])) :
    after.locate p = before.locate p := by
  have hpieces : ∀ dir, ∀ piece ∈ p.pieces.map Utf8.encode,
      after.node? (dir ++ [piece]) = before.node? (dir ++ [piece]) := by
    intro dir piece hpiece
    obtain ⟨chars, hchars, rfl⟩ := List.mem_map.mp hpiece
    exact h dir chars hchars
  simp only [locate, hbase, walk_congr_of_mem hpieces]

theorem locate_eq_ok_iff {files : Files} : files.locate p = .ok place ↔
    0 ∉ Utf8.encode p.text.toList ∧ 0 < (Utf8.encode p.text.toList).length ∧
      (Utf8.encode p.text.toList).length ≤ maxPathLength ∧
      files.walk (if p.isAbsolute then [] else files.base) (p.pieces.map Utf8.encode) =
        .ok place := by
  unfold locate
  dsimp only
  split
  · next hnul => simp [hnul]
  split
  · next hnil => simp [hnil]
  split
  · next hlong => simp [Nat.not_le.mpr hlong]
  · next hnul hne hshort =>
    simp [hnul, Nat.not_lt.mp hshort, List.length_pos_iff.mpr hne]

/-- A path that leads somewhere leads into a directory, where every path beside it leads to
its own name as long as the directories stay. -/
theorem exists_locate_sibling (hsize : 2 < size) (hp : p.EndsIn start size ending)
    (hq : q.EndsIn start size other) (h : before.locate p = .ok place) :
    ∃ dir last, place = dir ++ [last ++ Utf8.encode ending] ∧
      ∀ after : Files, after.base = before.base →
      (∀ place, before.node? place = some .directory → after.node? place = some .directory) →
      after.locate q = .ok (dir ++ [last ++ Utf8.encode other]) := by
  obtain ⟨init, last, hpieces⟩ := Path.exists_pieces_of_endsIn start
  have habsolute : q.isAbsolute = p.isAbsolute := by
    rw [Path.isAbsolute_of_endsIn (by omega) hq, Path.isAbsolute_of_endsIn (by omega) hp]
  have hlong : 2 < (last ++ Utf8.encode ending).length := by
    rw [List.length_append, hp.length]
    omega
  obtain ⟨hnul, hpositive, hshort, hwalk⟩ := locate_eq_ok_iff.mp h
  rw [hpieces hp] at hwalk
  obtain ⟨dir, hplace, hsibling⟩ := exists_walk_sibling hlong hwalk
  refine ⟨dir, last, hplace, fun after hbase hstay => ?_⟩
  have hnul' : 0 ∉ Utf8.encode q.text.toList := by
    rw [hp.encode_text, List.mem_append, not_or] at hnul
    rw [hq.encode_text, List.mem_append, not_or]
    exact ⟨hnul.1, hq.nul⟩
  have hlength : (last ++ Utf8.encode other).length = (last ++ Utf8.encode ending).length := by
    rw [List.length_append, List.length_append, hp.length, hq.length]
  rw [locate_eq_ok_iff, hp.length_text_eq hq, habsolute, hbase, hpieces hq]
  exact ⟨hnul', hpositive, hshort, hsibling after _ hlength hstay⟩

theorem WritesOnly.locate_eq (h : WritesOnly p before after) (hsize : 2 < size)
    (hp : p.EndsIn start size ending) (hq : q.EndsIn start size other) :
    after.locate q = before.locate q := by
  cases hplace : before.locate p with
  | error e =>
    -- the path leads nowhere, so every place is as before
    have hnowhere (place) : before.locate p ≠ .ok place := by
      rw [hplace]
      exact fun he => by cases he
    exact locate_congr_of_mem h.base fun dir piece _ => h.others _ (hnowhere _)
  | ok place =>
    obtain ⟨dir, last, -, hlocate⟩ := exists_locate_sibling hsize hp hq hplace
    rw [hlocate after h.base h.directories, hlocate before rfl fun _ => id]

/-- What is written at a path leaves alone what stands at another name beside it. -/
theorem WritesOnly.sameAt (h : WritesOnly p before after) (hsize : 2 < size)
    (hp : p.EndsIn start size ending) (hq : q.EndsIn start size other) (hne : other ≠ ending) :
    SameAt q before after := by
  have hlocate := h.locate_eq hsize hp hq
  refine ⟨hlocate, fun place hplace => h.others place fun hother => ?_⟩
  obtain ⟨dir, last, rfl, hsibling⟩ := exists_locate_sibling hsize hp hq hother
  rw [hsibling before rfl fun _ => id] at hplace
  have hname := List.append_inj_right' (Except.ok.inj hplace) rfl
  exact hne (Utf8.encode_injective (List.append_cancel_left (List.singleton_inj.mp hname)))

end Places

theorem node?_discard {files : Files} {p : Path} {place : Place}
    (hplace : files.locate p = .ok place) :
    (files.discard p).node? place =
      if place ∈ files.guarded ∨ files.node? place = some .directory then files.node? place
      else none := by
  split
  · next hstays =>
    unfold Files.discard
    split
    · next after hremove =>
      obtain ⟨other, hother, -, hdirectory, hguarded, -⟩ := remove_eq_ok_iff.mp hremove
      obtain rfl : place = other := Except.ok.inj (hplace.symm.trans hother)
      exact absurd hstays (not_or.mpr ⟨hguarded, hdirectory⟩)
    · rfl
  · next hgoes =>
    rw [not_or] at hgoes
    by_cases hnode : files.node? place = none
    · exact node?_discard_eq_none hnode
    · rw [Files.discard, remove_eq_ok_iff.mpr ⟨place, hplace, hnode, hgoes.2, hgoes.1, rfl⟩]
      exact node?_erase_self (ne_nil_of_node? hgoes.2)

section Same

variable {files files' after after' last : Files} {p q : Path} {start ending other : List Char}
  {size : Nat}

theorem SameAt.symm (h : SameAt p files files') : SameAt p files' files :=
  ⟨h.locate.symm, fun place hplace => (h.node place (h.locate.symm.trans hplace)).symm⟩

theorem SameAt.trans (h : SameAt p files after) (hlast : SameAt p after last) :
    SameAt p files last :=
  ⟨hlast.locate.trans h.locate, fun place hplace =>
    (hlast.node place (h.locate.trans hplace)).trans (h.node place hplace)⟩

theorem SameAt.find_eq (h : SameAt p files files') : files'.find p = files.find p := by
  unfold find
  rw [h.locate]
  cases hplace : files.locate p with
  | error e => rfl
  | ok place => simp only [h.node place hplace]

theorem SameAt.holds_eq (h : SameAt p files files') : files'.holds p = files.holds p := by
  rw [holds, holds, h.find_eq]

theorem SameAt.read_eq (h : SameAt p files files') : files'.read p = files.read p := by
  rw [read, read, h.find_eq]

/-- What is written at one name of both file systems leaves the others the same in both. -/
theorem SameAt.of_writesOnly (h : SameAt q files files') (hsize : 2 < size)
    (hp : p.EndsIn start size ending) (hq : q.EndsIn start size other) (hne : other ≠ ending)
    (hafter : files.WritesOnly p after) (hafter' : files'.WritesOnly p after') :
    SameAt q after after' :=
  (hafter.sameAt hsize hp hq hne).symm.trans (h.trans (hafter'.sameAt hsize hp hq hne))

variable (hsize : 2 < size) (hp : p.EndsIn start size ending) (h : SameAt p files files')

include hsize hp h

/-- A file that is put at the place leaves the path the same in both. -/
theorem SameAt.put_file {place : Place} (hplace : files.locate p = .ok place)
    (hnode : files.Writable place) (content : List UInt8) :
    SameAt p (files.put place (.file content)) (files'.put place (.file content)) := by
  have hplace' := h.locate.trans hplace
  have hnode' : files'.Writable place := by rwa [Writable, h.node place hplace]
  have hlocate := (changesOnly_put_file hplace hnode content).writesOnly.locate_eq hsize hp hp
  have hlocate' := (changesOnly_put_file hplace' hnode' content).writesOnly.locate_eq hsize hp hp
  refine ⟨by rw [hlocate, hlocate', h.locate], fun other hother => ?_⟩
  obtain rfl : place = other := Except.ok.inj (hplace.symm.trans (hlocate.symm.trans hother))
  have hne := ne_nil_of_node? hnode.ne_directory
  rw [node?_put_self hne, node?_put_self hne]

/-- Both file systems take what is written, or both fail in the same way. -/
theorem SameAt.write (hshortages : files'.shortages = files.shortages) (content : List UInt8) :
    (∃ e left left', files.write p content = .error (e, left) ∧
      files'.write p content = .error (e, left') ∧ SameAt p left left') ∨
    ∃ after after', files.write p content = .ok after ∧ files'.write p content = .ok after' ∧
      SameAt p after after' := by
  cases hplace : files.locate p with
  | error e =>
    have hplace' := h.locate.trans hplace
    exact .inl ⟨e, files, files', by rw [Files.write, hplace], by rw [Files.write, hplace'], h⟩
  | ok place =>
    have hplace' := h.locate.trans hplace
    have hnode' := h.node place hplace
    by_cases hnode : files.Writable place
    · have hwritable : files'.Writable place := by rwa [Writable, hnode']
      rw [write_eq_fill hplace hnode, write_eq_fill hplace' hwritable]
      have hput (content : List UInt8) := h.put_file hsize hp hplace hnode content
      unfold fill
      rw [hshortages]
      split
      · exact .inr ⟨_, _, rfl, rfl, hput content⟩
      · exact .inl ⟨_, _, _, rfl, rfl, h⟩
      · split
        · exact .inr ⟨_, _, rfl, rfl, hput content⟩
        · exact .inl ⟨_, _, _, rfl, rfl, hput _⟩
    · have hkept : ¬ files'.Writable place := by rwa [Writable, hnode']
      rw [write_of_not_writable hplace hnode, write_of_not_writable hplace' hkept]
      exact .inl ⟨_, _, _, rfl, rfl, h⟩

theorem SameAt.discard (hguarded : files'.guarded = files.guarded) :
    SameAt p (files.discard p) (files'.discard p) := by
  have hlocate := (changesOnly_discard files p).writesOnly.locate_eq hsize hp hp
  have hlocate' := (changesOnly_discard files' p).writesOnly.locate_eq hsize hp hp
  refine ⟨by rw [hlocate, hlocate', h.locate], fun place hother => ?_⟩
  have hplace := hlocate.symm.trans hother
  rw [node?_discard hplace, node?_discard (h.locate.trans hplace), hguarded, h.node place hplace]

end Same

end Files

end TemplateViews
