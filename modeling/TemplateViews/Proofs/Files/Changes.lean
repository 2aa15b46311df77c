import Mathlib.Data.List.Basic
import TemplateViews.Files

/-! Changes of a file system. Writing and clearing a path change what stands at one place
and no directory, so a path leads to the same place before and after. -/

namespace TemplateViews.Files

section Nodes

variable {files : Files} {nodes : List (Place × Node)} {place other : Place} {node : Node}

theorem lookup_filter_self : (nodes.filter (·.1 ≠ place)).lookup place = none := by
  refine List.lookup_eq_none_iff.mpr fun entry hentry => ?_
  have hne : entry.1 ≠ place := of_decide_eq_true (List.mem_filter.mp hentry).2
  exact bne_iff_ne.mpr hne.symm

theorem lookup_filter_of_ne (h : other ≠ place) :
    (nodes.filter (·.1 ≠ place)).lookup other = nodes.lookup other := by
  induction nodes with
  | nil => rfl
  | cons entry nodes ih =>
    obtain ⟨key, node⟩ := entry
    by_cases hkey : key = place
    · have hne : (other == key) = false := by simpa [hkey] using h
      rw [List.filter_cons_of_neg (by simpa using hkey), ih, List.lookup_cons, hne]
    · rw [List.filter_cons_of_pos (by simpa using hkey), List.lookup_cons, List.lookup_cons, ih]

theorem ne_nil_of_node? (h : files.node? place ≠ some .directory) : place ≠ [] := by
  rintro rfl
  exact h rfl

theorem node?_erase_self (h : place ≠ []) : (files.erase place).node? place = none := by
  rw [node?, if_neg h]
  exact lookup_filter_self

theorem node?_erase_of_ne (h : other ≠ place) :
    (files.erase place).node? other = files.node? other := by
  rw [node?, node?, erase, lookup_filter_of_ne h]

theorem node?_put_self (h : place ≠ []) : (files.put place node).node? place = some node := by
  rw [node?, if_neg h, put, List.lookup_cons_self]

theorem node?_put_of_ne (h : other ≠ place) :
    (files.put place node).node? other = files.node? other := by
  have hne : (other == place) = false := by simpa using h
  rw [node?, node?, put, List.lookup_cons, hne, erase, lookup_filter_of_ne h]

end Nodes

section Paths

variable {files after left : Files} {p : Path} {place : Place} {node : Node} {content : List UInt8}
  {e : SystemError}

theorem find_eq_ok_iff : files.find p = .ok (place, node) ↔
    files.locate p = .ok place ∧ files.node? place = some node := by
  constructor
  · intro h
    unfold find at h
    split at h
    · cases h
    · next found hlocate =>
      split at h
      · cases h
      · next other hnode =>
        cases h
        exact ⟨hlocate, hnode⟩
  · rintro ⟨hlocate, hnode⟩
    simp only [find, hlocate, hnode]

theorem holds_iff :
    files.holds p = true ↔ ∃ place, files.locate p = .ok place ∧ files.node? place ≠ none := by
  unfold holds find
  split
  · next hlocate => simp [hlocate, Except.isOk, Except.toBool]
  · next found hlocate =>
    split
    · next hnode => simp [hlocate, hnode, Except.isOk, Except.toBool]
    · next hnode => simp [hlocate, hnode, Except.isOk, Except.toBool]

theorem not_holds_iff :
    files.holds p = false ↔ ∀ place, files.locate p = .ok place → files.node? place = none := by
  rw [← Bool.not_eq_true, holds_iff]
  simp

/-- A place that is free, or where a file stands that may be written over. -/
def Writable (files : Files) (place : Place) : Prop :=
  files.node? place = none ∨ ∃ old, files.node? place = some (.file old)

/-- The system takes all of a file at a place. -/
def Takes (files : Files) (place : Place) (content : List UInt8) : Prop :=
  ∀ shortage, files.shortages.lookup place = some shortage →
    ∃ room, shortage.room = some room ∧ content.length ≤ room

/-- The system makes the file at a path and then does not take all of its content. -/
def BreaksOff (files : Files) (p : Path) (content : List UInt8) : Prop :=
  ∃ place room error, files.locate p = .ok place ∧ files.Writable place ∧
    files.shortages.lookup place = some ⟨some room, error⟩ ∧ room < content.length

theorem Writable.ne_directory (h : files.Writable place) :
    files.node? place ≠ some .directory := by
  rcases h with hnode | ⟨old, hnode⟩ <;> simp [hnode]

theorem fill_eq_ok_iff : files.fill place content = .ok after ↔
    files.Takes place content ∧ files.put place (.file content) = after := by
  unfold fill Takes
  cases hshortage : files.shortages.lookup place with
  | none => simp
  | some shortage =>
    obtain ⟨room, error⟩ := shortage
    cases room with
    | none => simp
    | some room =>
      by_cases hroom : content.length ≤ room
      · simp [hroom]
      · simp [hroom]

/-- A write that fails leaves what was there, or the start of the file. -/
theorem fill_eq_error (h : files.fill place content = .error (e, left)) :
    left = files ∨ ∃ room < content.length, files.shortages.lookup place = some ⟨some room, e⟩ ∧
      left = files.put place (.file (content.take room)) := by
  unfold fill at h
  split at h
  · cases h
  · cases h
    exact .inl rfl
  · next room error hshortage =>
    split at h
    · cases h
    · next hroom =>
      cases h
      exact .inr ⟨room, Nat.not_le.mp hroom, hshortage, rfl⟩

theorem write_eq_fill (hplace : files.locate p = .ok place) (hnode : files.Writable place) :
    files.write p content = files.fill place content := by
  rw [write, hplace]
  rcases hnode with hnode | ⟨old, hnode⟩ <;> simp only [hnode]

theorem write_of_not_writable (hplace : files.locate p = .ok place)
    (hnode : ¬ files.Writable place) : files.write p content = .error (.isDirectory, files) := by
  rw [Writable, not_or, not_exists] at hnode
  rw [write, hplace]
  dsimp only
  split
  · next hnone => exact absurd hnone hnode.1
  · next old hold => exact absurd hold (hnode.2 old)
  · rfl

/-- A write fills a place, or fails and changes nothing. -/
theorem write_cases (files : Files) (p : Path) (content : List UInt8) :
    (∃ place, files.locate p = .ok place ∧ files.Writable place ∧
      files.write p content = files.fill place content) ∨
    ∃ e, files.write p content = .error (e, files) := by
  cases hplace : files.locate p with
  | error e => exact .inr ⟨e, by rw [write, hplace]⟩
  | ok place =>
    by_cases hnode : files.Writable place
    · exact .inl ⟨place, rfl, hnode, write_eq_fill hplace hnode⟩
    · exact .inr ⟨_, write_of_not_writable hplace hnode⟩

theorem write_eq_ok_iff :
    files.write p content = .ok after ↔ ∃ place, files.locate p = .ok place ∧
      files.Writable place ∧ files.Takes place content ∧
      files.put place (.file content) = after := by
  constructor
  · intro h
    rcases write_cases files p content with ⟨place, hplace, hnode, hwrite⟩ | ⟨e, hwrite⟩
    · exact ⟨place, hplace, hnode, fill_eq_ok_iff.mp (hwrite.symm.trans h)⟩
    · cases hwrite.symm.trans h
  · rintro ⟨place, hplace, hnode, htakes⟩
    rw [write_eq_fill hplace hnode]
    exact fill_eq_ok_iff.mpr htakes

theorem write_eq_error (h : files.write p content = .error (e, left)) :
    left = files ∨ ∃ place, files.locate p = .ok place ∧ files.Writable place ∧
      ∃ room < content.length, files.shortages.lookup place = some ⟨some room, e⟩ ∧
        left = files.put place (.file (content.take room)) := by
  rcases write_cases files p content with ⟨place, hplace, hnode, hwrite⟩ | ⟨_, hwrite⟩
  · refine (fill_eq_error (hwrite.symm.trans h)).imp_right ?_
    exact fun hleft => ⟨place, hplace, hnode, hleft⟩
  · cases hwrite.symm.trans h
    exact .inl rfl

theorem remove_eq_ok_iff :
    files.remove p = .ok after ↔ ∃ place, files.locate p = .ok place ∧ files.node? place ≠ none ∧
      files.node? place ≠ some .directory ∧ place ∉ files.guarded ∧ files.erase place = after := by
  unfold remove find
  cases hlocate : files.locate p with
  | error e => simp
  | ok place =>
    by_cases hguarded : place ∈ files.guarded
    · cases hnode : files.node? place with
      | none => simp [hnode]
      | some node => cases node <;> simp [hnode, hguarded]
    · cases hnode : files.node? place with
      | none => simp [hnode]
      | some node => cases node <;> simp [hnode, hguarded]

theorem discard_cases (files : Files) (p : Path) :
    files.discard p = files ∨ ∃ place, files.locate p = .ok place ∧
      files.node? place ≠ some .directory ∧ files.discard p = files.erase place := by
  unfold discard
  split
  · next after hremove =>
    obtain ⟨place, hplace, -, hdirectory, -, rfl⟩ := remove_eq_ok_iff.mp hremove
    exact .inr ⟨place, hplace, hdirectory, rfl⟩
  · exact .inl rfl

end Paths

/-- A piece of a path that is the name of something. -/
structure IsName (piece : FileName) : Prop where
  here : ¬ (piece = [] ∨ piece = [0x2e])
  up : piece ≠ [0x2e, 0x2e]
  length : piece.length ≤ maxNameLength

/-- The same directories stand at the same places, so paths lead to the same places. -/
structure SameDirectories (before after : Files) : Prop where
  base : after.base = before.base
  guarded : after.guarded = before.guarded
  shortages : after.shortages = before.shortages
  directory : ∀ place, after.node? place = some .directory ↔ before.node? place = some .directory

/-- What stands at a path may be another, but it is no directory, and all else is the same. -/
structure ChangesOnly (p : Path) (before after : Files) : Prop
    extends SameDirectories before after where
  others : ∀ place, before.locate p ≠ .ok place → after.node? place = before.node? place

section Changes

variable {files before after left last : Files} {p q : Path} {place : Place}
  {content : List UInt8} {e : SystemError}

theorem SameDirectories.refl (files : Files) : SameDirectories files files :=
  ⟨rfl, rfl, rfl, fun _ => Iff.rfl⟩

theorem SameDirectories.trans (h : SameDirectories before after)
    (hlast : SameDirectories after last) : SameDirectories before last :=
  ⟨hlast.base.trans h.base, hlast.guarded.trans h.guarded, hlast.shortages.trans h.shortages,
    fun place => (hlast.directory place).trans (h.directory place)⟩

/-- A walk stays, goes up, or goes through what its first piece names, which is a directory unless
the walk ends there. -/
theorem walk_cons_iff {start : Place} {piece : FileName} {rest : List FileName} :
    files.walk start (piece :: rest) = .ok place ↔
      ((piece = [] ∨ piece = [0x2e]) ∧ files.walk start rest = .ok place) ∨
      (piece = [0x2e, 0x2e] ∧ files.walk start.dropLast rest = .ok place) ∨
      (IsName piece ∧ (rest ≠ [] → files.node? (start ++ [piece]) = some .directory) ∧
        files.walk (start ++ [piece]) rest = .ok place) := by
  rw [walk]
  by_cases hhere : piece = [] ∨ piece = [0x2e]
  · have hup : piece ≠ [0x2e, 0x2e] := by
      rintro rfl
      exact absurd hhere (by decide)
    have hrest : ¬ (piece = [0x2e, 0x2e] ∧ files.walk start.dropLast rest = .ok place ∨
        IsName piece ∧ (rest ≠ [] → files.node? (start ++ [piece]) = some .directory) ∧
          files.walk (start ++ [piece]) rest = .ok place) := by
      rintro (h | h)
      · exact hup h.1
      · exact h.1.here hhere
    rw [if_pos hhere, and_iff_right hhere, or_iff_left hrest]
  rw [if_neg hhere, or_iff_right fun h => hhere h.1]
  by_cases hup : piece = [0x2e, 0x2e]
  · rw [if_pos hup, and_iff_right hup, or_iff_left fun h => h.1.up hup]
  rw [if_neg hup, or_iff_right fun h => hup h.1]
  by_cases hlength : maxNameLength < piece.length
  · rw [if_pos hlength]
    exact iff_of_false (by simp) fun h => Nat.not_lt.mpr h.1.length hlength
  have hname : IsName piece := ⟨hhere, hup, Nat.not_lt.mp hlength⟩
  rw [if_neg hlength, and_iff_right hname]
  by_cases hrest : rest = []
  · simp [hrest, walk]
  · rw [if_neg hrest]
    cases files.node? (start ++ [piece]) with
    | none => simp [hrest]
    | some node => cases node <;> simp [hrest]

theorem SameDirectories.walk_iff (h : SameDirectories before after) {start : Place}
    {pieces : List FileName} :
    after.walk start pieces = .ok place ↔ before.walk start pieces = .ok place := by
  induction pieces generalizing start with
  | nil => rfl
  | cons piece rest ih => simp only [walk_cons_iff, h.directory, ih]

theorem SameDirectories.locate_iff (h : SameDirectories before after) :
    after.locate p = .ok place ↔ before.locate p = .ok place := by
  unfold locate
  dsimp only
  split
  · rfl
  · split
    · rfl
    · split
      · rfl
      · rw [h.base]
        exact h.walk_iff

theorem ChangesOnly.refl (p : Path) (files : Files) : ChangesOnly p files files :=
  ⟨.refl files, fun _ _ => rfl⟩

theorem changesOnly_of_node? (hlocate : before.locate p = .ok place)
    (hbase : after.base = before.base) (hguarded : after.guarded = before.guarded)
    (hshortages : after.shortages = before.shortages)
    (hbefore : before.node? place ≠ some .directory) (hafter : after.node? place ≠ some .directory)
    (hothers : ∀ other, other ≠ place → after.node? other = before.node? other) :
    ChangesOnly p before after := by
  refine ⟨⟨hbase, hguarded, hshortages, fun other => ?_⟩, fun other hother => hothers other ?_⟩
  · by_cases hother : other = place
    · rw [hother]
      exact iff_of_false hafter hbefore
    · rw [hothers other hother]
  · rintro rfl
    exact hother hlocate

theorem changesOnly_put_file (hplace : before.locate p = .ok place)
    (hnode : before.Writable place) (content : List UInt8) :
    ChangesOnly p before (before.put place (.file content)) := by
  have hbefore := hnode.ne_directory
  refine changesOnly_of_node? hplace rfl rfl rfl hbefore ?_ fun other => node?_put_of_ne
  simp [node?_put_self (ne_nil_of_node? hbefore)]

theorem changesOnly_write (h : before.write p content = .ok after) :
    ChangesOnly p before after := by
  obtain ⟨place, hplace, hnode, -, rfl⟩ := write_eq_ok_iff.mp h
  exact changesOnly_put_file hplace hnode content

theorem changesOnly_write_error (h : before.write p content = .error (e, after)) :
    ChangesOnly p before after := by
  rcases write_eq_error h with rfl | ⟨place, hplace, hnode, room, -, -, rfl⟩
  · exact .refl p after
  · exact changesOnly_put_file hplace hnode _

theorem read_put_file (hplace : files.locate p = .ok place) (hnode : files.Writable place) :
    (files.put place (.file content)).read p = .ok content := by
  have hplace' := (changesOnly_put_file hplace hnode content).locate_iff.mpr hplace
  simp [read, find, hplace', node?_put_self (ne_nil_of_node? hnode.ne_directory)]

theorem read_of_write (h : files.write p content = .ok after) : after.read p = .ok content := by
  obtain ⟨place, hplace, hnode, -, rfl⟩ := write_eq_ok_iff.mp h
  exact read_put_file hplace hnode

/-- A write that fails changes nothing, or leaves a proper front of the file. -/
theorem read_of_write_error (h : files.write p content = .error (e, left)) :
    left = files ∨ ∃ front lost, lost ≠ [] ∧ front ++ lost = content ∧
      left.read p = .ok front := by
  refine (write_eq_error h).imp_right ?_
  rintro ⟨place, hplace, hnode, room, hroom, -, rfl⟩
  refine ⟨content.take room, content.drop room, ?_, List.take_append_drop room content,
    read_put_file hplace hnode⟩
  simpa using hroom

theorem exists_find_of_read (h : files.read p = .ok content) :
    ∃ place, files.find p = .ok (place, .file content) := by
  unfold read at h
  split at h
  · cases h
  · next hfind =>
    cases h
    exact ⟨_, hfind⟩
  · cases h

theorem holds_of_read (h : files.read p = .ok content) : files.holds p = true := by
  obtain ⟨place, hfind⟩ := exists_find_of_read h
  rw [holds, hfind]
  rfl

/-- A write to a free path breaks off if and only if it fails and something is there then. -/
theorem breaksOff_iff (hfree : files.holds p = false) : files.BreaksOff p content ↔
    ∃ e left, files.write p content = .error (e, left) ∧ left.holds p = true := by
  constructor
  · rintro ⟨place, room, error, hplace, hnode, hshortage, hroom⟩
    refine ⟨error, files.put place (.file (content.take room)), ?_,
      holds_of_read (read_put_file hplace hnode)⟩
    simp only [write_eq_fill hplace hnode, fill, hshortage, if_neg (Nat.not_le.mpr hroom)]
  · rintro ⟨e, left, hwrite, hholds⟩
    rcases write_eq_error hwrite with rfl | ⟨place, hplace, hnode, room, hroom, hshortage, -⟩
    · exact absurd hholds (by simp [hfree])
    · exact ⟨place, room, e, hplace, hnode, hshortage, hroom⟩

theorem changesOnly_discard (files : Files) (p : Path) : ChangesOnly p files (files.discard p) := by
  rcases discard_cases files p with hsame | ⟨place, hplace, hdirectory, herase⟩
  · rw [hsame]
    exact .refl p files
  · rw [herase]
    refine changesOnly_of_node? hplace rfl rfl rfl hdirectory ?_ fun other => node?_erase_of_ne
    simp [node?_erase_self (ne_nil_of_node? hdirectory)]

theorem node?_discard_eq_none (h : files.node? place = none) :
    (files.discard p).node? place = none := by
  rcases discard_cases files p with hsame | ⟨other, -, hdirectory, herase⟩
  · rw [hsame, h]
  · rw [herase]
    by_cases hother : place = other
    · rw [hother]
      exact node?_erase_self (ne_nil_of_node? hdirectory)
    · rw [node?_erase_of_ne hother, h]

theorem not_holds_discard
    (hdirectory : ∀ place, files.locate p = .ok place → files.node? place ≠ some .directory)
    (hguarded : ∀ place, files.locate p = .ok place → place ∉ files.guarded) :
    (files.discard p).holds p = false := by
  refine not_holds_iff.mpr fun place hplace => ?_
  rw [(changesOnly_discard files p).locate_iff] at hplace
  by_cases hnode : files.node? place = none
  · exact node?_discard_eq_none hnode
  · have hremove := remove_eq_ok_iff.mpr
      ⟨place, hplace, hnode, hdirectory place hplace, hguarded place hplace, rfl⟩
    rw [discard, hremove]
    exact node?_erase_self (ne_nil_of_node? (hdirectory place hplace))

theorem not_holds_discard_of_not_holds (h : files.holds q = false) :
    (files.discard p).holds q = false := by
  rw [not_holds_iff] at h ⊢
  intro place hplace
  rw [(changesOnly_discard files p).locate_iff] at hplace
  exact node?_discard_eq_none (h place hplace)

end Changes

end TemplateViews.Files
