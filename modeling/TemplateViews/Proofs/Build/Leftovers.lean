import TemplateViews.Proofs.Build.Names
import TemplateViews.Proofs.Files.Purged

/-! Files that builds have left behind. A purge goes by the names in one directory, so it finds
the files of builds exactly if their stem is the start of a name and not a path of its own. -/

namespace TemplateViews

/-- A file that a build left under one of its names, and that the system lets go. -/
structure Files.IsLeftover (files : Files) (dir : Path) (stem : String) (p : Path) : Prop where
  named : ∃ token, p = (BuildNames.fresh dir stem token).source ∨
    p = (BuildNames.fresh dir stem token).library
  file : ∃ place content, files.find p = .ok (place, .file content) ∧ place ∉ files.guarded

namespace Files

section Stems

variable {files after : Files} {dir p : Path} {stem : String} {root place : Place} {node : Node}

theorem isStale_encode_iff {chars : List Char} :
    isStale stem (Utf8.encode chars) node = true ↔ node.isFile = true ∧ stem.toList <+: chars := by
  rw [isStale, Bool.and_eq_true, nameText, Utf8.decodeLossy_encode, List.isPrefixOf_iff_prefix]

theorem IsLeftover.exists_name (h : files.IsLeftover dir stem p) : ∃ ending : String,
    '/' ∉ ending.toList ∧ 2 < (Utf8.encode ending.toList).length ∧ p = dir.join ⟨stem ++ ending⟩ := by
  obtain ⟨token, hnamed⟩ := h.named
  have hending (extension : String) (hslash : '/' ∉ extension.toList) :
      '/' ∉ (token.text ++ extension).toList ∧
        2 < (Utf8.encode (token.text ++ extension).toList).length := by
    rw [String.toList_append, List.mem_append, not_or, Utf8.encode_append, List.length_append,
      Token.length_encode_text, Token.digitCount]
    exact ⟨⟨token.slash_not_mem_text, hslash⟩, by omega⟩
  rcases hnamed with rfl | rfl
  · obtain ⟨hslash, hlength⟩ := hending ".rs" (by decide)
    exact ⟨_, hslash, hlength, by rw [← String.append_assoc]; rfl⟩
  · obtain ⟨hslash, hlength⟩ := hending ".so" (by decide)
    exact ⟨_, hslash, hlength, by rw [← String.append_assoc]; rfl⟩

theorem IsLeftover.exists_endsIn (h : files.IsLeftover dir stem p) :
    ∃ start ending, p.EndsIn start BuildNames.endingSize ending := by
  obtain ⟨start, hbeside⟩ := BuildNames.exists_beside_fresh dir stem
  obtain ⟨token, rfl | rfl⟩ := h.named
  · exact ⟨start, _, (hbeside token).source⟩
  · exact ⟨start, _, (hbeside token).library⟩

/-- In the directory itself a file of a build has the stem in front of its name. -/
theorem PurgedOf.clears_leftover (hpurged : files.PurgedOf root stem after)
    (hdir : files.locate dir = .ok root) (hstem : '/' ∉ stem.toList)
    (h : files.IsLeftover dir stem p) : after.holds p = false := by
  obtain ⟨ending, hslash, hlength, rfl⟩ := h.exists_name
  obtain ⟨place, content, hfind, hfree⟩ := h.file
  obtain ⟨hlocate, hnode⟩ := find_eq_ok_iff.mp hfind
  have hname : '/' ∉ (stem ++ ending).toList := by
    rw [String.toList_append, List.mem_append, not_or]
    exact ⟨hstem, hslash⟩
  have hlong : 2 < (Utf8.encode (stem ++ ending).toList).length := by
    rw [String.toList_append, Utf8.encode_append, List.length_append]
    omega
  obtain rfl := locate_join hdir hname hlong hlocate
  have hentry := mem_entries_iff.mpr (mem_nodes_of_node? hnode (by simp))
  have hstale : isStale stem (Utf8.encode (stem ++ ending).toList) (.file content) = true :=
    isStale_encode_iff.mpr ⟨rfl, by simp⟩
  refine not_holds_iff.mpr fun found hfound => ?_
  have hsame := locate_mono hpurged.base (fun place => hpurged.mono place _) hfound
  obtain rfl := Except.ok.inj (hlocate.symm.trans hsame)
  exact hpurged.cleared _ hentry hstale hfree

/-- No name of a directory starts with a stem that has a slash, so nothing along a path goes. -/
theorem PurgedOf.keeps_leftover (hpurged : files.PurgedOf root stem after)
    (hstem : '/' ∈ stem.toList) (h : files.IsLeftover dir stem p) : after.holds p = true := by
  obtain ⟨start, ending, hends⟩ := h.exists_endsIn
  obtain ⟨place, content, hfind, -⟩ := h.file
  obtain ⟨hlocate, hnode⟩ := find_eq_ok_iff.mp hfind
  have hpieces : ∀ dir, ∀ piece ∈ p.pieces, after.node? (dir ++ [Utf8.encode piece]) =
      files.node? (dir ++ [Utf8.encode piece]) := by
    refine fun dir piece hpiece => hpurged.kept _ fun entry _ hstale hat => ?_
    have hname : Utf8.encode piece = entry.1 := List.singleton_inj.mp (List.append_inj_right' hat rfl)
    rw [← hname, isStale_encode_iff] at hstale
    exact not_mem_of_mem_splitAt hpiece (hstale.2.subset hstem)
  obtain ⟨dir, piece, hpiece, rfl⟩ := exists_mem_pieces_of_locate (by decide) hends hlocate
  refine holds_iff.mpr ⟨_, (locate_congr_of_mem hpurged.base hpieces).trans hlocate, ?_⟩
  rw [hpieces dir piece hpiece, hnode]
  exact Option.some_ne_none _

/-- A purge clears the files that builds have left exactly if their stem has no slash. -/
theorem purge_clears_leftovers_iff (hdir : files.find dir = .ok (root, .directory)) :
    ∃ count after, files.purge dir stem = .ok (count, after) ∧
      ∀ p, files.IsLeftover dir stem p → (after.holds p = false ↔ '/' ∉ stem.toList) := by
  obtain ⟨count, after, hpurge, hpurged⟩ := exists_purgedOf hdir stem
  refine ⟨count, after, hpurge, fun p hp => ⟨fun hcleared hslash => ?_, fun hstem => ?_⟩⟩
  · have hkept := hpurged.keeps_leftover hslash hp
    rw [hcleared] at hkept
    exact Bool.false_ne_true hkept
  · exact hpurged.clears_leftover (find_eq_ok_iff.mp hdir).1 hstem hp

end Stems

end Files

namespace Workshop

def root : Place := [Utf8.encode "tmp".toList]

def sourcePlace : Place := root ++ [Utf8.encode ("View_" ++ (Token.mk 7).text ++ ".rs").toList]

def libraryPlace : Place := root ++ [Utf8.encode ("View_" ++ (Token.mk 8).text ++ ".so").toList]

/-- A directory with what two builds left in it. -/
def files : Files where
  nodes := [(root, .directory), (sourcePlace, .file [0x75]), (libraryPlace, .file [])]

def source (stem : String) : Path := (BuildNames.fresh ⟨"/tmp"⟩ stem ⟨7⟩).source

def library (stem : String) : Path := (BuildNames.fresh ⟨"/tmp"⟩ stem ⟨8⟩).library

theorem purge_clears_workshop :
    files.find ⟨"/tmp"⟩ = .ok (root, .directory) ∧
    files.IsLeftover ⟨"/tmp"⟩ "View_" (source "View_") ∧
    files.IsLeftover ⟨"/tmp"⟩ "View_" (library "View_") ∧
    ∃ count after, files.purge ⟨"/tmp"⟩ "View_" = .ok (count, after) ∧
      after.holds (source "View_") = false ∧ after.holds (library "View_") = false := by
  have hdir : files.find ⟨"/tmp"⟩ = .ok (root, .directory) := by decide
  have hsource : files.IsLeftover ⟨"/tmp"⟩ "View_" (source "View_") :=
    ⟨⟨⟨7⟩, .inl rfl⟩, sourcePlace, [0x75], by decide +kernel, List.not_mem_nil⟩
  have hlibrary : files.IsLeftover ⟨"/tmp"⟩ "View_" (library "View_") :=
    ⟨⟨⟨8⟩, .inr rfl⟩, libraryPlace, [], by decide +kernel, List.not_mem_nil⟩
  obtain ⟨count, after, hpurge, hcleared⟩ := Files.purge_clears_leftovers_iff hdir
  exact ⟨hdir, hsource, hlibrary, count, after, hpurge, (hcleared _ hsource).mpr (by decide),
    (hcleared _ hlibrary).mpr (by decide)⟩

/-- A stem that leads to the directory itself names the same files, and a purge clears none. -/
theorem purge_keeps_workshop_of_dotted_stem :
    files.IsLeftover ⟨"/tmp"⟩ "./View_" (source "./View_") ∧
    files.IsLeftover ⟨"/tmp"⟩ "./View_" (library "./View_") ∧
    files.purge ⟨"/tmp"⟩ "./View_" = .ok (0, files) ∧
    files.holds (source "./View_") = true ∧ files.holds (library "./View_") = true := by
  have hsource : files.find (source "./View_") = .ok (sourcePlace, .file [0x75]) := by
    decide +kernel
  have hlibrary : files.find (library "./View_") = .ok (libraryPlace, .file []) := by
    decide +kernel
  refine ⟨⟨⟨⟨7⟩, .inl rfl⟩, _, _, hsource, List.not_mem_nil⟩,
    ⟨⟨⟨8⟩, .inr rfl⟩, _, _, hlibrary, List.not_mem_nil⟩, by decide +kernel, ?_, ?_⟩
  · rw [Files.holds, hsource]
    rfl
  · rw [Files.holds, hlibrary]
    rfl

end Workshop

end TemplateViews
