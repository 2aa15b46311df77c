import TemplateViews.Proofs.Files.Purged
import TemplateViews.Proofs.Text.Decoding

/-! What a purge clears. It takes the entries of a directory one by one. As each name stands for
one thing, it clears the files that are selected by their names and not kept by the system, and
counts each of them once. -/

namespace TemplateViews.Files

/-- A file of a directory whose name, as far as it can be read, starts with the stem. -/
def Selected (files : Files) (dir : Place) (stem : String) (name : FileName) : Prop :=
  (∃ content, files.node? (dir ++ [name]) = some (.file content)) ∧
    stem.toList <+: Utf8.decodeLossy name

def Purgeable (files : Files) (dir : Place) (stem : String) (name : FileName) : Prop :=
  files.Selected dir stem name ∧ dir ++ [name] ∉ files.guarded

section Entries

variable {files : Files} {dir place : Place} {node : Node} {name : FileName}

theorem node?_eq_some (hne : place ≠ []) (hmem : (place, node) ∈ files.nodes) :
    files.node? place = some node := by
  obtain ⟨before, after, hnodes⟩ := List.append_of_mem hmem
  have hbefore : ∀ entry ∈ before, entry.1 ≠ place := by
    have hdistinct := files.distinct
    rw [hnodes, List.pairwise_append] at hdistinct
    exact fun entry hentry => hdistinct.2.2 entry hentry _ List.mem_cons_self
  rw [node?, if_neg hne, List.lookup_eq_some_iff]
  exact ⟨before, after, hnodes, fun entry hentry => bne_iff_ne.mpr (hbefore entry hentry).symm⟩

theorem mem_entries_iff_node? :
    (name, node) ∈ files.entries dir ↔ files.node? (dir ++ [name]) = some node := by
  rw [mem_entries_iff]
  exact ⟨node?_eq_some (by simp), fun hnode => mem_nodes_of_node? hnode (by simp)⟩

theorem pairwise_entries (files : Files) (dir : Place) :
    (files.entries dir).Pairwise fun a b => a.1 ≠ b.1 := by
  -- what a single node gives is what a directory gives that holds nothing else
  have hplace {node : Place × Node} {entry : FileName × Node}
      (hentry : entry ∈ Files.entries
        { nodes := [node], distinct := List.pairwise_singleton _ _ } dir) :
      node.1 = dir ++ [entry.1] := by
    rw [← List.mem_singleton.mp (mem_entries_iff.mp hentry)]
  refine List.pairwise_filterMap.mpr ?_
  refine files.distinct.imp fun {a b} hne found hfound other hother hname => ?_
  have ha := hplace (List.mem_filterMap.mpr ⟨a, List.mem_singleton_self a, hfound⟩)
  have hb := hplace (List.mem_filterMap.mpr ⟨b, List.mem_singleton_self b, hother⟩)
  exact hne (by rw [ha, hb, hname])

theorem exists_clears_iff {stem : String} :
    (∃ entry ∈ files.entries dir, Clears dir stem files.guarded (dir ++ [name]) entry) ↔
      files.Purgeable dir stem name := by
  constructor
  · rintro ⟨⟨other, node⟩, hentry, hat, hstale, hfree⟩
    obtain rfl : name = other := List.singleton_inj.mp (List.append_cancel_left hat)
    rw [isStale, Bool.and_eq_true, List.isPrefixOf_iff_prefix] at hstale
    have hnode := mem_entries_iff_node?.mp hentry
    cases node with
    | file content => exact ⟨⟨⟨content, hnode⟩, hstale.2⟩, hfree⟩
    | directory => cases hstale.1
    | link => cases hstale.1
  · rintro ⟨⟨⟨content, hnode⟩, hnamed⟩, hfree⟩
    have hstale : isStale stem name (.file content) = true := by
      rw [isStale, Bool.and_eq_true, List.isPrefixOf_iff_prefix]
      exact ⟨rfl, hnamed⟩
    exact ⟨(name, .file content), mem_entries_iff_node?.mpr hnode, rfl, hstale, hfree⟩

end Entries

section Steps

variable {dir : Place} {stem : String}

/-- What a purge does with an entry: it clears and counts it, or passes it by. -/
theorem purgeEntry_eq (state : Nat × Files) (entry : FileName × Node) :
    purgeEntry dir stem state entry =
      if Clears dir stem state.2.guarded (dir ++ [entry.1]) entry then
        (state.1 + 1, state.2.erase (dir ++ [entry.1]))
      else state := by
  have hclears : Clears dir stem state.2.guarded (dir ++ [entry.1]) entry ↔
      (isStale stem entry.1 entry.2 && !state.2.guarded.contains (dir ++ [entry.1])) = true := by
    simp [Clears]
  simp only [hclears]
  rfl

theorem fst_foldl_purgeEntry (entries : List (FileName × Node)) (state : Nat × Files) :
    (entries.foldl (purgeEntry dir stem) state).1 = state.1 + (entries.filter fun entry =>
      Clears dir stem state.2.guarded (dir ++ [entry.1]) entry).length := by
  induction entries generalizing state with
  | nil => rfl
  | cons entry entries ih =>
    rw [List.foldl_cons, ih, (base_purgeEntry state entry).2.1, purgeEntry_eq, List.filter_cons]
    by_cases hclears : Clears dir stem state.2.guarded (dir ++ [entry.1]) entry
    · simp only [hclears, if_true, decide_true, List.length_cons]
      omega
    · simp only [hclears, if_false, decide_false, Bool.false_eq_true]

theorem foldl_purgeEntry_of_not_clears {entries : List (FileName × Node)} {state : Nat × Files}
    (h : ∀ entry ∈ entries, ¬ Clears dir stem state.2.guarded (dir ++ [entry.1]) entry) :
    entries.foldl (purgeEntry dir stem) state = state := by
  induction entries with
  | nil => rfl
  | cons entry entries ih =>
    obtain ⟨hentry, hentries⟩ := List.forall_mem_cons.mp h
    rw [List.foldl_cons, purgeEntry_eq, if_neg hentry, ih hentries]

end Steps

/-- A purge of a directory that has cleared some of its files, with how many they are. -/
structure PurgedExactly (before : Files) (dir : Place) (stem : String) (count : Nat)
    (after : Files) : Prop where
  cleared : ∀ name, before.Purgeable dir stem name → after.node? (dir ++ [name]) = none
  kept : ∀ place, (∀ name, before.Purgeable dir stem name → place ≠ dir ++ [name]) →
    after.node? place = before.node? place
  system : after.base = before.base ∧ after.guarded = before.guarded ∧
    after.shortages = before.shortages
  counted : ∃ names : List FileName, names.Nodup ∧ names.length = count ∧
    ∀ name, name ∈ names ↔ before.Purgeable dir stem name

section Runs

variable {files after : Files} {p : Path} {dir : Place} {stem : String} {count : Nat}

theorem PurgedExactly.sameDirectories (h : files.PurgedExactly dir stem count after) :
    SameDirectories files after := by
  refine ⟨h.system.1, h.system.2.1, h.system.2.2, fun place => ?_⟩
  by_cases hplace : ∃ name, files.Purgeable dir stem name ∧ place = dir ++ [name]
  · obtain ⟨name, hname, rfl⟩ := hplace
    obtain ⟨content, hfile⟩ := hname.1.1
    rw [h.cleared name hname, hfile]
    simp
  · rw [h.kept place fun name hname hat => hplace ⟨name, hname, hat⟩]

theorem exists_names (files : Files) (dir : Place) (stem : String) :
    ∃ names : List FileName, names.Nodup ∧
      names.length = ((files.entries dir).filter fun entry =>
        Clears dir stem files.guarded (dir ++ [entry.1]) entry).length ∧
      ∀ name, name ∈ names ↔ files.Purgeable dir stem name := by
  refine ⟨_, List.pairwise_map.mpr ((files.pairwise_entries dir).filter _), List.length_map Prod.fst,
    fun name => ?_⟩
  rw [← exists_clears_iff, List.mem_map]
  constructor
  · rintro ⟨entry, hentry, rfl⟩
    obtain ⟨hmem, hclears⟩ := List.mem_filter.mp hentry
    exact ⟨entry, hmem, of_decide_eq_true hclears⟩
  · rintro ⟨entry, hmem, hclears⟩
    obtain rfl : name = entry.1 := List.singleton_inj.mp (List.append_cancel_left hclears.1)
    exact ⟨entry, List.mem_filter.mpr ⟨hmem, decide_eq_true hclears⟩, rfl⟩

/-- Clearing the entries of a directory one after the other clears what can be purged. -/
theorem purgedExactly_entries (files : Files) (dir : Place) (stem : String) :
    files.PurgedExactly dir stem
      ((files.entries dir).foldl (purgeEntry dir stem) (0, files)).1
      ((files.entries dir).foldl (purgeEntry dir stem) (0, files)).2 := by
  have hnode (place : Place) :
      ((files.entries dir).foldl (purgeEntry dir stem) (0, files)).2.node? place =
        if ∃ entry ∈ files.entries dir, Clears dir stem files.guarded place entry then none
        else files.node? place :=
    node?_foldl_purgeEntry _ _
  refine ⟨fun name hname => ?_, fun place hplace => ?_, base_foldl_purgeEntry _ _, ?_⟩
  · rw [hnode, if_pos (exists_clears_iff.mpr hname)]
  · rw [hnode, if_neg]
    rintro ⟨entry, hentry, rfl, hclears⟩
    exact hplace entry.1 (exists_clears_iff.mp ⟨entry, hentry, rfl, hclears⟩) rfl
  · rw [fst_foldl_purgeEntry, Nat.zero_add]
    exact files.exists_names dir stem

/-- Nothing is left to be purged where a purge has been. -/
theorem PurgedExactly.purge_again (h : files.PurgedExactly dir stem count after)
    (hdir : files.find p = .ok (dir, .directory)) :
    after.purge p stem = .ok (0, after) := by
  obtain ⟨hlocate, hroot⟩ := find_eq_ok_iff.mp hdir
  have hfind : after.find p = .ok (dir, .directory) :=
    find_eq_ok_iff.mpr ⟨h.sameDirectories.locate_iff.mpr hlocate,
      (h.sameDirectories.directory dir).mpr hroot⟩
  rw [purge, hfind]
  refine congrArg Except.ok (foldl_purgeEntry_of_not_clears fun entry hentry hclears => ?_)
  have hname : after.Purgeable dir stem entry.1 :=
    exists_clears_iff.mp ⟨entry, hentry, hclears⟩
  obtain ⟨⟨⟨content, hfile⟩, hnamed⟩, hfree⟩ := hname
  by_cases hbefore : files.Purgeable dir stem entry.1
  · rw [h.cleared entry.1 hbefore] at hfile
    cases hfile
  · have hsame : after.node? (dir ++ [entry.1]) = files.node? (dir ++ [entry.1]) := by
      refine h.kept _ fun name hname hat => hbefore ?_
      rwa [List.singleton_inj.mp (List.append_cancel_left hat)]
    rw [hsame] at hfile
    rw [h.system.2.1] at hfree
    exact hbefore ⟨⟨⟨content, hfile⟩, hnamed⟩, hfree⟩

/-- A purge of a directory clears the files that it selects and the system lets go, nothing else,
and says how many they were; all of them are gone then, and a name is selected by its bytes. -/
theorem purge_exactly (hdir : files.find p = .ok (dir, .directory)) (stem : String) :
    ∃ count after, files.purge p stem = .ok (count, after) ∧
      files.PurgedExactly dir stem count after ∧
      after.purge p stem = .ok (0, after) ∧
      ('\ufffd' ∉ stem.toList → ∀ name, files.Selected dir stem name ↔
        (∃ content, files.node? (dir ++ [name]) = some (.file content)) ∧
          Utf8.encode stem.toList <+: name) := by
  have hpurged := files.purgedExactly_entries dir stem
  refine ⟨_, _, by rw [purge, hdir], hpurged, hpurged.purge_again hdir, fun hstem name => ?_⟩
  rw [Selected, Utf8.prefix_decodeLossy_iff hstem]

end Runs

def atticPlace : Place := [Utf8.encode "tmp".toList]

def atticName (ending : List UInt8) : FileName := Utf8.encode "View_".toList ++ ending

/-- Names that start alike, of files, of a directory and of a link, and one that is no text. -/
def attic : Files where
  nodes := [(atticPlace, .directory), (atticPlace ++ [atticName [0x61]], .file [0x75]),
    (atticPlace ++ [atticName [0xff, 0x0a]], .file []),
    (atticPlace ++ [atticName [0x62]], .directory), (atticPlace ++ [atticName [0x63]], .link),
    (atticPlace ++ [atticName [0x64]], .file []), (atticPlace ++ [[0x78]], .file [])]
  guarded := [atticPlace ++ [atticName [0x64]]]

/-- Two files go; the one that the system keeps is selected as well. -/
theorem purge_exactly_attic :
    attic.find ⟨"/tmp"⟩ = .ok (atticPlace, .directory) ∧
    ∃ after, attic.purge ⟨"/tmp"⟩ "View_" = .ok (2, after) ∧
      attic.PurgedExactly atticPlace "View_" 2 after ∧
      after.purge ⟨"/tmp"⟩ "View_" = .ok (0, after) ∧
      attic.Selected atticPlace "View_" (atticName [0x64]) := by
  have hdir : attic.find ⟨"/tmp"⟩ = .ok (atticPlace, .directory) := by decide
  have hcount : (attic.purge ⟨"/tmp"⟩ "View_").map Prod.fst = .ok 2 := by decide +kernel
  obtain ⟨count, after, hpurge, hpurged, hagain, hselected⟩ := purge_exactly hdir "View_"
  rw [hpurge] at hcount
  obtain rfl : count = 2 := Except.ok.inj hcount
  exact ⟨hdir, after, hpurge, hpurged, hagain,
    (hselected (by decide) _).mpr ⟨⟨[], by decide⟩, by decide⟩⟩

end TemplateViews.Files
