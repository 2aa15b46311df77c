import TemplateViews.Build.Purge
import TemplateViews.Proofs.Files.Directories

/-! What a purge leaves. Each entry is cleared on its own, so after all of them a place is empty if
a stale entry of the directory stood there, and else it is as before. -/

namespace TemplateViews.Files

section Entries

variable {files : Files} {dir : Place} {name : FileName} {node : Node}

theorem mem_entries_iff : (name, node) ∈ files.entries dir ↔ (dir ++ [name], node) ∈ files.nodes := by
  unfold entries
  rw [List.mem_filterMap]
  constructor
  · rintro ⟨⟨place, found⟩, hmem, hentry⟩
    dsimp only at hentry
    split at hentry
    · next last hlast =>
      split at hentry
      · next hdir =>
        obtain ⟨init, rfl⟩ := List.getLast?_eq_some_iff.mp hlast
        rw [List.dropLast_concat] at hdir
        cases hentry
        rwa [← hdir]
      · cases hentry
    · cases hentry
  · intro hmem
    exact ⟨_, hmem, by simp⟩

theorem mem_nodes_of_node? {place : Place} (h : files.node? place = some node) (hne : place ≠ []) :
    (place, node) ∈ files.nodes := by
  rw [node?, if_neg hne] at h
  obtain ⟨before, after, hnodes, -⟩ := List.lookup_eq_some_iff.mp h
  simp [hnodes]

end Entries

section Purging

variable {dir : Place} {stem : String} {place : Place}

/-- An entry is stale, stands at a place, and the system lets go of it. -/
def Clears (dir : Place) (stem : String) (guarded : List Place) (place : Place)
    (entry : FileName × Node) : Prop :=
  place = dir ++ [entry.1] ∧ isStale stem entry.1 entry.2 = true ∧ place ∉ guarded

instance (guarded : List Place) (entry : FileName × Node) :
    Decidable (Clears dir stem guarded place entry) :=
  inferInstanceAs (Decidable (_ ∧ _ ∧ _))

theorem base_purgeEntry (state : Nat × Files) (entry : FileName × Node) :
    (purgeEntry dir stem state entry).2.base = state.2.base ∧
      (purgeEntry dir stem state entry).2.guarded = state.2.guarded ∧
      (purgeEntry dir stem state entry).2.shortages = state.2.shortages := by
  unfold purgeEntry
  split <;> exact ⟨rfl, rfl, rfl⟩

theorem node?_purgeEntry (state : Nat × Files) (entry : FileName × Node) :
    (purgeEntry dir stem state entry).2.node? place =
      if Clears dir stem state.2.guarded place entry then none else state.2.node? place := by
  unfold purgeEntry
  split
  · next hstale =>
    rw [Bool.and_eq_true, Bool.not_eq_true', List.contains_eq_mem, decide_eq_false_iff_not]
      at hstale
    by_cases hplace : place = dir ++ [entry.1]
    · rw [if_pos ⟨hplace, hstale.1, hplace ▸ hstale.2⟩, hplace]
      exact node?_erase_self (by simp)
    · rw [if_neg fun h => hplace h.1]
      exact node?_erase_of_ne hplace
  · next hkept =>
    rw [if_neg]
    rintro ⟨rfl, hstale, hfree⟩
    simp [hstale, hfree] at hkept

theorem base_foldl_purgeEntry (entries : List (FileName × Node)) (state : Nat × Files) :
    (entries.foldl (purgeEntry dir stem) state).2.base = state.2.base ∧
      (entries.foldl (purgeEntry dir stem) state).2.guarded = state.2.guarded ∧
      (entries.foldl (purgeEntry dir stem) state).2.shortages = state.2.shortages := by
  induction entries generalizing state with
  | nil => exact ⟨rfl, rfl, rfl⟩
  | cons entry entries ih =>
    rw [List.foldl_cons, (ih _).1, (ih _).2.1, (ih _).2.2]
    exact base_purgeEntry state entry

theorem node?_foldl_purgeEntry (entries : List (FileName × Node)) (state : Nat × Files) :
    (entries.foldl (purgeEntry dir stem) state).2.node? place =
      if ∃ entry ∈ entries, Clears dir stem state.2.guarded place entry then none
      else state.2.node? place := by
  induction entries generalizing state with
  | nil => simp
  | cons entry entries ih =>
    rw [List.foldl_cons, ih, (base_purgeEntry state entry).2.1, node?_purgeEntry]
    simp only [List.exists_mem_cons_iff]
    by_cases hrest : ∃ entry ∈ entries, Clears dir stem state.2.guarded place entry
    · rw [if_pos hrest, if_pos (.inr hrest)]
    · simp only [or_iff_left hrest, if_neg hrest]

end Purging

/-- What a purge of a directory leaves: the same but for stale entries, which are gone. -/
structure PurgedOf (before : Files) (dir : Place) (stem : String) (after : Files) : Prop where
  base : after.base = before.base
  cleared : ∀ entry ∈ before.entries dir, isStale stem entry.1 entry.2 = true →
    dir ++ [entry.1] ∉ before.guarded → after.node? (dir ++ [entry.1]) = none
  kept : ∀ place, (∀ entry ∈ before.entries dir, isStale stem entry.1 entry.2 = true →
    place ≠ dir ++ [entry.1]) → after.node? place = before.node? place
  mono : ∀ place node, after.node? place = some node → before.node? place = some node

theorem exists_purgedOf {files : Files} {p : Path} {root : Place}
    (h : files.find p = .ok (root, .directory)) (stem : String) :
    ∃ count after, files.purge p stem = .ok (count, after) ∧ files.PurgedOf root stem after := by
  have hpurge : files.purge p stem =
      .ok ((files.entries root).foldl (purgeEntry root stem) (0, files)) := by rw [purge, h]
  have hnode (place : Place) :
      ((files.entries root).foldl (purgeEntry root stem) (0, files)).2.node? place =
        if ∃ entry ∈ files.entries root, Clears root stem files.guarded place entry then none
        else files.node? place :=
    node?_foldl_purgeEntry _ _
  refine ⟨_, _, hpurge, (base_foldl_purgeEntry _ _).1, fun entry hentry hstale hfree => ?_,
    fun place hplace => ?_, fun place node hsome => ?_⟩
  · rw [hnode, if_pos ⟨entry, hentry, rfl, hstale, hfree⟩]
  · rw [hnode, if_neg]
    rintro ⟨entry, hentry, hat, hstale, -⟩
    exact hplace entry hentry hstale hat
  · rw [hnode] at hsome
    split at hsome
    · cases hsome
    · exact hsome

end TemplateViews.Files
