import Mathlib.Data.List.Basic
import Mathlib.Logic.Relation
import TemplateViews.Proofs.Links.Selection
import TemplateViews.Proofs.Links.Spelling

/-! How links represent the modules they are chosen from. Of the candidates exactly those are
kept that are accepted and the first at their place, in the order in which they stand, so
links that are assembled once more do not change. -/

namespace TemplateViews

theorem TypeTree.argumentModules_eq (args : List TypeTree) :
    argumentModules args = args.flatMap TypeTree.modules := by
  induction args with
  | nil => rfl
  | cons arg args ih => rw [argumentModules, ih, List.flatMap_cons]

theorem TypeTree.modules_eq (tree : TypeTree) :
    tree.modules = tree.type.module :: tree.args.flatMap TypeTree.modules := by
  cases tree with
  | node type args => rw [modules, argumentModules_eq]; rfl

namespace Links

/-- A candidate, with its index, that is accepted and has no other one of its place in front. -/
def Kept (policy : LinkPolicy) (modules : List Module) (entry : Module × Nat) : Prop :=
  policy.accepts entry.1 = true ∧ ∀ earlier ∈ modules.take entry.2, earlier.place ≠ entry.1.place

instance (policy : LinkPolicy) (modules : List Module) : DecidablePred (Kept policy modules) :=
  fun _ => inferInstanceAs (Decidable (_ ∧ _))

def kept (policy : LinkPolicy) (modules : List Module) : List Module :=
  (modules.zipIdx.filter fun entry => Kept policy modules entry).map Prod.fst

def firstIndex (modules : List Module) (place : List Path.Component) : Nat :=
  modules.findIdx (·.place = place)

section Selected

variable {policy : LinkPolicy} {front modules more : List Module} {seen : List (List Path.Component)}

/-- Behind other modules those are selected that are kept there. -/
theorem select_eq_filter_kept (hseen : ∀ place, place ∈ seen ↔ ∃ module ∈ front, module.place = place) :
    select policy seen modules = ((modules.zipIdx front.length).filter fun entry =>
      Kept policy (front ++ modules) entry).map Prod.fst := by
  induction modules generalizing front seen with
  | nil => rfl
  | cons first rest ih =>
    have hmore : front ++ first :: rest = (front ++ [first]) ++ rest := by simp
    have hlength : (front ++ [first]).length = front.length + 1 := by simp
    have hkept : Kept policy (front ++ first :: rest) (first, front.length) ↔
        policy.accepts first = true ∧ first.place ∉ seen := by
      rw [Kept, List.take_left, hseen]
      simp
    have hplaces (place : List Path.Component) :
        (∃ module ∈ front ++ [first], module.place = place) ↔ place ∈ first.place :: seen := by
      rw [List.mem_cons, hseen]
      simp [or_comm, eq_comm]
    rw [List.zipIdx_cons, List.filter_cons]
    by_cases hplace : first.place ∈ seen
    · have hsame (place : List Path.Component) :
          place ∈ seen ↔ ∃ module ∈ front ++ [first], module.place = place := by
        rw [hplaces, List.mem_cons]
        exact ⟨.inr, fun h => h.elim (fun he => he ▸ hplace) id⟩
      have hnot : ¬ Kept policy (front ++ first :: rest) (first, front.length) :=
        fun h => (hkept.mp h).2 hplace
      rw [select_cons, if_pos hplace, if_neg (by simpa using hnot), ih hsame, hlength, hmore]
    · have hrest := ih fun place => (hplaces place).symm
      rw [hlength, ← hmore] at hrest
      by_cases haccepts : policy.accepts first = true
      · have hfirst := hkept.mpr ⟨haccepts, hplace⟩
        rw [select_cons, if_neg hplace, if_pos haccepts, if_pos (by simpa using hfirst), hrest]
        rfl
      · have hnot : ¬ Kept policy (front ++ first :: rest) (first, front.length) :=
          fun h => haccepts (hkept.mp h).1
        rw [select_cons, if_neg hplace, if_neg haccepts, if_neg (by simpa using hnot), hrest]

theorem select_eq_kept : select policy [] modules = kept policy modules := by
  have hnone (place : List Path.Component) :
      place ∈ ([] : List (List Path.Component)) ↔ ∃ module ∈ ([] : List Module), module.place = place := by
    simp
  exact select_eq_filter_kept hnone

/-- Places that modules in front take are seen behind them, and nothing else is passed on. -/
theorem exists_select_append (policy : LinkPolicy) (seen : List (List Path.Component))
    (front : List Module) : ∃ passed,
      (∀ place, place ∈ passed ↔ place ∈ seen ∨ ∃ module ∈ front, module.place = place) ∧
      ∀ modules, select policy seen (front ++ modules) =
        select policy seen front ++ select policy passed modules := by
  induction front generalizing seen with
  | nil => exact ⟨seen, by simp, fun modules => rfl⟩
  | cons first front ih =>
    by_cases hplace : first.place ∈ seen
    · obtain ⟨passed, hpassed, hselect⟩ := ih seen
      refine ⟨passed, fun place => ?_, fun modules => ?_⟩
      · rw [hpassed, List.exists_mem_cons_iff]
        constructor
        · exact fun h => h.imp id .inr
        · rintro (h | rfl | h)
          · exact .inl h
          · exact .inl hplace
          · exact .inr h
      · rw [List.cons_append, select_cons, select_cons, if_pos hplace, if_pos hplace, hselect]
    · obtain ⟨passed, hpassed, hselect⟩ := ih (first.place :: seen)
      refine ⟨passed, fun place => ?_, fun modules => ?_⟩
      · rw [hpassed, List.mem_cons, List.exists_mem_cons_iff, or_assoc, or_left_comm,
          eq_comm (a := place)]
      · rw [List.cons_append, select_cons, select_cons, if_neg hplace, if_neg hplace, hselect]
        split <;> rfl

theorem select_of_seen (h : ∀ module ∈ front, module.place ∈ seen) :
    select policy seen (front ++ modules) = select policy seen modules := by
  induction front with
  | nil => rfl
  | cons first front ih =>
    rw [List.cons_append, select_cons, if_pos (h first List.mem_cons_self),
      ih fun module hmodule => h module (List.mem_cons_of_mem _ hmodule)]

theorem select_of_distinct (hdistinct : modules.Pairwise fun a b => a.place ≠ b.place)
    (h : ∀ module ∈ modules, module.place ∉ seen ∧ policy.accepts module = true) :
    select policy seen modules = modules := by
  induction modules generalizing seen with
  | nil => rfl
  | cons first rest ih =>
    obtain ⟨hfirst, hrest⟩ := List.pairwise_cons.mp hdistinct
    obtain ⟨hplace, haccepts⟩ := h first List.mem_cons_self
    have hbehind : ∀ module ∈ rest, module.place ∉ first.place :: seen ∧
        policy.accepts module = true := by
      intro module hmodule
      obtain ⟨hseen, hmoduleAccepts⟩ := h module (List.mem_cons_of_mem _ hmodule)
      rw [List.mem_cons, not_or]
      exact ⟨⟨(hfirst module hmodule).symm, hseen⟩, hmoduleAccepts⟩
    rw [select_cons, if_neg hplace, if_pos haccepts, ih hrest hbehind]

end Selected

section Order

variable {policy : LinkPolicy} {modules : List Module} {entry : Module × Nat}

theorem Kept.firstIndex_eq (h : Kept policy modules entry) (hentry : entry ∈ modules.zipIdx) :
    firstIndex modules entry.1.place = entry.2 := by
  have hindex : modules[entry.2]? = some entry.1 := by
    simpa using List.mk_mem_zipIdx_iff_getElem?.mp hentry
  obtain ⟨hlt, hmodule⟩ := List.getElem?_eq_some_iff.mp hindex
  refine (List.findIdx_eq hlt).mpr ⟨by simp [hmodule], fun earlier hearlier => ?_⟩
  have hne := h.2 _ (List.mem_take_iff_getElem.mpr ⟨earlier, by omega, rfl⟩)
  simpa using hne

theorem pairwise_firstIndex_kept : (kept policy modules).Pairwise fun a b =>
    firstIndex modules a.place < firstIndex modules b.place := by
  have hindexes : modules.zipIdx.Pairwise fun a b => a.2 < b.2 := by
    rw [← List.pairwise_map (f := Prod.snd), List.zipIdx_map_snd]
    exact List.pairwise_lt_range'
  rw [kept, List.pairwise_map]
  refine (hindexes.filter _).imp_of_mem fun {a b} ha hb hlt => ?_
  obtain ⟨haEntry, haKept⟩ := List.mem_filter.mp ha
  obtain ⟨hbEntry, hbKept⟩ := List.mem_filter.mp hb
  rwa [Kept.firstIndex_eq (of_decide_eq_true haKept) haEntry,
    Kept.firstIndex_eq (of_decide_eq_true hbKept) hbEntry]

theorem distinct_kept : (kept policy modules).Pairwise fun a b => a.place ≠ b.place := by
  refine pairwise_firstIndex_kept.imp fun hlt he => ?_
  rw [he] at hlt
  exact Nat.lt_irrefl _ hlt

theorem accepts_of_mem_kept {module : Module} (h : module ∈ kept policy modules) :
    policy.accepts module = true := by
  obtain ⟨entry, hentry, rfl⟩ := List.mem_map.mp h
  have hkept : Kept policy modules entry := of_decide_eq_true (List.mem_filter.mp hentry).2
  exact hkept.1

theorem kept_sublist : (kept policy modules).Sublist modules := by
  have h := (List.filter_sublist (p := fun entry => decide (Kept policy modules entry))
    (l := modules.zipIdx)).map Prod.fst
  rwa [List.zipIdx_map_fst] at h

theorem select_kept : select policy [] (kept policy modules) = kept policy modules :=
  select_of_distinct distinct_kept fun _ h => ⟨List.not_mem_nil, accepts_of_mem_kept h⟩

/-- Selected once more behind the modules they were selected with, links stay as they are. -/
theorem select_append_kept (front modules : List Module) :
    select policy [] (front ++ kept policy (front ++ modules)) = kept policy (front ++ modules) := by
  obtain ⟨passed, hpassed, hselect⟩ := exists_select_append policy [] front
  have hsplit : kept policy (front ++ modules) =
      select policy [] front ++ select policy passed modules := by
    rw [← select_eq_kept, hselect]
  have hdistinct : (kept policy (front ++ modules)).Pairwise fun a b => a.place ≠ b.place :=
    distinct_kept
  rw [hsplit, List.pairwise_append] at hdistinct
  have hfront : ∀ module ∈ select policy [] front, module.place ∈ passed := by
    intro module hmodule
    rw [select_eq_kept] at hmodule
    exact (hpassed _).mpr (.inr ⟨module, kept_sublist.subset hmodule, rfl⟩)
  have hbehind : ∀ module ∈ select policy passed modules,
      module.place ∉ passed ∧ policy.accepts module = true := by
    intro module hmodule
    obtain ⟨hseen, -, haccepts⟩ := mem_select_iff.mp hmodule
    exact ⟨hseen, haccepts⟩
  rw [hsplit, hselect, select_of_seen hfront, select_of_distinct hdistinct.2.1 hbehind]

end Order

/-- Links as the subsequence of the candidates that the declared types and a baseline give. -/
structure Represents (model handler : Option TypeTree) (baseline : List Module)
    (policy : LinkPolicy) (links : Links) : Prop where
  preorder : ∀ tree : TypeTree, tree.modules = tree.type.module :: tree.args.flatMap TypeTree.modules
  kept : links.modules = kept policy (model.toList.flatMap TypeTree.modules ++
    handler.toList.flatMap TypeTree.modules ++ baseline)
  distinct : links.modules.Pairwise fun a b =>
    a.place ≠ b.place ∧ ¬ Relation.EqvGen Path.Respelled a.location b.location
  accepted : ∀ module ∈ links.modules, policy.accepts module = true
  ordered : links.modules.Sublist (candidates model handler baseline) ∧
    links.modules.Pairwise fun a b => firstIndex (candidates model handler baseline) a.place <
      firstIndex (candidates model handler baseline) b.place
  again : collect none none links.modules policy = links
  stable : collect model handler links.modules policy = links

theorem eqvGen_respelled {p q : Path} (h : Relation.EqvGen Path.Respelled p q) :
    p.components = q.components := by
  induction h with
  | rel p q h => exact h.components_eq
  | refl p => rfl
  | symm p q _ ih => exact ih.symm
  | trans p q r _ _ ihp ihq => exact ihp.trans ihq

/-- The links of every view are exactly the accepted first modules of each place, in order. -/
theorem collect_represents (model handler : Option TypeTree) (baseline : List Module)
    (policy : LinkPolicy) :
    Represents model handler baseline policy (collect model handler baseline policy) := by
  have hmodules : (collect model handler baseline policy).modules =
      kept policy (candidates model handler baseline) := select_eq_kept
  constructor
  · exact TypeTree.modules_eq
  · exact hmodules
  · rw [hmodules]
    refine distinct_kept.imp fun hplace => ⟨hplace, fun hspelled => hplace ?_⟩
    exact eqvGen_respelled hspelled
  · rw [hmodules]
    exact fun module => accepts_of_mem_kept
  · rw [hmodules]
    exact ⟨kept_sublist, pairwise_firstIndex_kept⟩
  · rw [hmodules]
    exact congrArg Links.mk (select_kept.trans hmodules.symm)
  · rw [hmodules]
    exact congrArg Links.mk ((select_append_kept _ baseline).trans hmodules.symm)

example : (collect none none
      [⟨"shop", ⟨"/libs//shop.rlib"⟩⟩, ⟨"old", ⟨"/libs/./shop.rlib/"⟩⟩, ⟨"gone", ⟨""⟩⟩] {}).modules =
    [⟨"shop", ⟨"/libs//shop.rlib"⟩⟩] := by decide

end Links

end TemplateViews
