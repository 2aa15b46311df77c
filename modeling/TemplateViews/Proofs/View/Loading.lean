import Mathlib.Data.List.Forall2
import TemplateViews.Proofs.Outcome
import TemplateViews.Proofs.Text.Decoding
import TemplateViews.View.Load

/-! Loading a view, and every way in which it fails. All texts of a table are read before a name
is looked for, so a text that cannot be read is reported even if the expected view is there. -/

namespace TemplateViews

namespace ForeignText

def length : ForeignText → Nat
  | null length => length
  | bytes content => content.length

def Reads (t : ForeignText) (text : String) : Prop :=
  t.length = 0 ∧ text = "" ∨ ∃ content, t = bytes content ∧ content.toByteArray = text.toUTF8

def Readable (t : ForeignText) : Prop :=
  t.length = 0 ∨ ∃ content, t = bytes content ∧ content.toByteArray.IsValidUTF8

inductive Faulty : ForeignText → LoadFault → Prop
  | null (n : Nat) : Faulty (null (n + 1)) .nullText
  | invalid {content : List UInt8} {e : Utf8.Error} (h : ¬ content.toByteArray.IsValidUTF8)
      (he : Utf8.decode content = .error e) : Faulty (bytes content) (.invalidText e)

/-- The first text that cannot be read. -/
inductive FirstFault : List ForeignText → LoadFault → Prop
  | here {t : ForeignText} {rest : List ForeignText} {fault : LoadFault} (h : t.Faulty fault) :
      FirstFault (t :: rest) fault
  | later {t : ForeignText} {rest : List ForeignText} {fault : LoadFault} (h : t.Readable)
      (hrest : FirstFault rest fault) : FirstFault (t :: rest) fault

variable {t : ForeignText} {text : String} {fault : LoadFault}

theorem read_bytes_eq_ok_iff {content : List UInt8} :
    (bytes content).read = .ok text ↔ content.toByteArray = text.toUTF8 := by
  have hdecode : Utf8.decode content = .ok text.toList ↔ content.toByteArray = text.toUTF8 := by
    rw [Utf8.decode_eq_ok_iff, Utf8.toByteArray_eq_iff]
  rw [← hdecode, read]
  cases Utf8.decode content with
  | error e => simp
  | ok cs =>
    simp only [Except.ok.injEq]
    constructor
    · rintro rfl
      exact String.toList_ofList.symm
    · rintro rfl
      exact String.ofList_toList

theorem read_eq_ok_iff : t.read = .ok text ↔ t.Reads text := by
  cases t with
  | null n =>
    cases n with
    | zero => simp [read, Reads, length, eq_comm]
    | succ n => simp [read, Reads, length]
  | bytes content =>
    rw [read_bytes_eq_ok_iff]
    constructor
    · intro h
      exact .inr ⟨content, rfl, h⟩
    · intro h
      rcases h with ⟨hlength, rfl⟩ | ⟨other, he, h⟩
      · obtain rfl : content = [] := List.eq_nil_of_length_eq_zero hlength
        rfl
      · obtain rfl := bytes.inj he
        exact h

theorem Reads.unique {other : String} (h : t.Reads text) (hother : t.Reads other) : text = other :=
  Except.ok.inj ((read_eq_ok_iff.mpr h).symm.trans (read_eq_ok_iff.mpr hother))

theorem readable_iff : t.Readable ↔ ∃ text, t.Reads text := by
  constructor
  · intro h
    rcases h with hlength | ⟨content, rfl, hvalid⟩
    · exact ⟨"", .inl ⟨hlength, rfl⟩⟩
    · obtain ⟨text, htext⟩ := Utf8.isValidUTF8_iff.mp hvalid
      exact ⟨text, .inr ⟨content, rfl, Utf8.toByteArray_eq_iff.mpr htext⟩⟩
  · intro h
    obtain ⟨text, ⟨hlength, -⟩ | ⟨content, rfl, htext⟩⟩ := h
    · exact .inl hlength
    · have hvalid := Utf8.isValidUTF8_iff.mpr ⟨text, Utf8.toByteArray_eq_iff.mp htext⟩
      exact .inr ⟨content, rfl, hvalid⟩

theorem read_eq_error_iff : t.read = .error fault ↔ t.Faulty fault := by
  constructor
  · intro h
    cases t with
    | null n =>
      cases n with
      | zero => cases h
      | succ n =>
        obtain rfl := Except.error.inj h
        exact .null n
    | bytes content =>
      cases hdecode : Utf8.decode content with
      | ok cs => simp [read, hdecode] at h
      | error e =>
        obtain rfl : LoadFault.invalidText e = fault := by simpa [read, hdecode] using h
        refine .invalid (fun hvalid => ?_) hdecode
        obtain ⟨text, htext⟩ := Utf8.isValidUTF8_iff.mp hvalid
        cases hdecode.symm.trans (Utf8.decode_eq_ok_iff.mpr htext)
  · intro h
    cases h with
    | null n => rfl
    | invalid h he => rw [read, he]

theorem Faulty.not_readable (h : t.Faulty fault) : ¬ t.Readable := by
  intro hreadable
  obtain ⟨text, htext⟩ := readable_iff.mp hreadable
  cases (read_eq_error_iff.mpr h).symm.trans (read_eq_ok_iff.mpr htext)

theorem FirstFault.exists_not_readable {texts : List ForeignText} {fault : LoadFault}
    (h : FirstFault texts fault) : ∃ t ∈ texts, ¬ t.Readable := by
  induction h with
  | here hfault => exact ⟨_, List.mem_cons_self, hfault.not_readable⟩
  | later _ _ ih =>
    obtain ⟨t, ht, hnot⟩ := ih
    exact ⟨t, List.mem_cons_of_mem _ ht, hnot⟩

theorem firstFault_cons_of_ok {rest : List ForeignText} (h : t.read = .ok text) :
    FirstFault (t :: rest) fault ↔ FirstFault rest fault := by
  constructor
  · intro hfirst
    cases hfirst with
    | here hfault => cases (read_eq_error_iff.mpr hfault).symm.trans h
    | later _ hrest => exact hrest
  · exact .later (readable_iff.mpr ⟨text, read_eq_ok_iff.mp h⟩)

theorem firstFault_cons_of_error {rest : List ForeignText} {other : LoadFault}
    (h : t.read = .error other) : FirstFault (t :: rest) fault ↔ other = fault := by
  constructor
  · intro hfirst
    cases hfirst with
    | here hfault => exact Except.error.inj (h.symm.trans (read_eq_error_iff.mpr hfault))
    | later hreadable => exact absurd hreadable (read_eq_error_iff.mp h).not_readable
  · intro he
    subst he
    exact .here (read_eq_error_iff.mp h)

end ForeignText

open ForeignText

namespace Export

/-- The texts of an entry in the order in which they are read. -/
def texts (entry : Export) : List ForeignText := [entry.name, entry.model, entry.handler]

def ReadsType (t : ForeignText) (type : Option String) : Prop :=
  ∃ text, t.Reads text ∧ type = if text = "" then none else some text

structure Describes (library : Path) (entry : Export) (view : View) : Prop where
  name : entry.name.Reads view.name
  model : ReadsType entry.model view.model
  handler : ReadsType entry.handler view.handler
  library : view.library = library
  render : view.render = entry.render

end Export

namespace View

variable {library : Path} {entry : Export} {entries : List Export} {view : View}
  {views : List View} {fault : LoadFault}

theorem ofExport_eq_ok_iff : ofExport library entry = .ok view ↔ entry.Describes library view := by
  obtain ⟨name, model, handler, path, render⟩ := view
  constructor
  · intro h
    unfold ofExport at h
    split at h
    · cases h
    · next name' hname =>
      split at h
      · cases h
      · next model' hmodel =>
        split at h
        · cases h
        · next handler' hhandler =>
          obtain ⟨rfl, rfl, rfl, rfl, rfl⟩ := by simpa using h
          exact ⟨read_eq_ok_iff.mp hname, ⟨_, read_eq_ok_iff.mp hmodel, rfl⟩,
            ⟨_, read_eq_ok_iff.mp hhandler, rfl⟩, rfl, rfl⟩
  · intro h
    obtain ⟨hname, ⟨model', hmodel, rfl⟩, ⟨handler', hhandler, rfl⟩, rfl, rfl⟩ := h
    rw [ofExport, read_eq_ok_iff.mpr hname, read_eq_ok_iff.mpr hmodel,
      read_eq_ok_iff.mpr hhandler]
    rfl

/-- What an entry adds in front of the texts behind it. -/
theorem firstFault_texts_append (library : Path) (entry : Export) (rest : List ForeignText) :
    FirstFault (entry.texts ++ rest) fault ↔
      match ofExport library entry with
      | .error other => other = fault
      | .ok _ => FirstFault rest fault := by
  have htexts : entry.texts ++ rest = entry.name :: entry.model :: entry.handler :: rest := rfl
  rw [htexts, ofExport]
  cases hname : entry.name.read with
  | error other => exact firstFault_cons_of_error hname
  | ok name =>
    rw [firstFault_cons_of_ok hname]
    dsimp only
    cases hmodel : entry.model.read with
    | error other => exact firstFault_cons_of_error hmodel
    | ok model =>
      rw [firstFault_cons_of_ok hmodel]
      dsimp only
      cases hhandler : entry.handler.read with
      | error other => exact firstFault_cons_of_error hhandler
      | ok handler => exact firstFault_cons_of_ok hhandler

theorem mapM_ofExport_eq_ok_iff : entries.mapM (ofExport library) = .ok views ↔
    List.Forall₂ (Export.Describes library) entries views := by
  induction entries generalizing views with
  | nil => cases views <;> simp [pure, Except.pure]
  | cons entry entries ih =>
    rw [mapM_cons_eq_ok_iff]
    constructor
    · intro h
      obtain ⟨view, rest, hview, hrest, rfl⟩ := h
      exact .cons (ofExport_eq_ok_iff.mp hview) (ih.mp hrest)
    · intro h
      cases h with
      | cons hview hrest => exact ⟨_, _, ofExport_eq_ok_iff.mpr hview, ih.mpr hrest, rfl⟩

theorem mapM_ofExport_eq_error_iff : entries.mapM (ofExport library) = .error fault ↔
    FirstFault (entries.flatMap Export.texts) fault := by
  induction entries with
  | nil =>
    constructor
    · intro h
      cases h
    · intro h
      cases h
  | cons entry entries ih =>
    rw [List.flatMap_cons, firstFault_texts_append library, ← ih, List.mapM_cons]
    cases ofExport library entry with
    | error other => simp [bind, Except.bind]
    | ok view =>
      cases entries.mapM (ofExport library) with
      | error other => simp [bind, Except.bind]
      | ok views => simp [bind, Except.bind, pure, Except.pure]

end View

section Outcomes

variable {linker : Linker} {files : Files} {library : Path} {expected : String}
  {entries : List Export} {view : View} {failure : Failure}

def Linker.Shows (linker : Linker) (files : Files) (library : Path) (entries : List Export) : Prop :=
  linker.open? files library = some ⟨some ⟨some entries⟩⟩

/-- Why a library gives no view, or not the expected one. -/
inductive Refused (linker : Linker) (files : Files) (library : Path) (expected : String) :
    Failure → Prop
  | notOpened (h : linker.open? files library = none) :
      Refused linker files library expected (.unloadable library .notOpened)
  | noExports (h : linker.open? files library = some ⟨none⟩) :
      Refused linker files library expected (.unloadable library .noExports)
  | noTable (h : linker.open? files library = some ⟨some ⟨none⟩⟩) :
      Refused linker files library expected (.unloadable library .noViews)
  | noViews (h : linker.Shows files library []) :
      Refused linker files library expected (.unloadable library .noViews)
  | unreadable {entries : List Export} {fault : LoadFault} (h : linker.Shows files library entries)
      (hfault : FirstFault (entries.flatMap Export.texts) fault) :
      Refused linker files library expected (.unloadable library fault)
  | missing {entries : List Export} {names : List String} (h : linker.Shows files library entries)
      (hne : entries ≠ []) (hreadable : ∀ t ∈ entries.flatMap Export.texts, t.Readable)
      (hnames : List.Forall₂ (fun entry name => entry.name.Reads name) entries names)
      (habsent : expected ∉ names) :
      Refused linker files library expected (.missingView expected names)

/-- A table is read as a whole, or up to the first text that cannot be read. -/
theorem exists_views_or_firstFault (library : Path) (entries : List Export) :
    (∃ views, List.Forall₂ (Export.Describes library) entries views) ∨
      ∃ fault, FirstFault (entries.flatMap Export.texts) fault := by
  cases h : entries.mapM (View.ofExport library) with
  | ok views => exact .inl ⟨views, View.mapM_ofExport_eq_ok_iff.mp h⟩
  | error fault => exact .inr ⟨fault, View.mapM_ofExport_eq_error_iff.mp h⟩

theorem Export.Describes.readable {entry : Export} (h : entry.Describes library view) :
    ∀ t ∈ entry.texts, t.Readable := by
  obtain ⟨model, hmodel, -⟩ := h.model
  obtain ⟨handler, hhandler, -⟩ := h.handler
  refine List.forall_mem_cons.mpr ⟨readable_iff.mpr ⟨_, h.name⟩, ?_⟩
  refine List.forall_mem_cons.mpr ⟨readable_iff.mpr ⟨_, hmodel⟩, ?_⟩
  exact List.forall_mem_singleton.mpr (readable_iff.mpr ⟨_, hhandler⟩)

theorem readable_of_describes {views : List View}
    (h : List.Forall₂ (Export.Describes library) entries views) :
    ∀ t ∈ entries.flatMap Export.texts, t.Readable := by
  induction h with
  | nil => exact List.forall_mem_nil _
  | cons hview _ ih => exact List.forall_mem_append.mpr ⟨hview.readable, ih⟩

theorem exists_views_of_readable (library : Path)
    (h : ∀ t ∈ entries.flatMap Export.texts, t.Readable) :
    ∃ views, List.Forall₂ (Export.Describes library) entries views := by
  rcases exists_views_or_firstFault library entries with hviews | ⟨fault, hfault⟩
  · exact hviews
  · obtain ⟨t, ht, hnot⟩ := hfault.exists_not_readable
    exact absurd (h t ht) hnot

theorem reads_names_of_describes {views : List View}
    (h : List.Forall₂ (Export.Describes library) entries views) :
    List.Forall₂ (fun entry name => entry.name.Reads name) entries (views.map View.name) := by
  rw [List.forall₂_map_right_iff]
  exact h.imp fun _ _ hview => hview.name

theorem mem_names_iff {names : List String} (name : String)
    (h : List.Forall₂ (fun entry name => entry.name.Reads name) entries names) :
    name ∈ names ↔ ∃ entry ∈ entries, entry.name.Reads name := by
  induction h with
  | nil => simp
  | @cons entry first _ _ hfirst _ ih =>
    have hhead : name = first ↔ entry.name.Reads name := by
      constructor
      · rintro rfl
        exact hfirst
      · exact fun hname => hname.unique hfirst
    rw [List.mem_cons, ih, List.exists_mem_cons_iff, hhead]

theorem load_of_firstFault {fault : LoadFault} (h : linker.Shows files library entries)
    (hfault : FirstFault (entries.flatMap Export.texts) fault) :
    View.load linker files library expected = .error (.unloadable library fault) := by
  have hread : entries.mapM (View.ofExport library) = .error fault :=
    View.mapM_ofExport_eq_error_iff.mpr hfault
  rw [View.load, h]
  cases entries with
  | nil => cases hfault
  | cons first rest => simp only [View.ofTable, hread]

theorem load_of_describes (expected : String) {first : Export} {rest : List Export}
    {views : List View} (h : linker.Shows files library (first :: rest))
    (hviews : List.Forall₂ (Export.Describes library) (first :: rest) (view :: views)) :
    View.load linker files library expected =
      if expected ∈ (view :: views).map View.name then .ok view
      else .error (.missingView expected ((view :: views).map View.name)) := by
  have hread := View.mapM_ofExport_eq_ok_iff.mpr hviews
  have hany : (view :: views).any (·.name == expected) = true ↔
      expected ∈ (view :: views).map View.name := by
    rw [List.any_eq_true, List.mem_map]
    simp only [beq_iff_eq]
  rw [View.load, h]
  simp only [View.ofTable, hread, hany, List.head?_cons]

theorem load_of_refused (h : Refused linker files library expected failure) :
    View.load linker files library expected = .error failure := by
  cases h with
  | notOpened h | noExports h => rw [View.load, h]
  | noTable h | noViews h =>
    rw [View.load, h]
    rfl
  | unreadable h hfault => exact load_of_firstFault h hfault
  | missing h hne hreadable hnames habsent =>
    obtain ⟨views, hviews⟩ := exists_views_of_readable library hreadable
    have hunique : Relator.RightUnique fun (entry : Export) name => entry.name.Reads name :=
      fun _ _ _ hname hother => hname.unique hother
    obtain rfl := List.right_unique_forall₂' hunique hnames (reads_names_of_describes hviews)
    cases hviews with
    | nil => exact absurd rfl hne
    | cons hhead hrest => rw [load_of_describes expected h (.cons hhead hrest), if_neg habsent]

/-- Every library shows its views, the expected one among them, or is refused. -/
theorem exists_describes_or_refused (linker : Linker) (files : Files) (library : Path)
    (expected : String) :
    (∃ first rest view views, linker.Shows files library (first :: rest) ∧
      List.Forall₂ (Export.Describes library) (first :: rest) (view :: views) ∧
      expected ∈ (view :: views).map View.name) ∨
    ∃ failure, Refused linker files library expected failure := by
  cases hopen : linker.open? files library with
  | none => exact .inr ⟨_, .notOpened hopen⟩
  | some shown =>
    obtain ⟨exports⟩ := shown
    rcases exports with _ | ⟨_ | ⟨_ | ⟨first, rest⟩⟩⟩
    · exact .inr ⟨_, .noExports hopen⟩
    · exact .inr ⟨_, .noTable hopen⟩
    · exact .inr ⟨_, .noViews hopen⟩
    · rcases exists_views_or_firstFault library (first :: rest) with ⟨found, hfound⟩ | ⟨fault, hfault⟩
      · obtain ⟨view, views, -, -, rfl⟩ := List.forall₂_cons_left_iff.mp hfound
        by_cases hexpected : expected ∈ (view :: views).map View.name
        · exact .inl ⟨first, rest, view, views, hopen, hfound, hexpected⟩
        · refine .inr ⟨_, .missing hopen nofun (readable_of_describes hfound) ?_ hexpected⟩
          exact reads_names_of_describes hfound
      · exact .inr ⟨_, .unreadable hopen hfault⟩

theorem exists_describes_of_load (h : View.load linker files library expected = .ok view) :
    ∃ first rest views, linker.Shows files library (first :: rest) ∧
      List.Forall₂ (Export.Describes library) (first :: rest) (view :: views) ∧
      expected ∈ (view :: views).map View.name := by
  rcases exists_describes_or_refused linker files library expected with
    ⟨first, rest, found, views, hshows, hviews, hexpected⟩ | ⟨failure, hrefused⟩
  · have hload := load_of_describes expected hshows hviews
    rw [if_pos hexpected, h] at hload
    obtain rfl := Except.ok.inj hload
    exact ⟨first, rest, views, hshows, hviews, hexpected⟩
  · cases (load_of_refused hrefused).symm.trans h

theorem load_eq_error_iff : View.load linker files library expected = .error failure ↔
    Refused linker files library expected failure := by
  constructor
  · intro h
    rcases exists_describes_or_refused linker files library expected with
      ⟨first, rest, found, views, hshows, hviews, hexpected⟩ | ⟨other, hrefused⟩
    · have hload := load_of_describes expected hshows hviews
      rw [if_pos hexpected, h] at hload
      cases hload
    · obtain rfl := Except.error.inj (h.symm.trans (load_of_refused hrefused))
      exact hrefused
  · exact load_of_refused

end Outcomes

/-- A library that opens is accepted if its whole table can be read and names the expected view,
and its first view counts; each other library is refused for the first reason. -/
structure LoadsFirst (linker : Linker) (files : Files) (library : Path) (expected : String) :
    Prop where
  accepts : (∃ view, View.load linker files library expected = .ok view) ↔
    ∃ entries, linker.Shows files library entries ∧ entries ≠ [] ∧
      (∀ entry ∈ entries, entry.name.Readable ∧ entry.model.Readable ∧ entry.handler.Readable) ∧
      ∃ entry ∈ entries, entry.name.Reads expected
  first : ∀ view, View.load linker files library expected = .ok view →
    ∃ first rest, linker.Shows files library (first :: rest) ∧ first.Describes library view
  refuses : ∀ failure, View.load linker files library expected = .error failure ↔
    Refused linker files library expected failure

theorem forall_readable_iff {entries : List Export} :
    (∀ t ∈ entries.flatMap Export.texts, t.Readable) ↔
      ∀ entry ∈ entries, entry.name.Readable ∧ entry.model.Readable ∧ entry.handler.Readable := by
  rw [List.forall_mem_flatMap]
  simp [Export.texts]

theorem loads_first_view (linker : Linker) (files : Files) (library : Path) (expected : String) :
    LoadsFirst linker files library expected where
  accepts := by
    constructor
    · intro h
      obtain ⟨view, hload⟩ := h
      obtain ⟨first, rest, views, hshows, hviews, hexpected⟩ := exists_describes_of_load hload
      have hnames := mem_names_iff expected (reads_names_of_describes hviews)
      exact ⟨first :: rest, hshows, List.cons_ne_nil _ _,
        forall_readable_iff.mp (readable_of_describes hviews), hnames.mp hexpected⟩
    · intro h
      obtain ⟨entries, hshows, hne, hreadable, hexpected⟩ := h
      obtain ⟨views, hviews⟩ :=
        exists_views_of_readable library (forall_readable_iff.mpr hreadable)
      have hnames := mem_names_iff expected (reads_names_of_describes hviews)
      cases hviews with
      | nil => exact absurd rfl hne
      | @cons _ view _ views hview hrest =>
        refine ⟨view, ?_⟩
        rw [load_of_describes expected hshows (.cons hview hrest), if_pos (hnames.mpr hexpected)]
  first := by
    intro view hload
    obtain ⟨first, rest, views, hshows, hviews, -⟩ := exists_describes_of_load hload
    cases hviews with
    | cons hview _ => exact ⟨first, rest, hshows, hview⟩
  refuses := fun _ => load_eq_error_iff

end TemplateViews
