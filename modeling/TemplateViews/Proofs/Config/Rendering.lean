import TemplateViews.Config.Manifest
import TemplateViews.Proofs.Json.Reading
import TemplateViews.Proofs.Json.Records
import TemplateViews.Proofs.Json.Writing

/-! Texts of manifests. However a manifest is written as an object, it is read from its text; in
modules and types more can be said, and at the top and in the options nothing else and nothing twice. -/

namespace TemplateViews

open Json

def ShowsPath (value : Value) (p : Path) : Prop := ShowsText value p.text

def TypeEntry.shape : Shape TypeEntry where
  closed := false
  slots := [
    ⟨"path", path, none, ShowsText⟩,
    ⟨"generic_params", arity, some 0, ShowsCount⟩]

def ModuleEntry.shape : Shape ModuleEntry where
  closed := false
  slots := [
    ⟨"name", name, none, ShowsText⟩,
    ⟨"location", location, none, ShowsPath⟩,
    ⟨"types", types, some [], ShowsList TypeEntry.shape.Shows⟩]

def Overrides.shape : Shape Overrides where
  closed := true
  slots := [
    ⟨"namespace", scope, some none, ShowsOption ShowsText⟩,
    ⟨"class_name", type, some none, ShowsOption ShowsText⟩,
    ⟨"edition", edition, some none, ShowsOption ShowsText⟩,
    ⟨"rustc", program, some none, ShowsOption ShowsPath⟩,
    ⟨"temp_dir", scratchDir, some none, ShowsOption ShowsPath⟩,
    ⟨"artifact_prefix", stem, some none, ShowsOption ShowsText⟩,
    ⟨"excluded_crates", excluded, some none, ShowsOption (ShowsList ShowsText)⟩,
    ⟨"search_dirs", searchDirs, some [], ShowsList ShowsPath⟩]

def Manifest.shape : Shape Manifest where
  closed := true
  slots := [
    ⟨"options", overrides, some {}, Overrides.shape.Shows⟩,
    ⟨"defaults", defaults, some [], ShowsList ModuleEntry.shape.Shows⟩,
    ⟨"modules", modules, some [], ShowsList ModuleEntry.shape.Shows⟩]

section Fits

theorem decodePath_of_shows {value : Value} {p : Path} (h : ShowsPath value p) :
    decodePath value = .ok p := by
  rw [decodePath, decodeString_of_shows _ h]
  rfl

theorem decodeOptionalText_of_shows {value : Value} {text : Option String}
    (h : ShowsOption ShowsText value text) : decodeOption decodeString value = .ok text :=
  decodeOption_of_shows (fun _ => decodeString_of_shows _) (fun _ => nofun) h

theorem decodeOptionalPath_of_shows {value : Value} {p : Option Path}
    (h : ShowsOption ShowsPath value p) : decodeOption decodePath value = .ok p :=
  decodeOption_of_shows (fun _ => decodePath_of_shows) (fun _ => nofun) h

theorem decodeOptionalTexts_of_shows {value : Value} {texts : Option (List String)}
    (h : ShowsOption (ShowsList ShowsText) value texts) (hskip : value.skip = none) :
    decodeOption (decodeList decodeString) value = .ok texts := by
  refine decodeOption_of_shows (fun texts htexts => ?_) (fun _ => nofun) h
  exact decodeList_of_shows (fun _ _ hvalue _ => decodeString_of_shows _ hvalue) htexts hskip

theorem decodePaths_of_shows {value : Value} {paths : List Path}
    (h : ShowsList ShowsPath value paths) (hskip : value.skip = none) :
    decodeList decodePath value = .ok paths :=
  decodeList_of_shows (fun _ _ hvalue _ => decodePath_of_shows hvalue) h hskip

theorem TypeEntry.record_fits : TypeEntry.record.Fits TypeEntry.shape where
  strict := rfl
  fields := by
    refine .cons (Field.sets_of (by simp) (fun _ _ h _ => decodeString_of_shows _ h) (by simp) ?_)
      (.cons (Field.sets_of (by simp) (fun _ _ h _ => decodeNat_of_shows h) (by simp) ?_) .nil) <;>
      simp [shape]
  names := by decide
  draft := by simp [shape, record]
  ext := by
    rintro ⟨path, arity⟩ ⟨path', arity'⟩ h
    simpa [shape] using h

theorem ModuleEntry.record_fits : ModuleEntry.record.Fits ModuleEntry.shape where
  strict := rfl
  fields := by
    have htypes (value : Value) (types : List TypeEntry)
        (h : ShowsList TypeEntry.shape.Shows value types) (hskip : value.skip = none) :
        decodeList TypeEntry.record.decode value = .ok types :=
      decodeList_of_shows (fun _ _ => Record.decode_of_shows TypeEntry.record_fits) h hskip
    refine .cons (Field.sets_of (by simp) (fun _ _ h _ => decodeString_of_shows _ h) (by simp) ?_)
      (.cons (Field.sets_of (by simp) (fun _ _ h _ => decodePath_of_shows h) (by simp) ?_)
      (.cons (Field.sets_of (by simp) htypes (by simp) ?_) .nil)) <;> simp [shape]
  names := by decide
  draft := by simp [shape, record]
  ext := by
    rintro ⟨name, location, types⟩ ⟨name', location', types'⟩ h
    simpa [shape] using h

theorem Overrides.record_fits : Overrides.record.Fits Overrides.shape where
  strict := rfl
  fields := by
    refine .cons (Field.sets_of (by simp) (fun _ _ h _ => decodeOptionalText_of_shows h) (by simp) ?_)
      (.cons (Field.sets_of (by simp) (fun _ _ h _ => decodeOptionalText_of_shows h) (by simp) ?_)
      (.cons (Field.sets_of (by simp) (fun _ _ h _ => decodeOptionalText_of_shows h) (by simp) ?_)
      (.cons (Field.sets_of (by simp) (fun _ _ h _ => decodeOptionalPath_of_shows h) (by simp) ?_)
      (.cons (Field.sets_of (by simp) (fun _ _ h _ => decodeOptionalPath_of_shows h) (by simp) ?_)
      (.cons (Field.sets_of (by simp) (fun _ _ h _ => decodeOptionalText_of_shows h) (by simp) ?_)
      (.cons (Field.sets_of (by simp) (fun _ _ => decodeOptionalTexts_of_shows) (by simp) ?_)
      (.cons (Field.sets_of (by simp) (fun _ _ => decodePaths_of_shows) (by simp) ?_)
        .nil))))))) <;> simp [shape]
  names := by decide
  draft := by simp [shape, record]
  ext := by
    rintro ⟨⟩ ⟨⟩ h
    simpa [shape] using h

theorem Manifest.record_fits : Manifest.record.Fits Manifest.shape where
  strict := rfl
  fields := by
    have hentries (value : Value) (entries : List ModuleEntry)
        (h : ShowsList ModuleEntry.shape.Shows value entries) (hskip : value.skip = none) :
        decodeList ModuleEntry.record.decode value = .ok entries :=
      decodeList_of_shows (fun _ _ => Record.decode_of_shows ModuleEntry.record_fits) h hskip
    refine .cons (Field.sets_of (by simp)
        (fun _ _ => Record.decode_of_shows Overrides.record_fits) (by simp) ?_)
      (.cons (Field.sets_of (by simp) hentries (by simp) ?_)
      (.cons (Field.sets_of (by simp) hentries (by simp) ?_) .nil)) <;> simp [shape]
  names := by decide
  draft := by simp [shape, record]
  ext := by
    rintro ⟨overrides, defaults, modules⟩ ⟨overrides', defaults', modules'⟩ h
    simpa [shape] using h

end Fits

section Writing

theorem TypeEntry.written {entry : TypeEntry} (h : entry.arity < wordLimit) :
    Written TypeEntry.shape.Shows entry := by
  refine written_shape (by decide) ?_
  simp only [shape, List.forall_mem_cons]
  exact ⟨written_text _, written_count h, List.forall_mem_nil _⟩

theorem ModuleEntry.written {entry : ModuleEntry} (h : ∀ type ∈ entry.types, type.arity < wordLimit) :
    Written ModuleEntry.shape.Shows entry := by
  refine written_shape (by decide) ?_
  simp only [shape, List.forall_mem_cons]
  exact ⟨written_text _, written_text _,
    written_list fun type htype => TypeEntry.written (h type htype), List.forall_mem_nil _⟩

theorem Overrides.written (overrides : Overrides) : Written Overrides.shape.Shows overrides := by
  have htext (text : Option String) : Written (ShowsOption ShowsText) text :=
    written_option fun text _ => written_text text
  have hpath (p : Option Path) : Written (ShowsOption ShowsPath) p :=
    written_option fun p _ => written_text p.text
  refine written_shape (by decide) ?_
  simp only [shape, List.forall_mem_cons]
  exact ⟨htext _, htext _, htext _, hpath _, hpath _, htext _,
    written_option fun names _ => written_list fun name _ => written_text name,
    written_list fun p _ => written_text p.text, List.forall_mem_nil _⟩

end Writing

namespace Manifest

/-- A text is an object that shows a manifest. -/
def RenderedBy (m : Manifest) (text : String) : Prop :=
  ∃ value, Spelled text.toList value ∧ shape.Shows value m

variable {m : Manifest} {text : String}

theorem exists_renderedBy
    (h : ∀ entry ∈ m.defaults ++ m.modules, ∀ type ∈ entry.types, type.arity < wordLimit) :
    ∃ text, m.RenderedBy text := by
  obtain ⟨hdefaults, hmodules⟩ := List.forall_mem_append.mp h
  have hwritten : Written shape.Shows m := by
    refine written_shape (by decide) ?_
    simp only [shape, List.forall_mem_cons]
    exact ⟨m.overrides.written,
      written_list fun entry hentry => ModuleEntry.written (hdefaults entry hentry),
      written_list fun entry hentry => ModuleEntry.written (hmodules entry hentry),
      List.forall_mem_nil _⟩
  obtain ⟨cs, value, hspelled, hshows⟩ := hwritten
  exact ⟨String.ofList cs, value, by rwa [String.toList_ofList], hshows⟩

theorem ofJson_of_renderedBy (h : m.RenderedBy text) : ofJson text = .ok m := by
  obtain ⟨value, hspelled, hshows⟩ := h
  rw [ofJson, Document.ofText_spelled hspelled, Document.decode,
    Record.decode_of_shows record_fits hshows hspelled.skip_eq_none]
  rfl

theorem ofJson_eq_error {value : Value} {e : DecodeError} (hspelled : Spelled text.toList value)
    (h : record.decode value = .error e) : ofJson text = .error e := by
  rw [ofJson, Document.ofText_spelled hspelled, Document.decode, h]

section Inserted

variable {before after front back : List (String × Value)} {key : String} {value : Value}

theorem mem_insert_member {member inserted : String × Value} (h : member ∈ front ++ back) :
    member ∈ front ++ inserted :: back :=
  List.mem_append.mpr ((List.mem_append.mp h).imp_right (List.mem_cons_of_mem _))

theorem ofJson_inserted (hspelled : Spelled text.toList (objectOf (front ++ (key, value) :: back)))
    (h : shape.MembersShow (front ++ back) m)
    (hkey : key ∉ shape.names ∨ key ∈ keysOf (front ++ back)) :
    ∃ e, ofJson text = .error e ∧
      ((key ∈ keysOf back → record.Weighs key value) → ∃ message, e = .data message) := by
  have hskip : ∀ member ∈ front ++ back, member.2.skip = none := fun member hmember =>
    skip_objectOf.mp hspelled.skip_eq_none member (mem_insert_member hmember)
  obtain ⟨e, he, hdata⟩ := Record.decode_inserted record_fits rfl h hkey hskip
  exact ⟨e, ofJson_eq_error hspelled he, hdata⟩

theorem ofJson_options_inserted
    (hspelled : Spelled text.toList (objectOf (before ++
      ("options", objectOf (front ++ (key, value) :: back)) :: after)))
    (h : shape.MembersShow (before ++ ("options", objectOf (front ++ back)) :: after) m)
    (hkey : key ∉ Overrides.shape.names ∨ key ∈ keysOf (front ++ back)) :
    ∃ e, ofJson text = .error e ∧
      ((key ∈ keysOf back → Overrides.record.Weighs key value) → ∃ message, e = .data message) := by
  have hall := skip_objectOf.mp hspelled.skip_eq_none
  have hinner := skip_objectOf.mp (hall ("options", objectOf (front ++ (key, value) :: back)) (by simp))
  obtain ⟨members, hmembers, hshow⟩ := h.shown _ List.mem_cons_self ("options", objectOf (front ++ back))
    (by simp) rfl
  obtain rfl := objectOf_injective hmembers
  have hskip : ∀ member ∈ front ++ back, member.2.skip = none := fun member hmember =>
    hinner member (mem_insert_member hmember)
  obtain ⟨e, he, hdata⟩ := Record.decode_inserted Overrides.record_fits rfl hshow hkey hskip
  refine ⟨e, ofJson_eq_error hspelled ?_, hdata⟩
  refine Record.decode_refused record_fits List.mem_cons_self h
    (fun member hmember => hall member (List.mem_append_left _ hmember)) ?_
  intro field hfield hname draft
  have hnames : (record.fields.map Field.name).Nodup := by decide
  obtain rfl := List.inj_on_of_nodup_map hnames hfield List.mem_cons_self hname
  exact map_eq_error_iff.mpr he

end Inserted

/-- How texts of a manifest are read. A text in which a key is added that is unknown or there
already is refused, and with a message about the data, unless the added member comes before the one
that it repeats with a value that is refused as no JSON of its kind. -/
structure ReadFromText (m : Manifest) : Prop where
  /-- There are such texts. -/
  written : (∀ entry ∈ m.defaults ++ m.modules, ∀ type ∈ entry.types, type.arity < wordLimit) →
    ∃ text, m.RenderedBy text
  read : ∀ text, m.RenderedBy text → ofJson text = .ok m
  /-- What else is said of a type or a module does not count. -/
  typeKeys : ∀ entry front key value back, key ∉ TypeEntry.shape.names →
    TypeEntry.shape.MembersShow (front ++ back) entry →
    TypeEntry.shape.MembersShow (front ++ (key, value) :: back) entry
  moduleKeys : ∀ entry front key value back, key ∉ ModuleEntry.shape.names →
    ModuleEntry.shape.MembersShow (front ++ back) entry →
    ModuleEntry.shape.MembersShow (front ++ (key, value) :: back) entry
  /-- What shows a part of the manifest or the options is weighed. -/
  weighed : ∀ value, value.skip = none →
    (∀ slot ∈ shape.slots, ∀ b, slot.Shows value b → record.Weighs slot.name value) ∧
    ∀ slot ∈ Overrides.shape.slots, ∀ b, slot.Shows value b →
      Overrides.record.Weighs slot.name value
  topKeys : ∀ text front key value back,
    Spelled text.toList (objectOf (front ++ (key, value) :: back)) →
    shape.MembersShow (front ++ back) m → (key ∉ shape.names ∨ key ∈ keysOf (front ++ back)) →
    ∃ e, ofJson text = .error e ∧
      ((key ∈ keysOf back → record.Weighs key value) → ∃ message, e = .data message)
  optionKeys : ∀ text before front key value back after,
    Spelled text.toList (objectOf (before ++
      ("options", objectOf (front ++ (key, value) :: back)) :: after)) →
    shape.MembersShow (before ++ ("options", objectOf (front ++ back)) :: after) m →
    (key ∉ Overrides.shape.names ∨ key ∈ keysOf (front ++ back)) →
    ∃ e, ofJson text = .error e ∧
      ((key ∈ keysOf back → Overrides.record.Weighs key value) → ∃ message, e = .data message)

/-- Every manifest is read from every text of it. -/
theorem readFromText (m : Manifest) : m.ReadFromText where
  written := exists_renderedBy
  read := fun _ => ofJson_of_renderedBy
  typeKeys := fun _ _ _ value _ hkey h => h.insert rfl hkey value
  moduleKeys := fun _ _ _ value _ hkey h => h.insert rfl hkey value
  weighed := fun _ hskip =>
    ⟨fun _ hslot _ h => Record.weighs_of_shows record_fits hslot h hskip,
      fun _ hslot _ h => Record.weighs_of_shows Overrides.record_fits hslot h hskip⟩
  topKeys := fun _ _ _ _ _ => ofJson_inserted
  optionKeys := fun _ _ _ _ _ _ _ => ofJson_options_inserted

example : ofJson ("\x7b \"modules\": [\x7b\"location\": \"/libs/libshop.rlib\", " ++
      "\"since\": [1e9], \"name\": \"sh\\u006fp\"\x7d] \x7d") =
    .ok { modules := [⟨"shop", ⟨"/libs/libshop.rlib"⟩, []⟩] } := by decide +kernel

/-- The items of a module that is written as an array, with one too many. -/
def longItems : List (List Char × Value) := [
  ("\"m\"".toList, .string (some "m")), ("\"/m\"".toList, .string (some "/m")),
  ("[]".toList, .array .close), ("0".toList, .number (some (.integer 0)))]

def repeatedMembers : List Member := [
  ⟨"\"modules\"".toList, some "modules", "[[\"m\",\"/m\",[],0]]".toList,
    .array (.ofList [.array (.ofList (longItems.map Prod.snd))])⟩,
  ⟨"\"modules\"".toList, some "modules", "[]".toList, .array .close⟩]

def repeatedModules : String := "\x7b\"modules\":[[\"m\",\"/m\",[],0]],\"modules\":[]\x7d"

theorem spelled_repeatedModules : Spelled repeatedModules.toList
    (.object (.ofList (repeatedMembers.map fun member => (member.key, member.value)))) := by
  have hnone : Spaces [] := List.forall_mem_nil _
  have hempty : Spelled "[]".toList (.array .close) :=
    @Spelled.array [] [] hnone (List.forall_mem_nil _)
  have hzero : Spelled "0".toList (.number (some (.integer 0))) := @Spelled.count 0 (by decide)
  have hm : Spelled "\"m\"".toList (.string (some "m")) :=
    .string (@spelledString_plain "m" (by simp))
  have hplace : Spelled "\"/m\"".toList (.string (some "/m")) :=
    .string (@spelledString_plain "/m" (by simp))
  have hitems : ∀ item ∈ longItems, Spelled item.1 item.2 := by
    simp only [longItems, List.forall_mem_cons]
    exact ⟨hm, hplace, hempty, hzero, List.forall_mem_nil _⟩
  have hlong := @Spelled.array [] longItems hnone hitems
  have hmodules := @Spelled.array [] [(_, _)] hnone (List.forall_mem_singleton.mpr hlong)
  have hkey : SpelledKey "\"modules\"".toList (some "modules") :=
    @SpelledKey.intro [] _ [] _ hnone (@spelledString_plain "modules" (by simp)) hnone
  have htext : repeatedModules.toList =
      '\x7b' :: ([] ++ joinWith [','] (repeatedMembers.map Member.text) ++ ['\x7d']) := by
    decide +kernel
  rw [htext]
  refine .object hnone ?_ ?_
  · simp only [repeatedMembers, List.forall_mem_cons]
    exact ⟨hkey, hkey, List.forall_mem_nil _⟩
  · simp only [repeatedMembers, List.forall_mem_cons]
    exact ⟨hmodules, hempty, List.forall_mem_nil _⟩

/-- A value that is refused before the repetition is seen need not be refused for its data. -/
theorem repeatedModules_malformed : ∃ value,
    Spelled repeatedModules.toList
      (objectOf ([] ++ ("modules", value) :: [("modules", .array .close)])) ∧
    shape.MembersShow ([] ++ [("modules", .array .close)]) {} ∧
    "modules" ∈ keysOf ([] ++ [("modules", Value.array .close)]) ∧
    ofJson repeatedModules = .error .malformed := by
  refine ⟨_, spelled_repeatedModules, ?_, by decide, by decide +kernel⟩
  constructor
  · simp [shape, ShowsList, Items.ofList]
  · decide
  · simp [shape, keysOf]
  · simp [shape, Shape.names]

end Manifest

end TemplateViews
