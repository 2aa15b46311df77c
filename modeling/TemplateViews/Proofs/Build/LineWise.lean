import TemplateViews.Proofs.Build.Messages
import TemplateViews.Proofs.Build.Report

/-! Reports as sequences of lines. What a line gives depends on nothing but this line, and lines
that are no messages, or messages that nobody has to read, give nothing. -/

namespace TemplateViews

variable {source : ViewSource} {file : Path} {line : List Char} {d : Diagnostic}

namespace CompilerMessage

/-- A diagnostic tells what a message of an error or a warning says. -/
structure Tells (source : ViewSource) (file : Path) (m : CompilerMessage) (d : Diagnostic) :
    Prop where
  kind : ∀ kind ∈ m.kind, kind = "diagnostic"
  level : d.severity = .error ∧ (m.level = "error" ∨ m.level = "error: internal compiler error") ∨
    d.severity = .warning ∧ m.level = "warning"
  summary : ¬ "aborting due to".toList <+: m.message.toList
  message : d.message = m.message
  code : d.code = m.code
  position : d.position = m.span?.map (Span.position source file)

/-- Messages of another type or level, and those that sum up others. -/
def IsPassedOver (m : CompilerMessage) : Prop :=
  (∃ kind ∈ m.kind, kind ≠ "diagnostic") ∨
    m.level ∉ ["error", "error: internal compiler error", "warning"] ∨
    "aborting due to".toList <+: m.message.toList

variable {m : CompilerMessage}

theorem severity?_eq_some_iff {severity : Severity} : m.severity? = some severity ↔
    severity = .error ∧ (m.level = "error" ∨ m.level = "error: internal compiler error") ∨
      severity = .warning ∧ m.level = "warning" := by
  unfold severity?
  by_cases herror : m.level = "error" ∨ m.level = "error: internal compiler error"
  · have hwarning : m.level ≠ "warning" := by
      rcases herror with h | h <;> rw [h] <;> decide
    rw [if_pos herror, Option.some_inj, eq_comm (a := Severity.error)]
    simp [herror, hwarning]
  · rw [if_neg herror]
    by_cases hwarning : m.level = "warning"
    · rw [if_pos hwarning, Option.some_inj, eq_comm (a := Severity.warning)]
      simp [hwarning]
    · rw [if_neg hwarning]
      simp [herror, hwarning]

theorem diagnostic?_eq_some_iff_tells :
    m.diagnostic? source file = some d ↔ m.Tells source file d := by
  have hkind : m.isDiagnostic = true ↔ ∀ kind ∈ m.kind, kind = "diagnostic" := by
    unfold isDiagnostic
    cases m.kind <;> simp
  have hsummary : m.isSummary = false ↔ ¬ "aborting due to".toList <+: m.message.toList := by
    rw [isSummary, ← Bool.not_eq_true, List.isPrefixOf_iff_prefix]
  rw [diagnostic?_eq_some_iff, severity?_eq_some_iff, hkind, hsummary]
  constructor
  · rintro ⟨hkind, hsummary, hlevel, hmessage, hcode, hposition⟩
    exact ⟨hkind, hlevel, hsummary, hmessage, hcode, hposition⟩
  · exact fun h => ⟨h.kind, h.summary, h.level, h.message, h.code, h.position⟩

theorem exists_tells_iff : (∃ d, m.Tells source file d) ↔ ¬ m.IsPassedOver := by
  constructor
  · rintro ⟨d, htells⟩ (⟨kind, hkind, hother⟩ | hlevel | hsummary)
    · exact hother (htells.kind kind hkind)
    · refine hlevel ?_
      rcases htells.level with ⟨-, h | h⟩ | ⟨-, h⟩ <;> simp [h]
    · exact htells.summary hsummary
  · intro h
    rw [IsPassedOver, not_or, not_or, not_not] at h
    obtain ⟨hkind, hlevel, hsummary⟩ := h
    have hseverity : ∃ severity, m.severity? = some severity := by
      simp only [severity?_eq_some_iff]
      rw [List.mem_cons, List.mem_cons, List.mem_singleton, ← or_assoc] at hlevel
      rcases hlevel with herror | hwarning
      · exact ⟨.error, .inl ⟨rfl, herror⟩⟩
      · exact ⟨.warning, .inr ⟨rfl, hwarning⟩⟩
    obtain ⟨severity, hseverity⟩ := hseverity
    refine ⟨⟨severity, m.message, m.code, m.span?.map (Span.position source file)⟩, ?_,
      severity?_eq_some_iff.mp hseverity, hsummary, rfl, rfl, rfl⟩
    intro kind hmem
    by_contra hother
    exact hkind ⟨kind, hmem, hother⟩

end CompilerMessage

theorem lineDiagnostic?_eq_some_iff_tells : lineDiagnostic? source file line = some d ↔
    ∃ m : CompilerMessage, m.WrittenOn line ∧ m.Tells source file d := by
  simp only [lineDiagnostic?_eq_some_iff, CompilerMessage.ofLine?_eq_some_iff,
    CompilerMessage.diagnostic?_eq_some_iff_tells]

theorem readReport_append (front back : List Char) :
    readReport source file (front ++ '\n' :: back) =
      readReport source file front ++ readReport source file back := by
  -- the first line of the front is cut off, as long as there is more than one
  induction hlength : front.length using Nat.strong_induction_on generalizing front with
  | _ length ih =>
    by_cases hmem : '\n' ∈ front
    · obtain ⟨line, rest, rfl, hline⟩ := List.eq_append_cons_of_mem hmem
      have hshorter : rest.length < length := by
        rw [← hlength, List.length_append, List.length_cons]
        omega
      rw [List.append_assoc, List.cons_append, readReport_append_lineFeed hline,
        readReport_append_lineFeed hline, ih _ hshorter rest rfl, List.append_assoc]
    · rw [readReport_append_lineFeed hmem, readReport_line hmem]

structure ReadsLineWise (source : ViewSource) (file : Path) : Prop where
  append : ∀ front back, readReport source file (front ++ '\n' :: back) =
    readReport source file front ++ readReport source file back
  atMostOne : ∀ line, '\n' ∉ line → (readReport source file line).length ≤ 1
  tells : ∀ line d, '\n' ∉ line → (readReport source file line = [d] ↔
    ∃ m : CompilerMessage, m.WrittenOn line ∧ m.Tells source file d)
  /-- Lines without a message, and with messages that are passed over, give nothing. -/
  silent : ∀ line, '\n' ∉ line → (readReport source file line = [] ↔
    ∀ m : CompilerMessage, m.WrittenOn line → m.IsPassedOver)
  /-- They do not touch the other lines, in whatever place they stand. -/
  apart : ∀ line, readReport source file line = [] → ∀ front back,
    readReport source file (front ++ '\n' :: (line ++ '\n' :: back)) =
      readReport source file (front ++ '\n' :: back)
  /-- Unknown members in any of the lines change nothing. -/
  extended : ∀ lines lines', (∀ line ∈ lines ++ lines', '\n' ∉ line) →
    List.Forall₂ CompilerMessage.ExtendedLine lines lines' →
    readReport source file (['\n'].intercalate lines) =
      readReport source file (['\n'].intercalate lines')

theorem reads_line_wise (source : ViewSource) (file : Path) : ReadsLineWise source file where
  append := readReport_append
  atMostOne := by
    intro line hline
    rw [readReport_line hline]
    exact Option.length_toList_le
  tells := by
    intro line d hline
    rw [readReport_line hline, ← lineDiagnostic?_eq_some_iff_tells, Option.toList_eq_singleton_iff]
  silent := by
    intro line hline
    rw [readReport_line hline, Option.toList_eq_nil_iff, Option.eq_none_iff_forall_ne_some]
    constructor
    · intro hnone m hm
      by_contra hnot
      obtain ⟨d, htells⟩ := CompilerMessage.exists_tells_iff.mpr hnot
      exact hnone d (lineDiagnostic?_eq_some_iff_tells.mpr ⟨m, hm, htells⟩)
    · intro h d hd
      obtain ⟨m, hm, htells⟩ := lineDiagnostic?_eq_some_iff_tells.mp hd
      exact CompilerMessage.exists_tells_iff.mp ⟨d, htells⟩ (h m hm)
  apart := by
    intro line hnothing front back
    rw [readReport_append, readReport_append, hnothing, readReport_append, List.nil_append]
  extended := by
    intro lines lines' hlines h
    obtain ⟨hfirst, hsecond⟩ := List.forall_mem_append.mp hlines
    rw [readReport_intercalate hfirst, readReport_intercalate hsecond]
    clear hlines hfirst hsecond
    induction h with
    | nil => rfl
    | @cons line line' _ _ hline _ ih =>
      have hsame : lineDiagnostic? source file line = lineDiagnostic? source file line' := by
        rw [lineDiagnostic?, lineDiagnostic?, CompilerMessage.ofLine?_of_extendedLine hline]
      rw [List.filterMap_cons, List.filterMap_cons, hsame, ih]

example : readReport ⟨"", [], "Page"⟩ ⟨"/tmp/Page_1.rs"⟩
      ("note\n\x7b\"message\": \"no x\", \"level\": \"error\", \"since\": [1]\x7d\r\n" ++
        "\x7b\"message\": \"aborting due to it\", \"level\": \"error\"\x7d").toList =
    [⟨.error, "no x", none, none⟩] := by decide +kernel

end TemplateViews
