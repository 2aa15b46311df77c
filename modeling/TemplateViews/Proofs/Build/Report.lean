import Mathlib.Data.List.Basic
import TemplateViews.Build.Builder
import TemplateViews.Proofs.Text.Lines
import TemplateViews.Proofs.Text.Trim
import TemplateViews.Proofs.Text.Utf8

/-! Reports, line by line. Each line gives what it gives on its own, so the errors of a report
stay the same if lines without an error are put between the others or left out. -/

namespace TemplateViews

theorem Utf8.decodeLossy_intercalate (lines : List (List UInt8)) :
    decodeLossy ([0x0a].intercalate lines) = ['\n'].intercalate (lines.map decodeLossy) := by
  induction lines with
  | nil =>
    rw [List.map_nil, List.intercalate_nil, List.intercalate_nil, decodeLossy, pieces, List.map_nil]
  | cons line lines ih =>
    by_cases hlines : lines = []
    · subst hlines
      rw [List.map_singleton, List.intercalate_singleton, List.intercalate_singleton]
    · rw [List.map_cons, List.intercalate_cons_of_ne_nil hlines,
        List.intercalate_cons_of_ne_nil (by simpa using hlines), List.append_assoc,
        List.singleton_append, decodeLossy_append_lineFeed, ih, List.append_assoc,
        List.singleton_append]

/-- What a line of a report gives. -/
def lineDiagnostic? (source : ViewSource) (file : Path) (line : List Char) : Option Diagnostic :=
  (CompilerMessage.ofLine? (trim line)).bind (CompilerMessage.diagnostic? source file)

section Lines

variable {source : ViewSource} {file : Path} {line : List Char} {d : Diagnostic}

theorem CompilerMessage.diagnostic?_eq_some_iff {m : CompilerMessage} :
    m.diagnostic? source file = some d ↔ m.isDiagnostic = true ∧ m.isSummary = false ∧
      m.severity? = some d.severity ∧ d.message = m.message ∧ d.code = m.code ∧
      d.position = m.span?.map (Span.position source file) := by
  obtain ⟨severity, message, code, position⟩ := d
  unfold diagnostic?
  cases m.isDiagnostic with
  | false => simp
  | true =>
    cases m.isSummary with
    | true => simp
    | false =>
      cases m.severity? with
      | none => simp
      | some level => simp [eq_comm]

theorem lineDiagnostic?_eq_some_iff : lineDiagnostic? source file line = some d ↔
    ∃ m, CompilerMessage.ofLine? (trim line) = some m ∧ m.diagnostic? source file = some d :=
  Option.bind_eq_some_iff

theorem mem_readReport {report : List Char} : d ∈ readReport source file report ↔
    ∃ line ∈ linesOf report, lineDiagnostic? source file line = some d :=
  List.mem_filterMap

theorem readReport_append_lineFeed (hline : '\n' ∉ line) (behind : List Char) :
    readReport source file (line ++ '\n' :: behind) =
      (lineDiagnostic? source file line).toList ++ readReport source file behind := by
  have hfirst : lineDiagnostic? source file (line ++ ['\n']) = lineDiagnostic? source file line := by
    rw [lineDiagnostic?, trim_append_lineFeed, lineDiagnostic?]
  rw [readReport, linesOf_append _ hline, List.filterMap_cons, ← lineDiagnostic?, hfirst]
  cases lineDiagnostic? source file line <;> rfl

theorem readReport_line (hline : '\n' ∉ line) :
    readReport source file line = (lineDiagnostic? source file line).toList := by
  by_cases hnil : line = []
  · subst hnil
    rfl
  · rw [readReport, linesOf_of_not_mem hline hnil, List.filterMap_cons, ← lineDiagnostic?,
      List.filterMap_nil]
    cases lineDiagnostic? source file line <;> rfl

theorem readReport_intercalate {lines : List (List Char)} (h : ∀ line ∈ lines, '\n' ∉ line) :
    readReport source file (['\n'].intercalate lines) =
      lines.filterMap (lineDiagnostic? source file) := by
  induction lines with
  | nil => rfl
  | cons line lines ih =>
    rw [List.forall_mem_cons] at h
    have hcons : (line :: lines).filterMap (lineDiagnostic? source file) =
        (lineDiagnostic? source file line).toList ++
          lines.filterMap (lineDiagnostic? source file) := by
      rw [List.filterMap_cons]
      cases lineDiagnostic? source file line <;> rfl
    by_cases hlines : lines = []
    · subst hlines
      rw [List.intercalate_singleton, readReport_line h.1, hcons, List.filterMap_nil,
        List.append_nil]
    · rw [List.intercalate_cons_of_ne_nil hlines, List.append_assoc, List.singleton_append,
        readReport_append_lineFeed h.1, ih h.2, hcons]

end Lines

section Errors

variable {source : ViewSource} {file : Path} {d : Diagnostic}

/-- The errors that a compiler wrote to its error stream, in their order. -/
def writtenErrors (source : ViewSource) (file : Path) (stderr : List UInt8) : List Diagnostic :=
  (readReport source file (Utf8.decodeLossy stderr)).filter Diagnostic.isError

/-- Whether a line is no message, or a warning, a note or help. -/
def isNoise (line : List UInt8) : Bool :=
  (CompilerMessage.ofLine? (trim (Utf8.decodeLossy line))).all fun m => m.severity? != some .error

theorem not_isError_of_isNoise {line : List UInt8} (hnoise : isNoise line = true)
    (h : lineDiagnostic? source file (Utf8.decodeLossy line) = some d) : d.isError = false := by
  obtain ⟨m, hm, hd⟩ := lineDiagnostic?_eq_some_iff.mp h
  obtain ⟨-, -, hseverity, -⟩ := CompilerMessage.diagnostic?_eq_some_iff.mp hd
  rw [isNoise, hm, Option.all_some, hseverity] at hnoise
  simpa [Diagnostic.isError] using hnoise

theorem mem_writtenErrors {stderr : List UInt8} : d ∈ writtenErrors source file stderr ↔
    d.isError = true ∧
      ∃ line ∈ linesOf (Utf8.decodeLossy stderr), lineDiagnostic? source file line = some d := by
  rw [writtenErrors, List.mem_filter, mem_readReport, and_comm]

theorem writtenErrors_intercalate {lines : List (List UInt8)} (h : ∀ line ∈ lines, 0x0a ∉ line) :
    writtenErrors source file ([0x0a].intercalate lines) =
      (lines.filterMap fun line => lineDiagnostic? source file (Utf8.decodeLossy line)).filter
        Diagnostic.isError := by
  have hlines : ∀ line ∈ lines.map Utf8.decodeLossy, '\n' ∉ line := by
    intro line hline
    obtain ⟨bytes, hbytes, rfl⟩ := List.mem_map.mp hline
    exact fun hmem => h bytes hbytes (Utf8.lineFeed_mem_of_mem_decodeLossy hmem)
  rw [writtenErrors, Utf8.decodeLossy_intercalate, readReport_intercalate hlines,
    List.filterMap_map]
  rfl

/-- Lines with the same errors in the same order, whatever noise stands between them. -/
theorem writtenErrors_congr {lines lines' : List (List UInt8)}
    (h : ∀ line ∈ lines, 0x0a ∉ line) (h' : ∀ line ∈ lines', 0x0a ∉ line)
    (hsame : (lines.filter fun line => !isNoise line) = lines'.filter fun line => !isNoise line) :
    writtenErrors source file ([0x0a].intercalate lines) =
      writtenErrors source file ([0x0a].intercalate lines') := by
  have hquiet (lines : List (List UInt8)) :
      (lines.filterMap fun line => lineDiagnostic? source file (Utf8.decodeLossy line)).filter
          Diagnostic.isError =
        ((lines.filter fun line => !isNoise line).filterMap fun line =>
          lineDiagnostic? source file (Utf8.decodeLossy line)).filter Diagnostic.isError := by
    rw [List.filter_filterMap, List.filter_filterMap, List.filterMap_filter]
    refine List.filterMap_congr fun line _ => ?_
    cases hnoise : isNoise line with
    | false => rfl
    | true =>
      have hnone : (lineDiagnostic? source file (Utf8.decodeLossy line)).filter
          Diagnostic.isError = none := by
        refine Option.filter_eq_none_iff.mpr fun d hd => ?_
        simp [not_isError_of_isNoise hnoise hd]
      simpa using hnone
  rw [writtenErrors_intercalate h, writtenErrors_intercalate h', hquiet lines, hsame,
    ← hquiet lines']

end Errors

end TemplateViews
