import TemplateViews.Proofs.Text.Decoding
import TemplateViews.Proofs.Text.Lines
import TemplateViews.Proofs.Text.Trim
import TemplateViews.Template.Stream

/-! Streams of bytes and texts. However the bytes of a stream are cut, its lines are those of
the text that they are the bytes of, so a stream is scanned as its text is. -/

namespace TemplateViews

theorem Utf8.lineFeed_not_mem_encode {cs : List Char} (h : '\n' ∉ cs) : 0x0a ∉ encode cs := by
  intro hmem
  have hbytes : '\n' ∈ decodeLossy (encode cs) := by
    obtain ⟨before, behind, hcut⟩ := List.append_of_mem hmem
    rw [hcut, decodeLossy_append_lineFeed]
    exact List.mem_append_right _ List.mem_cons_self
  have hpieces := pieces_encode_append cs []
  rw [List.append_nil, pieces, List.append_nil] at hpieces
  rw [decodeLossy, hpieces, List.map_map] at hbytes
  obtain ⟨c, hc, he⟩ := List.mem_map.mp hbytes
  exact h (he ▸ hc)

theorem Utf8.encode_flatten (lines : List (List Char)) :
    encode lines.flatten = (lines.map encode).flatten := by
  induction lines with
  | nil => rfl
  | cons line lines ih => rw [List.flatten_cons, encode_append, ih, List.map_cons, List.flatten_cons]

theorem Utf8.encode_line (cs : List Char) : encode (cs ++ ['\n']) = encode cs ++ [0x0a] := by
  rw [encode_append]
  rfl

namespace Chunks

variable {chunks : Chunks}

/-- A line is read up to the first line feed, and up to the end if there is none. -/
theorem readLine_cases (chunks : Chunks) :
    (∃ front, 0x0a ∉ front ∧ (readLine chunks).1 = front ++ [0x0a]) ∨
      (0x0a ∉ (readLine chunks).1 ∧ (readLine chunks).2 = []) := by
  induction chunks with
  | nil => exact .inr ⟨List.not_mem_nil, rfl⟩
  | cons chunk rest ih =>
    unfold readLine
    split
    · next hdrop =>
      have hchunk : 0x0a ∉ chunk := by
        intro hmem
        have hne := List.dropWhile_eq_nil_iff.mp hdrop 0x0a hmem
        exact absurd hne (by decide)
      rcases ih with ⟨front, hfront, hline⟩ | ⟨hline, hrest⟩
      · refine .inl ⟨chunk ++ front, ?_, by rw [hline, List.append_assoc]⟩
        rw [List.mem_append, not_or]
        exact ⟨hchunk, hfront⟩
      · refine .inr ⟨?_, hrest⟩
        rw [List.mem_append, not_or]
        exact ⟨hchunk, hline⟩
    · next feed after hdrop =>
      have hhead : feed ∈ (chunk.dropWhile (· != 0x0a)).head? := by
        rw [hdrop]
        rfl
      have hfeed : feed = 0x0a := by simpa using head_dropWhile feed hhead
      have hfront : 0x0a ∉ chunk.takeWhile (· != 0x0a) := by
        intro hmem
        have hne := List.mem_takeWhile_imp hmem
        exact absurd hne (by decide)
      exact .inl ⟨_, hfront, by rw [hfeed]⟩

theorem readLine_of_lineFeed {front behind : List UInt8} (hfront : 0x0a ∉ front)
    (h : chunks.flatten = front ++ 0x0a :: behind) :
    (readLine chunks).1 = front ++ [0x0a] ∧ (readLine chunks).2.flatten = behind := by
  have happend := readLine_append chunks
  rw [h] at happend
  rcases readLine_cases chunks with ⟨front', hfront', hline⟩ | ⟨hline, hrest⟩
  · rw [hline, List.append_assoc, List.singleton_append] at happend
    obtain ⟨rfl, hbehind⟩ := cut_inj hfront' hfront happend
    exact ⟨hline, hbehind⟩
  · rw [hrest, List.flatten_nil, List.append_nil] at happend
    rw [happend] at hline
    exact absurd (List.mem_append_right _ List.mem_cons_self) hline

theorem readLine_of_not_mem (h : 0x0a ∉ chunks.flatten) :
    (readLine chunks).1 = chunks.flatten ∧ (readLine chunks).2.flatten = [] := by
  have happend := readLine_append chunks
  rcases readLine_cases chunks with ⟨front, -, hline⟩ | ⟨-, hrest⟩
  · rw [← happend, hline] at h
    exact absurd (by simp) h
  · rw [hrest, List.flatten_nil, List.append_nil] at happend
    exact ⟨happend, by rw [hrest, List.flatten_nil]⟩

theorem readLines_of_nil (h : (readLine chunks).1 = []) : chunks.readLines = [] := by
  rw [readLines]
  split
  · rfl
  · next first rest hline => rw [h] at hline; cases hline

theorem readLines_of_ne_nil (h : (readLine chunks).1 ≠ []) :
    chunks.readLines = (readLine chunks).1 :: (readLine chunks).2.readLines := by
  rw [readLines]
  split
  · next hline => exact absurd hline h
  · next first rest hline => rw [hline]

theorem readLines_of_flatten_nil (h : chunks.flatten = []) : chunks.readLines = [] := by
  have hnone : 0x0a ∉ chunks.flatten := by
    rw [h]
    exact List.not_mem_nil
  exact readLines_of_nil ((readLine_of_not_mem hnone).1.trans h)

/-- No byte is lost between the lines, however the bytes are cut. -/
theorem flatten_readLines (chunks : Chunks) : chunks.readLines.flatten = chunks.flatten := by
  fun_induction readLines chunks with
  | case1 chunks hline =>
    have happend := readLine_append chunks
    rcases readLine_cases chunks with ⟨front, -, hfront⟩ | ⟨-, hrest⟩
    · rw [hline] at hfront
      exact absurd hfront.symm (by simp)
    · rw [hline, hrest] at happend
      simpa using happend
  | case2 chunks first rest hline ih =>
    rw [List.flatten_cons, ih, ← hline, readLine_append]

/-- The lines of a stream are the bytes of the lines of its text. -/
theorem readLines_of_lined {lines : List (List Char)} (h : Lined lines)
    (hchunks : chunks.flatten = Utf8.encode lines.flatten) :
    chunks.readLines = lines.map Utf8.encode := by
  induction h generalizing chunks with
  | nil =>
    exact readLines_of_flatten_nil hchunks
  | @last cs hcs hne =>
    rw [List.flatten_singleton] at hchunks
    have hnone : 0x0a ∉ chunks.flatten := by
      rw [hchunks]
      exact Utf8.lineFeed_not_mem_encode hcs
    obtain ⟨hline, hrest⟩ := readLine_of_not_mem hnone
    rw [hchunks] at hline
    have hbytes : Utf8.encode cs ≠ [] := fun hnil => hne (Utf8.encode_injective hnil)
    rw [readLines_of_ne_nil (by rwa [hline]), hline, readLines_of_flatten_nil hrest]
    rfl
  | @cons cs lines hcs hlines ih =>
    rw [List.flatten_cons, List.append_assoc, List.singleton_append] at hchunks
    have hbytes : chunks.flatten = Utf8.encode cs ++ 0x0a :: Utf8.encode lines.flatten := by
      rw [hchunks, Utf8.encode_append]
      rfl
    obtain ⟨hline, hrest⟩ := readLine_of_lineFeed (Utf8.lineFeed_not_mem_encode hcs) hbytes
    rw [readLines_of_ne_nil (by simp [hline]), hline, ih hrest, List.map_cons, Utf8.encode_line]

end Chunks

theorem mapM_decode_eq_ok_iff {lines : List (List UInt8)} {texts : List (List Char)} :
    lines.mapM Utf8.decode = .ok texts ↔ lines = texts.map Utf8.encode := by
  induction lines generalizing texts with
  | nil => cases texts <;> simp [pure, Except.pure]
  | cons line lines ih =>
    rw [mapM_cons_eq_ok_iff]
    constructor
    · rintro ⟨text, rest, htext, hrest, rfl⟩
      rw [List.map_cons, ← Utf8.decode_eq_ok_iff.mp htext, ← ih.mp hrest]
    · intro h
      obtain ⟨text, rest, rfl, rfl, rfl⟩ := List.map_eq_cons_iff.mp h.symm
      exact ⟨text, rest, Utf8.decode_encode text, ih.mpr rfl, rfl⟩

namespace Scanned

variable {chunks : Chunks}

theorem ofChunks_of_flatten {text : String} (h : chunks.flatten = Utf8.encode text.toList) :
    ofChunks chunks = .ok (ofText text) := by
  have hlines : chunks.readLines = (linesOf text.toList).map Utf8.encode := by
    apply Chunks.readLines_of_lined (lined_linesOf _)
    rw [h, flatten_linesOf]
  rw [ofChunks, mapM_decode_eq_ok_iff.mpr hlines]
  dsimp only
  rw [flatten_linesOf, String.ofList_toList]
  rfl

/-- A stream is scanned as the text that it holds the bytes of. -/
theorem ofChunks_eq_ok_iff {scanned : Scanned} : ofChunks chunks = .ok scanned ↔
    chunks.flatten = Utf8.encode scanned.text.toList ∧ scanned = ofText scanned.text := by
  constructor
  · intro h
    have hflatten : ∃ text : String, chunks.flatten = Utf8.encode text.toList := by
      unfold ofChunks at h
      split at h
      · next lines hlines =>
        refine ⟨String.ofList lines.flatten, ?_⟩
        rw [← chunks.flatten_readLines, mapM_decode_eq_ok_iff.mp hlines, String.toList_ofList,
          Utf8.encode_flatten]
      · cases h
    obtain ⟨text, htext⟩ := hflatten
    rw [ofChunks_of_flatten htext] at h
    obtain rfl := Except.ok.inj h
    exact ⟨htext, rfl⟩
  · rintro ⟨hflatten, hscanned⟩
    rw [ofChunks_of_flatten hflatten, ← hscanned]

theorem ofChunks_eq_error (h : ∀ text : String, chunks.flatten ≠ Utf8.encode text.toList) :
    ofChunks chunks = .error .invalidText := by
  cases hscan : ofChunks chunks with
  | ok scanned => exact absurd (ofChunks_eq_ok_iff.mp hscan).1 (h _)
  | error e =>
    unfold ofChunks at hscan
    split at hscan
    · cases hscan
    · exact hscan.symm

end Scanned

/-- A stream is scanned exactly if its bytes are UTF-8, and then as the text of its bytes. -/
structure Chunks.ScanAsText (chunks : Chunks) : Prop where
  valid : (∃ scanned, Scanned.ofChunks chunks = .ok scanned) ↔
    chunks.flatten.toByteArray.IsValidUTF8
  invalid : ¬ chunks.flatten.toByteArray.IsValidUTF8 →
    Scanned.ofChunks chunks = .error .invalidText
  text : ∀ scanned, Scanned.ofChunks chunks = .ok scanned →
    scanned.text.toUTF8 = chunks.flatten.toByteArray
  declared : ∀ scanned, Scanned.ofChunks chunks = .ok scanned →
    scanned.declared = (Scanned.ofText scanned.text).declared
  again : ∀ scanned, Scanned.ofChunks chunks = .ok scanned →
    Scanned.ofText scanned.text = scanned ∧
    ∀ others : Chunks, others.flatten.toByteArray = scanned.text.toUTF8 →
      Scanned.ofChunks others = .ok scanned

/-- Cutting a stream into chunks changes nothing: every stream is scanned as its text. -/
theorem Chunks.scanAsText (chunks : Chunks) : chunks.ScanAsText := by
  have hscan {chunks : Chunks} {scanned : Scanned} (h : Scanned.ofChunks chunks = .ok scanned) :
      chunks.flatten = Utf8.encode scanned.text.toList ∧ scanned = .ofText scanned.text :=
    Scanned.ofChunks_eq_ok_iff.mp h
  have hvalid : (∃ scanned, Scanned.ofChunks chunks = .ok scanned) ↔
      chunks.flatten.toByteArray.IsValidUTF8 := by
    rw [Utf8.isValidUTF8_iff]
    constructor
    · rintro ⟨scanned, h⟩
      exact ⟨_, (hscan h).1⟩
    · rintro ⟨text, htext⟩
      exact ⟨_, Scanned.ofChunks_of_flatten htext⟩
  exact {
    valid := hvalid
    invalid := fun hnot => by
      rw [Utf8.isValidUTF8_iff] at hnot
      exact Scanned.ofChunks_eq_error fun text htext => hnot ⟨text, htext⟩
    text := fun scanned h => (Utf8.toByteArray_eq_iff.mpr (hscan h).1).symm
    declared := fun scanned h => congrArg Scanned.declared (hscan h).2
    again := fun scanned h => by
      have hsame : Scanned.ofText scanned.text = scanned := (hscan h).2.symm
      refine ⟨hsame, fun others hothers => ?_⟩
      rw [Scanned.ofChunks_of_flatten (Utf8.toByteArray_eq_iff.mp hothers), hsame] }

end TemplateViews
