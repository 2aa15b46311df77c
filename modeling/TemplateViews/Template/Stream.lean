import TemplateViews.SystemError
import TemplateViews.Template.Declared
import TemplateViews.Text.Utf8

/-! Templates read from a stream of bytes. The bytes come in chunks of any size, and
are put together line by line; each line has to be UTF-8 on its own. -/

namespace TemplateViews

abbrev Chunks := List (List UInt8)

namespace Chunks

/-- The bytes up to and with the first line feed, and the chunks after it. -/
def readLine : Chunks → List UInt8 × Chunks
  | [] => ([], [])
  | chunk :: rest =>
    match chunk.dropWhile (· != 0x0a) with
    | [] => (chunk ++ (readLine rest).1, (readLine rest).2)
    | feed :: after => (chunk.takeWhile (· != 0x0a) ++ [feed], after :: rest)

theorem readLine_append (chunks : Chunks) :
    (readLine chunks).1 ++ (readLine chunks).2.flatten = chunks.flatten := by
  induction chunks with
  | nil => rfl
  | cons chunk rest ih =>
    unfold readLine
    split
    · simp [ih]
    · next feed after h =>
      simp only [List.append_assoc, List.singleton_append, List.flatten_cons]
      rw [← List.cons_append, ← h, ← List.append_assoc, List.takeWhile_append_dropWhile]

def readLines (chunks : Chunks) : List (List UInt8) :=
  match _h : (readLine chunks).1 with
  | [] => []
  | first :: rest => (first :: rest) :: readLines (readLine chunks).2
termination_by chunks.flatten.length
decreasing_by
  have := congrArg List.length (readLine_append chunks)
  simp only [_h, List.length_append, List.length_cons] at this
  omega

end Chunks

def Scanned.ofChunks (chunks : Chunks) : Except SystemError Scanned :=
  match chunks.readLines.mapM Utf8.decode with
  | .ok lines => .ok ⟨String.ofList lines.flatten, Declared.ofLines lines⟩
  | .error _ => .error .invalidText

end TemplateViews
