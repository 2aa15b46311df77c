/-! Errors of the operating system, with the texts it gives them. -/

namespace TemplateViews

inductive SystemError
  | notFound
  | permissionDenied
  | notDirectory
  | isDirectory
  | nameTooLong
  | storageFull
  /-- A file or stream that is read as text is not UTF-8. -/
  | invalidText
  | nulInPath
  | nulInArgument
  | other (text : String)
  deriving DecidableEq, Repr

def SystemError.message : SystemError → String
  | .notFound => "No such file or directory (os error 2)"
  | .permissionDenied => "Permission denied (os error 13)"
  | .notDirectory => "Not a directory (os error 20)"
  | .isDirectory => "Is a directory (os error 21)"
  | .nameTooLong => "File name too long (os error 36)"
  | .storageFull => "No space left on device (os error 28)"
  | .invalidText => "stream did not contain valid UTF-8"
  | .nulInPath => "file name contained an unexpected NUL byte"
  | .nulInArgument => "nul byte found in provided data"
  | .other text => text

end TemplateViews
