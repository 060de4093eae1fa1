/-!
# Why a file cannot be read

The reasons a source file may be unreadable, in the words of the operating system and with
its number for them.
-/

namespace MiniLexer.Cli

/-- A reason why a file cannot be read. -/
inductive ReadFailure where
  /-- There is nothing by that name. -/
  | missing
  /-- A file stands where the path goes on. -/
  | behindFile
  /-- It is a directory. -/
  | directory
  /-- The reader may not read it. -/
  | denied
  /-- Its bytes are not UTF-8. -/
  | notText
  /-- Anything else that the system reports. -/
  | other (reason : String)
  deriving DecidableEq, Repr

/-- The reason in words. -/
def ReadFailure.message : ReadFailure → String
  | missing => "No such file or directory (os error 2)"
  | behindFile => "Not a directory (os error 20)"
  | directory => "Is a directory (os error 21)"
  | denied => "Permission denied (os error 13)"
  | notText => "stream did not contain valid UTF-8"
  | other reason => reason

/-- The text that some bytes are. -/
def decodeText (bytes : ByteArray) : Except ReadFailure String :=
  match String.fromUTF8? bytes with
  | some text => .ok text
  | none => .error .notText

end MiniLexer.Cli
