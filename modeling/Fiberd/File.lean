import Fiberd.Lib.Messages

/-!
The contents of a file, whose size the file system counts with 63 bits, and what a
read of a name may find.
-/

namespace Fiberd

open Messages

inductive ReadResult (α : Type) where
  | failed
  | missing
  | found (value : α)
  deriving DecidableEq, Repr

def File := { bytes : Bytes // bytes.length < 2 ^ 63 }

instance : DecidableEq File := inferInstanceAs (DecidableEq (Subtype _))

def File.of (bytes : Bytes) : Option File :=
  if fits : bytes.length < 2 ^ 63 then some ⟨bytes, fits⟩ else none

def emptyFile : File := ⟨[], by decide⟩

/-- For bytes that fit. -/
def fileOf (bytes : Bytes) : File := (File.of bytes).getD emptyFile

theorem File.of_val {bytes : Bytes} {file : File} (fits : File.of bytes = some file) :
    file.val = bytes := by
  unfold File.of at fits
  split at fits <;> cases fits
  rfl

end Fiberd
