import Mathlib.Logic.Function.Basic
import Mathlib.Data.List.Basic
/-!
# Files that are written in place

The files of a directory, and a write that replaces a file without a temporary one:
it creates or truncates the file and then writes its bytes.  When it fails, the file
is as before or holds a beginning of the bytes.
-/

namespace Support.Files

variable {ν β ε : Type*}

/-- The contents of the files that exist. -/
abbrev Disk (ν β : Type*) := ν → Option (List β)

/-- How a write ends.  When it fails, `written` is the number of bytes in the file,
unless the file was not even truncated. -/
inductive WriteOutcome (ε : Type*)
  | done
  | failed (error : ε) (written : Option Nat)

/-- What a write leaves in its file. -/
def WriteOutcome.contents : WriteOutcome ε → Option (List β) → List β → Option (List β)
  | .done, _, bytes => some bytes
  | .failed _ none, old, _ => old
  | .failed _ (some written), _, bytes => some (bytes.take written)

def WriteOutcome.result : WriteOutcome ε → Except ε Unit
  | .done => .ok ()
  | .failed error _ => .error error

variable [DecidableEq ν]

def Disk.write (disk : Disk ν β) (name : ν) (bytes : List β) (outcome : WriteOutcome ε) :
    Disk ν β :=
  Function.update disk name (outcome.contents (disk name) bytes)

@[simp] theorem write_same (disk : Disk ν β) (name : ν) (bytes : List β)
    (outcome : WriteOutcome ε) :
    disk.write name bytes outcome name = outcome.contents (disk name) bytes :=
  Function.update_self ..

theorem write_other (disk : Disk ν β) {name other : ν} (h : other ≠ name) (bytes : List β)
    (outcome : WriteOutcome ε) : disk.write name bytes outcome other = disk other :=
  Function.update_of_ne h ..

@[simp] theorem write_untouched (disk : Disk ν β) (name : ν) (bytes : List β) (error : ε) :
    disk.write name bytes (.failed error none) = disk :=
  Function.update_eq_self ..

end Support.Files
