import PluginHost.Manager.Basic

/-!
# Shared libraries

How the system's own loader takes a path. A path without a `/` is looked for
among the system's libraries, which hold no plugin; the empty path is the running
program, which exports no entry. No file of the model is a library that loads, so
what is left is why it does not.
-/

namespace PluginHost.Native

def headerLength : Nat := 64

def signature : List UInt8 := [0x7F, 0x45, 0x4C, 0x46]

/-- Nothing is found that could be loaded. -/
def nothingFound : String :=
  "cannot open shared object file: No such file or directory"

/-- What is wrong with the bytes of a header that say for what kind of system the file
is, the class left aside. -/
def identFault? (data : List UInt8) : Option String :=
  let byteAt (i : Nat) : UInt8 := data.getD i 0
  if byteAt 5 ≠ 1 then some "ELF file data encoding not little-endian"
  else if byteAt 6 ≠ 1 then some "ELF file version ident does not match current one"
  else if byteAt 7 ≠ 0 ∧ byteAt 7 ≠ 3 then some "ELF file OS ABI invalid"
  else if byteAt 7 = 0 ∧ byteAt 8 ≠ 0 then some "ELF file ABI version invalid"
  else if ((data.take 16).drop 9).any (· ≠ 0) then some "nonzero padding in e_ident"
  else none

/-- The number that two bytes of a header hold, the low byte first. -/
def half (data : List UInt8) (offset : Nat) : Nat :=
  (data.getD offset 0).toNat + 256 * (data.getD (offset + 1) 0).toNat

/-- The file is for another kind of machine. -/
def isForeign (data : List UInt8) : Bool :=
  half data 18 ≠ 62

/-- What is wrong with a file that is not long enough or says in its header that it
is no library for this system. A header without fault is followed by nothing that
can be loaded. -/
def headerFault (data : List UInt8) : String :=
  if data.length < headerLength then "file too short"
  else if data.take 4 ≠ signature then "invalid ELF header"
  else if data[4]? ≠ some 2 then "wrong ELF class: ELFCLASS32"
  else match identFault? data with
    | some fault => if isForeign data then nothingFound else fault
    | none =>
      if half data 20 ≠ 1 ∨ half data 22 ≠ 0 then "ELF file version does not match current one"
      else if isForeign data then nothingFound
      else if half data 16 ≠ 2 ∧ half data 16 ≠ 3 then "only ET_DYN and ET_EXEC can be loaded"
      else if half data 54 ≠ 56 then "ELF file's phentsize not the expected size"
      else "object file has no loadable segments"

/-- A fault as the system's loader words it. -/
def wording : Files.Fault → String
  | .notFound => "No such file or directory"
  | .permissionDenied => "Permission denied"
  | .alreadyExists => "File exists"
  | .notDirectory => "Not a directory"
  | .isDirectory => "Is a directory"
  | .nameTooLong => "File name too long"
  | .tooManyLinks => "Too many levels of symbolic links"
  | .nulInName => "Invalid argument"
  | .notText => "Invalid argument"
  | .other text => text

/-- Why a path that holds no NUL is not loaded. -/
def reason (path : String) (fs : Files) : String :=
  if !path.toList.contains '/' then nothingFound
  else match fs.node true path with
    | .error f => "cannot open shared object file: " ++ wording f
    | .ok (.file data) => headerFault data
    | .ok _ => "cannot read file data: Is a directory"

def loader {σ : Type} : Loader σ := fun path fs _ =>
  if Terminated.hasNul path then .error "could not create a C string from bytes"
  else if path = "" then .ok .noEntry
  else .error (path ++ ": " ++ reason path fs)

end PluginHost.Native
