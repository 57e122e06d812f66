import CertKeeper.Error

/-!
# The listener on the system CA

The directory of the system CA file is watched, so that a change of the file is noticed and also the
swap of the link through which mounted volumes are replaced.
-/

namespace CertKeeper.Watch.SystemCa

inductive FileChange where
  | any
  | other
  | createFile
  | createFolder
  | modifyData
  | modifyMetadata
  | modifyName
  | removeFile
  | accessRead
  | accessCloseWrite
  deriving DecidableEq, Repr

/-- Whether the content of a file may be another one afterwards. -/
def FileChange.isWrite : FileChange → Bool
  | createFile | createFolder | modifyData | modifyMetadata | modifyName => true
  | _ => false

/-- A change of the files of a directory. -/
structure FileEvent where
  change : FileChange
  names : List String
  deriving DecidableEq, Repr

/-- The link that is swapped when a mounted volume is replaced. -/
def volumeLink : String := "..data"

def signals (name : String) (e : FileEvent) : Bool :=
  e.change.isWrite && e.names.any fun n => n == name || n == volumeLink

def components : List Char → List (List Char)
  | [] => [[]]
  | c :: rest =>
    match components rest with
    | [] => [[c]]
    | first :: others => if c = '/' then [] :: first :: others else (c :: first) :: others

/-- The name of the file that a path leads to. A path to a parent directory names no file. -/
def fileName? (path : String) : Option String :=
  match ((components path.toList).filter fun c => c ≠ [] && c ≠ ['.']).getLast? with
  | none => none
  | some name => if name = ['.', '.'] then none else some (String.ofList name)

def watched (path : String) : Except SyncError String :=
  match fileName? path with
  | some name => .ok name
  | none => .error (.watch (path ++ " names no file"))

inductive Action where
  | write (file : String)
  | link (file : String)
  | remove (file : String)
  | read (file : String)
  | rename (file target : String)
  deriving DecidableEq, Repr

namespace Action

def perform (files : List String) : Action → List FileEvent × List String
  | write f =>
    if f ∈ files then ([⟨.modifyData, [f]⟩, ⟨.accessCloseWrite, [f]⟩], files)
    else ([⟨.createFile, [f]⟩, ⟨.modifyData, [f]⟩, ⟨.accessCloseWrite, [f]⟩], f :: files)
  | link f => if f ∈ files then ([], files) else ([⟨.createFile, [f]⟩], f :: files)
  | remove f => if f ∈ files then ([⟨.removeFile, [f]⟩], files.filter (· ≠ f)) else ([], files)
  | read f => if f ∈ files then ([⟨.accessRead, [f]⟩], files) else ([], files)
  | rename f target =>
    if f ∈ files then
      ([⟨.modifyName, [f, target]⟩], target :: files.filter fun g => g ≠ f && g ≠ target)
    else ([], files)

end Action
end CertKeeper.Watch.SystemCa
