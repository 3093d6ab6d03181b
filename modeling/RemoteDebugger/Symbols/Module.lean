import RemoteDebugger.Symbols.Loader
import RemoteDebugger.Symbols.Resolver

/-!
# Module files

Loading a module's symbols from its file: the file is read whole and its
debug information loaded. Either step can fail; the resolver then holds no
symbols at all, and the status says why in words.
-/

namespace RemoteDebugger

/-- Reads a whole file, or gives the system's description of why it could not. -/
abbrev FileContents := String → Except String ByteArray

/-- The system's description of a failed file operation by its error number. -/
def systemErrorText (code : Nat) : String :=
  let words := match code with
    | 1 => "Operation not permitted"
    | 2 => "No such file or directory"
    | 5 => "Input/output error"
    | 13 => "Permission denied"
    | 20 => "Not a directory"
    | 21 => "Is a directory"
    | 24 => "Too many open files"
    | 36 => "File name too long"
    | 40 => "Too many levels of symbolic links"
    | _ => "Unknown error " ++ toString code
  words ++ " (os error " ++ toString code ++ ")"

/-- Whether loading a module's symbols worked, with a message either way. -/
structure LoadStatus where
  loaded : Bool
  message : String
  deriving DecidableEq, Repr

/-- The symbol database of the module file at a path, or, inside, the arithmetic fault that
ends the program. -/
def loadModuleFile (read : FileContents) (path : String) : Except DebugError (Checked SymbolDatabase) :=
  match read path with
  | .error detail => .error (.io detail)
  | .ok bytes => Loader.loadModule bytes

namespace Resolver

/-- Replace the symbols with those of the module file at a path, loaded at `base`. On failure
the resolver is left without symbols. -/
def loadModule (r : Resolver) (read : FileContents) (path : String) (base : Address) :
    Checked (Resolver × LoadStatus) :=
  match loadModuleFile read path with
  | .ok (.ok db) =>
    let stats := db.stats
    .ok ({ r with db, base, module := some path },
      ⟨true, "Loaded symbols for " ++ path ++ " (" ++ toString stats.entries ++ " entries, " ++
        toString stats.files ++ " source files, " ++ toString stats.locations ++ " line rows)"⟩)
  | .ok (.error o) => .error o
  | .error e =>
    .ok ({ r with db := .empty, base, module := none },
      ⟨false, "Failed to load symbols for " ++ path ++ ": " ++ e.message⟩)

end Resolver

end RemoteDebugger
