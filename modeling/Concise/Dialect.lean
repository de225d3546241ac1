import Concise.Grammar.Program
import Concise.Error
import Concise.Path

/-!
The dialect of a source, which the extension of its file tells.
-/

namespace Concise

namespace Dialect

/-- JavaScript in a module, without markup. -/
def plainModule : Dialect := { isTypeScript := false, hasMarkup := false, isModule := true }

/-- JavaScript in a module, with markup. -/
def moduleWithMarkup : Dialect := { plainModule with hasMarkup := true }

/-- JavaScript in a script. -/
def script : Dialect := { isTypeScript := false, hasMarkup := false, isModule := false }

/-- TypeScript. -/
def typeScript : Dialect := { isTypeScript := true, hasMarkup := false, isModule := true }

/-- TypeScript with markup. -/
def typeScriptWithMarkup : Dialect := { isTypeScript := true, hasMarkup := true, isModule := true }

/-- The dialect of files with an extension. -/
def ofExtension? : String → Option Dialect
  | "js" | "jsx" | "mjs" => some moduleWithMarkup
  | "cjs" => some script
  | "ts" | "mts" | "cts" => some typeScript
  | "tsx" => some typeScriptWithMarkup
  | _ => none

/-- The dialect of a file. -/
def ofPath? (path : Path) : Option Dialect := path.extension? >>= ofExtension?

/-- The dialect of a file, or the error that names the file. -/
def ofPath (path : Path) : Except Error Dialect :=
  match ofPath? path with
  | some dialect => .ok dialect
  | none => .error (.unsupportedExtension path)

end Dialect

namespace Program

/-- What is said of every source that is refused: the grammar does not tell the reasons apart. -/
def diagnostics : List String := ["Unexpected token"]

/-- Reads a source under a name, which the error gives. -/
def parse (name : String) (dialect : Dialect) (keepsParentheses : Bool) (source : String) :
    Except Error Program :=
  match parse? dialect keepsParentheses source with
  | some program => .ok program
  | none => .error (.parse name diagnostics)

end Program

end Concise
