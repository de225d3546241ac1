import Concise.Dialect
import Concise.Print.Program
import Concise.Property.Plan

/-!
The transformation of one source: it is read, simplified and, if anything was simplified, printed. A
source in which nothing was simplified is kept as it is, character by character.
-/

namespace Concise

/-- The result of transforming one source. -/
structure Transformed where
  code : String
  /-- Something was simplified; otherwise the code is the source itself. -/
  isChanged : Bool
  counts : Counts
  /-- The simplifications carried out, in document order, each with the offset of its property. -/
  done : List (Simplification × Nat)
  /-- The number of planned simplifications that met no property. -/
  pending : Nat
deriving Inhabited

/-- Transforms a source in a dialect; errors give the name. -/
def transformAs (name : String) (dialect : Dialect) (options : TransformOptions) (source : String) :
    Except Error Transformed := do
  let program ← Program.parse name dialect false source
  let simplified := program.tree.simplify
  let isChanged := simplified.counts.simplified != 0
  let code :=
    if isChanged then { program with tree := simplified.tree }.print options.printOptions
    else source
  return {
    code, isChanged
    counts := simplified.counts, done := simplified.done, pending := simplified.pending }

/-- Transforms a source without a file. -/
def transformSource (dialect : Dialect) (options : TransformOptions) (source : String) :
    Except Error Transformed :=
  transformAs "<input>" dialect options source

/-- Transforms the contents of a file, whose extension tells the dialect. -/
def transformFile (path : Path) (options : TransformOptions) (source : String) :
    Except Error Transformed := do
  transformAs path (← Dialect.ofPath path) options source

end Concise
