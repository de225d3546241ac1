import Concise.Transform

/-!
Transformations for a host program: the options are given once, and each source is transformed on
its own. Counts are 32-bit words.
-/

namespace Concise

/-- The result of a transformation for a host program. -/
structure HostResult where
  code : String
  isChanged : Bool
  shorthand : UInt32
  methods : UInt32
deriving DecidableEq, Inhabited

/-- The kinds of failure that a host program tells apart. -/
inductive HostStatus where
  | invalidArgument
  | genericFailure
deriving DecidableEq, Inhabited

/-- The kind of failure that an error is. -/
def Error.hostStatus : Error → HostStatus
  | .invalidQuoteStyle _ => .invalidArgument
  | _ => .genericFailure

/-- A transformation with its options. -/
structure Transformer where
  options : TransformOptions
deriving DecidableEq, Inhabited

namespace Transformer

/-- The name of a source that has none. -/
def defaultName : String := "input.js"

/-- The transformer for the name of a style of quotes, or for the default style. -/
def ofQuote (quote : Option String) : Except Error Transformer :=
  match quote with
  | some name => (QuoteStyle.parse name).map fun style => { options := .withQuote style }
  | none => .ok { options := .withQuote .single }

/-- Transforms a source; its name tells the dialect. -/
def transform (t : Transformer) (source : String) (name : Option String) :
    Except Error HostResult :=
  (transformFile (name.getD defaultName) t.options source).map fun result =>
    { code := result.code
      isChanged := result.isChanged
      shorthand := result.counts.shorthand.toUInt32
      methods := result.counts.methods.toUInt32 }

/-- Transforms a single source. -/
def transformOnce (source : String) (name quote : Option String) : Except Error HostResult := do
  (← ofQuote quote).transform source name

end Transformer

end Concise
