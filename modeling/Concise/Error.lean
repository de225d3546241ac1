/-!
What can go wrong with a source: it cannot be read, its file name tells no dialect, or an option for
printing is unknown. Simplification itself never fails.
-/

namespace Concise

/-- Why a source was not transformed. -/
inductive Error where
  /-- The source is not in the language, for these reasons. -/
  | parse (path : String) (diagnostics : List String)
  /-- The extension of the file name belongs to no dialect. -/
  | unsupportedExtension (path : String)
  /-- There is no such style of quotes. -/
  | invalidQuoteStyle (style : String)
deriving DecidableEq, Inhabited

namespace Error

/-- The text of an error. -/
def message : Error → String
  | parse path diagnostics => "failed to parse " ++ path ++ ": " ++ "; ".intercalate diagnostics
  | unsupportedExtension path => "unsupported file extension: " ++ path
  | invalidQuoteStyle style =>
      "invalid quote style `" ++ style ++ "` (expected `single` or `double`)"

end Error

end Concise
