import Concise.Grammar.Parser

/-!
Templates: pieces of raw text with an expression, or in types a type, between each two of them.
-/

namespace Concise.Grammar

open Concise.Parser

/-- Reads the pieces of a template from the text after the cursor on, with an item between each two
of them. -/
def templatePieces (item : Parser Tree) (allowsInvalid : Bool) :
    Parser (List String × List Tree) :=
  loop (fun (raws, items) => do
    let cursor ← get
    match Quoted.readPiece [] true cursor.rest with
    | none => failure
    | some (piece, rest) =>
        require (piece.isValid || allowsInvalid)
        set { cursor with
          rest, offset := cursor.offset + Cursor.consumed cursor.rest rest, opens := false }
        if piece.isLast then
          return .inr ((piece.raw :: raws).reverse, items.reverse)
        let tree ← item
        let token ← peek
        require (token.lexeme == .closeBrace)
        skip token
        return .inl (piece.raw :: raws, tree :: items)) ([], [])

end Concise.Grammar
