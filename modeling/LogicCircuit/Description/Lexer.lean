import LogicCircuit.Description.Cursor
import LogicCircuit.Symbol

/-!
Reading tokens one by one into a table of symbols.
-/

namespace LogicCircuit.Description

structure Lexer where
  cursor : Cursor
  symbols : SymbolTable

namespace Lexer

/-- A lexer over a text. The keywords are interned first. -/
def ofSource (source : List Char) (t : SymbolTable) : Lexer :=
  ⟨Cursor.ofSource source, t.addAll (Keyword.all.map Keyword.text)⟩

/-- Reads the next token and interns the name that it may be. -/
def next (l : Lexer) : Except (Located LexicalFault) (Located Token) × Lexer :=
  match l.cursor.next with
  | (.ok t, cursor) => (.ok t, ⟨cursor, (t.value.word?.map l.symbols.add).getD l.symbols⟩)
  | (.error fault, cursor) => (.error fault, ⟨cursor, l.symbols⟩)

end Lexer

end LogicCircuit.Description
