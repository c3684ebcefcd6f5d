import XBase.Heap.Value
import XBase.Text.Case

/-!
# Cursors

A cursor starts on the first row and moves forward. Its columns are read by name, and the names of
its methods are never columns.
-/

namespace XBase.Cursor

def atEnd (cursor : Cursor) : Bool :=
  cursor.rows.length ≤ cursor.position

/-- Moves to the next row; at the end the cursor stays. -/
def advance (cursor : Cursor) : Cursor :=
  if cursor.atEnd then cursor else { cursor with position := cursor.position + 1 }

def isMethod (name : String) : Bool :=
  ["next", "eof", "close"].any (Text.sameUpToAsciiCase · name)

/-- A column of the current row: the first whose name agrees up to ASCII case. -/
def column (cursor : Cursor) (name : String) : Except String Value :=
  if cursor.closed then .error "The cursor is closed."
  else
    match cursor.rows[cursor.position]? with
    | none => .error "The cursor is at end of file."
    | some row =>
      match row.find? fun entry => Text.sameUpToAsciiCase entry.1 name with
      | some entry => .ok entry.2
      | none => .error ("Column `" ++ name ++ "` not found.")

end XBase.Cursor
