import Calculator.Text.Basic

/-!
# Cursors

A cursor goes through a text one character at a time.  Reading always moves it
forward, also behind the last character, where there is nothing to read.
Stepping back undoes one reading, down to the start of the text.
-/

namespace Calculator

/-- A place in a text, or behind it. -/
structure Cursor where
  /-- The text. -/
  text : Text
  /-- The number of characters read, those missing behind the end included. -/
  position : Nat := 0

namespace Cursor

/-- Reads the character at the cursor, if there is one, and moves forward. -/
def read (cursor : Cursor) : Option Char × Cursor :=
  (cursor.text[cursor.position]?, { cursor with position := cursor.position + 1 })

/-- Moves back by one character, if the cursor is not at the start. -/
def stepBack (cursor : Cursor) : Cursor :=
  { cursor with position := cursor.position - 1 }

@[simp] theorem read_fst (cursor : Cursor) :
    cursor.read.1 = cursor.text[cursor.position]? := rfl

@[simp] theorem stepBack_read (cursor : Cursor) : cursor.read.2.stepBack = cursor := rfl

end Cursor
end Calculator
