/-
Text in lines.

A line feed ends a line, together with one carriage return right before it.  The last line may do
without, so a text that ends in a line feed has no empty line behind it.

* `Text.lines` — the lines of a text;
* `Text.ofLines` — the text of some lines, each with a line feed behind it.
-/
import SwapCapture.Text.Fields

namespace SwapCapture.Text

/-- A line that a line feed has ended, without the carriage return at its end. -/
def dropReturn (line : List Char) : List Char :=
  if line.getLast? = some '\r' then line.dropLast else line

def lines (text : String) : List String :=
  let pieces := fields '\n' text.toList
  let last := pieces.getLast (fields_ne_nil '\n' text.toList)
  let ended := pieces.dropLast.map dropReturn
  (if last.isEmpty then ended else ended ++ [last]).map String.ofList

/-- The text of `lines`, each with a line feed behind it. -/
def ofLines (lines : List String) : String := String.join (lines.map fun line => line ++ "\n")

end SwapCapture.Text
