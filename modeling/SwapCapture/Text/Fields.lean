/-
Text in fields, divided by one character.

`Text.fields` never drops a field: two dividers side by side have an empty field between them,
and a text without a divider is one field.
-/
namespace SwapCapture.Text

/-- The pieces of a text between the places where `divider` stands. -/
def fields (divider : Char) : List Char → List (List Char)
  | [] => [[]]
  | c :: rest =>
    if c = divider then [] :: fields divider rest
    else
      match fields divider rest with
      | [] => [[c]]
      | field :: more => (c :: field) :: more

theorem fields_ne_nil (divider : Char) (text : List Char) : fields divider text ≠ [] := by
  induction text with
  | nil => simp [fields]
  | cons c rest ih =>
    unfold fields
    split
    · simp
    · split <;> simp

end SwapCapture.Text
