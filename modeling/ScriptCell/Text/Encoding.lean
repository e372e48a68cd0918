/-!
# Bytes, characters and lines

Input arrives as bytes. `decode?` reads UTF-8 and refuses everything else; `splitAfter` cuts a list
behind every occurrence of a separator and loses nothing (`flatten_splitAfter`); `lines` are the
lines of a text without their ends.
-/

namespace ScriptCell

/-- The text that UTF-8 bytes encode. -/
def decode? (bytes : List UInt8) : Option String := String.fromUTF8? ⟨bytes.toArray⟩

/-- Cuts a list behind every element equal to `sep`. No piece is empty. -/
def splitAfter {α : Type} [DecidableEq α] (sep : α) : List α → List (List α)
  | [] => []
  | x :: xs =>
    if x = sep then [x] :: splitAfter sep xs
    else
      match splitAfter sep xs with
      | [] => [[x]]
      | piece :: pieces => (x :: piece) :: pieces

/-- Nothing is lost when a list is cut. -/
@[simp] theorem flatten_splitAfter {α : Type} [DecidableEq α] (sep : α) (xs : List α) :
    (splitAfter sep xs).flatten = xs := by
  induction xs with
  | nil => rfl
  | cons x xs ih =>
    rw [splitAfter]
    split
    · simp [ih]
    · revert ih
      cases splitAfter sep xs with
      | nil => intro ih; simpa using ih
      | cons piece pieces => intro ih; simpa using ih

/-- A line without the newline that ends it, nor a carriage return in front of that. -/
def stripLineEnd (line : List Char) : List Char :=
  match line.reverse with
  | '\n' :: '\r' :: rest => rest.reverse
  | '\n' :: rest => rest.reverse
  | _ => line

/-- The lines of a text, without their ends. -/
def lines (s : String) : List String :=
  (splitAfter '\n' s.toList).map fun line => String.ofList (stripLineEnd line)

end ScriptCell
