/-!
# Output

What a program writes to its two streams. Outputs are joined stream by stream, so the order inside a
stream is kept.
-/

namespace ScriptCell

/-- Text for the output stream and for the error stream. -/
structure Output where
  /-- What goes to the output stream. -/
  out : String
  /-- What goes to the error stream. -/
  err : String
  deriving DecidableEq

namespace Output

/-- No output. -/
def empty : Output := ⟨"", ""⟩

/-- Text on the output stream. -/
def onOut (s : String) : Output := ⟨s, ""⟩

/-- Text on the error stream. -/
def onErr (s : String) : Output := ⟨"", s⟩

instance : Append Output := ⟨fun a b => ⟨a.out ++ b.out, a.err ++ b.err⟩⟩

@[simp] theorem out_append (a b : Output) : (a ++ b).out = a.out ++ b.out := rfl

@[simp] theorem err_append (a b : Output) : (a ++ b).err = a.err ++ b.err := rfl

theorem eq_of_streams {a b : Output} (ho : a.out = b.out) (he : a.err = b.err) : a = b := by
  cases a
  cases b
  cases ho
  cases he
  rfl

@[simp] theorem empty_append (a : Output) : empty ++ a = a :=
  eq_of_streams String.empty_append String.empty_append

@[simp] theorem append_empty (a : Output) : a ++ empty = a :=
  eq_of_streams String.append_empty String.append_empty

theorem append_assoc (a b c : Output) : a ++ b ++ c = a ++ (b ++ c) :=
  eq_of_streams String.append_assoc String.append_assoc

/-- Text that is written at once and text that is written in two parts are the same. -/
theorem onOut_append (s t : String) : onOut (s ++ t) = onOut s ++ onOut t :=
  eq_of_streams rfl String.empty_append.symm

theorem onErr_append (s t : String) : onErr (s ++ t) = onErr s ++ onErr t :=
  eq_of_streams String.empty_append.symm rfl

end Output

/-- What a finished program leaves: its exit code and its output. -/
structure Exit where
  /-- The exit code. -/
  code : Nat
  /-- Everything it wrote. -/
  output : Output
  deriving DecidableEq

end ScriptCell
