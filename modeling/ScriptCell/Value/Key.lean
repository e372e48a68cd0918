import ScriptCell.Value

/-!
# Equality of values, and values as keys

Equality is strict about the kind; on numbers it is numeric equality, except that every NaN equals
every NaN. A value is hashed by a sequence of `KeyItem`s, in which the numbers that are equal have
one pattern. An `Index` records, for each value that was inserted, the first position of an equal
one.
-/

namespace ScriptCell

namespace Value

/-- Whether two numbers are the same value: numerically equal, or both NaN. -/
def sameNumber (x y : Single) : Bool := x.numEq y || (x.isNaN && y.isNaN)

/-- Whether two values are equal. -/
def equal : Value → Value → Bool
  | .undefined, .undefined => true
  | .null, .null => true
  | .number x, .number y => sameNumber x y
  | .string s, .string t => s = t
  | .variableRef s, .variableRef t => s = t
  | .bool b, .bool c => b = c
  | _, _ => false

end Value

/-- One item of what a value feeds to a hash. -/
inductive KeyItem where
  /-- A kind. -/
  | kind (k : Kind)
  /-- The bits of a number. -/
  | bits (n : Nat)
  /-- A text. -/
  | text (s : String)
  /-- A truth value. -/
  | flag (b : Bool)
  /-- The constant that stands for no payload. -/
  | empty
  deriving DecidableEq

namespace Value

/-- The bits that stand for a number in a key: one pattern for all NaNs, one for both zeros. -/
def numberKey (x : Single) : Nat :=
  if x.isNaN then (Binary.nan .single false).toBits
  else if x.isZero then 0
  else x.toBits

/-- What a value feeds to a hash: its kind, then its payload. -/
def keyItems (v : Value) : List KeyItem :=
  [.kind v.kind,
    match v with
    | .number x => .bits (numberKey x)
    | .string s => .text s
    | .variableRef name => .text name
    | .bool b => .flag b
    | .undefined | .null => .empty]

end Value

/-- A table keyed by values: each key with the position at which it was first inserted. -/
structure Index where
  /-- The keys and their first positions, in the order of insertion. -/
  entries : List (Value × Nat)

namespace Index

/-- The table without keys. -/
def empty : Index := ⟨[]⟩

/-- The first position of a key: an entry that feeds the same items and is equal. -/
def find? (t : Index) (v : Value) : Option Nat :=
  (t.entries.find? fun e => decide (e.1.keyItems = v.keyItems) && e.1.equal v).map (·.2)

/-- Records a position for a value whose key is not in the table yet. -/
def insert (t : Index) (v : Value) (position : Nat) : Index :=
  match t.find? v with
  | some _ => t
  | none => ⟨t.entries ++ [(v, position)]⟩

/-- The number of keys. -/
def size (t : Index) : Nat := t.entries.length

/-- Inserts values one after another, each at its position in the list. -/
def ofList (vs : List Value) : Index :=
  vs.zipIdx.foldl (fun t e => t.insert e.1 e.2) empty

end Index

end ScriptCell
