import ScriptCell.Host
import ScriptCell.Value.Arith
import ScriptCell.Value.Test

/-!
# Stores of cells

A `Store` has a fixed number of cells. A step either writes one cell or only looks. A write computes
its value from the cells as they are and changes nothing when that fails; only `Step.trySet` clears
its own cell first.

* `Store.get_set_self`, `Store.get_set_of_ne`: what a write shows.
-/

namespace ScriptCell

/-- A store of `n` cells. -/
structure Store (n : Nat) where
  /-- What the cells hold. -/
  cells : Vector Value n

namespace Store

variable {n : Nat}

/-- The store in which no cell is known. -/
def fresh (n : Nat) : Store n := ⟨.replicate n .undefined⟩

/-- What a cell holds. -/
def get (s : Store n) (i : Fin n) : Value := s.cells[i]

/-- The store with one cell replaced. -/
def set (s : Store n) (i : Fin n) (v : Value) : Store n := ⟨s.cells.set i v⟩

/-- What all cells hold, in order. -/
def toList (s : Store n) : List Value := s.cells.toList

@[simp] theorem get_fresh (i : Fin n) : (fresh n).get i = .undefined := by
  simp [fresh, get]

@[simp] theorem get_set_self (s : Store n) (i : Fin n) (v : Value) : (s.set i v).get i = v := by
  simp [set, get]

theorem get_set_of_ne (s : Store n) {i j : Fin n} (h : i ≠ j) (v : Value) :
    (s.set i v).get j = s.get j := by
  have h' : (i : Nat) ≠ j := fun e => h (Fin.ext e)
  simp [set, get, Vector.getElem_set_ne, h']

end Store

/-- Where the value of a write comes from. -/
inductive Source (n : Nat) where
  /-- A given value. -/
  | constant (v : Value)
  /-- A host value of a type with a conversion. -/
  | host (t : HostType) (h : t.isStatic = true) (x : t.Carrier)
  /-- A host value of a type that is looked up. -/
  | native (t : HostType) (x : t.Carrier)
  /-- Another cell. -/
  | copy (a : Fin n)
  /-- An arithmetic operator on two cells. -/
  | arith (op : ArithOp) (a b : Fin n)
  /-- Unary minus of a cell. -/
  | negate (a : Fin n)
  /-- A conversion of a cell. -/
  | convert (a : Fin n) (target : Kind)

/-- The value of a source, computed from the cells as they are. -/
def Source.eval {n : Nat} (s : Store n) : Source n → Except Error Value
  | .constant v => .ok v
  | .host t h x => .ok (.ofHost t h x)
  | .native t x => Value.ofNative t x
  | .copy a => .ok (s.get a)
  | .arith op a b => op.apply (s.get a) (s.get b)
  | .negate a => .ok (s.get a).negate
  | .convert a target => (s.get a).convertTo target

/-- A step on a store. -/
inductive Step (n : Nat) where
  /-- Writes a cell, if the value can be computed. -/
  | write (r : Fin n) (source : Source n)
  /-- Clears a cell and then fills it with a host value whose type is looked up. -/
  | trySet (r : Fin n) (t : HostType) (x : t.Carrier)
  /-- Tests two cells. -/
  | test (op : TestOp) (a b : Fin n)
  /-- Looks at all views of a cell. -/
  | views (a : Fin n)

/-- What a step that does not fail answers. -/
inductive Answer where
  /-- The new value of the cell that was written. -/
  | written (v : Value)
  /-- The result of a test. -/
  | truth (b : Bool)
  /-- The value whose views were asked for. -/
  | viewed (v : Value)

namespace Step

variable {n : Nat}

/-- Runs a step: the store after it and its answer. -/
def run (s : Store n) : Step n → Store n × Except Error Answer
  | .write r source =>
    match source.eval s with
    | .ok v => (s.set r v, .ok (.written v))
    | .error e => (s, .error e)
  | .trySet r t x =>
    let (v, result) := Value.trySet t x
    (s.set r v, result.map fun _ => .written v)
  | .test op a b => (s, (op.apply (s.get a) (s.get b)).map .truth)
  | .views a => (s, .ok (.viewed (s.get a)))

end Step

/-- Runs steps one after another: after each of them its answer and the store. -/
def Store.trace {n : Nat} (s : Store n) : List (Step n) → List (Except Error Answer × Store n)
  | [] => []
  | step :: steps =>
    let (s', answer) := step.run s
    (answer, s') :: s'.trace steps

end ScriptCell
