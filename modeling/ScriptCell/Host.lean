import ScriptCell.Value
import ScriptCell.Binary.Convert

/-!
# Values from the host program

A `HostType` describes a type of the host program and its `Carrier` the values of that type. There
are two ways into a value. `Value.ofHost` is for types with a conversion of their own, which covers
optional values of such types to any depth and references to values. `Value.ofNative` is told the
type only when it runs: it looks the type up in the table `bridges`, in which each row also serves
the optional values of its type, and fails with the name of a type it does not find.
-/

namespace ScriptCell

/-! ## Host types -/

/-- The integer types of the host. -/
inductive IntType where
  | i8 | i16 | i32 | i64 | i128 | isize
  | u8 | u16 | u32 | u64 | u128 | usize
  deriving DecidableEq

namespace IntType

/-- Every integer type. -/
def all : List IntType :=
  [.i8, .i16, .i32, .i64, .i128, .isize, .u8, .u16, .u32, .u64, .u128, .usize]

/-- The name of an integer type. -/
def name : IntType → String
  | .i8 => "i8" | .i16 => "i16" | .i32 => "i32" | .i64 => "i64" | .i128 => "i128"
  | .isize => "isize"
  | .u8 => "u8" | .u16 => "u16" | .u32 => "u32" | .u64 => "u64" | .u128 => "u128"
  | .usize => "usize"

/-- The width of an integer type in bits. -/
def bits : IntType → Nat
  | .i8 | .u8 => 8
  | .i16 | .u16 => 16
  | .i32 | .u32 => 32
  | .i64 | .u64 | .isize | .usize => 64
  | .i128 | .u128 => 128

/-- Whether an integer type has negative numbers. -/
def signed : IntType → Bool
  | .i8 | .i16 | .i32 | .i64 | .i128 | .isize => true
  | .u8 | .u16 | .u32 | .u64 | .u128 | .usize => false

/-- The least number of an integer type. -/
def least (t : IntType) : Int := if t.signed then -(Nat.pow 2 (t.bits - 1) : Int) else 0

/-- The greatest number of an integer type. -/
def greatest (t : IntType) : Int :=
  (Nat.pow 2 (if t.signed then t.bits - 1 else t.bits) : Int) - 1

end IntType

/-- The numbers of an integer type. -/
abbrev HostInt (t : IntType) := { n : Int // t.least ≤ n ∧ n ≤ t.greatest }

/-- The types of host values. -/
inductive HostType where
  | float32
  | float64
  | int (t : IntType)
  | bool
  /-- Text of its own. -/
  | string
  /-- Text borrowed from the program. -/
  | slice
  | char
  /-- A script value. -/
  | value
  /-- The type with one element. -/
  | unit
  /-- Values that may be absent. -/
  | option (t : HostType)
  /-- References. -/
  | ref (t : HostType)
  /-- Any other type, known by its name only. -/
  | named (name : String)
  deriving DecidableEq

namespace HostType

/-- The values of a host type. Of a type known by its name only there is nothing to see. -/
def Carrier : HostType → Type
  | .float32 => Single
  | .float64 => Double
  | .int t => HostInt t
  | .bool => Bool
  | .string => String
  | .slice => String
  | .char => Char
  | .value => Value
  | .unit => Unit
  | .option t => Option t.Carrier
  | .ref t => t.Carrier
  | .named _ => Unit

/-- The full name of a host type. -/
def name : HostType → String
  | .float32 => "f32"
  | .float64 => "f64"
  | .int t => t.name
  | .bool => "bool"
  | .string => "alloc::string::String"
  | .slice => "&str"
  | .char => "char"
  | .value => "quill_value::value::Value"
  | .unit => "()"
  | .option t => "core::option::Option<" ++ t.name ++ ">"
  | .ref t => "&" ++ t.name
  | .named name => name

/-- The types whose values are values of a script, when present. -/
def scalars : List HostType :=
  [.float32, .float64] ++ IntType.all.map .int ++ [.bool, .string, .slice, .char, .value]

/-- Whether a type has a conversion to values of its own. -/
def isStatic : HostType → Bool
  | .float32 | .float64 | .int _ | .bool | .string | .slice | .char | .value => true
  | .option t => t.isStatic
  | .ref t => t = .value
  | .unit | .named _ => false

end HostType

/-! ## Types with a conversion -/

namespace Value

/-- A number for a number of 64 bits. -/
def ofDouble (x : Double) : Value := .number (x.convert .single)

/-- A number for an integer. -/
def ofInt (n : Int) : Value := .number (.ofInt .single n)

/-- A text for a character. -/
def ofChar (c : Char) : Value := .string (String.singleton c)

/-- The value of a host value whose type has a conversion; absence is null. -/
def ofHost : (t : HostType) → t.isStatic = true → t.Carrier → Value
  | .float32, _, x => .number x
  | .float64, _, x => ofDouble x
  | .int _, _, n => ofInt n.1
  | .bool, _, b => .bool b
  | .string, _, s => .string s
  | .slice, _, s => .string s
  | .char, _, c => ofChar c
  | .value, _, v => v
  | .option _, _, none => .null
  | .option t, h, some x => ofHost t h x
  | .ref .value, _, v => v

end Value

/-! ## Types that are looked up -/

/-- A row of the table of types that are recognised while the program runs. -/
structure Bridge where
  /-- The type that the row serves. -/
  type : HostType
  /-- What becomes of a value of the type. -/
  convert : type.Carrier → Value

/-- The rows of the table. -/
def bridges : List Bridge :=
  [⟨.float32, .number⟩, ⟨.float64, .ofDouble⟩] ++
    IntType.all.map (fun t => ⟨.int t, fun n => .ofInt n.1⟩) ++
    [⟨.bool, .bool⟩, ⟨.string, .string⟩, ⟨.slice, .string⟩, ⟨.char, .ofChar⟩, ⟨.value, id⟩]

/-- Takes a host value if its type is the row's type or the optional form of it. -/
def Bridge.take? (b : Bridge) (t : HostType) (x : t.Carrier) : Option Value :=
  if h : t = b.type then some (b.convert (cast (congrArg HostType.Carrier h) x))
  else if h : t = .option b.type then
    let y : Option b.type.Carrier := cast (congrArg HostType.Carrier h) x
    some (y.elim .null b.convert)
  else none

namespace Value

/-- The value of a host value whose type is looked up while the program runs. -/
def ofNative (t : HostType) (x : t.Carrier) : Except Error Value :=
  match bridges.findSome? fun b => b.take? t x with
  | some v => .ok v
  | none => if t = .unit then .ok .null else .error (.unsupportedType t.name)

/-- Clears a cell and then fills it with a host value: what the cell holds afterwards, and the error
if the type is not supported. -/
def trySet (t : HostType) (x : t.Carrier) : Value × Except Error Unit :=
  match ofNative t x with
  | .ok v => (v, .ok ())
  | .error e => (.undefined, .error e)

end Value

end ScriptCell
