import ManagedCode.Ty
import ManagedCode.Text.Quoted

set_option autoImplicit false

/-! # Signatures, fields and methods

What a metadata token can name besides a type. Each has a text, in which nested parts appear
in the order of their declaration.
-/

namespace ManagedCode

/-- A method signature. -/
structure Signature where
  /-- The method takes a receiver in front of its parameters. -/
  hasThis : Bool := false
  /-- The method takes a variable number of further arguments. -/
  vararg : Bool := false
  /-- The declared parameters, without the receiver. -/
  params : List Ty := []
  /-- The type of the result; `void` when there is none. -/
  ret : Ty := .primitive .void
  deriving DecidableEq

namespace Signature

/-- The type of the result, if there is one. -/
def result? (s : Signature) : Option Ty := if s.ret.isVoid then none else some s.ret

/-- The text of a signature. -/
def describe (s : Signature) : String :=
  "Signature \x7b has_this: " ++ Text.boolean s.hasThis ++
  ", vararg: " ++ Text.boolean s.vararg ++
  ", params: " ++ Text.bracketed (s.params.map Ty.describe) ++
  ", ret: " ++ s.ret.describe ++ " \x7d"

end Signature

/-- The attributes of a field that matter here. -/
structure FieldAttributes where
  isStatic : Bool := false
  initOnly : Bool := false
  literal : Bool := false
  deriving DecidableEq

namespace FieldAttributes

/-- Reads attribute bits; bits without a meaning here are dropped. -/
def ofBits (bits : Nat) : FieldAttributes :=
  ⟨bits.testBit 4, bits.testBit 5, bits.testBit 6⟩

/-- The names of the attributes that are set. -/
def describe (a : FieldAttributes) : String :=
  Text.flags [(a.isStatic, "STATIC"), (a.initOnly, "INIT_ONLY"), (a.literal, "LITERAL")]

end FieldAttributes

/-- The attributes of a method that matter here. -/
structure MethodAttributes where
  isStatic : Bool := false
  isFinal : Bool := false
  isVirtual : Bool := false
  isAbstract : Bool := false
  specialName : Bool := false
  runtimeSpecialName : Bool := false
  deriving DecidableEq

namespace MethodAttributes

/-- Reads attribute bits; bits without a meaning here are dropped. -/
def ofBits (bits : Nat) : MethodAttributes :=
  ⟨bits.testBit 4, bits.testBit 5, bits.testBit 6, bits.testBit 10, bits.testBit 11,
   bits.testBit 12⟩

/-- The names of the attributes that are set. -/
def describe (a : MethodAttributes) : String :=
  Text.flags
    [(a.isStatic, "STATIC"), (a.isFinal, "FINAL"), (a.isVirtual, "VIRTUAL"),
     (a.isAbstract, "ABSTRACT"), (a.specialName, "SPECIAL_NAME"),
     (a.runtimeSpecialName, "RT_SPECIAL_NAME")]

end MethodAttributes

/-- A field of a class or value type. -/
structure Field where
  owner : Ty
  name : String
  ty : Ty
  attributes : FieldAttributes := {}
  deriving DecidableEq

namespace Field

/-- The field belongs to the class and not to an object. -/
def isStatic (f : Field) : Bool := f.attributes.isStatic

/-- The text of a field. -/
def describe (f : Field) : String :=
  "FieldRef \x7b owner: " ++ f.owner.describe ++ ", name: " ++ Text.quote f.name ++
  ", ty: " ++ f.ty.describe ++ ", attributes: " ++ f.attributes.describe ++ " \x7d"

end Field

/-- A method of a class or value type. -/
structure Method where
  owner : Ty
  name : String
  signature : Signature
  attributes : MethodAttributes := {}
  deriving DecidableEq

namespace Method

/-- The method belongs to the class and not to an object. -/
def isStatic (m : Method) : Bool := m.attributes.isStatic

/-- The method is chosen by the class of its receiver. -/
def isVirtual (m : Method) : Bool := m.attributes.isVirtual

/-- The method has no code of its own. -/
def isAbstract (m : Method) : Bool := m.attributes.isAbstract

/-- The method initialises a new object: the runtime reserves its name, and it is no static
method. -/
def isConstructor (m : Method) : Bool :=
  m.name == ".ctor" && m.attributes.runtimeSpecialName && !m.isStatic

/-- The text of a method. -/
def describe (m : Method) : String :=
  "MethodRef \x7b owner: " ++ m.owner.describe ++ ", name: " ++ Text.quote m.name ++
  ", signature: " ++ m.signature.describe ++
  ", attributes: " ++ m.attributes.describe ++ " \x7d"

end Method

/-- What a token of unknown kind turns out to name. -/
inductive Entity where
  | type (ty : Ty)
  | field (f : Field)
  | method (m : Method)
  deriving DecidableEq

namespace Entity

/-- The type whose accessibility decides over the entity's. -/
def owner : Entity → Ty
  | .type ty => ty
  | .field f => f.owner
  | .method m => m.owner

/-- The text of an entity. -/
def describe : Entity → String
  | .type ty => "Type(" ++ ty.describe ++ ")"
  | .field f => "Field(" ++ f.describe ++ ")"
  | .method m => "Method(" ++ m.describe ++ ")"

end Entity

end ManagedCode
