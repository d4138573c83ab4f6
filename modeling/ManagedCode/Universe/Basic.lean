import ManagedCode.Member
import ManagedCode.Token

set_option autoImplicit false

/-! # Universes

A universe is what the verifier knows about the world around a method: a table of classes,
and one table for each kind of thing that a token can name. `Universe.core` holds the classes
that the verifier needs by identity; everything else is added to it step by step. Entries are
never removed, so a class id or token keeps its meaning.
-/

namespace ManagedCode

/-- What sort of class an entry of the class table is. -/
inductive ClassKind where
  | reference
  | interface
  | value
  /-- An enumeration, which on the stack is a number of the underlying type. -/
  | enum (underlying : Primitive)
  deriving DecidableEq

/-- An entry of the class table. -/
structure ClassInfo where
  name : String
  kind : ClassKind
  parent : Option ClassId
  /-- The interfaces the class implements by itself, or the interface extends. -/
  interfaces : List ClassId := []
  /-- The method under verification may name the class. -/
  accessible : Bool := true

/-- Classes that the verifier needs by identity. -/
inductive WellKnown where
  | object | string | exception | valueType | typeHandle | fieldHandle | methodHandle
  | argumentHandle
  deriving DecidableEq

namespace WellKnown

/-- Every well-known class. -/
def all : List WellKnown :=
  [.object, .string, .exception, .valueType, .typeHandle, .fieldHandle, .methodHandle,
   .argumentHandle]

/-- The place of a well-known class in every class table. -/
def id : WellKnown → ClassId
  | .object => ⟨0⟩
  | .valueType => ⟨1⟩
  | .string => ⟨2⟩
  | .exception => ⟨3⟩
  | .typeHandle => ⟨4⟩
  | .fieldHandle => ⟨5⟩
  | .methodHandle => ⟨6⟩
  | .argumentHandle => ⟨7⟩

/-- The text of a well-known class. -/
def describe : WellKnown → String
  | .object => "Object"
  | .string => "String"
  | .exception => "Exception"
  | .valueType => "ValueType"
  | .typeHandle => "RuntimeTypeHandle"
  | .fieldHandle => "RuntimeFieldHandle"
  | .methodHandle => "RuntimeMethodHandle"
  | .argumentHandle => "RuntimeArgumentHandle"

end WellKnown

/-- The primitives that have a class of their own when boxed, with the names of the classes.
The classes stand in this order behind the well-known ones. -/
def boxedPrimitives : List (Primitive × String) :=
  [(.boolean, "System.Boolean"), (.char, "System.Char"), (.int8, "System.SByte"),
   (.uint8, "System.Byte"), (.int16, "System.Int16"), (.uint16, "System.UInt16"),
   (.int32, "System.Int32"), (.uint32, "System.UInt32"), (.int64, "System.Int64"),
   (.uint64, "System.UInt64"), (.float32, "System.Single"), (.float64, "System.Double"),
   (.nativeInt, "System.IntPtr"), (.nativeUInt, "System.UIntPtr")]

/-- The class that a boxed primitive becomes; `void` and typed references cannot be boxed. -/
def Primitive.boxed? (p : Primitive) : Option ClassId :=
  (boxedPrimitives.findIdx? (·.1 = p)).map fun i => ⟨WellKnown.all.length + i⟩

/-- A class table with tables for the things that tokens name. -/
structure Universe where
  classes : Array ClassInfo
  types : Array Ty := #[]
  fields : Array Field := #[]
  methods : Array Method := #[]
  signatures : Array Signature := #[]
  strings : Array String := #[]

namespace Universe

/-- The core classes and nothing else. -/
def core : Universe where
  classes :=
    let valueClass (name : String) : ClassInfo := ⟨name, .value, some ⟨1⟩, [], true⟩
    let roots : List ClassInfo :=
      [⟨"System.Object", .reference, none, [], true⟩,
       ⟨"System.ValueType", .reference, some ⟨0⟩, [], true⟩,
       ⟨"System.String", .reference, some ⟨0⟩, [], true⟩,
       ⟨"System.Exception", .reference, some ⟨0⟩, [], true⟩]
    let handles : List String :=
      ["System.RuntimeTypeHandle", "System.RuntimeFieldHandle", "System.RuntimeMethodHandle",
       "System.RuntimeArgumentHandle"]
    (roots ++ handles.map valueClass ++ boxedPrimitives.map fun b => valueClass b.2).toArray

/-! ## Adding classes -/

/-- Appends an entry to the class table. -/
def addClass (u : Universe) (info : ClassInfo) : ClassId × Universe :=
  (⟨u.classes.size⟩, { u with classes := u.classes.push info })

/-- Adds a class that derives from `parent`. -/
def addReference (u : Universe) (name : String) (parent : ClassId) : ClassId × Universe :=
  u.addClass ⟨name, .reference, some parent, [], true⟩

/-- Adds an interface. -/
def addInterface (u : Universe) (name : String) : ClassId × Universe :=
  u.addClass ⟨name, .interface, none, [], true⟩

/-- Adds a structure. -/
def addValue (u : Universe) (name : String) : ClassId × Universe :=
  u.addClass ⟨name, .value, some WellKnown.valueType.id, [], true⟩

/-- Adds an enumeration. -/
def addEnum (u : Universe) (name : String) (underlying : Primitive) : ClassId × Universe :=
  u.addClass ⟨name, .enum underlying, some WellKnown.valueType.id, [], true⟩

/-- Changes an entry of the class table; ids without an entry change nothing. -/
def modifyClass (u : Universe) (id : ClassId) (f : ClassInfo → ClassInfo) : Universe :=
  { u with classes := u.classes.modify id.index f }

/-- Records that a class implements an interface, or that an interface extends another. -/
def addImplementation (u : Universe) (id interface : ClassId) : Universe :=
  u.modifyClass id fun info => { info with interfaces := info.interfaces ++ [interface] }

/-- Shows a class to the method under verification or hides it. -/
def setAccessible (u : Universe) (id : ClassId) (accessible : Bool) : Universe :=
  u.modifyClass id fun info => { info with accessible := accessible }

/-! ## Handing out tokens -/

/-- Registers a type. -/
def addType (u : Universe) (ty : Ty) : Token × Universe :=
  (TokenTable.type.token u.types.size, { u with types := u.types.push ty })

/-- Registers a field. -/
def addField (u : Universe) (field : Field) : Token × Universe :=
  (TokenTable.field.token u.fields.size, { u with fields := u.fields.push field })

/-- Registers a method. -/
def addMethod (u : Universe) (method : Method) : Token × Universe :=
  (TokenTable.method.token u.methods.size, { u with methods := u.methods.push method })

/-- Registers a signature for indirect calls. -/
def addSignature (u : Universe) (signature : Signature) : Token × Universe :=
  (TokenTable.signature.token u.signatures.size,
    { u with signatures := u.signatures.push signature })

/-- Registers a string literal. -/
def addString (u : Universe) (value : String) : Token × Universe :=
  (TokenTable.string.token u.strings.size, { u with strings := u.strings.push value })

/-! ## Resolving tokens -/

/-- The type a token names. -/
def type? (u : Universe) (token : Token) : Option Ty :=
  (TokenTable.type.position? token).bind (u.types[·]?)

/-- The field a token names. -/
def field? (u : Universe) (token : Token) : Option Field :=
  (TokenTable.field.position? token).bind (u.fields[·]?)

/-- The method a token names. -/
def method? (u : Universe) (token : Token) : Option Method :=
  (TokenTable.method.position? token).bind (u.methods[·]?)

/-- The signature a token names. -/
def signature? (u : Universe) (token : Token) : Option Signature :=
  (TokenTable.signature.position? token).bind (u.signatures[·]?)

/-- The token names a string literal. -/
def hasString (u : Universe) (token : Token) : Bool :=
  ((TokenTable.string.position? token).bind (u.strings[·]?)).isSome

/-- What a token names, be it a type, a field or a method. -/
def entity? (u : Universe) (token : Token) : Option Entity :=
  (u.type? token).map .type <|>
  (u.field? token).map .field <|>
  (u.method? token).map .method

end Universe

end ManagedCode
